import ChordPad.Usb.Endpoint

/-! Reports as rows of packets. A report ends with the first packet that is shorter than the others
may be, or when it has its full length; a report that is short of that length and fills its packets
exactly is ended by an empty packet. -/
namespace ChordPad.Framing
variable {α : Type}

/-- The list cut into pieces of `size` members, where `size` is positive; the last one may be
shorter. -/
def chunks (size : Nat) : List α → List (List α)
  | [] => []
  | x :: xs => (x :: xs.take (size - 1)) :: chunks size (xs.drop (size - 1))
termination_by xs => xs.length
decreasing_by simp only [List.length_drop, List.length_cons]; omega

theorem flatten_chunks (size : Nat) (xs : List α) : (chunks size xs).flatten = xs := by
  fun_induction chunks size xs with
  | case1 => rfl
  | case2 x xs ih => simp [ih]

theorem length_le_of_mem_chunks {size : Nat} (hs : 0 < size) {xs c : List α}
    (h : c ∈ chunks size xs) : c.length ≤ size := by
  fun_induction chunks size xs with
  | case1 => simp at h
  | case2 x xs ih =>
    rcases List.mem_cons.1 h with rfl | h
    · simp only [List.length_cons, List.length_take]; omega
    · exact ih h

/-- The packets of a report that may have `limit` bytes. -/
def packets (limit packetSize : Nat) (report : List UInt8) : List Packet :=
  chunks packetSize report ++
    if report.length < limit ∧ report.length % packetSize = 0 then [[]] else []

theorem flatten_packets (limit packetSize : Nat) (report : List UInt8) :
    (packets limit packetSize report).flatten = report := by
  unfold packets
  split <;> simp [flatten_chunks]

/-- Joins packets into reports. `part` is what has come of the present one. Returns the reports and
the part that is left over. -/
def join (limit packetSize : Nat) : (part : List UInt8) → List Packet → List (List UInt8) × List UInt8
  | part, [] => ([], part)
  | part, packet :: rest =>
    let whole := part ++ packet
    if packet.length < packetSize ∨ limit ≤ whole.length then
      let (reports, left) := join limit packetSize [] rest
      (whole :: reports, left)
    else join limit packetSize whole rest

end ChordPad.Framing
