import ChordPad.Usb.ReportWriter
import ChordPad.Proofs.Framing

/-! Reports written to an endpoint: what is handed to it when it may refuse packets, and what a host
makes of the packets when it takes them all. -/
namespace ChordPad
variable {ε : Type} [Endpoint ε] {limit size : Nat}

namespace Endpoint

/-- Every packet is taken or refused at once, whatever was handed over before; packets have room for
`size` bytes. -/
def Answers (size : Nat) (e : ε) : Prop :=
  ∀ packets : List Packet,
    let after := packets.foldl (fun e packet => (Endpoint.write e packet).1) e
    Endpoint.packetSize after = size ∧ ∀ packet, (Endpoint.write after packet).2 ≠ .full

/-- The endpoint takes every packet, of up to `size` bytes each, whatever it took before. -/
def TakesAll (size : Nat) (e : ε) : Prop :=
  ∀ packets : List Packet,
    let after := packets.foldl (fun e packet => (Endpoint.write e packet).1) e
    Endpoint.packetSize after = size ∧ ∀ packet, (Endpoint.write after packet).2 = .taken

variable {e : ε}

theorem TakesAll.answers (h : TakesAll size e) : Answers size e := by
  intro packets
  refine ⟨(h packets).1, ?_⟩
  intro packet hfull
  rw [(h packets).2 packet] at hfull
  cases hfull

theorem Answers.packetSize_eq (h : Answers size e) : Endpoint.packetSize e = size := (h []).1

theorem TakesAll.packetSize_eq (h : TakesAll size e) : Endpoint.packetSize e = size :=
  h.answers.packetSize_eq

theorem Answers.write (h : Answers size e) (packet : Packet) :
    (Endpoint.write e packet).2 ≠ .full ∧ Answers size (Endpoint.write e packet).1 :=
  ⟨(h []).2 packet, fun packets => h (packet :: packets)⟩

theorem TakesAll.write (h : TakesAll size e) (packet : Packet) :
    ∃ next : ε, Endpoint.write e packet = (next, .taken) ∧ TakesAll size next :=
  ⟨(Endpoint.write e packet).1, Prod.ext rfl ((h []).2 packet), fun packets => h (packet :: packets)⟩

end Endpoint

theorem Scripted.takesAll (size : Nat) :
    Endpoint.TakesAll size ({ packetSize := size } : Scripted) := by
  intro packets
  induction packets with
  | nil => exact ⟨rfl, fun _ => rfl⟩
  | cons packet packets ih => exact ih

theorem Scripted.answers (size : Nat) {results : List PacketResult} (h : .full ∉ results) :
    Endpoint.Answers size ({ packetSize := size, results } : Scripted) := by
  intro packets
  induction packets generalizing results with
  | nil =>
    refine ⟨rfl, ?_⟩
    intro packet
    cases results with
    | nil => simp [Endpoint.write]
    | cons result results =>
      have hne : result ≠ .full := by
        rintro rfl
        exact h List.mem_cons_self
      simpa [Endpoint.write] using hne
  | cons packet packets ih => exact ih fun hmem => h (List.mem_of_mem_drop hmem)

namespace ReportWriter

/-- Nothing of the report is left to be written. -/
def Outcome.IsOver : Outcome → Prop
  | .done => True
  | .failed _ => True
  | .waiting _ => False
  | .noPacketSize => False

theorem map_packet_writePackets_prefix (e : ε) (packets : List Packet) :
    (writePackets e packets).2.1.map (·.packet) <+: packets := by
  induction packets generalizing e with
  | nil => exact List.nil_prefix
  | cons packet packets ih =>
    rw [writePackets]
    split
    · rename_i next _
      exact List.cons_prefix_cons.2 ⟨rfl, ih next⟩
    · exact List.prefix_append [packet] packets
    · exact List.nil_prefix

theorem writePackets_of_answers {e : ε} (h : Endpoint.Answers size e) (packets : List Packet) :
    (writePackets e packets).2.2.IsOver ∧ Endpoint.Answers size (writePackets e packets).1 := by
  induction packets generalizing e with
  | nil => exact ⟨trivial, h⟩
  | cons packet packets ih =>
    obtain ⟨hnot, hnext⟩ := h.write packet
    rw [writePackets]
    split
    · rename_i hwrite
      rw [hwrite] at hnext
      exact ih hnext
    · rename_i hwrite
      rw [hwrite] at hnext
      exact ⟨trivial, hnext⟩
    · rename_i hwrite
      exact absurd (congrArg (·.2) hwrite) hnot

theorem writePackets_of_takesAll {e : ε} (h : Endpoint.TakesAll size e)
    (packets : List Packet) :
    ∃ next : ε, writePackets e packets = (next, packets.map (⟨·, true⟩), .done) ∧
      Endpoint.TakesAll size next := by
  induction packets generalizing e with
  | nil => exact ⟨e, rfl, h⟩
  | cons packet packets ih =>
    obtain ⟨next, hwrite, hnext⟩ := h.write packet
    obtain ⟨last, hlast, htakes⟩ := ih hnext
    exact ⟨last, by simp [writePackets, hwrite, hlast], htakes⟩

/-- A report that is short enough is cut into its packets. -/
theorem write_eq (hs : 0 < size) {e : ε} (h : Endpoint.packetSize e = size) {report : List UInt8}
    (hreport : report.length ≤ limit) :
    write limit e report = writePackets e (Framing.packets limit size report) := by
  rw [write, if_neg (Nat.not_lt.2 hreport), h, if_neg (Nat.ne_of_gt hs)]

theorem write_of_answers (hs : 0 < size) {e : ε} (h : Endpoint.Answers size e)
    (report : List UInt8) :
    (write limit e report).2.2.IsOver ∧ Endpoint.Answers size (write limit e report).1 := by
  by_cases hreport : report.length ≤ limit
  · rw [write_eq hs h.packetSize_eq hreport]
    exact writePackets_of_answers h _
  · rw [write, if_pos (Nat.lt_of_not_le hreport)]
    exact ⟨trivial, h⟩

theorem write_of_takesAll (hs : 0 < size) {e : ε} (h : Endpoint.TakesAll size e)
    {report : List UInt8} (hreport : report.length ≤ limit) :
    ∃ next : ε, write limit e report =
        (next, (Framing.packets limit size report).map (⟨·, true⟩), .done) ∧
      Endpoint.TakesAll size next := by
  rw [write_eq hs h.packetSize_eq hreport]
  exact writePackets_of_takesAll h _

theorem attempts_ne_nil (hs : 0 < size) {e : ε} (h : Endpoint.Answers size e) {report : List UInt8}
    (hne : report ≠ []) (hreport : report.length ≤ limit) : (write limit e report).2.1 ≠ [] := by
  cases report with
  | nil => exact absurd rfl hne
  | cons byte bytes =>
    have hfirst := (h.write (byte :: bytes.take (size - 1))).1
    rw [write_eq hs h.packetSize_eq hreport, Framing.packets, Framing.chunks, List.cons_append,
      writePackets]
    split
    · simp
    · simp
    · rename_i hwrite
      exact absurd (congrArg (·.2) hwrite) hfirst

theorem map_packet_write_prefix (hs : 0 < size) {e : ε} (h : Endpoint.packetSize e = size)
    (report : List UInt8) :
    (write limit e report).2.1.map (·.packet) <+: Framing.packets limit size report := by
  by_cases hreport : report.length ≤ limit
  · rw [write_eq hs h hreport]
    exact map_packet_writePackets_prefix e _
  · rw [write, if_pos (Nat.lt_of_not_le hreport)]
    exact List.nil_prefix

/-- Writes reports one after another, whatever becomes of the earlier ones. -/
def writeAll (limit : Nat) (e : ε) : List (List UInt8) → ε × List (List Attempt × Outcome)
  | [] => (e, [])
  | report :: rest =>
    let (e, written) := write limit e report
    let (e, later) := writeAll limit e rest
    (e, written :: later)

theorem writeAll_of_takesAll (hs : 0 < size) {e : ε} (h : Endpoint.TakesAll size e)
    {reports : List (List UInt8)} (hreports : ∀ report ∈ reports, report.length ≤ limit) :
    (writeAll limit e reports).2 =
      reports.map fun report => ((Framing.packets limit size report).map (⟨·, true⟩), .done) := by
  induction reports generalizing e with
  | nil => rfl
  | cons report reports ih =>
    obtain ⟨next, hwrite, hnext⟩ := write_of_takesAll hs h (hreports report List.mem_cons_self)
    have hrest := ih hnext fun r hr => hreports r (List.mem_cons_of_mem report hr)
    rw [writeAll, hwrite, List.map_cons, ← hrest]

/-- The packets that the endpoint took. -/
def taken (attempts : List Attempt) : List Packet := (attempts.filter (·.taken)).map (·.packet)

theorem taken_append (xs ys : List Attempt) : taken (xs ++ ys) = taken xs ++ taken ys := by
  simp [taken]

theorem taken_map (packets : List Packet) : taken (packets.map (⟨·, true⟩)) = packets := by
  induction packets with
  | nil => rfl
  | cons packet packets ih => exact congrArg (packet :: ·) ih

/-- Reports of up to `limit` bytes that are written over an endpoint which takes every packet all go
through, and a host gets exactly these reports out of the packets, with nothing left over. All
packets of a report but the last one are full. -/
theorem join_written (hlimit : 0 < limit) (hs : 0 < size) {e : ε} (h : Endpoint.TakesAll size e)
    {reports : List (List UInt8)} (hreports : ∀ report ∈ reports, report.length ≤ limit) :
    let written := (writeAll limit e reports).2
    written.map (·.2) = reports.map (fun _ => .done) ∧
    Framing.join limit size [] (written.flatMap fun w => taken w.1) = (reports, []) ∧
    ∀ w ∈ written, (∀ a ∈ w.1, a.packet.length ≤ size) ∧
      ∀ a ∈ w.1.dropLast, a.packet.length = size := by
  intro written
  have hwritten : written = reports.map fun report =>
      ((Framing.packets limit size report).map (⟨·, true⟩), .done) :=
    writeAll_of_takesAll hs h hreports
  rw [hwritten]
  refine ⟨?_, ?_, ?_⟩
  · rw [List.map_map]
    rfl
  · rw [List.flatMap_map]
    simp only [taken_map]
    exact Framing.join_flatMap_packets hs hlimit hreports
  · intro w hw
    obtain ⟨report, -, rfl⟩ := List.mem_map.1 hw
    constructor
    · intro a ha
      obtain ⟨packet, hpacket, rfl⟩ := List.mem_map.1 ha
      exact Framing.length_le_of_mem_packets hs hpacket
    · intro a ha
      rw [← List.map_dropLast] at ha
      obtain ⟨packet, hpacket, rfl⟩ := List.mem_map.1 ha
      exact Framing.length_eq_of_mem_dropLast_packets hs hpacket

/-- Packets of two bytes and reports of up to four: no byte at all, one packet and an empty one, the
full length, and a short packet at the end. -/
theorem join_written_four :
    let reports : List (List UInt8) := [[], [1, 2], [3, 4, 5, 6], [7, 8, 9], []]
    let e : Scripted := { packetSize := 2 }
    let written := (writeAll 4 e reports).2
    0 < 4 ∧ 0 < 2 ∧ Endpoint.TakesAll 2 e ∧ (∀ report ∈ reports, report.length ≤ 4) ∧
      written.flatMap (fun w => taken w.1) =
        [[], [1, 2], [], [3, 4], [5, 6], [7, 8], [9], []] ∧
      Framing.join 4 2 [] (written.flatMap fun w => taken w.1) = (reports, []) := by
  intro reports e written
  have hreports : ∀ report ∈ reports, report.length ≤ 4 := by decide
  have h := join_written (by decide) (by decide) (Scripted.takesAll 2) hreports
  exact ⟨by decide, by decide, Scripted.takesAll 2, hreports, by decide +kernel, h.2.1⟩

end ReportWriter
end ChordPad
