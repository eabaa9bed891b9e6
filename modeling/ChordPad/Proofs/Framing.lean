import ChordPad.Usb.Framing

/-! The packets of a report bring the host exactly that report, whatever comes after them. -/
namespace ChordPad.Framing
variable {limit size : Nat}

theorem join_append (part : List UInt8) (xs ys : List Packet) :
    let first := join limit size part xs
    let second := join limit size first.2 ys
    join limit size part (xs ++ ys) = (first.1 ++ second.1, second.2) := by
  induction xs generalizing part with
  | nil => rfl
  | cons packet xs ih =>
    rw [List.cons_append, join, join]
    split
    · simp [ih]
    · exact ih _

/-- No byte gets lost on the way and none is added. -/
theorem flatten_join (part : List UInt8) (xs : List Packet) :
    (join limit size part xs).1.flatten ++ (join limit size part xs).2 = part ++ xs.flatten := by
  induction xs generalizing part with
  | nil => simp [join]
  | cons packet xs ih =>
    rw [join]
    split
    · simp [ih]
    · simp [ih]

/-- A short packet ends a report, whatever came before it. -/
theorem join_concat_short {packet : Packet} (h : packet.length < size) (part : List UInt8)
    (xs : List Packet) : (join limit size part (xs ++ [packet])).2 = [] := by
  rw [join_append]
  simp [join, h]

/-- Full pieces leave the host waiting for more, until the report has its full length or a piece is
short. -/
theorem join_chunks_append (hs : 0 < size) (part xs : List UInt8) (rest : List Packet)
    (hlimit : part.length + xs.length ≤ limit) :
    join limit size part (chunks size xs ++ rest) =
      if xs.length % size = 0 ∧ (xs = [] ∨ part.length + xs.length < limit) then
        join limit size (part ++ xs) rest
      else ((part ++ xs) :: (join limit size [] rest).1, (join limit size [] rest).2) := by
  fun_induction chunks size xs generalizing part with
  | case1 => simp
  | case2 x xs ih =>
    rcases Nat.lt_or_ge (size - 1) xs.length with hlong | hshort
    · -- a full piece, and more to come
      have hpiece : (x :: xs.take (size - 1)).length = size := by
        simp only [List.length_cons, List.length_take]; omega
      have hsplit : x :: xs = (x :: xs.take (size - 1)) ++ xs.drop (size - 1) := by simp
      have hdrop : xs.drop (size - 1) ≠ [] := by
        rw [Ne, List.drop_eq_nil_iff]; omega
      have hlength : (x :: xs).length = size + (xs.drop (size - 1)).length := by
        simp only [List.length_cons, List.length_drop]; omega
      have hmod : (x :: xs).length % size = (xs.drop (size - 1)).length % size := by
        rw [hlength, Nat.add_mod_left]
      have hdroplen := List.length_pos_iff.2 hdrop
      have hwait : ¬ ((x :: xs.take (size - 1)).length < size ∨
          limit ≤ (part ++ (x :: xs.take (size - 1))).length) := by
        rw [List.length_append, hpiece]; omega
      rw [List.cons_append, join, if_neg hwait,
        ih _ (by rw [List.length_append, hpiece]; omega), List.append_assoc, ← hsplit, hmod,
        List.length_append, hpiece, hlength, Nat.add_assoc]
      simp only [hdrop, false_or, List.cons_ne_nil]
    · -- the last piece
      have htake : xs.take (size - 1) = xs := List.take_of_length_le hshort
      have hdrop : xs.drop (size - 1) = [] := List.drop_eq_nil_iff.2 hshort
      have hrest : chunks size ([] : List UInt8) = [] := by rw [chunks]
      rw [htake, hdrop, hrest, List.cons_append, List.nil_append, join]
      have hle : (x :: xs).length ≤ size := by simp only [List.length_cons]; omega
      rcases Nat.lt_or_eq_of_le hle with hlt | heq
      · have hmod : (x :: xs).length % size ≠ 0 := by
          rw [Nat.mod_eq_of_lt hlt]; simp
        rw [if_pos (Or.inl hlt), if_neg (fun h => hmod h.1)]
      · have hmod : (x :: xs).length % size = 0 := by rw [heq, Nat.mod_self]
        rcases Nat.lt_or_ge (part.length + (x :: xs).length) limit with hopen | hfull
        · rw [if_neg (by rw [List.length_append]; omega), if_pos ⟨hmod, Or.inr hopen⟩]
        · rw [if_pos (Or.inr (by rw [List.length_append]; exact hfull)),
            if_neg (fun h => h.2.elim (List.cons_ne_nil x xs) (by omega))]

theorem join_packets_append (hs : 0 < size) (hlimit : 0 < limit) {report : List UInt8}
    (hreport : report.length ≤ limit) (rest : List Packet) :
    join limit size [] (packets limit size report ++ rest) =
      (report :: (join limit size [] rest).1, (join limit size [] rest).2) := by
  rw [packets, List.append_assoc,
    join_chunks_append hs [] report _ (by simpa using hreport), List.nil_append, List.length_nil,
    Nat.zero_add]
  by_cases hclose : report.length < limit ∧ report.length % size = 0
  · rw [if_pos hclose, if_pos ⟨hclose.2, Or.inr hclose.1⟩, List.singleton_append, join,
      if_pos (Or.inl (by rw [List.length_nil]; exact hs)), List.append_nil]
  · have hnot : ¬ (report.length % size = 0 ∧ (report = [] ∨ report.length < limit)) := by
      rintro ⟨hmod, rfl | hlt⟩
      · exact hclose ⟨hlimit, hmod⟩
      · exact hclose ⟨hlt, hmod⟩
    rw [if_neg hclose, if_neg hnot, List.nil_append]

/-- A host takes exactly the reports that were sent out of their packets. -/
theorem join_flatMap_packets (hs : 0 < size) (hlimit : 0 < limit) {reports : List (List UInt8)}
    (hreports : ∀ report ∈ reports, report.length ≤ limit) :
    join limit size [] (reports.flatMap (packets limit size)) = (reports, []) := by
  induction reports with
  | nil => rfl
  | cons report reports ih =>
    rw [List.flatMap_cons, join_packets_append hs hlimit (hreports report (by simp)),
      ih fun r hr => hreports r (by simp [hr])]

theorem length_eq_of_mem_chunks (hs : 0 < size) {xs c : List UInt8} (hmod : xs.length % size = 0)
    (h : c ∈ chunks size xs) : c.length = size := by
  fun_induction chunks size xs with
  | case1 => simp at h
  | case2 x xs ih =>
    have hlong : size ≤ (x :: xs).length :=
      Nat.le_of_dvd (Nat.succ_pos _) (Nat.dvd_of_mod_eq_zero hmod)
    rw [List.length_cons] at hlong hmod
    rcases List.mem_cons.1 h with rfl | h
    · simp only [List.length_cons, List.length_take]
      omega
    · apply ih _ h
      have hrest : (xs.drop (size - 1)).length = xs.length + 1 - size := by
        rw [List.length_drop]
        omega
      rw [hrest, ← Nat.mod_eq_sub_mod hlong, hmod]

theorem length_eq_of_mem_dropLast_chunks (hs : 0 < size) {xs c : List UInt8}
    (h : c ∈ (chunks size xs).dropLast) : c.length = size := by
  fun_induction chunks size xs with
  | case1 => simp at h
  | case2 x xs ih =>
    by_cases hmore : xs.drop (size - 1) = []
    · rw [hmore, chunks] at h
      simp at h
    · have hlong : size - 1 < xs.length := by simpa [List.drop_eq_nil_iff] using hmore
      have hchunks : chunks size (xs.drop (size - 1)) ≠ [] := by
        intro hnil
        have hflat := flatten_chunks size (xs.drop (size - 1))
        rw [hnil] at hflat
        exact hmore hflat.symm
      rw [List.dropLast_cons_of_ne_nil hchunks] at h
      rcases List.mem_cons.1 h with rfl | h
      · simp only [List.length_cons, List.length_take]
        omega
      · exact ih h

theorem length_le_of_mem_packets (hs : 0 < size) {report : List UInt8} {packet : Packet}
    (h : packet ∈ packets limit size report) : packet.length ≤ size := by
  rw [packets, List.mem_append] at h
  rcases h with h | h
  · exact length_le_of_mem_chunks hs h
  · split at h
    · obtain rfl := List.mem_singleton.1 h
      exact Nat.zero_le size
    · simp at h

theorem length_eq_of_mem_dropLast_packets (hs : 0 < size) {report : List UInt8} {packet : Packet}
    (h : packet ∈ (packets limit size report).dropLast) : packet.length = size := by
  rw [packets] at h
  split at h
  · rename_i hclose
    rw [List.dropLast_concat] at h
    exact length_eq_of_mem_chunks hs hclose.2 h
  · rw [List.append_nil] at h
    exact length_eq_of_mem_dropLast_chunks hs h

theorem chunks_eq_singleton {xs : List UInt8} (hne : xs ≠ []) (h : xs.length ≤ size) :
    chunks size xs = [xs] := by
  cases xs with
  | nil => exact absurd rfl hne
  | cons x xs =>
    rw [List.length_cons] at h
    have hrest : chunks size ([] : List UInt8) = [] := by rw [chunks]
    rw [chunks, List.take_of_length_le (by omega), List.drop_eq_nil_iff.2 (by omega), hrest]

/-- The last packet of a report is short unless packets of the full size make up the report. -/
theorem exists_packets_eq_concat (hs : 0 < size) {report : List UInt8}
    (hmod : report.length % size ≠ 0) :
    ∃ init last, packets limit size report = init ++ [last] ∧ last.length < size := by
  have hne : packets limit size report ≠ [] := by
    intro hnil
    have hflat := flatten_packets limit size report
    rw [hnil] at hflat
    rw [← hflat] at hmod
    exact hmod (Nat.zero_mod size)
  have hsplit := List.dropLast_concat_getLast hne
  refine ⟨_, _, hsplit.symm, Nat.lt_of_not_le fun hlong => hmod ?_⟩
  have hfull : ∀ packet ∈ packets limit size report, packet.length = size := by
    intro packet hmem
    rw [← hsplit] at hmem
    rcases List.mem_append.1 hmem with hmem | hmem
    · exact length_eq_of_mem_dropLast_packets hs hmem
    · obtain rfl := List.mem_singleton.1 hmem
      exact Nat.le_antisymm (length_le_of_mem_packets hs (List.getLast_mem hne)) hlong
  have hlength : report.length = (packets limit size report).length * size := by
    rw [← flatten_packets limit size report, List.length_flatten, List.map_congr_left hfull,
      List.map_const', List.sum_replicate_nat, flatten_packets]
  rw [hlength, Nat.mul_mod_left]

end ChordPad.Framing
