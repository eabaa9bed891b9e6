import ChordPad.Proofs.Scanner.Overflow

/-! How presses drain away that found no room. While the contacts stay what they are, every pass that
leaves a press behind reports as many others as it can, and none of them comes back. So a press is
left behind no more often than the other presses can fill a pass. -/
namespace ChordPad.Scanner
variable {s : Scanner} {passes : List Pass} {t u row col : Nat} {key : KeyCode}

instance (s : Scanner) (passes : List Pass) (t row col : Nat) :
    Decidable (s.ConfirmedIn passes t row col) :=
  inferInstanceAs (Decidable (_ = true))

/-- The positions with a key that are not pressed before pass `t`, while it finds them closed. -/
def waiting (s : Scanner) (passes : List Pass) (t : Nat) : List (Nat × Nat) :=
  s.layout.positions.filter fun p => (s.layout.key? p.1 p.2).isSome &&
    s.reading passes t p.1 p.2 && !(s.after passes t).isPressed p.1 p.2

/-- Those of them that meet the debounce criterion in pass `t`: confirmed presses that have not been
reported yet. -/
def due (s : Scanner) (passes : List Pass) (t : Nat) : List (Nat × Nat) :=
  (s.waiting passes t).filter fun p => s.ConfirmedIn passes t p.1 p.2

theorem mem_waiting : (row, col) ∈ s.waiting passes t ↔
    (row < s.layout.rows ∧ col < s.layout.cols) ∧ (s.layout.key? row col).isSome = true ∧
      s.reading passes t row col = true ∧ (s.after passes t).isPressed row col = false := by
  simp [waiting, KeyLayout.mem_positions, and_assoc]

theorem mem_due : (row, col) ∈ s.due passes t ↔
    (row, col) ∈ s.waiting passes t ∧ s.ConfirmedIn passes t row col := by
  simp [due]

theorem due_eq_filter :
    s.due passes t = s.layout.positions.filter fun p => p ∈ s.due passes t := by
  conv_lhs => rw [due, waiting, List.filter_filter]
  apply List.filter_congr
  intro p hp
  simp [due, waiting, hp, Bool.and_comm]

theorem dueKey?_slot (ht : t < passes.length) (hrow : row < s.layout.rows)
    (hcol : col < s.layout.cols) :
    dueKey? s.config.debounce passes[t].1 ((s.layout.key? row col).getD KeyCode.noKey,
        (s.after passes t).sighted passes[t].1 passes[t].2 row col) =
      if (row, col) ∈ s.due passes t then s.layout.key? row col else none := by
  rw [dueKey?, KeyLayout.filter_getD_key?, sighted_after ht, Switch.observe_raw, ← timeOf_eq ht]
  cases hkey : s.layout.key? row col with
  | none => simp
  | some key =>
    have hiff : (row, col) ∈ s.due passes t ↔
        s.ConfirmedIn passes t row col ∧ s.reading passes t row col = true := by
      rw [mem_due, mem_waiting, hkey]
      constructor
      · intro h
        exact ⟨h.2, h.1.2.2.1⟩
      · intro h
        obtain ⟨hc, hclosed⟩ := h
        have hne := reading_ne_of_confirmedIn hc hrow hcol
        rw [hclosed] at hne
        exact ⟨⟨⟨hrow, hcol⟩, rfl, hclosed, by simpa using hne.symm⟩, hc⟩
    apply if_congr _ rfl rfl
    rw [hiff, ConfirmedIn, Bool.and_eq_true]

/-- Every pass reports the first presses that are due. -/
theorem reported_eq_take_due (hs : s.Fresh) (ht : t < passes.length) :
    s.reported passes t =
      ((s.due passes t).filterMap fun p => s.layout.key? p.1 p.2).take s.capacity := by
  have hsound := after_sound hs.sound passes t
  rw [reported_eq_pass ht, pass_eq_settle]
  simp only [settle_keys_eq_take, slots_eq_map_positions hsound]
  rw [after_capacity, after_config, after_layout, List.filterMap_map, due_eq_filter,
    List.filterMap_filter]
  congr 1
  apply List.filterMap_congr
  intro p hp
  have hin := KeyLayout.mem_positions.1 hp
  simp only [Function.comp, dueKey?_slot ht hin.1 hin.2, decide_eq_true_eq]

/-- The settled state of a position only ever follows its contact. -/
theorem isPressed_after_succ (hs : s.Fresh) (ht : t < passes.length) (hrow : row < s.layout.rows)
    (hcol : col < s.layout.cols) :
    (s.after passes (t + 1)).isPressed row col = (s.after passes t).isPressed row col ∨
      (s.after passes (t + 1)).isPressed row col = s.reading passes t row col := by
  by_cases hsame : (s.after passes (t + 1)).isPressed row col = (s.after passes t).isPressed row col
  · exact .inl hsame
  · obtain ⟨hc, -⟩ := (isPressed_after_succ_ne_iff hs ht hrow hcol).1 hsame
    have hne := reading_ne_of_confirmedIn hc hrow hcol
    right
    rw [Bool.eq_not_of_ne hsame, Bool.eq_not_of_ne hne]

/-- The keys of a pass are those of the waiting positions that it makes pressed. -/
theorem reported_eq_filterMap_waiting (hs : s.Fresh) (ht : t < passes.length) :
    s.reported passes t =
      ((s.waiting passes t).filter fun p =>
        (s.after passes (t + 1)).isPressed p.1 p.2).filterMap fun p => s.layout.key? p.1 p.2 := by
  rw [reported_eq_risen hs.sound ht, risen, after_layout, waiting, List.filter_filter,
    List.filterMap_filter, List.filterMap_filter]
  apply List.filterMap_congr
  intro p hp
  have hin := KeyLayout.mem_positions.1 hp
  have hstep := isPressed_after_succ hs ht hin.1 hin.2
  cases hkey : s.layout.key? p.1 p.2 with
  | none => simp
  | some key => grind

/-- From pass `t` on no contact changes, and the clock does not go back. -/
structure Steady (s : Scanner) (passes : List Pass) (t : Nat) : Prop where
  reading_eq : ∀ u, t ≤ u → u < passes.length → ∀ row < s.layout.rows, ∀ col < s.layout.cols,
    s.reading passes u row col = s.reading passes t row col
  timeOf_le : ∀ u, t ≤ u → u + 1 < passes.length → timeOf passes u ≤ timeOf passes (u + 1)

namespace Steady

theorem mono (h : s.Steady passes t) (htu : t ≤ u) (hu : u < passes.length) :
    s.Steady passes u := by
  refine ⟨?_, fun v huv => h.timeOf_le v (by omega)⟩
  intro v huv hv row hrow col hcol
  rw [h.reading_eq v (by omega) hv row hrow col hcol, h.reading_eq u htu hu row hrow col hcol]

theorem stays_pressed (hs : s.Fresh) (h : s.Steady passes t) (hrow : row < s.layout.rows)
    (hcol : col < s.layout.cols) (hclosed : s.reading passes t row col = true)
    (hpressed : (s.after passes u).isPressed row col = true) (htu : t ≤ u) {v : Nat} (huv : u ≤ v)
    (hv : v ≤ passes.length) : (s.after passes v).isPressed row col = true := by
  induction v, huv using Nat.le_induction with
  | base => exact hpressed
  | succ v huv ih =>
    have hread := h.reading_eq v (by omega) hv row hrow col hcol
    cases isPressed_after_succ hs hv hrow hcol with
    | inl hsame => rw [hsame, ih (by omega)]
    | inr hfollows => rw [hfollows, hread, hclosed]

/-- A press that is not reported is due again. -/
theorem mem_due_succ (hs : s.Fresh) (h : s.Steady passes t) (hu : t + 1 < passes.length)
    (hkey : s.layout.key? row col = some key) (hdue : (row, col) ∈ s.due passes t)
    (hwait : key ∉ s.reported passes t) : (row, col) ∈ s.due passes (t + 1) := by
  obtain ⟨hwaiting, hc⟩ := mem_due.1 hdue
  obtain ⟨⟨hrow, hcol⟩, hsome, hclosed, hopen⟩ := mem_waiting.1 hwaiting
  have hread : s.reading passes (t + 1) row col = true := by
    rw [h.reading_eq (t + 1) (Nat.le_succ t) hu row hrow col hcol, hclosed]
  have hroom : s.capacity ≤ s.layout.countBefore (s.reported passes t) row col := by
    by_contra hlt
    exact hwait ((mem_reported_iff_confirmedIn hs (by omega) hkey).2 ⟨hopen, hc, by omega⟩)
  have hdeferred : s.Deferred passes t row col key := ⟨by omega, hkey, hopen, hc, hroom⟩
  have hlater : s.ConfirmedIn passes (t + 1) row col := by
    apply hdeferred.confirmedIn hs (Nat.lt_succ_self t) hu
    · intro v htv hvu
      obtain rfl : v = t + 1 := by omega
      exact hread
    · intro v htv hvu
      omega
    · exact h.timeOf_le t (Nat.le_refl t) hu
  have hstill := isPressed_of_unreported hs.sound hkey hopen (Nat.le_succ t) (by omega)
    fun v htv hvu => by
      obtain rfl : v = t := by omega
      exact hwait
  exact mem_due.2 ⟨mem_waiting.2 ⟨⟨hrow, hcol⟩, hsome, hread, hstill⟩, hlater⟩

theorem waiting_succ (hs : s.Fresh) (h : s.Steady passes t) (hu : t + 1 < passes.length) :
    s.waiting passes (t + 1) =
      (s.waiting passes t).filter fun p => !(s.after passes (t + 1)).isPressed p.1 p.2 := by
  have ht : t < passes.length := by omega
  rw [waiting, waiting, List.filter_filter]
  apply List.filter_congr
  intro p hp
  have hin := KeyLayout.mem_positions.1 hp
  have hstep := isPressed_after_succ hs ht hin.1 hin.2
  rw [h.reading_eq (t + 1) (Nat.le_succ t) hu p.1 hin.1 p.2 hin.2]
  grind

/-- What a pass reports, it takes from the positions that were waiting. -/
theorem length_waiting_succ (hs : s.Fresh) (h : s.Steady passes t) (hu : t + 1 < passes.length) :
    (s.waiting passes (t + 1)).length + (s.reported passes t).length =
      (s.waiting passes t).length := by
  have hlength : (s.reported passes t).length =
      ((s.waiting passes t).filter fun p => (s.after passes (t + 1)).isPressed p.1 p.2).length := by
    rw [reported_eq_filterMap_waiting hs (by omega), List.length_filterMap_eq_countP,
      List.countP_eq_length]
    intro p hp
    exact (mem_waiting.1 (List.mem_of_mem_filter hp)).2.1
  rw [h.waiting_succ hs hu, hlength, Nat.add_comm]
  exact (List.length_eq_length_filter_add _).symm

end Steady

/-- Where a press that is due is not reported, a full pass of others is. -/
theorem capacity_lt_length_due (hs : s.Fresh) (ht : t < passes.length)
    (hkey : s.layout.key? row col = some key) (hdue : (row, col) ∈ s.due passes t)
    (hwait : key ∉ s.reported passes t) :
    s.capacity = (s.reported passes t).length ∧ s.capacity < (s.due passes t).length := by
  have hmem : key ∈ (s.due passes t).filterMap fun p => s.layout.key? p.1 p.2 :=
    List.mem_filterMap.2 ⟨(row, col), hdue, hkey⟩
  have hle : ((s.due passes t).filterMap fun p => s.layout.key? p.1 p.2).length ≤
      (s.due passes t).length := List.length_filterMap_le _ _
  have hlt : s.capacity < ((s.due passes t).filterMap fun p => s.layout.key? p.1 p.2).length := by
    by_contra hall
    rw [reported_eq_take_due hs ht, List.take_of_length_le (by omega)] at hwait
    exact hwait hmem
  rw [reported_eq_take_due hs ht, List.length_take]
  omega

theorem length_due_le : (s.due passes t).length ≤ (s.waiting passes t).length :=
  List.length_filter_le _ _

namespace Steady

/-- As long as a press is left behind, every pass takes as many others as it can. -/
theorem waiting_drains (hs : s.Fresh) (h : s.Steady passes t)
    (hkey : s.layout.key? row col = some key) (hdue : (row, col) ∈ s.due passes t) {n : Nat}
    (hn : t + n < passes.length) (hwait : ∀ i < n, key ∉ s.reported passes (t + i)) :
    (row, col) ∈ s.due passes (t + n) ∧
      n * s.capacity + (s.waiting passes (t + n)).length = (s.waiting passes t).length := by
  induction n with
  | zero => exact ⟨hdue, by simp⟩
  | succ n ih =>
    obtain ⟨hstill, hcount⟩ := ih (by omega) fun i hi => hwait i (by omega)
    have hlater := h.mono (Nat.le_add_right t n) (by omega)
    have hleft := hwait n (Nat.lt_succ_self n)
    obtain ⟨hfull, -⟩ := capacity_lt_length_due hs (by omega) hkey hstill hleft
    have hstep := hlater.length_waiting_succ hs hn
    refine ⟨hlater.mem_due_succ hs hn hkey hstill hleft, ?_⟩
    rw [Nat.succ_mul, ← Nat.add_assoc t n 1]
    omega

/-- So the others run out, and the press is reported. -/
theorem exists_reported (hs : s.Fresh) (hroom : 0 < s.capacity) (h : s.Steady passes t)
    (hkey : s.layout.key? row col = some key) (hdue : (row, col) ∈ s.due passes t)
    (hlong : t + ((s.waiting passes t).length - 1) / s.capacity < passes.length) :
    ∃ i ≤ ((s.waiting passes t).length - 1) / s.capacity, key ∈ s.reported passes (t + i) := by
  by_contra hnone
  have hwait (i : Nat) (hi : i ≤ ((s.waiting passes t).length - 1) / s.capacity) :
      key ∉ s.reported passes (t + i) := fun hmem => hnone ⟨i, hi, hmem⟩
  obtain ⟨hstill, hcount⟩ := h.waiting_drains hs hkey hdue hlong fun i hi => hwait i (by omega)
  obtain ⟨-, hmore⟩ := capacity_lt_length_due hs hlong hkey hstill (hwait _ (Nat.le_refl _))
  -- After the last of these passes as many would still be due as a pass can report, and one more.
  have hle := @length_due_le s passes (t + ((s.waiting passes t).length - 1) / s.capacity)
  have hdiv := Nat.lt_mul_div_succ ((s.waiting passes t).length - 1) hroom
  rw [Nat.mul_comm, Nat.succ_mul] at hdiv
  omega

/-- While its contact stays closed, a key is not reported again. -/
theorem reported_again (hs : s.Fresh) (h : s.Steady passes t)
    (hkey : s.layout.key? row col = some key) (hclosed : s.reading passes t row col = true)
    (htu : t ≤ u) {v : Nat} (huv : u < v) (hv : v < passes.length)
    (hmem : key ∈ s.reported passes u) : key ∉ s.reported passes v := by
  intro hagain
  obtain ⟨-, hpressed⟩ := (mem_reported_iff hs.sound (by omega) hkey).1 hmem
  obtain ⟨hopen, -⟩ := (mem_reported_iff hs.sound hv hkey).1 hagain
  have hstill := h.stays_pressed hs (KeyLayout.row_lt_of_key? hs.sound.proper hkey)
    (KeyLayout.key?_eq_some hkey).1 hclosed hpressed (by omega) huv (by omega)
  simp [hopen] at hstill

theorem count_reported (hs : s.Fresh) (h : s.Steady passes t)
    (hkey : s.layout.key? row col = some key) (hclosed : s.reading passes t row col = true)
    (htu : t ≤ u) (hu : u < passes.length) (hmem : key ∈ s.reported passes u) {v : Nat}
    (htv : t ≤ v) (hv : v < passes.length) :
    (s.reported passes v).count key = if v = u then 1 else 0 := by
  have honly : key ∈ s.reported passes v ↔ v = u := by
    constructor
    · intro hagain
      by_contra hne
      cases Nat.lt_or_gt_of_ne hne with
      | inl hvu => exact h.reported_again hs hkey hclosed htv hvu hu hagain hmem
      | inr huv => exact h.reported_again hs hkey hclosed htu huv hv hmem hagain
    · intro heq
      rw [heq]
      exact hmem
  simp only [(nodup_reported hs.sound hv).count, honly]

end Steady

/-- What reports nothing needs no room. -/
theorem isPressed_of_confirmedIn (hs : s.Fresh) (ht : t < passes.length)
    (hrow : row < s.layout.rows) (hcol : col < s.layout.cols) (hc : s.ConfirmedIn passes t row col)
    (hfree : (s.after passes t).isPressed row col = true ∨ s.layout.key? row col = none) :
    (s.after passes (t + 1)).isPressed row col = s.reading passes t row col := by
  have hchanges : (s.after passes (t + 1)).isPressed row col ≠
      (s.after passes t).isPressed row col := by
    refine (isPressed_after_succ_ne_iff hs ht hrow hcol).2 ⟨hc, ?_⟩
    intro hopen hsome
    cases hfree with
    | inl hpressed => simp [hopen] at hpressed
    | inr hnone => exact absurd hnone hsome
  exact (isPressed_after_succ hs ht hrow hcol).resolve_left hchanges

/-- Every pass reports the first presses that are due, as many as it can, and lets what is no press
of a key follow its contact at once. While no contact changes, what is due is reported exactly once,
and soon enough for `(P - 1) / N` full passes of others to come before it, where `P` positions were
waiting and a pass can report `N` keys. -/
theorem overflow_drains (hs : s.Fresh) (hroom : 0 < s.capacity) (h : s.Steady passes t) :
    (∀ u < passes.length, s.reported passes u =
      ((s.due passes u).filterMap fun p => s.layout.key? p.1 p.2).take s.capacity) ∧
    (∀ u < passes.length, ∀ row < s.layout.rows, ∀ col < s.layout.cols,
      s.ConfirmedIn passes u row col →
      (s.after passes u).isPressed row col = true ∨ s.layout.key? row col = none →
        (s.after passes (u + 1)).isPressed row col = s.reading passes u row col) ∧
    ∀ row col key, (row, col) ∈ s.due passes t → s.layout.key? row col = some key →
      t + ((s.waiting passes t).length - 1) / s.capacity < passes.length →
        ∃ u, t ≤ u ∧ u ≤ t + ((s.waiting passes t).length - 1) / s.capacity ∧
          ∀ v, t ≤ v → v < passes.length →
            (s.reported passes v).count key = if v = u then 1 else 0 := by
  refine ⟨fun u hu => reported_eq_take_due hs hu, ?_, ?_⟩
  · intro u hu row hrow col hcol
    exact isPressed_of_confirmedIn hs hu hrow hcol
  · intro row col key hdue hkey hlong
    have hclosed := (mem_waiting.1 (mem_due.1 hdue).1).2.2.1
    obtain ⟨i, hi, hmem⟩ := h.exists_reported hs hroom hkey hdue hlong
    refine ⟨t + i, by omega, by omega, ?_⟩
    intro v htv hv
    exact h.count_reported hs hkey hclosed (by omega) (by omega) hmem htv hv

/-- Room for one key, and three keys held for five ticks. The two that are due in pass 2 come in
passes 2 and 4, as the first key of the matrix, which is due only in pass 3, goes before the other. -/
theorem overflow_drains_twoByTwo :
    let s := twoByTwo (.elapsed 5) 1
    let passes := [Pass.touching 0 [(0, 1), (1, 0)], Pass.touching 3 [(0, 0), (0, 1), (1, 0)],
      Pass.touching 5 [(0, 0), (0, 1), (1, 0)], Pass.touching 8 [(0, 0), (0, 1), (1, 0)],
      Pass.touching 9 [(0, 0), (0, 1), (1, 0)]]
    s.Fresh ∧ 0 < s.capacity ∧ s.Steady passes 2 ∧ s.due passes 2 = [(0, 1), (1, 0)] ∧
      (s.waiting passes 2).length = 3 ∧
      (s.run passes).2 = [[], [], [0x05], [0x04], [0x06]] ∧
      ∃ u, 2 ≤ u ∧ u ≤ 4 ∧ ∀ v, 2 ≤ v → v < passes.length →
        (s.reported passes v).count 0x06 = if v = u then 1 else 0 := by
  intro s passes
  have hsteady : s.Steady passes 2 := by
    refine ⟨by decide, ?_⟩
    intro u htu hu
    have hlast : u + 1 < 5 := hu
    obtain rfl | rfl : u = 2 ∨ u = 3 := by omega
    · decide
    · decide
  have hbound : 2 + ((s.waiting passes 2).length - 1) / s.capacity = 4 := by decide
  have hdrains := (overflow_drains (fresh_twoByTwo (.elapsed 5) 1) (by decide) hsteady).2.2 1 0 0x06
    (by decide) (by decide) (by decide)
  rw [hbound] at hdrains
  exact ⟨fresh_twoByTwo _ _, by decide, hsteady, by decide, by decide, by decide, hdrains⟩

end ChordPad.Scanner
