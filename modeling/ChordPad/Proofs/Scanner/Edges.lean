import Mathlib.Data.List.Basic
import ChordPad.Proofs.Scanner.Passes

/-! What a scanner reports are the rising edges of its settled states: all of them at positions with
a key, row after row, and nothing else. -/
namespace ChordPad.Scanner

theorem mem_risen {earlier later : Scanner} {row col : Nat} :
    (row, col) ∈ risen earlier later ↔ (row < later.layout.rows ∧ col < later.layout.cols) ∧
      earlier.isPressed row col = false ∧ later.isPressed row col = true := by
  simp [risen, KeyLayout.mem_positions]

theorem raw_ne_pressed_of_mem_slots {s : Scanner} (h : s.Sound) {now : Nat}
    {closed : Nat → Nat → Bool} {slot : KeyCode × Switch} (hslot : slot ∈ s.slots now closed)
    (hc : slot.2.isConfirmed s.config.debounce now = true) : slot.2.raw ≠ slot.2.pressed := by
  obtain ⟨i, hi, hget⟩ := List.mem_iff_getElem.1 (List.of_mem_zip hslot).2
  have hs : i < s.switches.length := by
    rw [h.length_switches, ← length_observe h now closed]; exact hi
  rw [observe_getElem h now closed hi hs] at hget
  rw [← hget] at hc ⊢
  rw [Switch.observe_raw, Switch.observe_pressed]
  exact Switch.ne_of_isConfirmed_observe hc

theorem pressedKey?_slot {s : Scanner} (now : Nat) (closed : Nat → Nat → Bool) {row col : Nat}
    (hrow : row < s.layout.rows) (hcol : col < s.layout.cols) :
    pressedKey? (((s.layout.key? row col).getD KeyCode.noKey, s.sighted now closed row col),
      (s.pass now closed).1.switchAt row col) =
      if !s.isPressed row col && (s.pass now closed).1.isPressed row col then
        s.layout.key? row col else none := by
  rw [pressedKey?, KeyLayout.filter_getD_key?, isPressed_eq hrow hcol,
    isPressed_eq (s := (s.pass now closed).1) hrow hcol, sighted, Switch.observe_pressed]

/-- The keys of one pass are those of the positions that it makes pressed. -/
theorem pass_keys_eq_risen {s : Scanner} (h : s.Sound) (now : Nat) (closed : Nat → Nat → Bool) :
    (s.pass now closed).2 =
      (risen s (s.pass now closed).1).filterMap fun p => s.layout.key? p.1 p.2 := by
  have hzip : (s.slots now closed).zip (s.pass now closed).1.switches =
      s.layout.positions.map fun p =>
        (((s.layout.key? p.1 p.2).getD KeyCode.noKey, s.sighted now closed p.1 p.2),
          (s.pass now closed).1.switchAt p.1 p.2) := by
    rw [slots_eq_map_positions h, switches_eq_map_positions (h.pass now closed), pass_layout,
      List.zip_map']
  calc
    (s.pass now closed).2
        = ((s.slots now closed).zip (s.pass now closed).1.switches).filterMap pressedKey? :=
          settle_keys_eq_filterMap _ _ s.capacity fun slot hslot => raw_ne_pressed_of_mem_slots h hslot
    _ = s.layout.positions.filterMap fun p =>
          if !s.isPressed p.1 p.2 && (s.pass now closed).1.isPressed p.1 p.2 then
            s.layout.key? p.1 p.2 else none := by
          rw [hzip, List.filterMap_map]
          apply List.filterMap_congr
          intro p hp
          have hin := KeyLayout.mem_positions.1 hp
          exact pressedKey?_slot now closed hin.1 hin.2
    _ = (risen s (s.pass now closed).1).filterMap fun p => s.layout.key? p.1 p.2 := by
          rw [risen, List.filterMap_filter, pass_layout]

theorem nodup_pass_keys {s : Scanner} (h : s.Sound) (now : Nat) (closed : Nat → Nat → Bool) :
    (s.pass now closed).2.Nodup := by
  have hsub := settle_keys_sublist s.config.debounce now s.capacity
    (s.slots now closed)
  rw [map_fst_slots h] at hsub
  exact hsub.nodup h.proper.nodup_keys

theorem reported_eq_risen {s : Scanner} (h : s.Sound) {passes : List Pass} {t : Nat}
    (ht : t < passes.length) :
    s.reported passes t = (risen (s.after passes t) (s.after passes (t + 1))).filterMap
      fun p => s.layout.key? p.1 p.2 := by
  rw [reported_eq_pass ht, after_succ ht, pass_keys_eq_risen (after_sound h passes t),
    after_layout]

theorem nodup_reported {s : Scanner} (h : s.Sound) {passes : List Pass} {t : Nat}
    (ht : t < passes.length) : (s.reported passes t).Nodup := by
  rw [reported_eq_pass ht]
  exact nodup_pass_keys (after_sound h passes t) _ _

theorem exists_of_mem_reported {s : Scanner} (h : s.Sound) {passes : List Pass} {t : Nat}
    (ht : t < passes.length) {key : KeyCode} (hkey : key ∈ s.reported passes t) :
    ∃ row col, s.layout.key? row col = some key ∧
      (s.after passes t).isPressed row col = false ∧
      (s.after passes (t + 1)).isPressed row col = true := by
  rw [reported_eq_risen h ht] at hkey
  obtain ⟨⟨row, col⟩, hp, hkey⟩ := List.mem_filterMap.1 hkey
  exact ⟨row, col, hkey, (mem_risen.1 hp).2⟩

theorem mem_reported_iff {s : Scanner} (h : s.Sound) {passes : List Pass} {t : Nat}
    (ht : t < passes.length) {row col : Nat} {key : KeyCode}
    (hkey : s.layout.key? row col = some key) :
    key ∈ s.reported passes t ↔ (s.after passes t).isPressed row col = false ∧
      (s.after passes (t + 1)).isPressed row col = true := by
  constructor
  · intro hmem
    obtain ⟨r, c, hat, hedge⟩ := exists_of_mem_reported h ht hmem
    obtain ⟨rfl, rfl⟩ := KeyLayout.key?_inj h.proper hkey hat
    exact hedge
  · intro hedge
    rw [reported_eq_risen h ht]
    refine List.mem_filterMap.2 ⟨(row, col), mem_risen.2 ⟨?_, hedge⟩, hkey⟩
    rw [after_layout]
    exact ⟨KeyLayout.row_lt_of_key? h.proper hkey, (KeyLayout.key?_eq_some hkey).1⟩

/-- A key is reported once where its position becomes pressed, and not at all elsewhere. -/
theorem count_reported {s : Scanner} (h : s.Sound) {passes : List Pass} {t : Nat}
    (ht : t < passes.length) {row col : Nat} {key : KeyCode}
    (hkey : s.layout.key? row col = some key) :
    (s.reported passes t).count key = (!(s.after passes t).isPressed row col &&
      (s.after passes (t + 1)).isPressed row col).toNat := by
  rw [(nodup_reported h ht).count]
  simp only [mem_reported_iff h ht hkey]
  cases (s.after passes t).isPressed row col <;>
    cases (s.after passes (t + 1)).isPressed row col <;> rfl

/-- A truth that has become a falsehood fell at some time. -/
theorem exists_fall (state : Nat → Bool) {a b : Nat} (hab : a ≤ b) (ha : state a = true)
    (hb : state b = false) :
    ∃ m, a ≤ m ∧ m < b ∧ state m = true ∧ state (m + 1) = false := by
  have hlt : a < b := by
    rcases Nat.lt_or_eq_of_le hab with hlt | rfl
    · exact hlt
    · exact absurd (ha.symm.trans hb) (by decide)
  induction b with
  | zero => omega
  | succ b ih =>
    cases hs : state b with
    | true => exact ⟨b, by omega, by omega, hs, hb⟩
    | false =>
      have hne : a ≠ b := by
        rintro rfl
        exact absurd (ha.symm.trans hs) (by decide)
      obtain ⟨m, hm, hmb, hfall⟩ := ih (by omega) hs (by omega)
      exact ⟨m, hm, by omega, hfall⟩

/-- The keys of a pass are exactly those of the positions that it made pressed, each once, and at
most as many as there is room for. Between two reports of a key its position was let go. -/
theorem reported_exactly_rising {s : Scanner} (hs : s.Fresh) (passes : List Pass) {t : Nat}
    (ht : t < passes.length) :
    s.reported passes t = (risen (s.after passes t) (s.after passes (t + 1))).filterMap
        (fun p => s.layout.key? p.1 p.2) ∧
    (s.reported passes t).Nodup ∧ (s.reported passes t).length ≤ s.capacity ∧
    ∀ u < passes.length, t < u → ∀ key ∈ s.reported passes t, key ∈ s.reported passes u →
      ∃ row col, s.layout.key? row col = some key ∧ ∃ m, t < m ∧ m < u ∧
        (s.after passes m).isPressed row col = true ∧
        (s.after passes (m + 1)).isPressed row col = false := by
  have h := hs.sound
  refine ⟨reported_eq_risen h ht, ?_, ?_, ?_⟩
  · rw [reported_eq_pass ht]
    exact nodup_pass_keys (after_sound h passes t) _ _
  · rw [reported_eq_pass ht, ← after_capacity s passes t]
    exact length_settle_keys_le _ _ _ _
  · intro u hu htu key hkey hlater
    obtain ⟨row, col, hat, -, hpressed⟩ := exists_of_mem_reported h ht hkey
    obtain ⟨r, c, hat', hopen, -⟩ := exists_of_mem_reported h hu hlater
    obtain ⟨rfl, rfl⟩ := KeyLayout.key?_inj h.proper hat hat'
    obtain ⟨m, hm, hmu, hfall⟩ := exists_fall
      (fun m => (s.after passes m).isPressed row col) (by omega) hpressed hopen
    exact ⟨row, col, hat, m, by omega, hmu, hfall⟩

/-- With room for one key, the second of two keys that are pressed at once is reported a pass later;
the first one is reported again after it was let go. -/
theorem reported_exactly_rising_twoByTwo :
    let s := twoByTwo (.passes 1) 1
    let passes := [Pass.touching 0 [(0, 0), (0, 1)], Pass.touching 1 [(0, 1)], Pass.touching 2 [],
      Pass.touching 3 [(0, 0), (1, 1)]]
    s.Fresh ∧ 0 < passes.length ∧ s.reported passes 0 = [0x04] ∧ s.reported passes 1 = [0x05] ∧
      s.reported passes 3 = [0x04] ∧
      ∃ row col, s.layout.key? row col = some 0x04 ∧ ∃ m, 0 < m ∧ m < 3 ∧
        (s.after passes m).isPressed row col = true ∧
        (s.after passes (m + 1)).isPressed row col = false := by
  intro s passes
  have h := reported_exactly_rising (fresh_twoByTwo (.passes 1) 1) passes (t := 0) (by decide)
  exact ⟨fresh_twoByTwo _ _, by decide, by decide, by decide, by decide,
    h.2.2.2 3 (by decide) (by decide) 0x04 (by decide) (by decide)⟩

end ChordPad.Scanner
