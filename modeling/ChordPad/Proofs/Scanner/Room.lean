import ChordPad.Proofs.Scanner.Debouncing

/-! Scanners with room for all keys of their layout. They never put a press off, so every switch goes
its own way: its next state comes from its contact and the clock alone. -/
namespace ChordPad

/-- How many positions have a key. -/
def KeyLayout.keyCount (layout : KeyLayout) : Nat := layout.codes.countP (· != KeyCode.noKey)

/-- A switch after a pass that does not put it off. -/
def Switch.next (debounce : Debounce) (now : Nat) (contact : Bool) (switch : Switch) : Switch :=
  let seen := switch.observe contact now
  if seen.isConfirmed debounce now then seen.commit else seen

namespace Scanner
variable {s : Scanner} {passes : List Pass} {t row col : Nat}

theorem countBefore_pass_lt_keyCount (h : s.Sound) (now : Nat) (closed : Nat → Nat → Bool)
    {key : KeyCode} (hkey : s.layout.key? row col = some key) :
    s.layout.countBefore (s.pass now closed).2 row col < s.layout.keyCount := by
  obtain ⟨-, hcode, hne⟩ := KeyLayout.key?_eq_some hkey
  rw [countBefore_pass h]
  generalize row * s.layout.cols + col = i at hcode ⊢
  have hearlier := (settle_keys_sublist s.config.debounce now s.capacity
    ((s.slots now closed).take i)).length_le
  rw [List.map_take, map_fst_slots h, ← List.countP_eq_length_filter] at hearlier
  have hlater : 0 < (s.layout.codes.drop i).countP (· != KeyCode.noKey) := by
    refine List.countP_pos_iff.2 ⟨key, List.mem_of_getElem? (i := 0) ?_, by simpa using hne⟩
    rw [List.getElem?_drop, Nat.add_zero, hcode]
  have hall : s.layout.keyCount = (s.layout.codes.take i).countP (· != KeyCode.noKey) +
      (s.layout.codes.drop i).countP (· != KeyCode.noKey) := by
    rw [← List.countP_append, List.take_append_drop, KeyLayout.keyCount]
  omega

/-- With room for all keys every key finds room. -/
theorem countBefore_reported_lt (h : s.Sound) (hroom : s.layout.keyCount ≤ s.capacity)
    (ht : t < passes.length) (hkey : s.layout.key? row col ≠ none) :
    s.layout.countBefore (s.reported passes t) row col < s.capacity := by
  obtain ⟨key, hkey⟩ := Option.ne_none_iff_exists'.1 hkey
  have hlt := countBefore_pass_lt_keyCount (after_sound h passes t) passes[t].1 passes[t].2
    (by rw [after_layout]; exact hkey)
  rw [after_layout, ← reported_eq_pass ht] at hlt
  exact Nat.lt_of_lt_of_le hlt hroom

theorem isPressed_after_succ_ne_iff_confirmedIn (hs : s.Fresh)
    (hroom : s.layout.keyCount ≤ s.capacity) (ht : t < passes.length) (hrow : row < s.layout.rows)
    (hcol : col < s.layout.cols) :
    (s.after passes (t + 1)).isPressed row col ≠ (s.after passes t).isPressed row col ↔
      s.ConfirmedIn passes t row col := by
  rw [isPressed_after_succ_ne_iff hs ht hrow hcol]
  exact and_iff_left fun _ hkey => countBefore_reported_lt hs.sound hroom ht hkey

theorem switchAt_after_succ (h : s.Sound) (hroom : s.layout.keyCount ≤ s.capacity)
    (ht : t < passes.length) (hrow : row < s.layout.rows) (hcol : col < s.layout.cols) :
    (s.after passes (t + 1)).switchAt row col =
      ((s.after passes t).switchAt row col).next s.config.debounce (timeOf passes t)
        (s.reading passes t row col) := by
  have hlayout := after_layout s passes t
  rw [after_succ ht, switchAt_pass (after_sound h passes t) _ _ (by rw [hlayout]; exact hrow)
    (by rw [hlayout]; exact hcol), sighted_after ht, ← reported_eq_pass ht, hlayout, after_config,
    after_capacity, ← timeOf_eq ht, settled, Switch.next]
  refine if_congr (and_iff_left fun _ hkey => Nat.sub_pos_of_lt ?_) rfl rfl
  refine countBefore_reported_lt h hroom ht fun hnone => hkey ?_
  rw [hnone, Option.getD_none]

end Scanner
end ChordPad
