import ChordPad.Proofs.Scanner.Overflow
import ChordPad.Proofs.Scanner.Room

/-! A stricter debounce criterion asks for more of the same. The laxer scanner takes bounces for
presses, so the two drift apart; but whenever the stricter one moves, the laxer one has come to the
same state, and so their presses alternate in its favour. -/
namespace ChordPad

/-- The first criterion asks for no more than the second. -/
def Debounce.AtMost : Debounce → Debounce → Prop
  | .passes count, .passes most => count ≤ most
  | .elapsed ticks, .elapsed most => ticks ≤ most
  | _, _ => False

theorem Debounce.HeldSince.of_atMost {lax strict : Debounce} {passes : List Pass} {b t : Nat}
    (hheld : strict.HeldSince passes b t) (h : lax.AtMost strict) : lax.HeldSince passes b t := by
  cases lax with
  | passes count =>
    cases strict with
    | passes most => exact Nat.le_trans (UInt8.le_iff_toNat_le.1 h) hheld
    | elapsed most => exact h.elim
  | elapsed ticks =>
    cases strict with
    | passes most => exact h.elim
    | elapsed most => exact ⟨hheld.1, Nat.le_trans h hheld.2⟩

namespace Scanner

/-- How often the first `t` passes report a key. -/
def reports (s : Scanner) (passes : List Pass) (t : Nat) (key : KeyCode) : Nat :=
  ((s.run passes).2.take t).flatten.count key

theorem reports_succ (s : Scanner) {passes : List Pass} {t : Nat} (ht : t < passes.length)
    (key : KeyCode) :
    s.reports passes (t + 1) key = s.reports passes t key + (s.reported passes t).count key := by
  have hlt : t < (s.run passes).2.length := by rw [length_run]; exact ht
  rw [reports, List.take_succ_eq_append_getElem hlt, List.flatten_append, List.count_append,
    reports, reported, List.getElem?_eq_getElem hlt]
  simp

theorem Fresh.isPressed_eq_false {s : Scanner} (h : s.Fresh) (row col : Nat) :
    s.isPressed row col = false := by
  rw [isPressed, h.eq, List.getElem?_replicate]
  split
  · split <;> rfl
  · rfl

theorem reports_eq_zero {s : Scanner} (h : s.Sound) {passes : List Pass} {t : Nat} {key : KeyCode}
    (hkey : ∀ row col, s.layout.key? row col ≠ some key) (ht : t ≤ passes.length) :
    s.reports passes t key = 0 := by
  induction t with
  | zero => rfl
  | succ t ih =>
    rw [reports_succ s ht, ih (Nat.le_of_lt ht), Nat.zero_add, List.count_eq_zero]
    intro hmem
    obtain ⟨row, col, hat, -⟩ := exists_of_mem_reported h ht hmem
    exact hkey row col hat

/-- Scanners of one matrix that have made no pass and have room for all keys. The second one settles
for less than the first. -/
structure Stricter (strict lax : Scanner) : Prop where
  fresh : strict.Fresh
  fresh_lax : lax.Fresh
  layout_eq : strict.layout = lax.layout
  rowsDriven_eq : strict.config.rowsDriven = lax.config.rowsDriven
  debounce_le : lax.config.debounce.AtMost strict.config.debounce
  room : strict.layout.keyCount ≤ strict.capacity
  room_lax : lax.layout.keyCount ≤ lax.capacity

namespace Stricter
variable {strict lax : Scanner} {passes : List Pass} {t row col : Nat}

theorem reading_eq (h : Stricter strict lax) :
    (strict.reading passes · row col) = (lax.reading passes · row col) := by
  funext t
  rw [reading, reading, h.rowsDriven_eq]

theorem follows_of_lt (h : Stricter strict lax) (ht : t < passes.length)
    (hrow : row < strict.layout.rows) (hcol : col < strict.layout.cols)
    (hmoves : (strict.after passes (t + 1)).isPressed row col ≠
      (strict.after passes t).isPressed row col) :
    (lax.after passes (t + 1)).isPressed row col =
      (strict.after passes (t + 1)).isPressed row col := by
  have hrow' : row < lax.layout.rows := h.layout_eq ▸ hrow
  have hcol' : col < lax.layout.cols := h.layout_eq ▸ hcol
  have hiff := isPressed_after_succ_ne_iff_confirmedIn h.fresh_lax h.room_lax ht hrow' hcol'
  have hconfirmed := (isPressed_after_succ_ne_iff_confirmedIn h.fresh h.room ht hrow hcol).1 hmoves
  obtain ⟨b, hstreak, hheld⟩ := (confirmedIn_iff h.fresh ht hrow hcol).1 hconfirmed
  rw [h.reading_eq] at hstreak
  by_cases hstate : (lax.after passes t).isPressed row col =
      (strict.after passes t).isPressed row col
  · -- Both have seen the same streak against their state, and it suffices for the laxer one too.
    rw [← hstate] at hstreak
    have hmoves' := hiff.2 ((confirmedIn_iff h.fresh_lax ht hrow' hcol').2
      ⟨b, hstreak, hheld.of_atMost h.debounce_le⟩)
    rw [Bool.eq_not_of_ne hmoves', Bool.eq_not_of_ne hmoves, hstate]
  · -- The laxer one is there already, and the contact is no reason to leave.
    have hcontact : lax.reading passes t row col ≠ (strict.after passes t).isPressed row col :=
      hstreak.2.1 t hstreak.1 (Nat.le_refl t)
    have hagree : lax.reading passes t row col = (lax.after passes t).isPressed row col := by
      rw [Bool.eq_not_of_ne hcontact, Bool.eq_not_of_ne hstate]
    have hstays : ¬ lax.ConfirmedIn passes t row col := fun hc =>
      reading_ne_of_confirmedIn hc hrow' hcol' hagree
    rw [not_not.1 (mt hiff.1 hstays), Bool.eq_not_of_ne hmoves, Bool.eq_not_of_ne hstate]

/-- Where the stricter scanner moves, the laxer one has the same state afterwards. -/
theorem follows (h : Stricter strict lax) (ht : t < passes.length)
    (hmoves : (strict.after passes (t + 1)).isPressed row col ≠
      (strict.after passes t).isPressed row col) :
    (lax.after passes (t + 1)).isPressed row col =
      (strict.after passes (t + 1)).isPressed row col := by
  by_cases hin : row < strict.layout.rows ∧ col < strict.layout.cols
  · exact h.follows_of_lt ht hin.1 hin.2 hmoves
  · have houtside (u : Nat) : (strict.after passes u).isPressed row col = false := by
      rw [isPressed, after_layout]
      exact if_neg hin
    exact absurd ((houtside (t + 1)).trans (houtside t).symm) hmoves

/-- The laxer one is a press ahead while it alone has the key pressed. -/
theorem ahead_step {reports reportsLax : Nat} {state next stateLax nextLax : Bool}
    (hahead : reports + (stateLax && !state).toNat ≤ reportsLax)
    (hfollows : next ≠ state → nextLax = next) :
    reports + (!state && next).toNat + (nextLax && !next).toNat ≤
      reportsLax + (!stateLax && nextLax).toNat := by
  by_cases hmoves : next = state
  · -- Only the laxer one can move, and its lead with it.
    have hsilent : (!state && next).toNat = 0 := by
      rw [hmoves, Bool.not_and_self, Bool.toNat_false]
    have hlax : (nextLax && !next).toNat ≤
        (stateLax && !state).toNat + (!stateLax && nextLax).toNat := by
      rw [hmoves]
      cases state <;> cases stateLax <;> cases nextLax <;> decide
    omega
  · -- They end in one state, so the lead is gone; it paid for the press of the stricter one.
    obtain rfl := hfollows hmoves
    have hsame : (nextLax && !nextLax).toNat = 0 := by rw [Bool.and_not_self, Bool.toNat_false]
    have hlax : (!state && nextLax).toNat ≤
        (stateLax && !state).toNat + (!stateLax && nextLax).toNat := by
      cases state <;> cases stateLax <;> cases nextLax <;> decide
    omega

theorem reports_ahead (h : Stricter strict lax) {key : KeyCode}
    (hkey : strict.layout.key? row col = some key) (ht : t ≤ passes.length) :
    strict.reports passes t key + ((lax.after passes t).isPressed row col &&
      !(strict.after passes t).isPressed row col).toNat ≤ lax.reports passes t key := by
  induction t with
  | zero =>
    rw [after_zero, after_zero, h.fresh_lax.isPressed_eq_false]
    exact Nat.le_refl 0
  | succ t ih =>
    rw [reports_succ strict ht, reports_succ lax ht, count_reported h.fresh.sound ht hkey,
      count_reported h.fresh_lax.sound ht (h.layout_eq ▸ hkey)]
    exact ahead_step (ih (Nat.le_of_lt ht)) (h.follows ht)

end Stricter

/-- After any passes, at any times, the stricter scanner has reported no key more often than the laxer
one. Where it changes a state, the laxer one has the same state after that pass. -/
theorem stricter_reports_no_more {strict lax : Scanner} (h : strict.Stricter lax)
    (passes : List Pass) :
    (∀ t ≤ passes.length, ∀ key, strict.reports passes t key ≤ lax.reports passes t key) ∧
    ∀ t < passes.length, ∀ row col,
      (strict.after passes (t + 1)).isPressed row col ≠ (strict.after passes t).isPressed row col →
        (lax.after passes (t + 1)).isPressed row col =
          (strict.after passes (t + 1)).isPressed row col := by
  refine ⟨?_, fun t ht row col => h.follows ht⟩
  intro t ht key
  by_cases hkey : ∃ row col, strict.layout.key? row col = some key
  · obtain ⟨row, col, hkey⟩ := hkey
    exact Nat.le_trans (Nat.le_add_right _ _) (h.reports_ahead hkey ht)
  · rw [not_exists] at hkey
    rw [reports_eq_zero h.fresh.sound (fun row => not_exists.1 (hkey row)) ht]
    exact Nat.zero_le _

/-- One bounce and then a long press: the laxer scanner reports the key twice, the stricter one once. -/
theorem stricter_reports_no_more_twoByTwo :
    let strict := twoByTwo (.passes 2) 3
    let lax := twoByTwo (.passes 1) 3
    let passes := [Pass.touching 0 [(0, 0)], Pass.touching 1 [], Pass.touching 2 [(0, 0)],
      Pass.touching 3 [(0, 0)]]
    strict.Stricter lax ∧ strict.reports passes 4 0x04 = 1 ∧ lax.reports passes 4 0x04 = 2 ∧
      strict.reports passes 4 0x04 ≤ lax.reports passes 4 0x04 ∧
      (strict.after passes 4).isPressed 0 0 ≠ (strict.after passes 3).isPressed 0 0 ∧
      (lax.after passes 4).isPressed 0 0 = (strict.after passes 4).isPressed 0 0 := by
  intro strict lax passes
  have h : strict.Stricter lax :=
    ⟨fresh_twoByTwo _ _, fresh_twoByTwo _ _, rfl, rfl, show (1 : UInt8) ≤ 2 by decide, by decide,
      by decide⟩
  have hmoves : (strict.after passes 4).isPressed 0 0 ≠ (strict.after passes 3).isPressed 0 0 := by
    decide
  obtain ⟨hreports, hfollows⟩ := stricter_reports_no_more h passes
  exact ⟨h, by decide, by decide, hreports 4 (by decide) 0x04, hmoves,
    hfollows 3 (by decide) 0 0 hmoves⟩

end Scanner
end ChordPad
