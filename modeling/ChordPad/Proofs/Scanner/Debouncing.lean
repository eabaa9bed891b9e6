import Mathlib.Data.Nat.Init
import Mathlib.Tactic.ByContra
import ChordPad.Proofs.Scanner.Passes

/-! Debouncing, told by the history of a position: its settled state follows the contact when the
latest passes all disagreed with it. The counter of a switch is the length of that streak as far as
it goes, and its time stamp is the time of the first pass of it. -/
namespace ChordPad

/-- How many of the passes just before pass `t` found the contact unlike `state`. -/
def disagreeing (reading : Nat → Bool) (state : Bool) : (t : Nat) → Nat
  | 0 => 0
  | t + 1 => if reading t = state then 0 else disagreeing reading state t + 1

/-- Pass `b` is the first of the longest run of passes up to pass `t` that all found the contact
unlike `state`. -/
def BeginsStreak (reading : Nat → Bool) (state : Bool) (b t : Nat) : Prop :=
  b ≤ t ∧ (∀ i, b ≤ i → i ≤ t → reading i ≠ state) ∧
    ∀ a, (∀ i, a ≤ i → i ≤ t → reading i ≠ state) → b ≤ a

section History
variable {reading : Nat → Bool} {state : Bool}

theorem le_disagreeing_iff {m t : Nat} : m ≤ disagreeing reading state t ↔
    m ≤ t ∧ ∀ i, t ≤ i + m → i < t → reading i ≠ state := by
  induction t generalizing m with
  | zero =>
    simp only [disagreeing]
    exact ⟨fun hm => ⟨hm, fun i _ hi => absurd hi (by omega)⟩, fun h => h.1⟩
  | succ t ih =>
    rw [disagreeing]
    split
    · rename_i hsame
      constructor
      · intro hm
        exact ⟨by omega, fun i hle hlt => by omega⟩
      · intro ⟨hm, hall⟩
        rcases Nat.eq_zero_or_pos m with rfl | hpos
        · exact Nat.le_refl 0
        · exact absurd hsame (hall t (by omega) (by omega))
    · rename_i hdiff
      cases m with
      | zero => exact ⟨fun _ => ⟨by omega, fun i hle hlt => by omega⟩, fun _ => by omega⟩
      | succ m =>
        rw [Nat.add_le_add_iff_right, ih]
        constructor
        · intro ⟨hm, hall⟩
          refine ⟨by omega, fun i hle hlt => ?_⟩
          rcases Nat.lt_or_eq_of_le (Nat.le_of_lt_succ hlt) with hi | rfl
          · exact hall i (by omega) hi
          · exact hdiff
        · intro ⟨hm, hall⟩
          exact ⟨by omega, fun i hle hlt => hall i (by omega) (by omega)⟩

theorem disagreeing_le (reading : Nat → Bool) (state : Bool) (t : Nat) :
    disagreeing reading state t ≤ t :=
  (le_disagreeing_iff.1 (Nat.le_refl _)).1

theorem beginsStreak_iff {b t : Nat} : BeginsStreak reading state b t ↔
    0 < disagreeing reading state (t + 1) ∧ b = t + 1 - disagreeing reading state (t + 1) := by
  have hle := disagreeing_le reading state (t + 1)
  have hstreak := (le_disagreeing_iff (t := t + 1)).1 (Nat.le_refl (disagreeing reading state (t + 1)))
  constructor
  · intro ⟨hbt, hall, hfirst⟩
    have hlong : t + 1 - b ≤ disagreeing reading state (t + 1) :=
      le_disagreeing_iff.2 ⟨by omega, fun i hi hlt => hall i (by omega) (by omega)⟩
    have hb := hfirst (t + 1 - disagreeing reading state (t + 1)) fun i hi hit =>
      hstreak.2 i (by omega) (by omega)
    omega
  · intro ⟨hpos, hb⟩
    refine ⟨by omega, fun i hi hit => hstreak.2 i (by omega) (by omega), fun a ha => ?_⟩
    have hlong : t + 1 - a ≤ disagreeing reading state (t + 1) :=
      le_disagreeing_iff.2 ⟨by omega, fun i hi hlt => ha i (by omega) (by omega)⟩
    omega

end History

/-- A switch knows the history of its contact before pass `t`. -/
structure Switch.Follows (switch : Switch) (reading : Nat → Bool) (time : Nat → Nat) (t : Nat) :
    Prop where
  streak_eq : switch.streak = min 255 (disagreeing reading switch.pressed t)
  since_eq : 0 < disagreeing reading switch.pressed t →
    switch.since = time (t - disagreeing reading switch.pressed t)

namespace Switch.Follows
variable {switch : Switch} {reading : Nat → Bool} {time : Nat → Nat} {t : Nat}

theorem rest : Follows {} reading time 0 := ⟨rfl, fun h => absurd h (Nat.lt_irrefl 0)⟩

theorem observe (h : switch.Follows reading time t) :
    (switch.observe (reading t) (time t)).Follows reading time (t + 1) := by
  have hle := disagreeing_le reading switch.pressed t
  by_cases hsame : reading t = switch.pressed
  · constructor
    · simp [Switch.observe, hsame, disagreeing]
    · simp [Switch.observe, hsame, disagreeing]
  · constructor
    · simp only [Switch.observe, hsame, if_false, disagreeing, h.streak_eq]
      omega
    · intro _
      simp only [Switch.observe, hsame, if_false, disagreeing]
      split
      · rename_i hzero
        rw [h.streak_eq] at hzero
        congr 1
        omega
      · rename_i hpos
        rw [h.streak_eq] at hpos
        rw [h.since_eq (by omega)]
        congr 1
        omega

theorem commit (hraw : switch.raw = reading t) : switch.commit.Follows reading time (t + 1) := by
  constructor
  · simp [Switch.commit, hraw, disagreeing]
  · simp [Switch.commit, hraw, disagreeing]

theorem isConfirmed_passes (h : switch.Follows reading time t) (n : UInt8) (now : Nat) :
    switch.isConfirmed (.passes n) now = true ↔
      max n.toNat 1 ≤ disagreeing reading switch.pressed t := by
  have hn := n.toNat_lt
  simp only [Switch.isConfirmed, Bool.and_eq_true, bne_iff_ne, decide_eq_true_eq, h.streak_eq]
  omega

theorem isConfirmed_elapsed (h : switch.Follows reading time t) (ticks now : Nat) :
    switch.isConfirmed (.elapsed ticks) now = true ↔
      0 < disagreeing reading switch.pressed t ∧
        time (t - disagreeing reading switch.pressed t) ≤ now ∧
        ticks ≤ now - time (t - disagreeing reading switch.pressed t) := by
  simp only [Switch.isConfirmed, Bool.and_eq_true, bne_iff_ne, decide_eq_true_eq]
  by_cases hpos : 0 < disagreeing reading switch.pressed t
  · have hstreak : switch.streak ≠ 0 := by rw [h.streak_eq]; omega
    simp [hstreak, hpos, h.since_eq hpos]
  · have hstreak : switch.streak = 0 := by rw [h.streak_eq]; omega
    simp [hstreak, hpos]

end Switch.Follows

namespace Scanner
variable {s : Scanner} {passes : List Pass} {t row col : Nat}

/-- The switch of a position meets the debounce criterion in pass `t`. -/
def ConfirmedIn (s : Scanner) (passes : List Pass) (t row col : Nat) : Prop :=
  (((s.after passes t).switchAt row col).observe (s.reading passes t row col)
    (timeOf passes t)).isConfirmed s.config.debounce (timeOf passes t) = true

theorem sighted_after (ht : t < passes.length) :
    (s.after passes t).sighted passes[t].1 passes[t].2 row col =
      ((s.after passes t).switchAt row col).observe (s.reading passes t row col)
        (timeOf passes t) := by
  rw [sighted, after_config, reading_eq ht, timeOf_eq ht]

theorem follows_after (hs : s.Fresh) (ht : t ≤ passes.length) (hrow : row < s.layout.rows)
    (hcol : col < s.layout.cols) :
    ((s.after passes t).switchAt row col).Follows (s.reading passes · row col) (timeOf passes) t := by
  induction t with
  | zero =>
    have hrest : (s.after passes 0).switchAt row col = {} := by
      rw [after_zero, switchAt, hs.eq,
        List.getElem?_replicate_of_lt (KeyLayout.slot_lt hs.sound.proper hrow hcol)]
      rfl
    rw [hrest]
    exact .rest
  | succ t ih =>
    have hlt : t < passes.length := ht
    have hseen := (ih (Nat.le_of_lt hlt)).observe
    rw [after_succ hlt, switchAt_pass (after_sound hs.sound passes t) _ _
      (by rw [after_layout]; exact hrow) (by rw [after_layout]; exact hcol), sighted_after hlt]
    rw [settled]
    split
    · exact .commit (Switch.observe_raw _ _ _)
    · exact hseen

/-- The state of a position changes in the passes in which its switch is confirmed, but a press of a
key waits until fewer keys are reported before it than a pass can report. -/
theorem isPressed_after_succ_ne_iff (hs : s.Fresh) (ht : t < passes.length)
    (hrow : row < s.layout.rows) (hcol : col < s.layout.cols) :
    (s.after passes (t + 1)).isPressed row col ≠ (s.after passes t).isPressed row col ↔
      s.ConfirmedIn passes t row col ∧
      ((s.after passes t).isPressed row col = false → s.layout.key? row col ≠ none →
        s.layout.countBefore (s.reported passes t) row col < s.capacity) := by
  have hlayout := after_layout s passes t
  have hpass := isPressed_pass_ne_iff (after_sound hs.sound passes t) passes[t].1 passes[t].2
    (by rw [hlayout]; exact hrow) (by rw [hlayout]; exact hcol)
  rw [sighted_after ht, ← timeOf_eq ht, after_config, after_capacity, hlayout] at hpass
  rw [after_succ ht, reported_eq_pass ht, ← timeOf_eq ht]
  exact hpass

theorem confirmedIn_passes (hs : s.Fresh) {n : UInt8} (hn : s.config.debounce = .passes n)
    (ht : t < passes.length) (hrow : row < s.layout.rows) (hcol : col < s.layout.cols) :
    s.ConfirmedIn passes t row col ↔ max n.toNat 1 ≤ t + 1 ∧
      ∀ i < max n.toNat 1,
        s.reading passes (t - i) row col ≠ (s.after passes t).isPressed row col := by
  have hseen := (follows_after hs (Nat.le_of_lt ht) hrow hcol).observe
  rw [ConfirmedIn, hn, hseen.isConfirmed_passes, Switch.observe_pressed, le_disagreeing_iff,
    isPressed_eq (by rw [after_layout]; exact hrow) (by rw [after_layout]; exact hcol)]
  refine and_congr_right fun hm => ?_
  constructor
  · intro hall i hi
    exact hall (t - i) (by omega) (by omega)
  · intro hall i hle hlt
    have hback : t - (t - i) = i := by omega
    exact hback ▸ hall (t - i) (by omega)

theorem confirmedIn_elapsed (hs : s.Fresh) {ticks : Nat}
    (hticks : s.config.debounce = .elapsed ticks) (ht : t < passes.length)
    (hrow : row < s.layout.rows) (hcol : col < s.layout.cols) :
    s.ConfirmedIn passes t row col ↔
      ∃ b, BeginsStreak (s.reading passes · row col) ((s.after passes t).isPressed row col) b t ∧
        timeOf passes b ≤ timeOf passes t ∧ ticks ≤ timeOf passes t - timeOf passes b := by
  have hseen := (follows_after hs (Nat.le_of_lt ht) hrow hcol).observe
  rw [ConfirmedIn, hticks, hseen.isConfirmed_elapsed, Switch.observe_pressed,
    isPressed_eq (by rw [after_layout]; exact hrow) (by rw [after_layout]; exact hcol)]
  simp only [beginsStreak_iff]
  constructor
  · intro ⟨hpos, hheld⟩
    exact ⟨_, ⟨hpos, rfl⟩, hheld⟩
  · rintro ⟨b, ⟨hpos, rfl⟩, hheld⟩
    exact ⟨hpos, hheld⟩

theorem isPressed_of_short_streak (hs : s.Fresh) {n : UInt8} (hn : s.config.debounce = .passes n)
    (ht : t < passes.length) (hrow : row < s.layout.rows) (hcol : col < s.layout.cols) {b : Nat}
    (hb : BeginsStreak (s.reading passes · row col) ((s.after passes b).isPressed row col) b t)
    (hshort : t + 1 - b < max n.toNat 1) {u : Nat} (hbu : b ≤ u) (hut : u ≤ t + 1) :
    (s.after passes u).isPressed row col = (s.after passes b).isPressed row col := by
  obtain ⟨hbt, hstreak, hfirst⟩ := hb
  induction u, hbu using Nat.le_induction with
  | base => rfl
  | succ u hbu ih =>
    have hstate := ih (by omega)
    rw [← hstate]
    by_contra hne
    obtain ⟨hc, -⟩ := (isPressed_after_succ_ne_iff hs (by omega) hrow hcol).1 hne
    obtain ⟨hm, hall⟩ := (confirmedIn_passes hs hn (by omega) hrow hcol).1 hc
    -- the streak would have begun a pass earlier
    have hearlier := hfirst (b - 1) fun i hi hit => by
      rcases Nat.lt_or_ge i b with hlt | hge
      · have hback : u - (u - i) = i := by omega
        have := hall (u - i) (by omega)
        rwa [hback, hstate] at this
      · exact hstreak i hge hit
    omega

/-- Counted in passes: a state changes exactly when the last `max n 1` contacts all disagree with it
and, for a press of a key, there is room. Shorter disagreements move nothing, and a press that found
no room stays confirmed while the contact stays closed. -/
theorem changes_by_passes (hs : s.Fresh) {n : UInt8} (hn : s.config.debounce = .passes n)
    (ht : t < passes.length) (hrow : row < s.layout.rows) (hcol : col < s.layout.cols) :
    ((s.after passes (t + 1)).isPressed row col ≠ (s.after passes t).isPressed row col ↔
      max n.toNat 1 ≤ t + 1 ∧
      (∀ i < max n.toNat 1,
        s.reading passes (t - i) row col ≠ (s.after passes t).isPressed row col) ∧
      ((s.after passes t).isPressed row col = false → s.layout.key? row col ≠ none →
        s.layout.countBefore (s.reported passes t) row col < s.capacity)) ∧
    (∀ b, BeginsStreak (s.reading passes · row col) ((s.after passes b).isPressed row col) b t →
      t + 1 - b < max n.toNat 1 → ∀ u, b ≤ u → u ≤ t + 1 →
        (s.after passes u).isPressed row col = (s.after passes b).isPressed row col) ∧
    ∀ u ≤ t, s.ConfirmedIn passes u row col → (s.after passes u).isPressed row col = false →
      (s.after passes t).isPressed row col = false →
      (∀ i, u ≤ i → i ≤ t → s.reading passes i row col = true) →
        s.ConfirmedIn passes t row col := by
  refine ⟨?_, fun b hb hshort u hbu hut => ?_, fun u hut hc hu hopen hclosed => ?_⟩
  · rw [isPressed_after_succ_ne_iff hs ht hrow hcol, confirmedIn_passes hs hn ht hrow hcol,
      and_assoc]
  · exact isPressed_of_short_streak hs hn ht hrow hcol hb hshort hbu hut
  · rw [confirmedIn_passes hs hn (by omega) hrow hcol, hu] at hc
    rw [confirmedIn_passes hs hn ht hrow hcol, hopen]
    refine ⟨by omega, fun i hi => ?_⟩
    rcases Nat.lt_or_ge (t - i) u with hlt | hge
    · have hback : u - (u - (t - i)) = t - i := by omega
      have := hc.2 (u - (t - i)) (by omega)
      rwa [hback] at this
    · rw [hclosed (t - i) hge (by omega)]
      decide

/-- Two keys are held for two passes while there is room for one; the second one follows in the third
pass. -/
theorem changes_by_passes_twoByTwo :
    let s := twoByTwo (.passes 2) 1
    let passes := [Pass.touching 0 [(0, 0), (0, 1)], Pass.touching 1 [(0, 0), (0, 1)],
      Pass.touching 2 [(0, 1)]]
    s.Fresh ∧ s.config.debounce = .passes 2 ∧ 2 < passes.length ∧ 0 < s.layout.rows ∧
      1 < s.layout.cols ∧ s.reported passes 1 = [0x04] ∧
      (s.after passes 2).isPressed 0 1 = false ∧
      (s.after passes 3).isPressed 0 1 ≠ (s.after passes 2).isPressed 0 1 := by
  intro s passes
  have h := changes_by_passes (fresh_twoByTwo (.passes 2) 1) rfl (show 2 < passes.length by decide)
    (show 0 < s.layout.rows by decide) (show 1 < s.layout.cols by decide)
  exact ⟨fresh_twoByTwo _ _, rfl, by decide, by decide, by decide, by decide, by decide,
    h.1.2 ⟨by decide, by decide, by decide⟩⟩

/-- Counted in ticks: a state changes exactly when the contact has disagreed with it since a pass that
lies so many ticks back and, for a press of a key, there is room. -/
theorem changes_by_time (hs : s.Fresh) {ticks : Nat} (hticks : s.config.debounce = .elapsed ticks)
    (ht : t < passes.length) (hrow : row < s.layout.rows) (hcol : col < s.layout.cols) :
    (s.after passes (t + 1)).isPressed row col ≠ (s.after passes t).isPressed row col ↔
      s.reading passes t row col ≠ (s.after passes t).isPressed row col ∧
      (∃ b, BeginsStreak (s.reading passes · row col) ((s.after passes t).isPressed row col) b t ∧
        timeOf passes b ≤ timeOf passes t ∧ ticks ≤ timeOf passes t - timeOf passes b) ∧
      ((s.after passes t).isPressed row col = false → s.layout.key? row col ≠ none →
        s.layout.countBefore (s.reported passes t) row col < s.capacity) := by
  rw [isPressed_after_succ_ne_iff hs ht hrow hcol, confirmedIn_elapsed hs hticks ht hrow hcol]
  constructor
  · rintro ⟨⟨b, hb, hheld⟩, hroom⟩
    exact ⟨hb.2.1 t hb.1 (Nat.le_refl t), ⟨b, hb, hheld⟩, hroom⟩
  · rintro ⟨-, hheld, hroom⟩
    exact ⟨hheld, hroom⟩

/-- The clock goes back before five ticks have passed since the first of three passes. -/
theorem changes_by_time_twoByTwo :
    let s := twoByTwo (.elapsed 5) 8
    let passes := [Pass.touching 4 [(0, 0)], Pass.touching 2 [(0, 0)], Pass.touching 9 [(0, 0)]]
    s.Fresh ∧ s.config.debounce = .elapsed 5 ∧ 2 < passes.length ∧ 0 < s.layout.rows ∧
      0 < s.layout.cols ∧ (s.after passes 2).isPressed 0 0 = false ∧
      (s.after passes 3).isPressed 0 0 ≠ (s.after passes 2).isPressed 0 0 := by
  intro s passes
  have h := changes_by_time (fresh_twoByTwo (.elapsed 5) 8) rfl (show 2 < passes.length by decide)
    (show 0 < s.layout.rows by decide) (show 0 < s.layout.cols by decide)
  have hclosed (i : Nat) (hi : i ≤ 2) :
      s.reading passes i 0 0 ≠ (s.after passes 2).isPressed 0 0 := by
    have hcases : i = 0 ∨ i = 1 ∨ i = 2 := by omega
    rcases hcases with rfl | rfl | rfl <;> decide
  exact ⟨fresh_twoByTwo _ _, rfl, by decide, by decide, by decide, by decide,
    h.2 ⟨by decide, ⟨0, ⟨by decide, fun i _ hi => hclosed i hi, fun a _ => Nat.zero_le a⟩,
      by decide, by decide⟩, by decide⟩⟩

end Scanner
end ChordPad
