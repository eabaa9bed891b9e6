import ChordPad.Proofs.Scanner.Debouncing
import ChordPad.Proofs.Scanner.Edges

/-! Presses that find no room. Such a press has no place of its own to wait in: it is kept by the
streak of its contact, so it is reported later on just as long as the contact stays closed. -/
namespace ChordPad

theorem BeginsStreak.extend {reading : Nat → Bool} {state : Bool} {b t u : Nat}
    (h : BeginsStreak reading state b t) (htu : t ≤ u)
    (hmore : ∀ v, t < v → v ≤ u → reading v ≠ state) : BeginsStreak reading state b u := by
  obtain ⟨hbt, hall, hfirst⟩ := h
  refine ⟨by omega, ?_, ?_⟩
  · intro i hbi hiu
    by_cases hit : i ≤ t
    · exact hall i hbi hit
    · exact hmore i (by omega) hiu
  · intro a ha
    by_cases hat : a ≤ t
    · apply hfirst
      intro i hai hit
      exact ha i hai (by omega)
    · omega

/-- A disagreement that began in pass `b` has lasted long enough in pass `t`. -/
def Debounce.HeldSince (passes : List Pass) (b t : Nat) : Debounce → Prop
  | .passes count => count.toNat ≤ t + 1 - b
  | .elapsed ticks => Scanner.timeOf passes b ≤ Scanner.timeOf passes t ∧
    ticks ≤ Scanner.timeOf passes t - Scanner.timeOf passes b

namespace Scanner
variable {s : Scanner} {passes : List Pass} {t u row col : Nat} {key : KeyCode}

theorem heldSince_later {debounce : Debounce} {b : Nat} (h : debounce.HeldSince passes b t)
    (htu : t ≤ u) (hclock : timeOf passes t ≤ timeOf passes u) :
    debounce.HeldSince passes b u := by
  cases debounce with
  | passes count =>
    simp only [Debounce.HeldSince] at h ⊢
    omega
  | elapsed ticks =>
    simp only [Debounce.HeldSince] at h ⊢
    omega

theorem confirmedIn_iff (hs : s.Fresh) (ht : t < passes.length) (hrow : row < s.layout.rows)
    (hcol : col < s.layout.cols) :
    s.ConfirmedIn passes t row col ↔
      ∃ b, BeginsStreak (s.reading passes · row col) ((s.after passes t).isPressed row col) b t ∧
        s.config.debounce.HeldSince passes b t := by
  cases hd : s.config.debounce with
  | elapsed ticks => exact confirmedIn_elapsed hs hd ht hrow hcol
  | passes count =>
    have hseen := (follows_after hs (Nat.le_of_lt ht) hrow hcol).observe
    have hle := disagreeing_le (s.reading passes · row col)
      ((s.after passes t).switchAt row col).pressed (t + 1)
    rw [ConfirmedIn, hd, hseen.isConfirmed_passes, Switch.observe_pressed,
      isPressed_eq (by rw [after_layout]; exact hrow) (by rw [after_layout]; exact hcol)]
    simp only [beginsStreak_iff, Debounce.HeldSince]
    constructor
    · intro hlong
      exact ⟨_, ⟨by omega, rfl⟩, by omega⟩
    · rintro ⟨b, ⟨hpos, rfl⟩, hlong⟩
      omega

theorem reading_ne_of_confirmedIn (hc : s.ConfirmedIn passes t row col)
    (hrow : row < s.layout.rows) (hcol : col < s.layout.cols) :
    s.reading passes t row col ≠ (s.after passes t).isPressed row col := by
  rw [isPressed_eq (by rw [after_layout]; exact hrow) (by rw [after_layout]; exact hcol)]
  exact Switch.ne_of_isConfirmed_observe hc

theorem mem_reported_iff_confirmedIn (hs : s.Fresh) (ht : t < passes.length)
    (hkey : s.layout.key? row col = some key) :
    key ∈ s.reported passes t ↔ (s.after passes t).isPressed row col = false ∧
      s.ConfirmedIn passes t row col ∧
      s.layout.countBefore (s.reported passes t) row col < s.capacity := by
  have hchange := isPressed_after_succ_ne_iff hs ht
    (KeyLayout.row_lt_of_key? hs.sound.proper hkey) (KeyLayout.key?_eq_some hkey).1
  have hsome : s.layout.key? row col ≠ none := by simp [hkey]
  rw [mem_reported_iff hs.sound ht hkey]
  cases hopen : (s.after passes t).isPressed row col with
  | false => simpa [hopen, hsome] using hchange
  | true => simp

/-- A key that is not reported does not become pressed. -/
theorem isPressed_of_unreported (hs : s.Sound) (hkey : s.layout.key? row col = some key)
    (hopen : (s.after passes t).isPressed row col = false) (htu : t ≤ u) (hu : u ≤ passes.length)
    (hwait : ∀ v, t ≤ v → v < u → key ∉ s.reported passes v) :
    (s.after passes u).isPressed row col = false := by
  induction u, htu using Nat.le_induction with
  | base => exact hopen
  | succ u htu ih =>
    have hbefore := ih (by omega) fun v htv hvu => hwait v htv (by omega)
    have hnot := hwait u htu (Nat.lt_succ_self u)
    rw [mem_reported_iff hs hu hkey, not_and] at hnot
    simpa using hnot hbefore

/-- In pass `t` a press of this key met the debounce criterion, but no room was left for it. -/
structure Deferred (s : Scanner) (passes : List Pass) (t row col : Nat) (key : KeyCode) : Prop where
  pass_lt : t < passes.length
  key_eq : s.layout.key? row col = some key
  isPressed_eq : (s.after passes t).isPressed row col = false
  confirmed : s.ConfirmedIn passes t row col
  no_room : s.capacity ≤ s.layout.countBefore (s.reported passes t) row col

namespace Deferred

theorem unreported (hs : s.Fresh) (h : s.Deferred passes t row col key) :
    key ∉ s.reported passes t := by
  intro hmem
  have hroom := ((mem_reported_iff_confirmedIn hs h.pass_lt h.key_eq).1 hmem).2.2
  exact Nat.not_lt.2 h.no_room hroom

theorem exists_streak (hs : s.Fresh) (h : s.Deferred passes t row col key) :
    ∃ b, BeginsStreak (s.reading passes · row col) false b t ∧
      s.config.debounce.HeldSince passes b t := by
  have hrow := KeyLayout.row_lt_of_key? hs.sound.proper h.key_eq
  have hcol := (KeyLayout.key?_eq_some h.key_eq).1
  obtain ⟨b, hb, hheld⟩ := (confirmedIn_iff hs h.pass_lt hrow hcol).1 h.confirmed
  rw [h.isPressed_eq] at hb
  exact ⟨b, hb, hheld⟩

theorem streak_extends {b : Nat} (hb : BeginsStreak (s.reading passes · row col) false b t)
    (htu : t < u) (hclosed : ∀ v, t < v → v ≤ u → s.reading passes v row col = true) :
    BeginsStreak (s.reading passes · row col) false b u := by
  apply hb.extend (Nat.le_of_lt htu)
  intro v htv hvu
  simp [hclosed v htv hvu]

/-- The criterion stays met while the contact stays closed, unless the clock goes back. -/
theorem confirmedIn (hs : s.Fresh) (h : s.Deferred passes t row col key) (htu : t < u)
    (hu : u < passes.length) (hclosed : ∀ v, t < v → v ≤ u → s.reading passes v row col = true)
    (hwait : ∀ v, t < v → v < u → key ∉ s.reported passes v)
    (hclock : timeOf passes t ≤ timeOf passes u) : s.ConfirmedIn passes u row col := by
  have hopen : (s.after passes u).isPressed row col = false := by
    apply isPressed_of_unreported hs.sound h.key_eq h.isPressed_eq (Nat.le_of_lt htu)
      (Nat.le_of_lt hu)
    intro v htv hvu
    rcases Nat.lt_or_eq_of_le htv with hlt | rfl
    · exact hwait v hlt hvu
    · exact h.unreported hs
  obtain ⟨b, hb, hheld⟩ := h.exists_streak hs
  rw [confirmedIn_iff hs hu (KeyLayout.row_lt_of_key? hs.sound.proper h.key_eq)
    (KeyLayout.key?_eq_some h.key_eq).1, hopen]
  exact ⟨b, streak_extends hb htu hclosed, heldSince_later hheld (Nat.le_of_lt htu) hclock⟩

end Deferred

/-- A press that found no room is the one that is reported in a later pass exactly when its contact
has been closed ever since, it is confirmed there, and there is room. As long as the contact stays
closed, it is confirmed in every pass whose clock is no earlier. -/
theorem deferred_reported_iff (hs : s.Fresh) (h : s.Deferred passes t row col key) (htu : t < u)
    (hu : u < passes.length) :
    ((key ∈ s.reported passes u ∧
        ∃ b ≤ t, BeginsStreak (s.reading passes · row col) false b u) ↔
      (∀ v, t < v → v ≤ u → s.reading passes v row col = true) ∧ s.ConfirmedIn passes u row col ∧
        s.layout.countBefore (s.reported passes u) row col < s.capacity) ∧
    ((∀ v, t < v → v ≤ u → s.reading passes v row col = true) →
      (∀ v, t < v → v < u → key ∉ s.reported passes v) → timeOf passes t ≤ timeOf passes u →
        s.ConfirmedIn passes u row col) := by
  refine ⟨⟨?_, ?_⟩, h.confirmedIn hs htu hu⟩
  · rintro ⟨hmem, a, hat, ha⟩
    obtain ⟨-, hc, hroom⟩ := (mem_reported_iff_confirmedIn hs hu h.key_eq).1 hmem
    refine ⟨?_, hc, hroom⟩
    intro v htv hvu
    simpa using ha.2.1 v (by omega) hvu
  · rintro ⟨hclosed, hc, hroom⟩
    have hopen : (s.after passes u).isPressed row col = false := by
      have hne := reading_ne_of_confirmedIn hc (KeyLayout.row_lt_of_key? hs.sound.proper h.key_eq)
        (KeyLayout.key?_eq_some h.key_eq).1
      rw [hclosed u htu (Nat.le_refl u)] at hne
      simpa using hne.symm
    obtain ⟨b, hb, -⟩ := h.exists_streak hs
    exact ⟨(mem_reported_iff_confirmedIn hs hu h.key_eq).2 ⟨hopen, hc, hroom⟩, b, hb.1,
      Deferred.streak_extends hb htu hclosed⟩

/-- Two keys are held for five ticks while there is room for one; the second one is reported in the
next pass, as it is still closed there. -/
theorem deferred_reported_iff_twoByTwo :
    let s := twoByTwo (.elapsed 5) 1
    let passes := [Pass.touching 0 [(0, 0), (0, 1)], Pass.touching 5 [(0, 0), (0, 1)],
      Pass.touching 7 [(0, 1)]]
    s.Fresh ∧ s.Deferred passes 1 0 1 0x05 ∧ 2 < passes.length ∧ 0x05 ∈ s.reported passes 2 ∧
      ∃ b ≤ 1, BeginsStreak (s.reading passes · 0 1) false b 2 := by
  intro s passes
  have hd : s.Deferred passes 1 0 1 0x05 :=
    ⟨by decide, by decide, by decide, by rw [ConfirmedIn]; decide, by decide⟩
  have hclosed : ∀ v, 1 < v → v ≤ 2 → s.reading passes v 0 1 = true := by
    intro v h1 h2
    obtain rfl : v = 2 := by omega
    decide
  obtain ⟨hiff, hconfirmed⟩ := deferred_reported_iff (fresh_twoByTwo (.elapsed 5) 1) hd
    (show 1 < 2 by decide) (show 2 < passes.length by decide)
  have hc := hconfirmed hclosed (fun v h1 h2 => by omega) (by decide)
  exact ⟨fresh_twoByTwo _ _, hd, by decide, hiff.2 ⟨hclosed, hc, by decide⟩⟩

theorem run_replicate (pass : Pass) (h : s.pass pass.1 pass.2 = (s, [])) (n : Nat) :
    s.run (List.replicate n pass) = (s, List.replicate n []) := by
  induction n with
  | zero => rfl
  | succ n ih => simp only [List.replicate_succ, run, h, ih]

/-- With room for one key, two keys meet the criterion in the first pass, and then the contact of the
second one opens. However many passes follow, they report nothing, although all of them have room. -/
theorem deferred_press_lost :
    let s := twoByTwo (.passes 1) 1
    let passes (n : Nat) :=
      Pass.touching 0 [(0, 0), (0, 1)] :: List.replicate n (Pass.touching 1 [(0, 0)])
    s.Fresh ∧ 0 < s.capacity ∧ ∀ n, s.Deferred (passes n) 0 0 1 0x05 ∧
      (s.run (passes n)).2 = [0x04] :: List.replicate n [] := by
  intro s passes
  refine ⟨fresh_twoByTwo _ _, by decide, ?_⟩
  intro n
  have hreported : s.reported (passes n) 0 = [0x04] := by
    rw [reported_eq_pass (Nat.succ_pos _), after_zero, List.getElem_cons_zero]
    decide
  refine ⟨⟨Nat.succ_pos _, by decide, ?_, ?_, ?_⟩, ?_⟩
  · rw [after_zero]
    decide
  · rw [ConfirmedIn, after_zero, reading_eq (Nat.succ_pos _), timeOf_eq (Nat.succ_pos _),
      List.getElem_cons_zero]
    decide
  · rw [hreported]
    decide
  cases n with
  | zero => decide
  | succ n =>
    -- After two passes nothing is left to change, and the others repeat the second one.
    have hfirst : (s.run (passes 1)).2 = [[0x04], []] := by decide
    have hrest := @run_replicate (s.run (passes 1)).1 (Pass.touching 1 [(0, 0)]) (by decide) n
    have hsplit := s.run_append (passes 1) (List.replicate n (Pass.touching 1 [(0, 0)]))
    rw [hrest, hfirst] at hsplit
    exact congrArg (·.2) hsplit

end Scanner
end ChordPad
