import ChordPad.ScanConfig

/-! The debouncing of one switch. A pass observes its contact; once the contact has disagreed with
the settled state for long enough, the switch is confirmed and its settled state may follow. -/
namespace ChordPad

structure Switch where
  /-- The contact as the latest pass read it. -/
  raw : Bool := false
  pressed : Bool := false
  /-- Consecutive passes in which the two disagreed, counted up to 255. -/
  streak : Nat := 0
  /-- When the present disagreement was first seen. -/
  since : Nat := 0
  deriving DecidableEq, Repr

namespace Switch

def observe (raw : Bool) (now : Nat) (s : Switch) : Switch :=
  if raw = s.pressed then { s with raw, streak := 0 }
  else { s with
    raw
    streak := min (s.streak + 1) 255
    since := if s.streak = 0 then now else s.since }

/-- A disagreement has lasted long enough. A clock before its beginning confirms nothing. -/
def isConfirmed (debounce : Debounce) (now : Nat) (s : Switch) : Bool :=
  s.streak != 0 && match debounce with
    | .passes count => count.toNat ≤ s.streak
    | .elapsed ticks => s.since ≤ now && ticks ≤ now - s.since

/-- The settled state follows the contact. -/
def commit (s : Switch) : Switch := { s with pressed := s.raw, streak := 0 }

theorem observe_raw (raw : Bool) (now : Nat) (s : Switch) : (s.observe raw now).raw = raw := by
  unfold observe; split <;> rfl

theorem observe_pressed (raw : Bool) (now : Nat) (s : Switch) :
    (s.observe raw now).pressed = s.pressed := by
  unfold observe; split <;> rfl

/-- After a pass there is a streak exactly where the contact disagrees. -/
theorem streak_observe_eq_zero_iff (raw : Bool) (now : Nat) (s : Switch) :
    (s.observe raw now).streak = 0 ↔ raw = s.pressed := by
  unfold observe
  split
  · simp_all
  · simp_all

theorem streak_observe_le (raw : Bool) (now : Nat) (s : Switch) :
    (s.observe raw now).streak ≤ 255 := by
  unfold observe
  split
  · exact Nat.zero_le _
  · exact Nat.min_le_right _ _

/-- Only a contact that disagrees is confirmed. -/
theorem ne_of_isConfirmed_observe {debounce : Debounce} {raw : Bool} {now : Nat} {s : Switch}
    (h : (s.observe raw now).isConfirmed debounce now = true) : raw ≠ s.pressed := by
  intro hr
  simp [isConfirmed, (streak_observe_eq_zero_iff raw now s).2 hr] at h

end Switch
end ChordPad
