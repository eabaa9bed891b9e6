/-! The clock of a bench. It follows the system's clock, or it is frozen at a time and moves only
when it is told to, or when someone waits. -/
namespace ChordPad

inductive Clock
  | system
  | frozen (time : Nat)
  deriving DecidableEq, Repr

namespace Clock

/-- Freezes the clock; zero lets it follow the system again. -/
def set (time : Nat) : Clock := if time = 0 then .system else .frozen time

/-- A clock that follows the system is frozen at the amount it is advanced by. -/
def advance (ticks : Nat) : Clock → Clock
  | .system => set ticks
  | .frozen time => set (time + ticks)

/-- Waits for a time: a frozen clock that is behind it moves there at once. -/
def waitUntil (time : Nat) : Clock → Clock
  | .system => .system
  | .frozen now => .frozen (max now time)

/-- Asks to be woken at a time. A frozen clock moves there, so the one wake comes at once. Returns
the clock and the number of wakes. -/
def schedule (time : Nat) (clock : Clock) : Clock × Nat := (clock.waitUntil time, 1)

/-- Times are below this one. -/
def limit : Nat := UInt64.size

/-- Waits for so many ticks; none if there is no such time. -/
def sleep? (ticks : Nat) : Clock → Option Clock
  | .system => some .system
  | .frozen now => if now + ticks < limit then some (.frozen (now + ticks)) else none

end Clock
end ChordPad
