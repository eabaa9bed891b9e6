import ChordPad.Board
import ChordPad.Board.Contacts

/-! A test rig: a matrix whose lines settle slowly and whose pins can fail. Its clock stands still
except while the scanner waits. -/
namespace ChordPad

/-- An output line; it has no level until it is driven. -/
structure OutputLine where
  level : Option Level := none
  /-- When it last became low. -/
  lowSince : Nat := 0
  deriving DecidableEq, Repr

/-- Drives a line at a time. Driving a low line low again does not make it low anew. -/
def OutputLine.drive (line : OutputLine) (time : Nat) (level : Level) : OutputLine :=
  { level := some level
    lowSince := if level = .low ∧ line.level ≠ some .low then time else line.lowSince }

structure Rig where
  time : Nat
  /-- How long a line is low before the inputs see it. -/
  delay : Nat := 0
  contacts : Contacts := []
  outputs : List OutputLine
  failingInputs : List Nat := []
  failingOutputs : List Nat := []

namespace Rig

/-- An input is low when a closed switch joins it to a line that has been low for long enough. -/
def isLow (rig : Rig) (input : Nat) : Bool :=
  rig.outputs.zipIdx.any fun (line, output) =>
    line.level == some .low && rig.contacts.isClosed input output &&
      rig.delay ≤ rig.time - line.lowSince

instance : Board Rig where
  now rig := rig.time
  drive rig output level :=
    if rig.failingOutputs.contains output then (rig, false)
    else ({ rig with outputs := rig.outputs.modify output (·.drive rig.time level) }, true)
  read rig input :=
    (rig, if rig.failingInputs.contains input then none
      else some (if rig.isLow input then .low else .high))
  wait rig ticks := { rig with time := rig.time + ticks }

def setFault (failing : List Nat) (pin : Nat) (fails : Bool) : List Nat :=
  let others := failing.filter (· != pin)
  if fails then pin :: others else others

end Rig
end ChordPad
