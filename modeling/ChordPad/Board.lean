import ChordPad.Scanner

/-! Boards: the hardware under a scanner. An output line is driven low while the input lines are
read; a low input means that the switch between the two is closed. Writes and reads may fail: a
failed write is passed over, a failed read counts as an open switch. -/
namespace ChordPad

inductive Level
  | low
  | high
  deriving DecidableEq, Repr

class Board (β : Type) where
  now : β → Nat
  /-- Drives an output line and says whether the write was taken. -/
  drive : β → (output : Nat) → Level → β × Bool
  /-- Reads an input line; none is a failed read. -/
  read : β → (input : Nat) → β × Option Level
  wait : β → Nat → β

namespace Board
variable {β : Type} [Board β]

/-- Reads input lines in order: which of them see a closed switch. -/
def readInputs (b : β) : List Nat → β × List Bool
  | [] => (b, [])
  | input :: rest =>
    let (b, level) := read b input
    let (b, contacts) := readInputs b rest
    (b, (level == some .low) :: contacts)

/-- Selects one output line, pauses, reads the input lines and lets the output line go. -/
def sampleLine (pause inputs : Nat) (b : β) (output : Nat) : β × List Bool :=
  let b := (drive b output .low).1
  let b := if pause = 0 then b else wait b pause
  let (b, contacts) := readInputs b (List.range inputs)
  ((drive b output .high).1, contacts)

def sampleLines (pause inputs : Nat) (b : β) : List Nat → β × List (List Bool)
  | [] => (b, [])
  | output :: rest =>
    let (b, contacts) := sampleLine pause inputs b output
    let (b, samples) := sampleLines pause inputs b rest
    (b, contacts :: samples)

def release (b : β) : List Nat → β
  | [] => b
  | output :: rest => release (drive b output .high).1 rest

/-- The contact between an output and an input line; what was not sampled is open. -/
def contactIn (samples : List (List Bool)) (output input : Nat) : Bool :=
  ((samples[output]?).bind (·[input]?)).getD false

end Board

namespace Scanner
variable {β : Type} [Board β]

/-- A scanner on a board: no output line is left low. -/
def start (layout : KeyLayout) (config : ScanConfig) (capacity outputs inputs : Nat) (b : β) :
    Except LayoutError (Scanner × β) := do
  let s ← make layout config capacity outputs inputs
  return (s, Board.release b (List.range outputs))

/-- One pass over a board, at the time of its beginning. -/
def scan (s : Scanner) (b : β) : Scanner × β × List KeyCode :=
  let now := Board.now b
  let (b, samples) := Board.sampleLines s.config.selectPause s.inputs b (List.range s.outputs)
  let (s, keys) := s.pass now (Board.contactIn samples)
  (s, b, keys)

end Scanner
end ChordPad
