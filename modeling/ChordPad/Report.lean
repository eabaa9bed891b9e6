import ChordPad.KeyCode

/-! The keyboard's input report: its id, a byte of modifiers, and a bitmap with a bit for every
other code. -/
namespace ChordPad

structure Report where
  modifiers : UInt8 := 0
  /-- The bit of a code is bit `code % 8` of byte `code / 8`. -/
  keys : List UInt8 := List.replicate 32 0
  deriving DecidableEq, Repr

namespace Report

def id : UInt8 := 6

def size : Nat := 34

def bytes (report : Report) : List UInt8 := id :: report.modifiers :: report.keys

/-- Presses one more code. Codes that are no key are passed over. -/
def press (report : Report) (code : KeyCode) : Report :=
  if code.isModifier then { report with modifiers := report.modifiers ||| code.modifierBit }
  else if code < .firstKey then report
  else
    { report with
      keys := report.keys.modify (code.toNat / 8) (· ||| 1 <<< (code % 8)) }

def pressAll (report : Report) (codes : List KeyCode) : Report := codes.foldl press report

theorem length_keys_press (report : Report) (code : KeyCode) :
    (report.press code).keys.length = report.keys.length := by
  unfold press
  split
  · rfl
  · split <;> simp

theorem length_keys_pressAll (report : Report) (codes : List KeyCode) :
    (report.pressAll codes).keys.length = report.keys.length := by
  unfold pressAll
  induction codes generalizing report with
  | nil => rfl
  | cons code codes ih => rw [List.foldl_cons, ih, length_keys_press]

theorem length_bytes_pressAll (codes : List KeyCode) :
    (pressAll {} codes).bytes.length = size := by
  simp [bytes, length_keys_pressAll, size]

end Report
end ChordPad
