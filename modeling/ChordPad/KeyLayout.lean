import ChordPad.KeyCode
import ChordPad.Repetition

/-! The layout of a key matrix: which key sits at which row and column. A key sits at one position
at most; positions without a key may repeat. -/
namespace ChordPad

/-- The codes of a matrix, row after row. -/
structure KeyLayout where
  codes : List KeyCode
  cols : Nat
  deriving DecidableEq, Repr

inductive LayoutError
  | empty
  /-- The key at this position sits already at an earlier one. -/
  | duplicateKey (key : KeyCode) (row col : Nat)
  /-- The matrix has other dimensions than the layout, which has these. -/
  | dimensions (rows cols : Nat)
  deriving DecidableEq, Repr

namespace KeyLayout

def ofRows (rows : List (List KeyCode)) : Except LayoutError KeyLayout :=
  let codes := rows.flatten
  let cols := (rows.headD []).length
  if codes.isEmpty then .error .empty
  else match firstRepeat? (· != KeyCode.noKey) [] codes with
    | some (i, key) => .error (.duplicateKey key (i / cols) (i % cols))
    | none => .ok ⟨codes, cols⟩

def rows (layout : KeyLayout) : Nat := layout.codes.length / layout.cols

/-- The key at a position; none where there is no key or no position. -/
def key? (layout : KeyLayout) (row col : Nat) : Option KeyCode :=
  if col < layout.cols then
    (layout.codes[row * layout.cols + col]?).filter (· != KeyCode.noKey)
  else none

end KeyLayout
end ChordPad
