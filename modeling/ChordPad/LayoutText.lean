import ChordPad.KeyName
import ChordPad.Text.Words

/-! A layout written as text: one line a row, one key name a word. Lines without a word and lines
that begin with `#` do not count. `LayoutText.compile` reads the codes or blames the first defect. -/
namespace ChordPad.LayoutText
open ChordPad.Text

abbrev Word := List Char

inductive Defect
  | unknownName (name : Word) (row : Nat)
  /-- The key was named before, at the second position. -/
  | repeatedKey (name : Word) (row col : Nat) (first : Word) (firstRow firstCol : Nat)
  | wrongCount (row count expected : Nat)
  | noRows
  deriving DecidableEq, Repr

def Defect.message : Defect → String
  | .unknownName name row => "Unknown key name '" ++ .ofList name ++ "' in row " ++ toString row
  | .repeatedKey name row col first firstRow firstCol =>
    "Key '" ++ .ofList name ++ "' at (" ++ toString row ++ ", " ++ toString col ++
      ") is already mapped as '" ++ .ofList first ++ "' at (" ++ toString firstRow ++ ", " ++
      toString firstCol ++ ")"
  | .wrongCount row count expected =>
    "Row " ++ toString row ++ " has " ++ toString count ++ " keys; expected " ++ toString expected
  | .noRows => "Layout has no rows"

/-- A line counts when it has a word and the first one does not begin with `#`. -/
def isContent : List Word → Bool
  | [] => false
  | word :: _ => word.head? != some '#'

/-- The words of the lines that count, row by row. -/
def rowWords (text : List Char) : List (List Word) := ((lines text).map words).filter isContent

/-- A key that has been named, and where. -/
structure Named where
  code : KeyCode
  name : Word
  row : Nat
  col : Nat

/-- Reads the words of one row from column `col` on. Returns the codes and all keys named so far. -/
def readWords (row : Nat) : (col : Nat) → (seen : List Named) → List Word →
    Except Defect (List KeyCode × List Named)
  | _, seen, [] => .ok ([], seen)
  | col, seen, name :: names =>
    match KeyCode.ofName? name with
    | none => .error (.unknownName name row)
    | some code =>
      if code = KeyCode.noKey then do
        let (codes, seen) ← readWords row (col + 1) seen names
        return (code :: codes, seen)
      else match seen.find? (·.code == code) with
        | some earlier => .error (.repeatedKey name row col earlier.name earlier.row earlier.col)
        | none => do
          let (codes, seen) ← readWords row (col + 1) (⟨code, name, row, col⟩ :: seen) names
          return (code :: codes, seen)

/-- Reads rows of `width` words each, from row `row` on. -/
def readRows (width : Nat) : (row : Nat) → (seen : List Named) → List (List Word) →
    Except Defect (List (List KeyCode))
  | _, _, [] => .ok []
  | row, seen, names :: rest => do
    let (codes, seen) ← readWords row 0 seen names
    if names.length ≠ width then throw (.wrongCount row names.length width)
    return codes :: (← readRows width (row + 1) seen rest)

/-- The codes of a layout text, row by row. -/
def compile (text : List Char) : Except Defect (List (List KeyCode)) :=
  match rowWords text with
  | [] => .error .noRows
  | first :: rest => readRows first.length 0 [] (first :: rest)

/-- The text of a matrix of codes, each under its first name: the rows end in a line feed. -/
def render? (rows : List (List KeyCode)) : Option (List Char) :=
  (rows.mapM (List.mapM KeyCode.name?)).map fun named =>
    (named.map fun names => [' '].intercalate names ++ ['\n']).flatten

end ChordPad.LayoutText
