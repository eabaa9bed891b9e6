import ChordPad.KeyCode

/-! Names of keys. `KeyCode.ofName?` reads a name: a letter or a digit, `f` with a number, or one of
the listed names, where case, `-` and `_` do not count in a name of several characters.
`KeyCode.name?` writes the name under which a code is listed first. -/
namespace ChordPad

/-- A code and the names that stand for it, the preferred one first. -/
structure KeyName where
  code : KeyCode
  first : String
  others : List String

namespace KeyName

def names (entry : KeyName) : List String := entry.first :: entry.others

def letters : List Char := "abcdefghijklmnopqrstuvwxyz".toList

def digits : List Char := "1234567890".toList

def listed : List KeyName := [
  ⟨.noKey, "noop", ["_"]⟩,
  ⟨0x28, "Return", ["Enter", "ent"]⟩,
  ⟨0x29, "Escape", ["esc"]⟩,
  ⟨0x2a, "Backspace", ["bksp"]⟩,
  ⟨0x2b, "Tab", []⟩,
  ⟨0x2c, "Spacebar", ["space", "spc"]⟩,
  ⟨0x2d, "Dash", ["-", "minus"]⟩,
  ⟨0x2e, "Equals", ["=", "equal"]⟩,
  ⟨0x2f, "LeftBrace", ["[", "leftsquarebracket"]⟩,
  ⟨0x30, "RightBrace", ["]", "rightsquarebracket"]⟩,
  ⟨0x31, "Backslash", ["\\"]⟩,
  ⟨0x33, "Semicolon", [";"]⟩,
  ⟨0x34, "LeftApos", ["'", "apostrophe", "quote"]⟩,
  ⟨0x35, "GraveAccent", ["\x60", "grave"]⟩,
  ⟨0x36, "Comma", [","]⟩,
  ⟨0x37, "Period", [".", "dot"]⟩,
  ⟨0x38, "Forwardslash", ["slash"]⟩,
  ⟨0x39, "CapsLock", []⟩,
  ⟨0x46, "Printscreen", ["print"]⟩,
  ⟨0x47, "ScrollLock", []⟩,
  ⟨0x48, "Pause", []⟩,
  ⟨0x49, "Insert", ["ins"]⟩,
  ⟨0x4a, "Home", []⟩,
  ⟨0x4b, "PageUp", ["pgup"]⟩,
  ⟨0x4c, "Delete", ["del"]⟩,
  ⟨0x4d, "End", []⟩,
  ⟨0x4e, "PageDown", ["pgdn"]⟩,
  ⟨0x4f, "Right", []⟩,
  ⟨0x50, "Left", []⟩,
  ⟨0x51, "Down", []⟩,
  ⟨0x52, "Up", []⟩,
  ⟨0xe0, "LeftCtrl", ["lctl"]⟩,
  ⟨0xe1, "LeftShift", ["lsft"]⟩,
  ⟨0xe2, "LeftAlt", ["lalt"]⟩,
  ⟨0xe3, "LeftGui", ["lgui"]⟩,
  ⟨0xe4, "RightCtrl", ["rctl"]⟩,
  ⟨0xe5, "RightShift", ["rsft"]⟩,
  ⟨0xe6, "RightAlt", ["ralt"]⟩,
  ⟨0xe7, "RightGui", ["rgui"]⟩]

/-- One ASCII character: a name that is matched exactly. -/
def isSingle : List Char → Bool
  | [c] => c.val < 128
  | _ => false

/-- What counts of a longer name: `-` and `_` left out, ASCII letters in lower case. -/
def normal (name : List Char) : List Char :=
  (name.filter fun c => c != '-' && c != '_').map Char.toLower

def same (a b : List Char) : Bool :=
  if isSingle a || isSingle b then a == b else normal a == normal b

def covers (entry : KeyName) (name : List Char) : Bool :=
  entry.names.any fun n => same n.toList name

/-- The value of a row of decimal digits, most significant first. -/
def decimal? : List Char → Option Nat
  | [] => none
  | ds => if ds.all Char.isDigit then some (ds.foldl (fun n d => 10 * n + (d.toNat - 48)) 0) else none

/-- A number of one byte: decimal digits, with at most one `+` before them. -/
def byte? (text : List Char) : Option Nat :=
  (decimal? (match text with | '+' :: ds => ds | ds => ds)).filter (· < 256)

/-- The number of a function key, from 1 to 12, after the letter `f` in either case. -/
def functionNumber? : List Char → Option Nat
  | 'f' :: rest | 'F' :: rest => (byte? rest).filter fun n => 1 ≤ n && n ≤ 12
  | _ => none

/-- The code of a letter or a digit that stands alone. -/
def letterOrDigit? : List Char → Option KeyCode
  | [c] =>
    match letters.idxOf? c.toLower with
    | some i => some (.letterA + .ofNat i)
    | none => (digits.idxOf? c).map fun i => .digit1 + .ofNat i
  | _ => none

end KeyName

namespace KeyCode
open KeyName

/-- The code that a key name stands for. -/
def ofName? (name : List Char) : Option KeyCode :=
  letterOrDigit? name
    |>.or ((functionNumber? name).map fun n => function1 + .ofNat n - 1)
    |>.or ((listed.find? (·.covers name)).map (·.code))

def name? (code : KeyCode) : Option (List Char) :=
  (letters[(code - letterA).toNat]?).map ([·])
    |>.or ((digits[(code - digit1).toNat]?).map ([·]))
    |>.or (if (code - function1).toNat < 12
        then some ('F' :: (toString ((code - function1).toNat + 1)).toList) else none)
    |>.or ((listed.find? (·.code == code)).map (·.first.toList))

end KeyCode
end ChordPad
