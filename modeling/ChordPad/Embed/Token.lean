/-! Tokens of the argument under which a layout is embedded in a program: words, punctuation marks,
literals, and groups of tokens in brackets. -/
namespace ChordPad.Embed

inductive Token
  /-- A name or a keyword. A raw name keeps its mark. -/
  | word (name : List Char)
  /-- A punctuation mark; it is joined when another one follows at once. -/
  | mark (char : Char) (joined : Bool)
  /-- A string, with its escapes read. -/
  | text (value : List Char)
  /-- A number as it is written, with its suffix. -/
  | number (written : List Char)
  /-- A character, a byte, a string of bytes, or a literal that could not be read. -/
  | literal
  | group (opening : Char) (inside : List Token)

mutual

/-- The number of tokens in a token, those within its brackets included. -/
def Token.count : Token → Nat
  | .group _ inside => 1 + Token.countAll inside
  | _ => 1

def Token.countAll : List Token → Nat
  | [] => 0
  | t :: ts => t.count + Token.countAll ts

end

def closing (opening : Char) : Char :=
  if opening == '(' then ')' else if opening == '[' then ']' else '\x7d'

end ChordPad.Embed
