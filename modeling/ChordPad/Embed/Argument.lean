import ChordPad.Embed.Phrase

/-! The argument under which a layout is embedded: nothing, a string with the layout, or
`file = "path"`. Everything else is refused, with a message for the first token that does not fit
into `path = expression`, or one for an argument that has this form and another meaning. -/
namespace ChordPad.Embed

inductive Argument
  | usual
  | text (layout : List Char)
  | file (path : List Char)
  deriving DecidableEq, Repr

namespace Argument

/-- Reads `path = expression`: the names of the path, and the text if the expression is a string. -/
def assignment (p : Phrases) : Reader (List (List Char) × Option (List Char)) := do
  return (← Phrases.plainPath, ← p.value)

/-- Reads all of the tokens. Of those that are left, the ones in brackets count first. -/
def readAll (reader : Reader α) (tokens : List Token) : Except ArgumentError α := do
  let (a, rest) ← reader.run ⟨tokens, none⟩
  if rest.unread.isSome then throw (.tokenLeft rest.unread)
  if !rest.tokens.isEmpty then throw (.tokenLeft none)
  return a

def ofTokens (tokens : List Token) : Except ArgumentError Argument :=
  match tokens with
  | [] => .ok .usual
  | [.text layout] => .ok (.text layout)
  | _ => do
    let (names, value) ← readAll (assignment (phrases tokens)) tokens
    match value with
    | some path => if names = ["file".toList] then return .file path else throw .notALayout
    | none => throw .notALayout

end Argument
end ChordPad.Embed
