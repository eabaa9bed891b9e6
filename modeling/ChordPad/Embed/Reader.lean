import ChordPad.Embed.ArgumentError
import ChordPad.Embed.Literal

/-! Reading tokens from left to right. A reader takes some tokens off the front or refuses them with
an error; a group is read by a reader of its inside, and where that reader leaves tokens in it, the
first such group is remembered. -/
namespace ChordPad.Embed

structure Reading where
  /-- The tokens that are left, within the innermost open group. -/
  tokens : List Token
  /-- The bracket of the first group that has been left before its end. -/
  unread : Option Char := none

abbrev Reader := StateT Reading (Except ArgumentError)

/-! What stands at the front of a row of tokens. -/

/-- What follows these marks, all but the last of them joined to the next. -/
def afterMarks? : List Char → List Token → Option (List Token)
  | [], tokens => some tokens
  | [c], .mark d _ :: tokens => if c = d then some tokens else none
  | c :: cs, .mark d true :: tokens => if c = d then afterMarks? cs tokens else none
  | _, _ => none

/-- The marks of a text, each of them written out. -/
def startsMarks (marks : String) (tokens : List Token) : Bool := (afterMarks? marks.toList tokens).isSome

def startsOneOf (choices : List String) (tokens : List Token) : Bool := choices.any (startsMarks · tokens)

def startsWord (name : String) : List Token → Bool
  | .word found :: _ => String.ofList found == name
  | _ => false

def startsGroup (opening : Char) : List Token → Bool
  | .group found _ :: _ => found == opening
  | _ => false

def keywords : List String := [
  "_", "abstract", "as", "async", "await", "become", "box", "break", "const", "continue", "crate",
  "do", "dyn", "else", "enum", "extern", "false", "final", "fn", "for", "if", "impl", "in", "let",
  "loop", "macro", "match", "mod", "move", "mut", "override", "priv", "pub", "ref", "return", "Self",
  "self", "static", "struct", "super", "trait", "true", "try", "type", "typeof", "unsafe", "unsized",
  "use", "virtual", "where", "while", "yield"]

def isKeyword (name : List Char) : Bool := keywords.contains (String.ofList name)

/-- Keywords that may stand in a path all the same. -/
def isPathKeyword (name : List Char) : Bool :=
  ["self", "Self", "super", "crate"].contains (String.ofList name)

def startsName : List Token → Bool
  | .word name :: _ => !isKeyword name
  | _ => false

def startsSegment : List Token → Bool
  | .word name :: _ => !isKeyword name || isPathKeyword name
  | _ => false

/-- A lifetime is a quote and the word that it is joined to. -/
def startsLifetime : List Token → Bool
  | .mark '\'' true :: .word _ :: _ => true
  | _ => false

/-- What follows a literal, a number with its sign being one. -/
def afterLiteral? : List Token → Option (List Token)
  | .text _ :: rest | .number _ :: rest | .literal :: rest => some rest
  | .mark '-' _ :: .number _ :: rest => some rest
  | .word name :: rest => if ["true", "false"].contains (String.ofList name) then some rest else none
  | _ => none

/-- What follows the first token; a lifetime counts as one. -/
def skip : List Token → List Token
  | .mark '\'' true :: .word _ :: rest => rest
  | _ :: rest => rest
  | [] => []

namespace Reader

/-! Readers of one token. -/

def ahead : Reader (List Token) := return (← get).tokens

def goTo (tokens : List Token) : Reader Unit := modify ({ · with tokens })

/-- The phrase has to come next, and it does not. -/
def refuse (phrase : Wanted) : Reader α := do throw (.wanted phrase (← ahead).isEmpty)

def marks? (marks : String) : Reader Bool := do
  match afterMarks? marks.toList (← ahead) with
  | some rest =>
    goTo rest
    return true
  | none => return false

def marks (marks : String) : Reader Unit := do
  unless ← marks? marks do throw (.markWanted marks)

/-- Reads the first of these marks that come next. -/
def oneOfMarks? : List String → Reader (Option String)
  | [] => return none
  | first :: others => do if ← marks? first then return some first else oneOfMarks? others

def word? (name : String) : Reader Bool := do
  let tokens ← ahead
  if startsWord name tokens then
    goTo tokens.tail
    return true
  return false

def word (name : String) : Reader Unit := do
  unless ← word? name do refuse (.keyword name)

def name : Reader (List Char) := do
  match ← ahead with
  | .word name :: rest =>
    if isKeyword name then throw (.keywordFound name)
    goTo rest
    return name
  | _ => refuse .identifier

def lifetime : Reader Unit := do
  let tokens ← ahead
  if startsLifetime tokens then goTo (skip tokens) else refuse .lifetime

def anyGroup : Reader Unit := do
  match ← ahead with
  | .group _ _ :: rest => goTo rest
  | _ => refuse .delimiter

/-! Larger readers out of smaller ones. -/

/-- Reads a group in these brackets and its inside, and then what `next` reads after it. Tokens left
in the group count after those left in groups that `next` reads. -/
def withinThen (opening : Char) (inside : Reader α) (next : α → Reader β) : Reader β := do
  match ← ahead with
  | .group found tokens :: rest =>
    if found ≠ opening then refuse (.group opening)
    goTo tokens
    let a ← inside
    let left := !(← ahead).isEmpty
    goTo rest
    let b ← next a
    modify fun r => { r with unread := r.unread.or (if left then some opening else none) }
    return b
  | _ => refuse (.group opening)

def within (opening : Char) (inside : Reader α) : Reader α := withinThen opening inside pure

def repeatAtMost (step : α → Reader (ForInStep α)) : Nat → α → Reader α
  | 0, a => return a
  | n + 1, a => do
    match ← step a with
    | .done a => return a
    | .yield a => repeatAtMost step n a

/-- Repeats a step until it is done. A step that is not done has read a token, so there are no more
of them than tokens. -/
def repeated (step : α → Reader (ForInStep α)) (a : α) : Reader α := do
  repeatAtMost step ((← ahead).length + 1) a

/-- Reads items up to a point, with commas between them and perhaps after them. -/
def listed (atEnd : List Token → Bool) (item : Reader Unit) : Reader Unit :=
  repeated (fun _ => do
    if atEnd (← ahead) then return .done ()
    item
    if atEnd (← ahead) then return .done ()
    marks ","
    return .yield ()) ()

/-- Reads items up to a point, with pluses between them and perhaps after them. Whatever follows an
item without a plus is left. -/
def summed (atEnd : List Token → Bool) (item : Reader Unit) : Reader Unit :=
  repeated (fun _ => do
    if atEnd (← ahead) then return .done ()
    item
    unless ← marks? "+" do return .done ()
    return .yield ()) ()

def listWithin (opening : Char) (item : Reader Unit) : Reader Unit :=
  within opening (listed List.isEmpty item)

end Reader
end ChordPad.Embed
