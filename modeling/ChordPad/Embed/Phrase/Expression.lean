import ChordPad.Embed.Phrase.Path
import ChordPad.Text.Words

/-! Expressions: operands with signs before them and calls, fields and indices after them, between
operators. Of the operands with a body of their own only a block that is one expression is known. -/
namespace ChordPad.Embed.Phrases
open Reader

variable (p : Phrases)

/-- Checks the number of a field, which has a sign or not. -/
def checkIndex (signed : Bool) (written : List Char) : Except ArgumentError Unit :=
  if afterNumber? written ≠ some [] then .error .unreadableIndex
  else match whole? written with
  | none => .error (.wanted .integer false)
  | some (value, suffix) =>
    if suffix ≠ [] then .error .suffixedIndex
    else if signed then .error .signedIndex
    else if UInt32.size ≤ value then .error .indexTooLarge
    else .ok ()

/-- A number at the front: whether it has a sign, how it is written, and what follows. -/
def frontNumber? : List Token → Option (Bool × List Char × List Token)
  | .number written :: rest => some (false, written, rest)
  | .mark '-' _ :: .number written :: rest => some (true, written, rest)
  | _ => none

/-- Reads the name or the number of a field; the answer is true for a name. -/
def field : Reader Bool := do
  let tokens ← ahead
  if startsName tokens then
    goTo tokens.tail
    return true
  match frontNumber? tokens with
  | some (signed, written, rest) =>
    if (whole? written).isNone then refuse .field
    checkIndex signed written
    goTo rest
    return false
  | none => refuse .field

/-- Reads the numbers of fields within fields, which together look like a number with a point. The
answer is false if another field has to follow. -/
def fieldsOfFields? : Reader Bool := do
  match frontNumber? (← ahead) with
  | some (signed, written, rest) =>
    if (whole? written).isSome then return false
    let parts := Text.pieces (· == '.') written
    for (part, i) in parts.zipIdx do
      unless part.isEmpty && i + 1 == parts.length do checkIndex (signed && i == 0) part
    goTo rest
    return written.getLast? != some '.'
  | none => return false

/-- Reads what follows the dot after an operand: a field, or a method and its arguments. -/
def member : Reader Unit := do
  if ← fieldsOfFields? then return
  if ← field then
    if ← marks? "::" then
      discard p.genericArguments
      listWithin '(' p.expression

/-- A field or a method follows, and not a range or a wait. -/
def startsMember (tokens : List Token) : Bool :=
  startsMarks "." tokens && !startsMarks ".." tokens && !startsWord "await" (skip tokens)

/-- Reads calls, indices, fields and methods after an operand. -/
def trailing : Reader Unit :=
  repeated (fun _ => do
    let tokens ← ahead
    if startsGroup '(' tokens then listWithin '(' p.expression
    else if startsGroup '[' tokens then within '[' p.expression
    else if startsMember tokens then
      marks "."
      p.member
    else return .done ()
    return .yield ()) ()

/-- Reads one field of a structure; a name alone is its own value. -/
def fieldValue : Reader Unit := do
  p.attributes
  if ← field then
    if ← marks? ":" then p.expression
  else
    marks ":"
    p.expression

/-- Reads the fields of a structure, and after two dots the rest of them. -/
def fieldValues : Reader Unit :=
  repeated (fun _ => do
    if (← ahead).isEmpty then return .done ()
    if ← marks? ".." then
      unless (← ahead).isEmpty do p.expression
      return .done ()
    p.fieldValue
    if (← ahead).isEmpty then return .done ()
    marks ","
    return .yield ()) ()

/-- Reads a path, and the structure or the use of a macro that it begins. -/
def pathOperand : Reader Unit := do
  let form ← p.path true
  let tokens ← ahead
  if !form.qualified && startsMarks "!" tokens && !startsMarks "!=" tokens && form.isPlain then
    marks "!"
    anyGroup
  else if startsGroup '\x7b' tokens then within '\x7b' p.fieldValues

/-- Reads a block that is one expression; any other expression is refused for its kind. -/
def block : Reader Unit := do
  match ← ahead with
  | .group '\x7b' inside :: rest =>
    match p.expression.run ⟨inside, none⟩ with
    | .ok ((), ⟨[], unread⟩) => modify fun r => ⟨rest, r.unread.or unread⟩
    | _ => throw .unsupported
  | _ => throw .unsupported

def operand : Reader Unit := do
  let tokens ← ahead
  if tokens.isEmpty then refuse .expression
  match afterLiteral? tokens with
  | some rest => goTo rest
  | none =>
    if startsGroup '(' tokens then listWithin '(' p.expression
    else if startsSegment tokens || startsMarks "::" tokens || startsMarks "<" tokens then p.pathOperand
    else p.block
  p.trailing

def signed : Reader Unit := do
  repeated (fun _ => do
    match ← oneOfMarks? ["&", "*", "!", "-"] with
    | none => return .done ()
    | some sign =>
      if sign == "&" then discard (word? "mut")
      return .yield ()) ()
  p.operand

def comparisons : List String := ["==", "!=", "<=", ">=", "<", ">"]

/-- Operators that bind less than a comparison. -/
def looseOperators : List String :=
  ["+=", "-=", "*=", "/=", "%=", "^=", "&=", "|=", "<<=", ">>=", "&&", "||"]

/-- The operators, each before those that it begins with. -/
def operators : List String :=
  looseOperators ++ ["<<", ">>", "==", "<=", "!=", ">=", "+", "-", "*", "/", "%", "^", "&", "|", "<", ">"]

/-- What may not follow a conversion, if it does. -/
def afterCast? : List Token → Option AfterCast
  | .mark '.' joined :: rest =>
    if startsMarks ".." (.mark '.' joined :: rest) then none
    else if startsWord "await" rest then some .await
    else if startsName rest && (startsGroup '(' (skip rest) || startsMarks "::" (skip rest)) then
      some .methodCall
    else some .field
  | .mark '?' _ :: _ => some .question
  | .group '[' _ :: _ => some .index
  | .group '(' _ :: _ => some .call
  | _ => none

/-- Reads an expression. The result of a comparison is not compared, unless an operator that binds
less stands between. -/
def operation : Reader Unit := do
  p.signed
  discard <| repeated (fun compared => do
    match ← oneOfMarks? operators with
    | some operator =>
      if compared && comparisons.contains operator then throw .comparisonsChained
      p.signed
      return .yield (comparisons.contains operator || (compared && !looseOperators.contains operator))
    | none =>
      unless ← word? "as" do return .done compared
      discard (p.type false)
      match afterCast? (← ahead) with
      | some what => throw (.castFollowed what)
      | none => return .yield compared) false

end ChordPad.Embed.Phrases
