import ChordPad.Embed.Phrase.Path

/-! Types: paths, references and pointers, functions, groups of types in parentheses or square
brackets, and objects known by the traits that bound them. -/
namespace ChordPad.Embed.Phrases
open Reader

variable (p : Phrases)

def object (plus : Bool) : Reader TypeForm := do
  unless (← p.bounds plus false).hasTrait do throw .traitlessObject
  return .other

/-- Reads bounds of which every one has a plus before it, after a first one. -/
def plusBounds (form : TypeForm) : Reader TypeForm :=
  repeated (fun form => do
    unless ← marks? "+" do return .done form
    discard p.lifetimeOrTrait
    return .yield .other) form

inductive Opening
  | closed
  /-- A bound that may be left out. -/
  | optional
  | first (form : TypeForm)

/-- Reads what is in parentheses as a type: none or several, one, or a bound that may be left out. -/
def insideParentheses : Reader Opening := do
  let tokens ← ahead
  if tokens.isEmpty then return .closed
  if startsLifetime tokens then
    discard (p.object true)
    return .closed
  if startsMarks "?" tokens then
    p.trait
    return .optional
  let first ← p.type true
  unless ← marks? "," do return .first first
  listed List.isEmpty (discard (p.type true))
  return .closed

/-- Reads types in parentheses, and more bounds after the parentheses around a bound. -/
def parenthesized (plus : Bool) : Reader TypeForm :=
  withinThen '(' p.insideParentheses fun
    | .closed => return .other
    | .optional => p.plusBounds .bound
    | .first form => do
      let bounds := match form with
        | .path form => !form.qualified
        | .bound => true
        | .other => false
      if plus && bounds then discard (p.plusBounds .other)
      return .other

/-- Reads one parameter of a function type. The first one may be `self`, without a type. -/
def functionParameter (first : Bool) : Reader Unit := do
  let startsVarying (tokens : List Token) : Bool :=
    first && startsWord "mut" tokens && startsWord "self" (skip tokens)
  let varying := startsVarying (← ahead)
  if varying then discard (word? "mut")
  let tokens ← ahead
  let itself := first && startsWord "self" tokens
  let named := (startsName tokens || startsWord "_" tokens || itself) &&
    startsMarks ":" (skip tokens) && !startsMarks "::" (skip tokens)
  if named then
    goTo (skip tokens)
    marks ":"
  let tokens ← ahead
  if startsVarying tokens && !(named && itself) then goTo (skip (skip tokens))
  else if varying && !named then word "self"
  else discard (p.type true)

def startsRest (tokens : List Token) : Bool :=
  startsMarks "..." tokens ||
    ((startsName tokens || startsWord "_" tokens) && startsMarks ":" (skip tokens) &&
      startsMarks "..." (skip (skip tokens)))

def functionParameters : Reader Unit :=
  discard <| repeated (fun first => do
    if (← ahead).isEmpty then return .done first
    p.attributes
    let tokens ← ahead
    if startsRest tokens then
      unless startsMarks "..." tokens do goTo (skip (skip tokens))
      marks "..."
      discard (marks? ",")
      return .done first
    p.functionParameter first
    if (← ahead).isEmpty then return .done first
    marks ","
    return .yield false) true

def function : Reader TypeForm := do
  discard (word? "unsafe")
  if ← word? "extern" then
    match ← ahead with
    | .text _ :: rest => goTo rest
    | _ => pure ()
  word "fn"
  withinThen '(' p.functionParameters fun _ => p.result
  return .other

/-- Reads a type that is a path, with the bounds that a plus adds to it. -/
def pathType (plus bound : Bool) : Reader TypeForm := do
  let form ← p.path false
  if form.qualified then return .path form
  let tokens ← ahead
  if startsMarks "!" tokens && !startsMarks "!=" tokens && form.isPlain then
    marks "!"
    anyGroup
    return .other
  unless bound || (plus && startsMarks "+" tokens) do return .path form
  unless plus do return .bound
  return if (← p.moreBounds false ⟨true, true⟩).single then .bound else .other

def otherType (plus : Bool) : Reader TypeForm := do
  if ← word? "dyn" then
    discard (marks? "*")
    return ← p.object plus
  if startsGroup '[' (← ahead) then
    within '[' do
      discard (p.type true)
      if ← marks? ";" then p.expression
    return .other
  if ← marks? "*" then
    unless ← word? "const" do
      unless ← word? "mut" do refuse .access
    discard (p.type false)
    return .other
  if ← marks? "&" then
    if startsLifetime (← ahead) then lifetime
    discard (word? "mut")
    discard (p.type false)
    return .other
  if ← marks? "!" then return .other
  if ← word? "impl" then
    unless (← p.bounds plus true).hasTrait do throw .traitlessBound
    return .other
  if ← word? "_" then return .other
  if startsLifetime (← ahead) then return ← p.object true
  refuse .type

def startsFunction (tokens : List Token) : Bool :=
  ["fn", "unsafe", "extern"].any (startsWord · tokens)

def typeName (plus : Bool) : Reader TypeForm := do
  let bound ← p.forParameters?
  let tokens ← ahead
  if bound && !startsSegment tokens && !startsFunction tokens then refuse .boundType
  if startsGroup '(' tokens then p.parenthesized plus
  else if startsFunction tokens then p.function
  else if startsSegment tokens || startsMarks "::" tokens || startsMarks "<" tokens then
    p.pathType plus bound
  else p.otherType plus

end ChordPad.Embed.Phrases
