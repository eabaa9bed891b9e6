import ChordPad.Embed.Reader

/-! Paths: names joined by double colons, each with arguments of its own, perhaps after a type in
angle brackets. With them the phrases that belong to a path: generic arguments, bounds, parameters
that a bound is for, and attributes. -/
namespace ChordPad.Embed

/-- The arguments of one segment of a path. -/
inductive Arguments
  | none
  | generic (empty : Bool)
  deriving DecidableEq, Repr

structure PathForm where
  /-- It begins with a type in angle brackets. -/
  qualified : Bool
  rooted : Bool
  segments : List Arguments
  deriving DecidableEq, Repr

namespace PathForm

def isPlain (form : PathForm) : Bool := form.segments.all (· == .none)

/-- As the path of a trait it may have types in parentheses. -/
def takesTypes (form : PathForm) : Bool :=
  match form.segments.getLast? with
  | some .none | some (.generic true) => true
  | _ => false

/-- One name, which may be that of an associated type. -/
def isSingle (form : PathForm) : Bool := !form.qualified && !form.rooted && form.segments.length == 1

end PathForm

inductive TypeForm
  | path (form : PathForm)
  /-- One bound of an object. -/
  | bound
  | other
  deriving DecidableEq, Repr

structure Bounds where
  /-- There is one of them, and no plus. -/
  single : Bool
  hasTrait : Bool

/-- Readers of the phrases that hold themselves: paths, types and expressions are read by means of
readers for what is within them. -/
structure Phrases where
  expression : Reader Unit
  /-- Reads a type, in which bounds may be added by a plus or not. -/
  type : (plus : Bool) → Reader TypeForm
  /-- Reads a lifetime or a trait as a bound; the answer is true for a trait. -/
  bound : Reader Bool

namespace Phrases
open Reader

def plainSegments (names : List (List Char)) : Reader (List (List Char)) :=
  repeated (fun names => do
    unless ← marks? "::" do return .done names
    match ← ahead with
    | .word name :: rest =>
      unless startsSegment [.word name] do refuse .segment
      goTo rest
      return .yield (names ++ [name])
    | _ => refuse .segment) names

/-- Reads the path of an attribute: its names, the first of them empty if it begins with a double
colon. -/
def plainPath : Reader (List (List Char)) := do
  if ← word? "unsafe" then return ["unsafe".toList]
  let root := if ← marks? "::" then [[]] else []
  match ← ahead with
  | .word first :: rest =>
    unless startsSegment [.word first] do throw (.keywordFound first)
    goTo rest
    plainSegments (root ++ [first])
  | _ => refuse .identifier

variable (p : Phrases)

/-- Reads the value that an equals sign gives: the text, if it is a string and nothing else. -/
def value : Reader (Option (List Char)) := do
  marks "="
  match ← ahead with
  | [.text text] =>
    goTo []
    return some text
  | .mark '#' _ :: .group '[' _ :: _ => throw .attributeFound
  | _ =>
    p.expression
    return none

def attributes : Reader Unit :=
  repeated (fun _ => do
    unless ← marks? "#" do return .done ()
    within '[' do
      discard plainPath
      match ← ahead with
      | .group _ _ :: rest => goTo rest
      | tokens => if startsMarks "=" tokens && !startsOneOf ["==", "=>"] tokens then discard p.value
    return .yield ()) ()

def constant : Reader Unit := do
  let tokens ← ahead
  match afterLiteral? tokens with
  | some rest => goTo rest
  | none =>
    if startsName tokens then goTo tokens.tail
    else if startsGroup '\x7b' tokens then within '\x7b' p.expression
    else throw (.constantWanted tokens.isEmpty)

/-- Reads a parameter: a type with its bounds and its default, a lifetime with those that it outlives,
or a constant with its type and its default. -/
def parameter : Reader Unit := do
  p.attributes
  let tokens ← ahead
  if startsName tokens then
    goTo tokens.tail
    if ← marks? ":" then
      summed (fun tokens => tokens.isEmpty || startsOneOf [",", ">", "="] tokens) (discard p.bound)
    if ← marks? "=" then discard (p.type true)
  else if startsLifetime tokens then
    lifetime
    if ← marks? ":" then
      summed (fun tokens => tokens.isEmpty || startsOneOf [",", ">"] tokens) lifetime
  else if ← word? "const" then
    discard name
    marks ":"
    discard (p.type true)
    if ← marks? "=" then p.constant
  else refuse .parameter

/-- Reads the parameters that a type or a bound is for, if it names any. -/
def forParameters? : Reader Bool := do
  unless ← word? "for" do return false
  marks "<"
  listed (startsMarks ">") p.parameter
  marks ">"
  return true

def startsConstant (tokens : List Token) : Bool :=
  (afterLiteral? tokens).isSome || startsGroup '\x7b' tokens

/-- Reads a lifetime, a constant, a type, or what an associated type or constant is or is bounded by. -/
def genericArgument : Reader Unit := do
  let tokens ← ahead
  if startsLifetime tokens && !startsMarks "+" (skip tokens) then lifetime
  else if startsConstant tokens then p.constant
  else match ← p.type true with
    | .path form =>
      if form.isSingle then
        if ← marks? "=" then
          if startsConstant (← ahead) then p.constant else discard (p.type true)
        else if ← marks? ":" then summed (startsOneOf [",", ">"]) (discard p.bound)
    | _ => return

/-- Reads generic arguments in angle brackets. Were there none, the closing one would come next. -/
def genericArguments : Reader Arguments := do
  marks "<"
  let empty := startsMarks ">" (← ahead)
  listed (startsMarks ">") p.genericArgument
  marks ">"
  return .generic empty

/-- Reads one segment of a path. In an expression its arguments follow a double colon, since the
angle bracket alone would compare. -/
def segment (inExpression : Bool) : Reader Arguments := do
  for keyword in ["super", "self", "crate"] do
    if ← word? keyword then return .none
  unless ← word? "Self" do discard name
  let tokens ← ahead
  let opens := startsMarks "<" tokens && !startsMarks "<=" tokens && !startsMarks "<<=" tokens
  if (!inExpression && opens) || (startsMarks "::" tokens && startsMarks "<" (skip (skip tokens))) then
    discard (marks? "::")
    p.genericArguments
  else return .none

/-- Reads a path that begins with a name. A parenthesis after a double colon does not belong to it. -/
def namedPath (inExpression : Bool) : Reader PathForm := do
  let rooted ← marks? "::"
  let first ← p.segment inExpression
  let segments ← repeated (fun segments => do
    let tokens ← ahead
    if startsGroup '(' (skip (skip tokens)) then return .done segments
    unless ← marks? "::" do return .done segments
    return .yield (segments ++ [← p.segment inExpression])) [first]
  return ⟨false, rooted, segments⟩

/-- Reads a path that may begin with a type in angle brackets, and the trait that it is seen as. -/
def path (inExpression : Bool) : Reader PathForm := do
  unless ← marks? "<" do return ← p.namedPath inExpression
  discard (p.type true)
  if ← word? "as" then discard (p.namedPath false)
  marks ">"
  marks "::"
  let first ← p.segment inExpression
  let segments ← repeated (fun segments => do
    unless ← marks? "::" do return .done segments
    return .yield (segments ++ [← p.segment inExpression])) [first]
  return ⟨true, false, segments⟩

def result : Reader Unit := do
  if ← marks? "->" then discard (p.type false)

/-- Reads the types in parentheses and the result that the path of a trait may have. -/
def traitTypes (form : PathForm) : Reader Unit := do
  let tokens ← ahead
  if form.takesTypes && (startsGroup '(' tokens ||
      (startsMarks "::" tokens && startsGroup '(' (skip (skip tokens)))) then
    discard (marks? "::")
    withinThen '(' (listed List.isEmpty (discard (p.type true))) fun _ => p.result

def trait : Reader Unit := do
  let named ← p.forParameters?
  let optional ← marks? "?"
  let named ← if optional && !named then p.forParameters? else pure named
  p.traitTypes (← p.namedPath false)
  if optional && named then throw .optionalBound

def lifetimeOrTrait : Reader Bool := do
  let tokens ← ahead
  if startsLifetime tokens then
    lifetime
    return false
  if startsGroup '(' tokens then within '(' p.trait else p.trait
  return true

/-- A bound may begin here. Before a type to be chosen by its bounds a bracket counts too, although
no bound begins with it. -/
def startsBound (chosen : Bool) (tokens : List Token) : Bool :=
  match tokens with
  | .word _ :: _ => true
  | _ => startsOneOf ["::", "?"] tokens || startsLifetime tokens || startsGroup '(' tokens ||
    (chosen && startsGroup '[' tokens)

/-- Reads the bounds that follow a first one, each after a plus; the last plus needs none. -/
def moreBounds (chosen : Bool) (found : Bounds) : Reader Bounds :=
  repeated (fun found => do
    unless ← marks? "+" do return .done found
    unless startsBound chosen (← ahead) do return .done { found with single := false }
    return .yield ⟨false, (← p.lifetimeOrTrait) || found.hasTrait⟩) found

def bounds (plus chosen : Bool) : Reader Bounds := do
  let first : Bounds := ⟨true, ← p.lifetimeOrTrait⟩
  if plus then p.moreBounds chosen first else return first

end Phrases
end ChordPad.Embed
