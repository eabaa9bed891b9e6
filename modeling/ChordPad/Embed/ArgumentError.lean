/-! What is wrong with an argument. Each cause has its message; that for a phrase that is missing
says so when the tokens, or those in the same brackets, are at their end. -/
namespace ChordPad.Embed

inductive Wanted
  | identifier
  /-- A segment after the colons of a path. -/
  | segment
  | expression
  | field
  | delimiter
  | group (opening : Char)
  | lifetime
  /-- A parameter that a type or a bound is for. -/
  | parameter
  | keyword (name : String)
  | integer
  | type
  /-- A type after the parameters that it is for. -/
  | boundType
  /-- What a pointer may do. -/
  | access
  deriving DecidableEq, Repr

/-- What may not follow a conversion without brackets around it. -/
inductive AfterCast
  | await
  | methodCall
  | field
  | question
  | index
  | call
  deriving DecidableEq, Repr

inductive ArgumentError
  | wanted (phrase : Wanted) (atEnd : Bool)
  | markWanted (mark : String)
  | keywordFound (name : List Char)
  /-- An expression of a kind that is of no use here. -/
  | unsupported
  | comparisonsChained
  | castFollowed (what : AfterCast)
  | attributeFound
  /-- A constant has to come next; nothing is said of what else is there. -/
  | constantWanted (atEnd : Bool)
  /-- A bound that is for parameters and may be left out. -/
  | optionalBound
  | traitlessObject
  | traitlessBound
  /-- The number of a field within a field is no token. -/
  | unreadableIndex
  | suffixedIndex
  | signedIndex
  | indexTooLarge
  /-- A token is left at the end, or before the end of a group. -/
  | tokenLeft (opening : Option Char)
  /-- The form is right, but it names no layout. -/
  | notALayout
  deriving DecidableEq, Repr

def shown (text : String) : String := "\x60" ++ text ++ "\x60"

def oneOf (choices : List String) : String := "one of: " ++ ", ".intercalate choices

def Wanted.name : Wanted → String
  | identifier => "identifier"
  | segment => "path segment after " ++ shown "::"
  | expression => "an expression"
  | field => "identifier or integer"
  | delimiter => "delimiter"
  | group opening =>
    if opening == '(' then "parentheses" else if opening == '[' then "square brackets" else "curly braces"
  | lifetime => "lifetime"
  | parameter => oneOf ["identifier", "lifetime", shown "const"]
  | keyword name => shown name
  | integer => "integer literal"
  | type => oneOf [shown "for", "parentheses", shown "fn", shown "unsafe", shown "extern", "identifier",
      shown "::", shown "<", shown "dyn", "square brackets", shown "*", shown "&", shown "!",
      shown "impl", shown "_", "lifetime"]
  | boundType => oneOf ["identifier", shown "fn", shown "unsafe", shown "extern", shown "super",
      shown "self", shown "Self", shown "crate"]
  | access => shown "const" ++ " or " ++ shown "mut"

def AfterCast.name : AfterCast → String
  | await => shown ".await"
  | methodCall => "a method call"
  | field => "a field access"
  | question => shown "?"
  | index => "indexing"
  | call => "a function call"

def ArgumentError.message : ArgumentError → String
  | wanted phrase atEnd =>
    (if atEnd then "unexpected end of input, " else "") ++ "expected " ++ phrase.name
  | markWanted mark => "expected " ++ shown mark
  | keywordFound name => "expected identifier, found keyword " ++ shown (.ofList name)
  | unsupported => "unsupported expression; enable syn's features=[\"full\"]"
  | comparisonsChained => "comparison operators cannot be chained"
  | castFollowed what => "casts cannot be followed by " ++ what.name
  | attributeFound => "unexpected attribute inside of attribute"
  | constantWanted atEnd => if atEnd then "unexpected end of input" else "unexpected token"
  | optionalBound => shown "for<...>" ++ " binder not allowed with " ++ shown "?" ++
      " trait polarity modifier"
  | traitlessObject => "at least one trait is required for an object type"
  | traitlessBound => "at least one trait must be specified"
  | unreadableIndex => "cannot parse string into token stream"
  | suffixedIndex => "expected unsuffixed integer"
  | signedIndex => "invalid digit found in string"
  | indexTooLarge => "number too large to fit in target type"
  | tokenLeft none => "unexpected token"
  | tokenLeft (some opening) => "unexpected token, expected " ++
      shown (if opening == '(' then ")" else if opening == '[' then "]" else "\x7d")
  | notALayout => "Expected a layout string, file = \"path\" or nothing as argument"

end ChordPad.Embed
