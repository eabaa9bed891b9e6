import ChordPad.Embed.Literal
import ChordPad.Text.Blank

/-! Tokens out of a text: first a row of lexemes, in which brackets still stand alone, then the
lexemes between matching brackets gathered into groups. Blanks and comments leave nothing, except
that a comment for documentation counts as an attribute. -/
namespace ChordPad.Embed
open ChordPad.Text

inductive Lexeme
  | token (t : Token)
  | opening (bracket : Char)
  | closing (bracket : Char)

def markChars : List Char := "~!@#$%^&*-=+|;:,<.>/?'".toList

/-- A punctuation mark begins here, and not a comment. -/
def startsMark : List Char → Bool
  | '/' :: '/' :: _ => false
  | '/' :: '*' :: _ => false
  | c :: _ => markChars.contains c
  | [] => false

/-- What follows a comment in `depth` open comments. -/
def afterComment? : (depth : Nat) → List Char → Option (List Char)
  | 0, cs => some cs
  | _ + 1, [] => none
  | depth + 1, '*' :: '/' :: cs => afterComment? depth cs
  | depth + 1, '/' :: '*' :: cs => afterComment? (depth + 2) cs
  | depth + 1, _ :: cs => afterComment? (depth + 1) cs

def hasLoneReturn : List Char → Bool
  | [] => false
  | '\r' :: '\n' :: cs => hasLoneReturn cs
  | c :: cs => c == '\r' || hasLoneReturn cs

/-- The attribute that a comment for documentation counts as. -/
def documentation? (inner : Bool) (text : List Char) : Option (List Lexeme) :=
  if hasLoneReturn text then none
  else some (.token (.mark '#' false) :: (if inner then [.token (.mark '!' false)] else []) ++
    [.opening '[', .token (.word "doc".toList), .token (.mark '=' false), .token (.text text), .closing ']'])

/-- Reads a comment up to the end of the line, after its two slashes. A third one is for
documentation, and a fourth one is not. -/
def lineComment? (cs : List Char) : Option (List Lexeme × List Char) :=
  let rest := cs.dropWhile (· != '\n')
  let line := cs.takeWhile (· != '\n')
  let line := if rest != [] && line.getLast? == some '\r' then line.dropLast else line
  (match line with
    | '/' :: '/' :: _ => some []
    | '/' :: text => documentation? false text
    | '!' :: text => documentation? true text
    | _ => some []).map fun found => (found, rest)

/-- Reads a comment that may hold others, after its slash and its star. A second star is for
documentation, unless a third one or the end of the comment follows at once. -/
def blockComment? (cs : List Char) : Option (List Lexeme × List Char) := do
  let rest ← afterComment? 1 cs
  let text := cs.take (cs.length - rest.length - 2)
  let found ← match cs with
    | '*' :: '*' :: _ | '*' :: '/' :: _ => some []
    | '*' :: _ => documentation? false text.tail
    | '!' :: _ => documentation? true text.tail
    | _ => some []
  return (found, rest)

/-- Beginnings of literals, which no name has. -/
def literalBeginnings : List String :=
  ["r\"", "r#\"", "r##", "b\"", "b'", "br\"", "br#", "c\"", "cr\"", "cr#"]

/-- A name, raw or not, and what follows it. -/
def nameAhead? (cs : List Char) : Option (List Char × List Char) :=
  let plain (cs : List Char) : Option (List Char × List Char) :=
    if cs.head?.any isNameStart then some (cs.takeWhile isNamePart, cs.dropWhile isNamePart) else none
  match cs with
  | 'r' :: '#' :: cs => do
    let (name, rest) ← plain cs
    if ["_", "super", "self", "Self", "crate"].contains (String.ofList name) then none
    else some ('r' :: '#' :: name, rest)
  | cs => plain cs

def nextWord? (cs : List Char) : Option (List Lexeme × List Char) :=
  if literalBeginnings.any fun beginning => beginning.toList.isPrefixOf cs then none
  else (nameAhead? cs).map fun (name, rest) => ([.token (.word name)], rest)

/-- A quote is a mark before a name that no quote closes. -/
def nextQuote? (cs : List Char) : Option (List Lexeme × List Char) := do
  let (name, rest) ← nameAhead? cs
  if rest.head? = some '\'' ∨ (rest.head? = some '#' ∧ ¬ "r#".toList.isPrefixOf name) then none
  else some ([.token (.mark '\'' true)], cs)

/-- Marks of the direction of writing count as blanks. -/
def isGap (c : Char) : Bool := isBlank c || c == '\u200e' || c == '\u200f'

/-- What stands for a literal that could not be read. -/
def unreadLiteral : List Char := "(/*ERROR*/)".toList

/-- Reads on by one token, one bracket, one comment or some blanks. -/
def next? : List Char → Option (List Lexeme × List Char)
  | [] => none
  | '/' :: '/' :: cs => lineComment? cs
  | '/' :: '*' :: cs => blockComment? cs
  | c :: cs =>
    if isGap c then some ([], cs.dropWhile isGap)
    else if unreadLiteral.isPrefixOf (c :: cs) then
      some ([.token .literal], (c :: cs).drop unreadLiteral.length)
    else if c == '(' || c == '[' || c == '\x7b' then some ([.opening c], cs)
    else if c == ')' || c == ']' || c == '\x7d' then some ([.closing c], cs)
    else match literal? (c :: cs) with
      | some (token, rest) => some ([.token token], rest)
      | none =>
        if c == '\'' then nextQuote? cs
        else if markChars.contains c then some ([.token (.mark c (startsMark cs))], cs)
        else nextWord? (c :: cs)

/-- The lexemes of a text; none if some part of it is not a token. -/
def lexemes? (cs : List Char) : Option (List Lexeme) :=
  match cs with
  | [] => some []
  | c :: cs =>
    match next? (c :: cs) with
    | none => none
    | some (found, rest) =>
      if rest.length ≤ cs.length then (lexemes? rest).map (found ++ ·) else none
termination_by cs.length
decreasing_by simp only [List.length_cons]; omega

/-- Gathers lexemes into tokens. `done` are the tokens of the innermost open group so far, newest
first, and `outer` are the groups around it. -/
def gather? : (done : List Token) → (outer : List (Char × List Token)) → List Lexeme → Option (List Token)
  | done, [], [] => some done.reverse
  | _, _ :: _, [] => none
  | done, outer, .token t :: rest => gather? (t :: done) outer rest
  | done, outer, .opening bracket :: rest => gather? [] ((bracket, done) :: outer) rest
  | _, [], .closing _ :: _ => none
  | done, (opening, before) :: outer, .closing bracket :: rest =>
    if bracket = closing opening then gather? (.group opening done.reverse :: before) outer rest else none

/-- The tokens of a text, if it is a row of tokens with matching brackets. A byte order mark may
stand before them. -/
def tokens? (text : List Char) : Option (List Token) :=
  let text := if text.head? = some '\ufeff' then text.tail else text
  (lexemes? text).bind (gather? [] [])

end ChordPad.Embed
