import ChordPad.Embed.Token
import ChordPad.Text.NameChars

/-! Literals: strings with escapes and raw strings, characters, bytes and numbers. A reader takes the
text from a point on and returns what follows the literal; it has nothing to return where there is no
such literal. -/
namespace ChordPad.Embed
open ChordPad.Text

def afterName : List Char → List Char
  | [] => []
  | c :: cs => if isNameStart c then cs.dropWhile isNamePart else c :: cs

def hexDigit? (c : Char) : Option Nat :=
  if c.isDigit then some (c.toNat - 48)
  else if 'a' ≤ c && c ≤ 'f' then some (c.toNat - 87)
  else if 'A' ≤ c && c ≤ 'F' then some (c.toNat - 55)
  else none

inductive Content
  | text
  /-- ASCII characters, and bytes of any value as escapes. -/
  | bytes
  /-- Everything but the character zero. -/
  | zeroEnded
  deriving DecidableEq, Repr

namespace Content

/-- A character that may stand in a string as it is. -/
def allows (content : Content) (c : Char) : Bool :=
  match content with
  | text => true
  | bytes => c.toNat < 128
  | zeroEnded => c != '\x00'

/-- A value that may be written with two hex digits. -/
def allowsHex (content : Content) (n : Nat) : Bool :=
  match content with
  | text => n < 128
  | bytes => true
  | zeroEnded => n != 0

/-- A code point that may be written in braces. -/
def allowsCodePoint (content : Content) (n : Nat) : Bool :=
  content != bytes && (content == text || n != 0)

end Content

/-- The characters that stand for themselves or for a control character after a backslash. -/
def simpleEscape? : Char → Option Char
  | 'n' => some '\n'
  | 'r' => some '\r'
  | 't' => some '\t'
  | '0' => some '\x00'
  | '\\' => some '\\'
  | '"' => some '"'
  | '\'' => some '\''
  | _ => none

inductive Mode
  | plain
  /-- After a carriage return, which the line feed has to follow. -/
  | carriage
  | escape
  | hexHigh
  | hexLow (high : Nat)
  | brace
  /-- Within the braces of a code point, after some digits. -/
  | codePoint (digits value : Nat)
  /-- In the blanks after a backslash at the end of a line. -/
  | gap
  /-- After a carriage return among these blanks. -/
  | gapCarriage

/-- Reads one character of a string: where the reading stands then, and the character of the value
that is complete now. A carriage return at the end of a line is not part of the value. -/
def Mode.read (content : Content) (mode : Mode) (c : Char) : Option (Mode × Option Char) :=
  match mode with
  | .plain => plainly
  | .carriage => if c == '\n' then some (.plain, some c) else none
  | .gap =>
    if c == ' ' || c == '\t' || c == '\n' then some (.gap, none)
    else if c == '\r' then some (.gapCarriage, none)
    else plainly
  | .gapCarriage => if c == '\n' then some (.gap, none) else none
  | .escape =>
    if c == 'x' then some (.hexHigh, none)
    else if c == 'u' then some (.brace, none)
    else if c == '\n' then some (.gap, none)
    else if c == '\r' then some (.gapCarriage, none)
    else ((simpleEscape? c).filter content.allows).map fun e => (.plain, some e)
  | .hexHigh => (hexDigit? c).map fun high => (.hexLow high, none)
  | .hexLow high =>
    ((hexDigit? c).filter fun low => content.allowsHex (16 * high + low)).map fun low =>
      (.plain, some (.ofNat (16 * high + low)))
  | .brace => if c == '\x7b' then some (.codePoint 0 0, none) else none
  | .codePoint digits n =>
    if c == '\x7d' then
      if digits ≠ 0 ∧ n.isValidChar ∧ content.allowsCodePoint n then some (.plain, some (.ofNat n)) else none
    else if c == '_' then
      if digits ≠ 0 then some (.codePoint digits n, none) else none
    else if digits < 6 then (hexDigit? c).map fun d => (.codePoint (digits + 1) (16 * n + d), none)
    else none
where
  plainly : Option (Mode × Option Char) :=
    if c == '\\' then some (.escape, none)
    else if c == '\r' then some (.carriage, none)
    else if content.allows c then some (.plain, some c)
    else none

def Mode.mayEnd : Mode → Bool
  | .plain | .gap => true
  | _ => false

/-- Reads a string after its opening quote: its value, and what follows the closing quote. -/
def quoted? (content : Content) (mode : Mode) : List Char → Option (List Char × List Char)
  | [] => none
  | c :: cs =>
    if c == '"' && mode.mayEnd then some ([], cs)
    else match mode.read content c with
      | none => none
      | some (mode, found) =>
        (quoted? content mode cs).map fun (value, rest) => (found.toList ++ value, rest)

/-- Reads a raw string after its opening quote, up to a quote with `hashes` hash signs. `returned`
says that a carriage return stands before, which a line feed has to follow. -/
def rawQuoted? (content : Content) (hashes : Nat) (returned : Bool) :
    List Char → Option (List Char × List Char)
  | [] => none
  | c :: cs =>
    if returned && c != '\n' then none
    else if c == '"' && cs.take hashes == List.replicate hashes '#' then some ([], cs.drop hashes)
    else if content.allows c then
      (rawQuoted? content hashes (c == '\r') cs).map fun (value, rest) => (c :: value, rest)
    else none

/-- Reads a raw string after its letters: hash signs, 255 of them at most, a quote, and the text. -/
def raw? (content : Content) (cs : List Char) : Option (List Char × List Char) :=
  let hashes := (cs.takeWhile (· == '#')).length
  match cs.drop hashes with
  | '"' :: rest => if hashes ≤ 255 then rawQuoted? content hashes false rest else none
  | _ => none

/-- Reads a character after its opening quote: what follows the closing quote. -/
def afterCharacter? (content : Content) : List Char → Option (List Char)
  | '\\' :: 'x' :: a :: b :: '\'' :: cs =>
    match hexDigit? a, hexDigit? b with
    | some a, some b => if content.allowsHex (16 * a + b) then some cs else none
    | _, _ => none
  | '\\' :: 'u' :: '\x7b' :: cs =>
    let digits := cs.takeWhile (· != '\x7d')
    let hex := (digits.filter (· != '_')).map hexDigit?
    let value := hex.foldl (fun n d => 16 * n + d.getD 0) 0
    match cs.dropWhile (· != '\x7d') with
    | _ :: '\'' :: rest =>
      if digits.head? != some '_' && hex.all Option.isSome && hex.length != 0 && hex.length ≤ 6 &&
          decide value.isValidChar && content != .bytes
      then some rest else none
    | _ => none
  | '\\' :: c :: '\'' :: cs => (simpleEscape? c).map fun _ => cs
  | c :: '\'' :: cs => if c != '\\' && content.allows c then some cs else none
  | _ => none

/-- What follows the sign and the digits of an exponent. Without any digit it is no exponent, and
the number ends `before` it, if it can. -/
def afterExponent? (before : Option (List Char)) (signed valued : Bool) : List Char → Option (List Char)
  | [] => if valued then some [] else before
  | c :: cs =>
    if (c == '+' || c == '-') && !valued then
      if signed then before else afterExponent? before true valued cs
    else if c.isDigit then afterExponent? before signed true cs
    else if c == '_' then afterExponent? before signed valued cs
    else if valued then some (c :: cs)
    else before

/-- What follows the digits of a number with a point or an exponent, after its first digit. -/
def afterFloat? (pointed : Bool) : List Char → Option (List Char)
  | [] => if pointed then some [] else none
  | c :: cs =>
    if c.isDigit || c == '_' then afterFloat? pointed cs
    else if c == '.' && !pointed then
      if cs.head?.any fun n => n == '.' || isNameStart n then none else afterFloat? true cs
    else if c == 'e' || c == 'E' then
      afterExponent? (if pointed then some (c :: cs) else none) false false cs
    else if pointed then some (c :: cs)
    else none

def afterDigits? (base : Nat) (empty : Bool) : List Char → Option (List Char)
  | [] => if empty then none else some []
  | c :: cs =>
    if c == '_' then if empty && base == 10 then none else afterDigits? base empty cs
    else match hexDigit? c with
      | some d =>
        if d < base then afterDigits? base false cs
        else if c.isDigit || empty then none
        else some (c :: cs)
      | none => if empty then none else some (c :: cs)

/-- The base that a number begins with, and what follows its letter. -/
def base : List Char → Nat × List Char
  | '0' :: 'x' :: cs => (16, cs)
  | '0' :: 'o' :: cs => (8, cs)
  | '0' :: 'b' :: cs => (2, cs)
  | cs => (10, cs)

/-- What follows the suffix of a number. A number does not end within a name. -/
def afterSuffix? (cs : List Char) : Option (List Char) :=
  let rest := afterName cs
  if rest.head?.any isNamePart then none else some rest

def afterNumber? (cs : List Char) : Option (List Char) :=
  let whole := (afterDigits? (base cs).1 true (base cs).2).bind afterSuffix?
  match cs with
  | c :: rest => if c.isDigit then ((afterFloat? false rest).bind afterSuffix?).or whole else none
  | [] => none

def literal? (cs : List Char) : Option (Token × List Char) :=
  let text (found : List Char × List Char) : Token × List Char := (.text found.1, afterName found.2)
  let bytes (found : List Char × List Char) : Token × List Char := (.literal, afterName found.2)
  match cs with
  | '"' :: rest => (quoted? .text .plain rest).map text
  | 'r' :: rest => (raw? .text rest).map text
  | 'b' :: '"' :: rest => (quoted? .bytes .plain rest).map bytes
  | 'b' :: 'r' :: rest => (raw? .bytes rest).map bytes
  | 'c' :: '"' :: rest => (quoted? .zeroEnded .plain rest).map bytes
  | 'c' :: 'r' :: rest => (raw? .zeroEnded rest).map bytes
  | 'b' :: '\'' :: rest => (afterCharacter? .bytes rest).map fun rest => (.literal, afterName rest)
  | '\'' :: rest => (afterCharacter? .text rest).map fun rest => (.literal, afterName rest)
  | cs => (afterNumber? cs).map fun rest => (.number (cs.take (cs.length - rest.length)), rest)

/-- What follows an `e` makes an exponent of it: a sign, or digits and perhaps the suffix of the
number, but not digits within a name. -/
def startsExponent (cs : List Char) : Bool :=
  let digits := cs.takeWhile fun c => c.isDigit || c == '_'
  match cs.drop digits.length with
  | [] => digits.any Char.isDigit
  | c :: _ => c == '-' || c == '+' || (digits.any Char.isDigit && isNameStart c)

/-- The value and the suffix of a whole number in its base; a point or an exponent makes it none. -/
def wholeFrom? (base : Nat) (value : Nat) : List Char → Option (Nat × List Char)
  | [] => some (value, [])
  | c :: cs =>
    if c == '_' then wholeFrom? base value cs
    else if c.isDigit || 10 < base then
      match hexDigit? c with
      | some d => wholeFrom? base (base * value + d) cs
      | none => some (value, c :: cs)
    else if c == '.' then none
    else if base == 10 && (c == 'e' || c == 'E') && startsExponent cs then none
    else some (value, c :: cs)

def whole? (written : List Char) : Option (Nat × List Char) :=
  wholeFrom? (base written).1 0 (base written).2

end ChordPad.Embed
