import ChordPad.Embed.Phrase.Expression
import ChordPad.Embed.Phrase.Types

/-! The readers of phrases, each made of those for what is within it. -/
namespace ChordPad.Embed

/-- The readers of phrases in which `depth` others may be open. -/
def Phrases.upTo : (depth : Nat) → Phrases
  | 0 => ⟨throw .unsupported, fun _ => throw .unsupported, throw .unsupported⟩
  | depth + 1 =>
    let inner := upTo depth
    ⟨inner.operation, inner.typeName, inner.lifetimeOrTrait⟩

/-- The readers of all phrases of these tokens. Before a phrase is read within another one, that one
has read a token or a bracket, so there are not more open phrases than tokens. -/
def phrases (tokens : List Token) : Phrases := .upTo (Token.countAll tokens + 1)

end ChordPad.Embed
