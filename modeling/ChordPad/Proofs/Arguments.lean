import ChordPad.Embed.Argument
import ChordPad.Proofs.CompiledText

/-! Which arguments name a layout: no token at all, a string alone, and the word `file`, an equals sign
and a string. Any other row of tokens is refused. -/
namespace ChordPad.Embed

/-- The argument `file = "path"`. It does not matter what is joined to the equals sign. -/
def fileArgument (joined : Bool) (path : List Char) : List Token :=
  [.word "file".toList, .mark '=' joined, .text path]

/-- The arguments that name a layout, and where it is. -/
inductive Names : List Token → Argument → Prop
  | usual : Names [] .usual
  | text {layout : List Char} : Names [.text layout] (.text layout)
  | file {joined : Bool} {path : List Char} : Names (fileArgument joined path) (.file path)

/-! What a reader that succeeds has done. -/

namespace Reader
variable {α β : Type} {s s' s'' : Reading}

theorem bind_eq_ok {x : Reader α} {f : α → Reader β} {b : β} (h : (x >>= f) s = .ok (b, s'')) :
    ∃ a s', x s = .ok (a, s') ∧ f a s' = .ok (b, s'') := by
  obtain ⟨⟨a, s'⟩, hx, hf⟩ := LayoutText.bind_eq_ok h
  exact ⟨a, s', hx, hf⟩

theorem of_ahead {tokens : List Token} (h : ahead s = .ok (tokens, s')) :
    tokens = s.tokens ∧ s' = s := by
  cases h
  exact ⟨rfl, rfl⟩

theorem marks?_eq (marks : String) (s : Reading) : marks? marks s =
    .ok (match afterMarks? marks.toList s.tokens with
      | some rest => (true, { s with tokens := rest })
      | none => (false, s)) := by
  show (match afterMarks? marks.toList s.tokens with
    | some rest => (do goTo rest; return true : Reader Bool)
    | none => return false) s = _
  cases afterMarks? marks.toList s.tokens with
  | some rest => rfl
  | none => rfl

theorem of_marks?_true {marks : String} (h : marks? marks s = .ok (true, s')) :
    ∃ rest, afterMarks? marks.toList s.tokens = some rest ∧ s' = { s with tokens := rest } := by
  rw [marks?_eq] at h
  cases hafter : afterMarks? marks.toList s.tokens with
  | none =>
    rw [hafter] at h
    cases h
  | some rest =>
    rw [hafter] at h
    cases h
    exact ⟨rest, rfl, rfl⟩

theorem of_marks?_false {marks : String} (h : marks? marks s = .ok (false, s')) : s' = s := by
  rw [marks?_eq] at h
  cases hafter : afterMarks? marks.toList s.tokens with
  | none =>
    rw [hafter] at h
    cases h
    rfl
  | some rest =>
    rw [hafter] at h
    cases h

theorem of_marks {marks : String} {a : Unit} (h : Reader.marks marks s = .ok (a, s')) :
    ∃ rest, afterMarks? marks.toList s.tokens = some rest ∧ s' = { s with tokens := rest } := by
  obtain ⟨found, s₁, hfound, hrest⟩ := bind_eq_ok h
  cases found with
  | false => cases hrest
  | true =>
    cases hrest
    exact of_marks?_true hfound

theorem of_word?_false {name : String} (h : word? name s = .ok (false, s')) : s' = s := by
  have heq : word? name s =
      (if startsWord name s.tokens then (do goTo s.tokens.tail; return true : Reader Bool)
        else return false) s := rfl
  rw [heq] at h
  split at h
  · cases h
  · cases h
    rfl

/-- What every step keeps, a repetition keeps. -/
theorem repeatAtMost_keeps {step : α → Reader (ForInStep α)} (keeps : α → Reading → Prop)
    (hstep : ∀ a s next s', keeps a s → step a s = .ok (next, s') → keeps next.value s')
    {n : Nat} {a b : α} (h : keeps a s) (hrun : repeatAtMost step n a s = .ok (b, s')) :
    keeps b s' := by
  induction n generalizing a s with
  | zero =>
    cases hrun
    exact h
  | succ n ih =>
    obtain ⟨next, s₁, hnext, hrest⟩ := bind_eq_ok hrun
    have hkeeps := hstep a s next s₁ h hnext
    cases next with
    | done a₁ =>
      cases hrest
      exact hkeeps
    | yield a₁ => exact ih hkeeps hrest

end Reader

namespace Phrases
open Reader
variable {s s' : Reading}

/-- Segments are read behind the first ones, or nothing is read. -/
theorem of_plainSegments {names out : List (List Char)} (h : plainSegments names s = .ok (out, s')) :
    (out = names ∧ s' = s) ∨ names.length < out.length := by
  let keeps (found : List (List Char)) (t : Reading) : Prop :=
    (found = names ∧ t = s) ∨ names.length < found.length
  have hstart : keeps names s := .inl ⟨rfl, rfl⟩
  refine repeatAtMost_keeps keeps ?_ hstart h
  intro found t next t' hkeeps hstep
  obtain ⟨more, t₁, hmore, hstep⟩ := bind_eq_ok hstep
  cases more with
  | false =>
    cases hstep
    rw [of_marks?_false hmore]
    exact hkeeps
  | true =>
    obtain ⟨tokens, t₂, hahead, hstep⟩ := bind_eq_ok hstep
    split at hstep
    · rename_i name rest
      dsimp only at hstep
      split at hstep
      · cases hstep
        right
        show names.length < (found ++ [name]).length
        rw [List.length_append, List.length_singleton]
        rcases hkeeps with ⟨rfl, -⟩ | hlonger
        · exact Nat.lt_succ_self _
        · exact Nat.lt_succ_of_lt hlonger
      · cases hstep
    · cases hstep

theorem of_plainSegments_append {root : List (List Char)} {first name : List Char}
    (h : plainSegments (root ++ [first]) s = .ok ([name], s')) :
    root = [] ∧ first = name ∧ s' = s := by
  rcases of_plainSegments h with ⟨hsame, hstate⟩ | hlonger
  · cases root with
    | nil => exact ⟨rfl, (List.singleton_inj.1 hsame).symm, hstate⟩
    | cons segment root =>
      have hlength := congrArg List.length hsame
      simp at hlength
  · rw [List.length_append, List.length_singleton, List.length_singleton] at hlonger
    omega

/-- A path of one name is that word. -/
theorem of_plainPath {name : List Char} (hname : name ≠ "unsafe".toList)
    (h : plainPath s = .ok ([name], s')) :
    ∃ rest, s.tokens = .word name :: rest ∧ s' = { s with tokens := rest } := by
  obtain ⟨found, s₁, hfound, hread⟩ := bind_eq_ok h
  cases found with
  | true =>
    cases hread
    exact absurd rfl hname
  | false =>
    obtain rfl := of_word?_false hfound
    obtain ⟨rooted, s₂, hrooted, hnames⟩ := bind_eq_ok hread
    obtain ⟨tokens, s₃, hahead, hfirst⟩ := bind_eq_ok hnames
    obtain ⟨htokens, rfl⟩ := of_ahead hahead
    split at hfirst
    · rename_i first rest
      dsimp only at hfirst
      split at hfirst
      · obtain ⟨_, s₄, hgo, hsegments⟩ := bind_eq_ok hfirst
        cases hgo
        obtain ⟨hroot, rfl, rfl⟩ := of_plainSegments_append hsegments
        cases rooted with
        | true => cases hroot
        | false =>
          obtain rfl := of_marks?_false hrooted
          exact ⟨rest, htokens.symm, rfl⟩
      · cases hfirst
    · cases hfirst

theorem afterMarks?_equals {tokens rest : List Token} (h : afterMarks? "=".toList tokens = some rest) :
    ∃ joined, tokens = .mark '=' joined :: rest := by
  change afterMarks? ['='] tokens = some rest at h
  cases tokens with
  | nil => cases h
  | cons token tokens =>
    cases token with
    | mark char joined =>
      rw [afterMarks?, Option.ite_none_right_eq_some] at h
      obtain ⟨rfl, hrest⟩ := h
      cases hrest
      exact ⟨joined, rfl⟩
    | _ => cases h

/-- A text is the only token behind the equals sign. -/
theorem of_value {p : Phrases} {path : List Char} (h : p.value s = .ok (some path, s')) :
    ∃ joined, s.tokens = [.mark '=' joined, .text path] := by
  obtain ⟨_, s₁, hmarks, h⟩ := bind_eq_ok h
  obtain ⟨rest, hrest, rfl⟩ := of_marks hmarks
  obtain ⟨joined, htokens⟩ := afterMarks?_equals hrest
  obtain ⟨tokens, s₂, hahead, h⟩ := bind_eq_ok h
  obtain ⟨rfl, rfl⟩ := of_ahead hahead
  split at h
  · cases h
    exact ⟨joined, htokens⟩
  · cases h
  · obtain ⟨_, s₂, -, h⟩ := bind_eq_ok h
    cases h

end Phrases

namespace Argument
open Phrases Reader
variable {tokens : List Token} {argument : Argument}

theorem of_readAll {α : Type} {reader : Reader α} {a : α} (h : readAll reader tokens = .ok a) :
    ∃ s, reader ⟨tokens, none⟩ = .ok (a, s) := by
  obtain ⟨⟨b, s⟩, hread, hrest⟩ := LayoutText.bind_eq_ok h
  have hsame : b = a := by
    dsimp only at hrest
    split at hrest
    · cases hrest
    · split at hrest
      · cases hrest
      · cases hrest
        rfl
  exact ⟨s, hsame ▸ hread⟩

theorem of_assignment {p : Phrases} {s s' : Reading} {name path : List Char}
    (hname : name ≠ "unsafe".toList) (h : assignment p s = .ok (([name], some path), s')) :
    ∃ joined, s.tokens = [.word name, .mark '=' joined, .text path] := by
  obtain ⟨names, s₁, hnames, hread⟩ := bind_eq_ok h
  obtain ⟨value, s₂, hvalue, hread⟩ := bind_eq_ok hread
  cases hread
  obtain ⟨rest, htokens, rfl⟩ := of_plainPath hname hnames
  obtain ⟨joined, hrest⟩ := of_value hvalue
  exact ⟨joined, by rw [htokens, ← hrest]⟩

theorem ofTokens_fileArgument (joined : Bool) (path : List Char) :
    ofTokens (fileArgument joined path) = .ok (.file path) := by
  cases joined with
  | true => rfl
  | false => rfl

theorem ofTokens_eq_ok_iff : ofTokens tokens = .ok argument ↔ Names tokens argument := by
  constructor
  · intro h
    rw [ofTokens.eq_def] at h
    split at h
    · cases h
      exact .usual
    · cases h
      exact .text
    · obtain ⟨⟨names, value⟩, hread, h⟩ := LayoutText.bind_eq_ok h
      obtain ⟨s, hassigned⟩ := of_readAll hread
      cases value with
      | none => cases h
      | some path =>
        dsimp only at h
        split at h
        · rename_i hfile
          cases h
          rw [hfile] at hassigned
          obtain ⟨joined, htokens⟩ := of_assignment (by decide) hassigned
          rw [show tokens = fileArgument joined path from htokens]
          exact .file
        · cases h
  · intro h
    cases h with
    | usual => rfl
    | text => rfl
    | file => exact ofTokens_fileArgument _ _

end Argument
end ChordPad.Embed
