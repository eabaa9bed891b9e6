import Mathlib.Data.List.TakeWhile
import Mathlib.Logic.Relation
import ChordPad.Proofs.LineWords

/-! The formatting of a layout text: lines that do not count, the ends of lines, and the blanks at the
ends of lines and between words. None of it is seen in the words of the rows, and so none in what is
compiled from the text. -/
namespace ChordPad

namespace Text
variable {cut : Char → Bool} {xs ys line : List Char}

/-- The text ends where a line begins. -/
def EndsLine (text : List Char) : Prop := text = [] ∨ text.getLast? = some '\n'

/-- The text begins where a line ends. -/
def BeginsAtEnd (text : List Char) : Prop := text = [] ∨ text.head? = some '\n'

theorem pieces_nil (cut : Char → Bool) : pieces cut [] = [[]] := rfl

/-- The last piece of a text and the first one of the next text are joined. -/
theorem pieces_append {before after : List (List Char)} {last first : List Char}
    (hxs : pieces cut xs = before ++ [last]) (hys : pieces cut ys = first :: after) :
    pieces cut (xs ++ ys) = before ++ (last ++ first) :: after := by
  induction xs generalizing before last with
  | nil =>
    cases before with
    | nil =>
      cases hxs
      exact hys
    | cons p before =>
      have hlength := congrArg List.length hxs
      simp [pieces_nil] at hlength
  | cons c xs ih =>
    obtain ⟨p, ps, hp⟩ := List.exists_cons_of_ne_nil (pieces_ne_nil cut xs)
    rw [List.cons_append, pieces]
    rw [pieces, hp] at hxs
    by_cases hc : cut c = true
    · rw [if_pos hc] at hxs ⊢
      cases before with
      | nil => cases hxs
      | cons q before =>
        obtain ⟨rfl, hrest⟩ := List.cons.inj hxs
        rw [ih (hp.trans hrest)]
        rfl
    · rw [if_neg hc] at hxs ⊢
      cases before with
      | nil =>
        obtain ⟨rfl, rfl⟩ := List.cons.inj hxs
        rw [@ih [] p hp]
        rfl
      | cons q before =>
        obtain ⟨rfl, rfl⟩ := List.cons.inj hxs
        rw [@ih (p :: before) last hp]
        rfl

theorem last_eq_nil {before : List (List Char)} {last : List Char}
    (hlines : lines xs = before ++ [last]) (h : EndsLine xs) : last = [] := by
  have hlast : (lines xs).getLast? = some [] := by
    rcases h with rfl | hend
    · rfl
    · obtain ⟨rest, rfl⟩ := List.getLast?_eq_some_iff.1 hend
      rw [lines, pieces_append_cut (by decide), pieces_nil, List.getLast?_concat]
  rw [hlines, List.getLast?_concat] at hlast
  exact Option.some_inj.1 hlast

theorem first_eq_nil {first : List Char} {after : List (List Char)}
    (hlines : lines ys = first :: after) (h : BeginsAtEnd ys) : first = [] := by
  have hfirst : (lines ys).head? = some [] := by
    rcases h with rfl | hbegin
    · rfl
    · obtain ⟨rest, rfl⟩ := List.head?_eq_some_iff.1 hbegin
      rw [lines, pieces_cons_cut (by decide)]
      rfl
  rw [hlines, List.head?_cons] at hfirst
  exact Option.some_inj.1 hfirst

/-- What stands within one line of a text changes that line only. -/
theorem exists_lines_append (xs ys : List Char) : ∃ before last first after,
    (EndsLine xs → last = []) ∧ (BeginsAtEnd ys → first = []) ∧
      ∀ mid, (∀ c ∈ mid, c ≠ '\n') →
        lines (xs ++ mid ++ ys) = before ++ (last ++ mid ++ first) :: after := by
  obtain ⟨before, last, hxs⟩ : ∃ before last, lines xs = before ++ [last] :=
    ⟨_, _, (List.dropLast_append_getLast (pieces_ne_nil _ xs)).symm⟩
  obtain ⟨first, after, hys⟩ := List.exists_cons_of_ne_nil (pieces_ne_nil (· == '\n') ys)
  refine ⟨before, last, first, after, last_eq_nil hxs, first_eq_nil hys, ?_⟩
  intro mid hmid
  have hmid : pieces (· == '\n') mid = [] ++ [mid] := pieces_eq_singleton (by simpa using hmid)
  rw [List.append_assoc, List.append_assoc]
  exact pieces_append hxs (pieces_append hmid hys)

theorem words_append_blanks {gap : List Char} (hne : gap ≠ []) (h : ∀ c ∈ gap, isBlank c = true)
    (xs ys : List Char) : words (xs ++ gap ++ ys) = words xs ++ words ys := by
  have hblanks (gap : List Char) (h : ∀ c ∈ gap, isBlank c = true) :
      words (gap ++ ys) = words ys := by
    induction gap with
    | nil => rfl
    | cons c gap ih =>
      rw [List.cons_append, words_cons_blank (h c List.mem_cons_self)]
      exact ih fun d hd => h d (List.mem_cons_of_mem c hd)
  obtain ⟨c, rest, rfl⟩ := List.exists_cons_of_ne_nil hne
  rw [List.append_assoc, List.cons_append, words_append_blank (h c List.mem_cons_self),
    hblanks rest fun d hd => h d (List.mem_cons_of_mem c hd)]

end Text

namespace LayoutText
open ChordPad.Text
variable {text other xs ys line : List Char}

/-- A line that does not count: its first character that is not blank, if there is one, is a `#`. -/
structure Skipped (line : List Char) : Prop where
  one_line : ∀ c ∈ line, c ≠ '\n'
  no_content : ∀ c ∈ line.find? (!isBlank ·), c = '#'

/-- A blank that leaves its line one line. -/
def IsInlineBlank (c : Char) : Prop := isBlank c = true ∧ c ≠ '\n'

instance (c : Char) : Decidable (IsInlineBlank c) := inferInstanceAs (Decidable (_ ∧ _))

/-- The changes of a text that do not change its layout. -/
inductive Reformat : List Char → List Char → Prop
  /-- A line that does not count stands before another line. -/
  | skippedLine {before skipped after : List Char} : EndsLine before → Skipped skipped →
      Reformat (before ++ after) (before ++ skipped ++ '\n' :: after)
  /-- A line that does not count stands behind the last one. -/
  | lastSkippedLine {text skipped : List Char} : Skipped skipped →
      Reformat text (text ++ '\n' :: skipped)
  /-- A line feed ends the last line. -/
  | finalEnd {text : List Char} : Reformat text (text ++ ['\n'])
  /-- A carriage return stands before a line feed. -/
  | carriageReturn {before after : List Char} :
      Reformat (before ++ '\n' :: after) (before ++ '\r' :: '\n' :: after)
  | blankAtStart {before after : List Char} {c : Char} : EndsLine before → IsInlineBlank c →
      Reformat (before ++ after) (before ++ c :: after)
  | blankAtEnd {before after : List Char} {c : Char} : BeginsAtEnd after → IsInlineBlank c →
      Reformat (before ++ after) (before ++ c :: after)
  /-- The blanks at one place of a line are other ones. -/
  | gap {before gap gap' after : List Char} : gap ≠ [] → gap' ≠ [] → (∀ c ∈ gap, IsInlineBlank c) →
      (∀ c ∈ gap', IsInlineBlank c) → Reformat (before ++ gap ++ after) (before ++ gap' ++ after)

/-! Line ends. The carriage return of a line end is cut off as a blank, and so is the line that has no
character. -/

def withoutReturn (line : List Char) : List Char :=
  if line.getLast? = some '\r' then line.dropLast else line

/-- The lines of a text without their ends, a line feed or a carriage return and a line feed. What
follows the last line end is a line only if it has a character. -/
def endedLines (text : List Char) : List (List Char) :=
  (lines text).dropLast.map withoutReturn ++ (lines text).getLast?.toList.filter (· != [])

theorem words_withoutReturn (line : List Char) : words (withoutReturn line) = words line := by
  rw [withoutReturn]
  split
  · rename_i hreturn
    obtain ⟨rest, rfl⟩ := List.getLast?_eq_some_iff.1 hreturn
    rw [List.dropLast_concat, words_append_blank (by decide), words_nil, List.append_nil]
  · rfl

/-- Line ends, blanks at the ends of a line and blanks between its words agree on every character. -/
theorem rowWords_eq_endedLines (text : List Char) :
    rowWords text = (((endedLines text).map trim).filter fun line =>
      line != [] && line.head? != some '#').map words := by
  obtain ⟨before, last, hlines⟩ : ∃ before last, lines text = before ++ [last] :=
    ⟨_, _, (List.dropLast_append_getLast (pieces_ne_nil _ text)).symm⟩
  have hbefore : (before.map withoutReturn).map words = before.map words := by
    rw [List.map_map]
    exact List.map_congr_left fun line _ => words_withoutReturn line
  have hlast : (([last].filter (· != [])).map words).filter isContent =
      ([last].map words).filter isContent := by
    cases last with
    | nil => rfl
    | cons c rest => rfl
  rw [map_words_filter_trim, endedLines, rowWords, hlines, List.dropLast_concat, List.getLast?_concat,
    Option.toList_some, List.map_append, List.map_append, List.filter_append, List.filter_append,
    hbefore, hlast]

/-! Lines that do not count. -/

theorem rowWords_append_newline (xs ys : List Char) :
    rowWords (xs ++ '\n' :: ys) = rowWords xs ++ rowWords ys := by
  rw [rowWords, lines, pieces_append_cut (by decide), List.map_append, List.filter_append]
  rfl

theorem Skipped.isContent_words (h : Skipped line) : isContent (words line) = false := by
  have hfirst : ∀ c ∈ (line.dropWhile isBlank).head?, c = '#' := by
    rw [← List.find?_not_eq_head?_dropWhile]
    exact h.no_content
  rw [← words_dropWhile]
  cases hline : line.dropWhile isBlank with
  | nil => rfl
  | cons c rest =>
    rw [hline] at hfirst
    obtain rfl : c = '#' := hfirst c rfl
    obtain ⟨w, ws, hws⟩ := words_cons_of_not_blank (c := '#') (by decide) rest
    rw [hws]
    rfl

theorem Skipped.rowWords_eq_nil (h : Skipped line) : rowWords line = [] := by
  have hline : lines line = [line] := pieces_eq_singleton (by simpa using h.one_line)
  rw [rowWords, hline, List.map_singleton, List.filter_cons, h.isContent_words]
  rfl

theorem Skipped.nil : Skipped [] := ⟨by simp, by simp⟩

theorem rowWords_append_of_endsLine (h : EndsLine xs) (ys : List Char) :
    rowWords (xs ++ ys) = rowWords xs ++ rowWords ys := by
  rcases h with rfl | hend
  · rfl
  · obtain ⟨rest, rfl⟩ := List.getLast?_eq_some_iff.1 hend
    rw [List.append_assoc, List.singleton_append, rowWords_append_newline, rowWords_append_newline,
      Skipped.nil.rowWords_eq_nil, List.append_nil]

/-! Blanks within a line. -/

/-- It is enough to look at the line in which two texts differ. -/
theorem rowWords_congr {mid mid' : List Char} (hmid : ∀ c ∈ mid, c ≠ '\n')
    (hmid' : ∀ c ∈ mid', c ≠ '\n') (hwords : ∀ last first, (EndsLine xs → last = []) →
      (BeginsAtEnd ys → first = []) → words (last ++ mid ++ first) = words (last ++ mid' ++ first)) :
    rowWords (xs ++ mid ++ ys) = rowWords (xs ++ mid' ++ ys) := by
  obtain ⟨before, last, first, after, hlast, hfirst, hlines⟩ := exists_lines_append xs ys
  rw [rowWords, rowWords, hlines mid hmid, hlines mid' hmid', List.map_append, List.map_append,
    List.map_cons, List.map_cons, hwords last first hlast hfirst]

theorem rowWords_blankAtStart {c : Char} (h : EndsLine xs) (hc : IsInlineBlank c) :
    rowWords (xs ++ ys) = rowWords (xs ++ c :: ys) := by
  have hcongr := @rowWords_congr xs ys [] [c] (by simp) (by simpa using hc.2) ?_
  · simpa using hcongr
  · intro last first hlast _
    rw [hlast h]
    exact (words_cons_blank hc.1 first).symm

theorem rowWords_blankAtEnd {c : Char} (h : BeginsAtEnd ys) (hc : IsInlineBlank c) :
    rowWords (xs ++ ys) = rowWords (xs ++ c :: ys) := by
  have hcongr := @rowWords_congr xs ys [] [c] (by simp) (by simpa using hc.2) ?_
  · simpa using hcongr
  · intro last first _ hfirst
    rw [hfirst h, List.append_nil, List.append_nil, List.append_nil, words_append_blank hc.1, words_nil,
      List.append_nil]

theorem rowWords_gap {gap gap' : List Char} (hne : gap ≠ []) (hne' : gap' ≠ [])
    (h : ∀ c ∈ gap, IsInlineBlank c) (h' : ∀ c ∈ gap', IsInlineBlank c) :
    rowWords (xs ++ gap ++ ys) = rowWords (xs ++ gap' ++ ys) := by
  refine rowWords_congr (fun c hc => (h c hc).2) (fun c hc => (h' c hc).2) ?_
  intro last first _ _
  rw [words_append_blanks hne fun c hc => (h c hc).1, words_append_blanks hne' fun c hc => (h' c hc).1]

theorem Reformat.rowWords_eq (h : Reformat text other) : rowWords text = rowWords other := by
  cases h with
  | skippedLine hbefore hskipped =>
    rw [List.append_assoc, rowWords_append_of_endsLine hbefore, rowWords_append_of_endsLine hbefore,
      rowWords_append_newline, hskipped.rowWords_eq_nil, List.nil_append]
  | lastSkippedLine hskipped =>
    rw [rowWords_append_newline, hskipped.rowWords_eq_nil, List.append_nil]
  | finalEnd => rw [rowWords_append_newline, Skipped.nil.rowWords_eq_nil, List.append_nil]
  | carriageReturn => exact rowWords_blankAtEnd (.inr rfl) ⟨by decide, by decide⟩
  | blankAtStart hbefore hc => exact rowWords_blankAtStart hbefore hc
  | blankAtEnd hafter hc => exact rowWords_blankAtEnd hafter hc
  | gap hne hne' h h' => exact rowWords_gap hne hne' h h'

/-- No number of changes of the formatting changes what is compiled, be it a matrix or the defect that is
blamed. -/
theorem compile_reformatted (h : Relation.EqvGen Reformat text other) :
    compile text = compile other := by
  have hwords : rowWords text = rowWords other := by
    induction h with
    | rel text other hstep => exact hstep.rowWords_eq
    | refl text => rfl
    | symm text other _ ih => exact ih.symm
    | trans text between other _ _ ih ih' => exact ih.trans ih'
  rw [compile, compile, hwords]

/-- A comment, other blanks, other line ends and a blank at the start of a line. -/
theorem compile_reformatted_commented :
    Relation.EqvGen Reformat "a b\nc d".toList "# keys\r\n\ta\u2028\rb\r\nc d\n".toList ∧
      compile "a b\nc d".toList = compile "# keys\r\n\ta\u2028\rb\r\nc d\n".toList ∧
      compile "a b\nc d".toList = .ok [[4, 5], [6, 7]] := by
  have hblank : ∀ c ∈ [' '], IsInlineBlank c := List.forall_mem_singleton.2 (by decide)
  have hblanks : ∀ c ∈ ['\u2028', '\r'], IsInlineBlank c :=
    List.forall_mem_cons.2 ⟨by decide, List.forall_mem_singleton.2 (by decide)⟩
  have hgap : Reformat ("a".toList ++ [' '] ++ "b\nc d".toList)
      ("a".toList ++ ['\u2028', '\r'] ++ "b\nc d".toList) :=
    .gap (by decide) (by decide) hblank hblanks
  have hstart : Reformat ([] ++ "a\u2028\rb\nc d".toList) ([] ++ '\t' :: "a\u2028\rb\nc d".toList) :=
    .blankAtStart (.inl rfl) (by decide)
  have hreturn : Reformat ("\ta\u2028\rb".toList ++ '\n' :: "c d".toList)
      ("\ta\u2028\rb".toList ++ '\r' :: '\n' :: "c d".toList) := .carriageReturn
  have hfirst : "# keys\r".toList.find? (!isBlank ·) = some '#' := by decide +kernel
  have hskipped : Skipped "# keys\r".toList :=
    ⟨by simp, fun c hc => Option.some.inj (hc.symm.trans hfirst)⟩
  have hcomment : Reformat ([] ++ "\ta\u2028\rb\r\nc d".toList)
      ([] ++ "# keys\r".toList ++ '\n' :: "\ta\u2028\rb\r\nc d".toList) :=
    .skippedLine (.inl rfl) hskipped
  have hend : Reformat "# keys\r\n\ta\u2028\rb\r\nc d".toList
      ("# keys\r\n\ta\u2028\rb\r\nc d".toList ++ ['\n']) := .finalEnd
  have hall : Relation.EqvGen Reformat "a b\nc d".toList "# keys\r\n\ta\u2028\rb\r\nc d\n".toList :=
    .trans _ _ _ (.rel _ _ hgap) <| .trans _ _ _ (.rel _ _ hstart) <|
      .trans _ _ _ (.rel _ _ hreturn) <| .trans _ _ _ (.rel _ _ hcomment) (.rel _ _ hend)
  exact ⟨hall, compile_reformatted hall, by decide +kernel⟩

end LayoutText
end ChordPad
