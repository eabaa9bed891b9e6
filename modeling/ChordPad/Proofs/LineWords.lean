import Mathlib.Data.List.DropRight
import ChordPad.LayoutText

/-! Which lines of a layout text count, and which words they have. The words of a line are its longest
runs of characters that are not blank, so it does not matter that the blanks at its ends are cut
off before they are read. -/
namespace ChordPad

namespace Text

/-- The line without the blanks at both of its ends. -/
def trim (line : List Char) : List Char := (line.dropWhile isBlank).rdropWhile isBlank

/-- The line has these words: each is a run of characters that are not blank, with a blank or the end
of the line on either side. -/
inductive Reads : List Char → List (List Char) → Prop
  | nil : Reads [] []
  | blank {c : Char} {line : List Char} {ws : List (List Char)} : isBlank c = true →
      Reads line ws → Reads (c :: line) ws
  | word {w line : List Char} {ws : List (List Char)} : w ≠ [] → (∀ c ∈ w, isBlank c = false) →
      (∀ c ∈ line.head?, isBlank c = true) → Reads line ws → Reads (w ++ line) (w :: ws)

theorem words_nil : words [] = [] := rfl

theorem words_cons_blank {c : Char} (h : isBlank c = true) (line : List Char) :
    words (c :: line) = words line :=
  words_append_blank h [] line

theorem pieces_eq_singleton {cut : Char → Bool} {cs : List Char} (h : ∀ c ∈ cs, cut c = false) :
    pieces cut cs = [cs] := by
  induction cs with
  | nil => rfl
  | cons c cs ih =>
    have hc : cut c = false := h c List.mem_cons_self
    have hcs := ih fun d hd => h d (List.mem_cons_of_mem c hd)
    simp [pieces, hc, hcs]

theorem words_eq_singleton {w : List Char} (hne : w ≠ []) (h : ∀ c ∈ w, isBlank c = false) :
    words w = [w] := by
  simp [words, pieces_eq_singleton h, hne]

theorem words_append_word {w line : List Char} (hne : w ≠ []) (h : ∀ c ∈ w, isBlank c = false)
    (hline : ∀ c ∈ line.head?, isBlank c = true) : words (w ++ line) = w :: words line := by
  cases line with
  | nil => rw [List.append_nil, words_eq_singleton hne h, words_nil]
  | cons c line =>
    have hc : isBlank c = true := hline c rfl
    rw [words_append_blank hc, words_eq_singleton hne h, words_cons_blank hc]
    rfl

theorem Reads.eq_words {line : List Char} {ws : List (List Char)} (h : Reads line ws) :
    ws = words line := by
  induction h with
  | nil => rfl
  | blank hc _ ih => rw [words_cons_blank hc, ih]
  | word hne hw hline _ ih => rw [words_append_word hne hw hline, ih]

/-- A character that is not blank begins a word or is put before the first one. -/
theorem Reads.cons {c : Char} {line : List Char} {ws : List (List Char)} (hc : isBlank c = false)
    (h : Reads line ws) : ∃ ws', Reads (c :: line) ws' := by
  have alone : (∀ d ∈ line.head?, isBlank d = true) → Reads ([c] ++ line) ([c] :: ws) :=
    fun hline => .word (List.cons_ne_nil c []) (by simpa using hc) hline h
  cases h with
  | nil => exact ⟨_, alone (by simp)⟩
  | blank hd _ => exact ⟨_, alone (by simpa using hd)⟩
  | @word w rest ws hne hw hrest hreads =>
    refine ⟨(c :: w) :: ws, .word (List.cons_ne_nil c w) ?_ hrest hreads⟩
    intro d hd
    rcases List.mem_cons.1 hd with rfl | hd
    · exact hc
    · exact hw d hd

theorem exists_reads (line : List Char) : ∃ ws, Reads line ws := by
  induction line with
  | nil => exact ⟨[], .nil⟩
  | cons c line ih =>
    obtain ⟨ws, hws⟩ := ih
    cases hc : isBlank c with
    | true => exact ⟨ws, .blank hc hws⟩
    | false => exact hws.cons hc

theorem reads_iff {line : List Char} {ws : List (List Char)} : Reads line ws ↔ ws = words line := by
  constructor
  · exact Reads.eq_words
  · rintro rfl
    obtain ⟨ws, hws⟩ := exists_reads line
    rw [← hws.eq_words]
    exact hws

/-! Blanks at the ends. -/

theorem words_dropWhile (line : List Char) : words (line.dropWhile isBlank) = words line := by
  induction line with
  | nil => rfl
  | cons c line ih =>
    cases hc : isBlank c with
    | true => rw [List.dropWhile_cons_of_pos hc, ih, words_cons_blank hc]
    | false => rw [List.dropWhile_cons_of_neg (by simp [hc])]

theorem words_rdropWhile (line : List Char) : words (line.rdropWhile isBlank) = words line := by
  induction line using List.reverseRecOn with
  | nil => rfl
  | append_singleton line c ih =>
    by_cases hc : isBlank c = true
    · rw [List.rdropWhile_concat_pos _ _ _ hc, ih, words_append_blank hc, words_nil, List.append_nil]
    · rw [List.rdropWhile_concat_neg _ _ _ hc]

theorem words_trim (line : List Char) : words (trim line) = words line := by
  rw [trim, words_rdropWhile, words_dropWhile]

theorem isBlank_head?_trim {line : List Char} {c : Char} (h : c ∈ (trim line).head?) :
    isBlank c = false := by
  have hd : c ∈ (line.dropWhile isBlank).head? := by
    obtain ⟨rest, hrest⟩ := List.rdropWhile_prefix isBlank (line.dropWhile isBlank)
    rw [← hrest]
    exact List.mem_head?_append_of_mem_head? h
  have hnot := List.head?_dropWhile_not isBlank line
  rw [Option.mem_def.1 hd] at hnot
  simpa using hnot

theorem words_cons_of_not_blank {c : Char} (h : isBlank c = false) (line : List Char) :
    ∃ w ws, words (c :: line) = (c :: w) :: ws := by
  obtain ⟨p, ps, hp⟩ := List.exists_cons_of_ne_nil (pieces_ne_nil isBlank line)
  exact ⟨p, ps.filter (· != []), by simp [words, pieces, h, hp]⟩

end Text

namespace LayoutText
open ChordPad.Text

/-- The lines that count, without the blanks at their ends: those that are not empty and no comment. -/
def contentLines (text : List Char) : List (List Char) :=
  ((lines text).map trim).filter fun line => line != [] && line.head? != some '#'

theorem isContent_words {line : List Char} (h : ∀ c ∈ line.head?, isBlank c = false) :
    isContent (words line) = (line != [] && line.head? != some '#') := by
  cases line with
  | nil => rfl
  | cons c line =>
    obtain ⟨w, ws, hws⟩ := words_cons_of_not_blank (h c rfl) line
    rw [hws]
    rfl

/-- Of lines it does not matter whether the blanks at their ends are cut off before they are read. -/
theorem map_words_filter_trim (rows : List (List Char)) :
    ((rows.map trim).filter fun line => line != [] && line.head? != some '#').map words =
      (rows.map words).filter isContent := by
  have hcontent (line : List Char) :
      isContent (words line) = (trim line != [] && (trim line).head? != some '#') := by
    rw [← words_trim, isContent_words fun _ hc => isBlank_head?_trim hc]
  rw [List.filter_map, List.filter_map, List.map_map]
  simp only [Function.comp_def, hcontent, words_trim]

theorem rowWords_eq (text : List Char) : rowWords text = (contentLines text).map words :=
  (map_words_filter_trim (lines text)).symm

end LayoutText
end ChordPad
