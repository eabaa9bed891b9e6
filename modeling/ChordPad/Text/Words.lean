import ChordPad.Text.Blank

/-! Lines and words of a text. Both are what is left when the text is cut: at every line feed, or at
every blank with the empty pieces dropped. -/
namespace ChordPad.Text

/-- The pieces between the characters at which the text is cut. -/
def pieces (cut : Char → Bool) : List Char → List (List Char)
  | [] => [[]]
  | c :: cs =>
    if cut c then [] :: pieces cut cs
    else match pieces cut cs with
      | [] => [[c]]
      | p :: ps => (c :: p) :: ps

theorem pieces_ne_nil (cut : Char → Bool) (cs : List Char) : pieces cut cs ≠ [] := by
  cases cs with
  | nil => simp [pieces]
  | cons c cs =>
    rw [pieces]
    split
    · simp
    · split <;> simp

theorem pieces_cons_cut {cut : Char → Bool} {c : Char} (h : cut c = true) (cs : List Char) :
    pieces cut (c :: cs) = [] :: pieces cut cs := by
  rw [pieces, if_pos h]

theorem pieces_append_cut {cut : Char → Bool} {c : Char} (h : cut c = true) (xs ys : List Char) :
    pieces cut (xs ++ c :: ys) = pieces cut xs ++ pieces cut ys := by
  induction xs with
  | nil => simp [pieces, h]
  | cons x xs ih =>
    simp only [List.cons_append, pieces, ih]
    split
    · rfl
    · cases hp : pieces cut xs with
      | nil => exact absurd hp (pieces_ne_nil cut xs)
      | cons p ps => rfl

theorem not_cut_of_mem_pieces {cut : Char → Bool} {cs p : List Char} (hp : p ∈ pieces cut cs) :
    ∀ c ∈ p, cut c = false := by
  induction cs generalizing p with
  | nil => simp_all [pieces]
  | cons x cs ih =>
    rw [pieces] at hp
    split at hp
    · rcases List.mem_cons.1 hp with rfl | hp
      · simp
      · exact ih hp
    · rename_i hx
      split at hp
      · simp_all
      · rename_i q qs hq
        rcases List.mem_cons.1 hp with rfl | hp
        · have hq' := ih (p := q) (by simp [hq])
          simpa [hx] using hq'
        · exact ih (by simp [hq, hp])

/-- The lines of a text. A carriage return before the line feed stays; as a blank it is in no word. -/
def lines (text : List Char) : List (List Char) := pieces (· == '\n') text

/-- The longest runs of characters that are not blank. -/
def words (line : List Char) : List (List Char) := (pieces isBlank line).filter (· != [])

theorem mem_words {line w : List Char} (h : w ∈ words line) :
    w ≠ [] ∧ ∀ c ∈ w, isBlank c = false := by
  obtain ⟨hw, hne⟩ := List.mem_filter.1 h
  exact ⟨by simpa using hne, not_cut_of_mem_pieces hw⟩

theorem words_append_blank {c : Char} (h : isBlank c = true) (xs ys : List Char) :
    words (xs ++ c :: ys) = words xs ++ words ys := by
  simp [words, pieces_append_cut h]

end ChordPad.Text
