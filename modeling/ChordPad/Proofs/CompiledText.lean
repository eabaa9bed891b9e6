import ChordPad.LayoutText
import ChordPad.Proofs.Positions

/-! What the compiler of layout texts guarantees of a matrix that it returns: every place has the code
of its word, all rows are equally long, no key stands twice, so that a layout can be made of it. -/
namespace ChordPad.LayoutText

/-- The word at a place of a matrix of words. -/
def nameAt? (rows : List (List Word)) (row col : Nat) : Option Word := (rows[row]?).bind (·[col]?)

/-- The word at a place of a text. -/
def wordAt? (text : List Char) (row col : Nat) : Option Word :=
  ((rowWords text)[row]?).bind (·[col]?)

theorem bind_eq_ok {ε α β : Type} {x : Except ε α} {f : α → Except ε β} {b : β}
    (h : x >>= f = .ok b) : ∃ a, x = .ok a ∧ f a = .ok b := by
  cases x with
  | error e => cases h
  | ok a => exact ⟨a, rfl, h⟩

/-- A row that is read has the codes of its words, and its keys differ from each other and from all
that were named before. -/
theorem readWords_eq_ok {row col : Nat} {seen after : List Named} {names : List Word}
    {codes : List KeyCode} (h : readWords row col seen names = .ok (codes, after)) :
    names.map KeyCode.ofName? = codes.map some ∧
      after.map (·.code) = (codes.filter (· != KeyCode.noKey)).reverse ++ seen.map (·.code) ∧
      ((seen.map (·.code)).Nodup → (after.map (·.code)).Nodup) := by
  fun_induction readWords row col seen names generalizing codes after with
  | case1 col seen =>
    cases h
    exact ⟨rfl, rfl, id⟩
  | case2 col seen name names hname => cases h
  | case3 col seen name names hname ih =>
    obtain ⟨⟨rest, later⟩, hrest, heq⟩ := bind_eq_ok h
    cases heq
    obtain ⟨hcodes, hseen, hnodup⟩ := ih hrest
    exact ⟨by simp [hname, hcodes], by simp [hseen], hnodup⟩
  | case4 col seen name names code hname hkey earlier hfound => cases h
  | case5 col seen name names code hname hkey hnew ih =>
    obtain ⟨⟨rest, later⟩, hrest, heq⟩ := bind_eq_ok h
    cases heq
    obtain ⟨hcodes, hseen, hnodup⟩ := ih hrest
    refine ⟨by simp [hname, hcodes], by simp [hseen, hkey], fun hbefore => hnodup ?_⟩
    refine List.nodup_cons.2 ⟨fun hmem => ?_, hbefore⟩
    obtain ⟨earlier, hmem, hsame⟩ := List.mem_map.1 hmem
    have := List.find?_eq_none.1 hnew earlier hmem
    simp [hsame] at this

theorem readRows_eq_ok {width row : Nat} {seen : List Named} {names : List (List Word)}
    {rows : List (List KeyCode)} (h : readRows width row seen names = .ok rows) :
    names.map (List.map KeyCode.ofName?) = rows.map (List.map some) ∧
      (∀ codes ∈ rows, codes.length = width) ∧
      ((seen.map (·.code)).Nodup →
        ((rows.flatten.filter (· != KeyCode.noKey)).reverse ++ seen.map (·.code)).Nodup) := by
  induction names generalizing row seen rows with
  | nil =>
    cases h
    exact ⟨rfl, by simp, by simp⟩
  | cons line names ih =>
    rw [readRows] at h
    obtain ⟨⟨codes, after⟩, hcodes, h⟩ := bind_eq_ok h
    obtain ⟨hwords, hafter, hnodup⟩ := readWords_eq_ok hcodes
    by_cases hwidth : line.length ≠ width
    · simp only [if_pos hwidth] at h
      cases h
    · simp only [if_neg hwidth] at h
      obtain ⟨rest, hrest, heq⟩ := bind_eq_ok h
      cases heq
      obtain ⟨hlines, hlengths, hkeys⟩ := ih hrest
      have hlength : codes.length = width := by
        have := congrArg List.length hwords
        simp only [List.length_map] at this
        omega
      refine ⟨by simp [hwords, hlines], ?_, fun hseen => ?_⟩
      · intro line hline
        rcases List.mem_cons.1 hline with rfl | hline
        · exact hlength
        · exact hlengths line hline
      · have := hkeys (hnodup hseen)
        rw [hafter] at this
        simpa using this

theorem compile_eq_ok {text : List Char} {rows : List (List KeyCode)}
    (h : compile text = .ok rows) :
    (rowWords text).map (List.map KeyCode.ofName?) = rows.map (List.map some) ∧
      ∃ width, 0 < width ∧ (∀ codes ∈ rows, codes.length = width) ∧
        KeyLayout.ofRows rows = .ok ⟨rows.flatten, width⟩ := by
  rw [compile] at h
  split at h
  · cases h
  · rename_i first rest hwords
    obtain ⟨hcodes, hlengths, hkeys⟩ := readRows_eq_ok h
    have hfirst : 0 < first.length := by
      have hcontent : isContent first = true := by
        have : first ∈ rowWords text := by rw [hwords]; exact List.mem_cons_self
        exact (List.mem_filter.1 this).2
      cases first with
      | nil => cases hcontent
      | cons word words => exact Nat.succ_pos _
    refine ⟨by rw [hwords]; exact hcodes, first.length, hfirst, hlengths, ?_⟩
    have hne : rows ≠ [] := by
      rintro rfl
      simp at hcodes
    have hrepeat : firstRepeat? (· != KeyCode.noKey) [] rows.flatten = none := by
      rw [firstRepeat?_eq_none_iff]
      refine ⟨by simp, ?_⟩
      have hnodup := hkeys List.nodup_nil
      rw [List.map_nil, List.append_nil] at hnodup
      exact (List.reverse_perm _).nodup_iff.1 hnodup
    rw [KeyLayout.ofRows_eq hne hfirst hlengths, hrepeat]

theorem getElem?_flatten {rows : List (List KeyCode)} {width : Nat}
    (hwidth : ∀ codes ∈ rows, codes.length = width) {row col : Nat} (hcol : col < width) :
    rows.flatten[row * width + col]? = (rows[row]?).bind (·[col]?) := by
  induction rows generalizing row with
  | nil => simp
  | cons codes rows ih =>
    have hcodes := hwidth codes List.mem_cons_self
    have hrest := @ih fun line hline => hwidth line (List.mem_cons_of_mem _ hline)
    cases row with
    | zero =>
      rw [List.flatten_cons, Nat.zero_mul, Nat.zero_add, List.getElem?_append_left (by omega)]
      rfl
    | succ row =>
      have hnumber : (row + 1) * width + col - codes.length = row * width + col := by
        rw [Nat.succ_mul, hcodes]; omega
      rw [List.flatten_cons, List.getElem?_append_right (by rw [Nat.succ_mul]; omega), hnumber,
        hrest]
      rfl

/-- Every place of a matrix of codes has the code of the word at that place. -/
theorem bind_nameAt?_ofName? {names : List (List Word)} {rows : List (List KeyCode)}
    (h : names.map (List.map KeyCode.ofName?) = rows.map (List.map some)) (row col : Nat) :
    (nameAt? names row col).bind KeyCode.ofName? = (rows[row]?).bind (·[col]?) := by
  have hrow := congrArg (·[row]?) h
  simp only [List.getElem?_map] at hrow
  rw [nameAt?]
  cases hw : names[row]? with
  | none =>
    cases hr : rows[row]? with
    | none => rfl
    | some codes => simp [hw, hr] at hrow
  | some words =>
    cases hr : rows[row]? with
    | none => simp [hw, hr] at hrow
    | some codes =>
      rw [hw, hr] at hrow
      have hplace := congrArg (·[col]?) (Option.some_inj.1 hrow)
      simp only [List.getElem?_map] at hplace
      simp only [Option.bind_some]
      cases hn : words[col]? with
      | none => simpa [hn] using hplace.symm
      | some name =>
        rw [hn] at hplace
        cases hc : codes[col]? with
        | none => simp [hc] at hplace
        | some code => simpa [hc] using hplace

/-- The key of a position is the code of the word at that place, unless the word stands for none. -/
theorem key?_compile {text : List Char} {rows : List (List KeyCode)} {layout : KeyLayout}
    (h : compile text = .ok rows) (hlayout : KeyLayout.ofRows rows = .ok layout) {row col : Nat}
    (hcol : col < layout.cols) :
    layout.key? row col =
      ((wordAt? text row col).bind KeyCode.ofName?).filter (· != KeyCode.noKey) := by
  obtain ⟨hcodes, width, -, hwidth, hok⟩ := compile_eq_ok h
  rw [hok] at hlayout
  cases hlayout
  rw [KeyLayout.key?_eq_getElem? hcol, getElem?_flatten hwidth hcol, ← bind_nameAt?_ofName? hcodes]
  rfl

end ChordPad.LayoutText
