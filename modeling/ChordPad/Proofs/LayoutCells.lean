import ChordPad.Proofs.Rendering

/-! A layout shows its matrix: which cells repeat a key, and what is looked up at every position,
inside the matrix and beyond it. -/
namespace ChordPad.KeyLayout
open LayoutText (Earlier)
variable {codes : List KeyCode} {rows : List (List KeyCode)} {cols row col i : Nat} {key : KeyCode}

def cell? (rows : List (List KeyCode)) (row col : Nat) : Option KeyCode :=
  (rows[row]?).bind (·[col]?)

/-- A key stands in a cell, and in an earlier one too. -/
structure RepeatsAt (rows : List (List KeyCode)) (key : KeyCode) (row col : Nat) : Prop where
  cell_eq : cell? rows row col = some key
  ne_noKey : key ≠ .noKey
  stood_before : ∃ r c, Earlier r c row col ∧ cell? rows r c = some key

/-- Row after row, this is the first cell whose key stands in an earlier one. -/
structure IsFirstRepeat (rows : List (List KeyCode)) (key : KeyCode) (row col : Nat) : Prop where
  repeats : RepeatsAt rows key row col
  first : ∀ r c other, Earlier r c row col → ¬ RepeatsAt rows other r c

/-- A key stands in two cells. -/
def HasKeyTwice (rows : List (List KeyCode)) : Prop :=
  ∃ key r c row col, key ≠ KeyCode.noKey ∧ cell? rows r c = some key ∧
    cell? rows row col = some key ∧ ¬ (r = row ∧ c = col)

/-- The layout has a position for every cell of the matrix and shows there the key of the cell. -/
structure Shows (layout : KeyLayout) (rows : List (List KeyCode)) : Prop where
  cols_pos : 0 < layout.cols
  area : layout.rows * layout.cols = rows.flatten.length
  key?_eq_some_iff : ∀ row col key, layout.key? row col = some key ↔
    row < layout.rows ∧ col < layout.cols ∧ cell? rows row col = some key ∧ key ≠ .noKey
  key?_inj : ∀ key row col r c, layout.key? row col = some key → layout.key? r c = some key →
    row = r ∧ col = c
  key?_beyond : ∀ row col, layout.cols ≤ col → layout.key? row col = none

/-! Repeated codes of a list. -/

/-- A code stands at a number, and at a smaller one too. -/
structure RepeatsIn (codes : List KeyCode) (key : KeyCode) (i : Nat) : Prop where
  code_eq : codes[i]? = some key
  ne_noKey : key ≠ .noKey
  stood_before : key ∈ codes.take i

theorem firstRepeat?_eq_none_iff_repeatsIn :
    firstRepeat? (· != KeyCode.noKey) [] codes = none ↔ ∀ i key, ¬ RepeatsIn codes key i := by
  rw [firstRepeat?_nil_eq_none_iff]
  constructor
  · intro h i key hrepeats
    exact h i key hrepeats.code_eq (by simpa using hrepeats.ne_noKey) hrepeats.stood_before
  · intro h i key hcode hne hbefore
    exact h i key ⟨hcode, by simpa using hne, hbefore⟩

theorem firstRepeat?_eq_some_iff_repeatsIn :
    firstRepeat? (· != KeyCode.noKey) [] codes = some (i, key) ↔
      RepeatsIn codes key i ∧ ∀ j other, j < i → ¬ RepeatsIn codes other j := by
  rw [firstRepeat?_nil_eq_some_iff]
  constructor
  · rintro ⟨hcode, hne, hbefore, hfirst⟩
    refine ⟨⟨hcode, by simpa using hne, hbefore⟩, ?_⟩
    intro j other hj h
    exact hfirst j hj other h.code_eq (by simpa using h.ne_noKey) h.stood_before
  · rintro ⟨h, hfirst⟩
    refine ⟨h.code_eq, by simpa using h.ne_noKey, h.stood_before, ?_⟩
    intro j hj other hcode hne hbefore
    exact hfirst j other hj ⟨hcode, by simpa using hne, hbefore⟩

/-! Cells and their numbers, which grow from cell to later cell. -/

theorem exists_repeatsAt_iff : (∃ key row col, RepeatsAt rows key row col) ↔ HasKeyTwice rows := by
  constructor
  · rintro ⟨key, row, col, h⟩
    obtain ⟨r, c, hearlier, hcell⟩ := h.stood_before
    refine ⟨key, r, c, row, col, h.ne_noKey, hcell, h.cell_eq, ?_⟩
    rintro ⟨rfl, rfl⟩
    exact hearlier.elim (Nat.lt_irrefl _) fun hsame => Nat.lt_irrefl _ hsame.2
  · rintro ⟨key, r, c, row, col, hne, hcell, hcell', hapart⟩
    rcases LayoutText.earlier_trichotomy r c row col with hearlier | hsame | hearlier
    · exact ⟨key, row, col, hcell', hne, r, c, hearlier, hcell⟩
    · exact absurd hsame hapart
    · exact ⟨key, r, c, hcell, hne, row, col, hearlier, hcell'⟩

section Cells
variable (hrows : ∀ codes ∈ rows, codes.length = cols)
include hrows

theorem getElem?_flatten_eq_cell? (hcol : col < cols) :
    rows.flatten[row * cols + col]? = cell? rows row col :=
  LayoutText.getElem?_flatten hrows hcol

theorem lt_of_cell? (h : cell? rows row col = some key) : row < rows.length ∧ col < cols := by
  obtain ⟨line, hline, hcode⟩ := Option.bind_eq_some_iff.1 h
  have hlength := hrows line (List.mem_of_getElem? hline)
  exact ⟨(List.getElem?_eq_some_iff.1 hline).1, hlength ▸ (List.getElem?_eq_some_iff.1 hcode).1⟩

theorem cell?_div_mod (h : rows.flatten[i]? = some key) :
    cell? rows (i / cols) (i % cols) = some key := by
  have hcols := cols_pos_of_flatten hrows (List.ne_nil_of_mem (List.mem_of_getElem? h))
  rw [← getElem?_flatten_eq_cell? hrows (Nat.mod_lt i hcols), Nat.div_add_mod']
  exact h

theorem repeatsIn_of_repeatsAt (h : RepeatsAt rows key row col) :
    RepeatsIn rows.flatten key (row * cols + col) := by
  obtain ⟨r, c, hearlier, hcell⟩ := h.stood_before
  have hc := (lt_of_cell? hrows hcell).2
  have hlt := LayoutText.number_lt_of_earlier hc hearlier
  have hcol := (lt_of_cell? hrows h.cell_eq).2
  refine ⟨(getElem?_flatten_eq_cell? hrows hcol).trans h.cell_eq, h.ne_noKey, ?_⟩
  rw [← getElem?_flatten_eq_cell? hrows hc] at hcell
  exact mem_take_iff.2 ⟨_, hlt, hcell⟩

theorem RepeatsIn.repeatsAt (h : RepeatsIn rows.flatten key i) :
    RepeatsAt rows key (i / cols) (i % cols) := by
  obtain ⟨j, hlt, hj⟩ := mem_take_iff.1 h.stood_before
  exact ⟨cell?_div_mod hrows h.code_eq, h.ne_noKey, _, _, LayoutText.earlier_of_lt cols hlt,
    cell?_div_mod hrows hj⟩

theorem isFirstRepeat_iff : IsFirstRepeat rows key row col ↔
    ∃ i, firstRepeat? (· != KeyCode.noKey) [] rows.flatten = some (i, key) ∧
      row = i / cols ∧ col = i % cols := by
  simp only [firstRepeat?_eq_some_iff_repeatsIn]
  constructor
  · intro h
    have hcol := (lt_of_cell? hrows h.repeats.cell_eq).2
    refine ⟨row * cols + col, ⟨repeatsIn_of_repeatsAt hrows h.repeats, ?_⟩, (slot_div hcol).symm,
      (slot_mod hcol).symm⟩
    intro j other hj hrepeats
    have hearlier := LayoutText.earlier_of_lt cols hj
    rw [slot_div hcol, slot_mod hcol] at hearlier
    exact h.first _ _ _ hearlier (hrepeats.repeatsAt hrows)
  · rintro ⟨i, ⟨hrepeats, hfirst⟩, rfl, rfl⟩
    refine ⟨hrepeats.repeatsAt hrows, ?_⟩
    intro r c other hearlier hother
    have hc := (lt_of_cell? hrows hother.cell_eq).2
    have hlt := LayoutText.number_lt_of_earlier hc hearlier
    rw [Nat.div_add_mod'] at hlt
    exact hfirst _ other hlt (repeatsIn_of_repeatsAt hrows hother)

/-- Where a key repeats, there is a first repeated key. -/
theorem exists_isFirstRepeat (h : RepeatsAt rows key row col) :
    ∃ first r c, IsFirstRepeat rows first r c := by
  simp only [isFirstRepeat_iff hrows]
  cases hfound : firstRepeat? (· != KeyCode.noKey) [] rows.flatten with
  | none =>
    exact absurd (repeatsIn_of_repeatsAt hrows h)
      (firstRepeat?_eq_none_iff_repeatsIn.1 hfound _ _)
  | some found => exact ⟨found.2, _, _, found.1, rfl, rfl, rfl⟩

/-! What becomes of a matrix. -/

theorem flatten_eq_nil_iff : rows.flatten = [] ↔ ∀ row col, cell? rows row col = none := by
  constructor
  · intro hnil row col
    cases hcell : cell? rows row col with
    | none => rfl
    | some key =>
      rw [← getElem?_flatten_eq_cell? hrows (lt_of_cell? hrows hcell).2, hnil] at hcell
      cases hcell
  · intro hnone
    cases hcodes : rows.flatten with
    | nil => rfl
    | cons key codes =>
      have hfirst : rows.flatten[0]? = some key := by rw [hcodes]; rfl
      have hcell := cell?_div_mod hrows hfirst
      rw [hnone] at hcell
      cases hcell

theorem ofRows_eq_empty_iff : ofRows rows = .error .empty ↔ rows.flatten = [] := by
  constructor
  · intro h
    by_contra hne
    rw [ofRows_eq_of_flatten hrows hne] at h
    split at h
    · cases h
    · cases h
  · intro hnil
    rw [ofRows, hnil]
    rfl

theorem ofRows_eq_duplicateKey_iff :
    ofRows rows = .error (.duplicateKey key row col) ↔ IsFirstRepeat rows key row col := by
  rw [isFirstRepeat_iff hrows]
  by_cases hnil : rows.flatten = []
  · simp [(ofRows_eq_empty_iff hrows).2 hnil, hnil, firstRepeat?]
  · rw [ofRows_eq_of_flatten hrows hnil]
    cases hfound : firstRepeat? (· != KeyCode.noKey) [] rows.flatten with
    | none => simp
    | some found =>
      obtain ⟨i, found⟩ := found
      constructor
      · intro h
        cases h
        exact ⟨i, rfl, rfl, rfl⟩
      · rintro ⟨j, hsame, rfl, rfl⟩
        cases hsame
        rfl

theorem exists_ofRows_eq_ok_iff : (∃ layout, ofRows rows = .ok layout) ↔
    rows.flatten ≠ [] ∧ ∀ key row col, ¬ RepeatsAt rows key row col := by
  constructor
  · rintro ⟨layout, h⟩
    refine ⟨(ofRows_eq_ok h).1, ?_⟩
    intro key row col hrepeats
    obtain ⟨first, r, c, hfirst⟩ := exists_isFirstRepeat hrows hrepeats
    rw [(ofRows_eq_duplicateKey_iff hrows).2 hfirst] at h
    cases h
  · rintro ⟨hne, hdiffer⟩
    rw [ofRows_eq_of_flatten hrows hne]
    cases hfound : firstRepeat? (· != KeyCode.noKey) [] rows.flatten with
    | none => exact ⟨_, rfl⟩
    | some found =>
      have hrepeats := (firstRepeat?_eq_some_iff_repeatsIn.1 hfound).1
      exact absurd (hrepeats.repeatsAt hrows) (hdiffer _ _ _)

theorem shows_of_ofRows {layout : KeyLayout} (h : ofRows rows = .ok layout) :
    layout.Shows rows := by
  have hproper := proper_of_ofRows hrows h
  obtain ⟨hheight, hwidth⟩ := dimensions_of_ofRows hrows h
  have hlayout : layout = ⟨rows.flatten, cols⟩ := by
    obtain ⟨hne, hlayout, -⟩ := ofRows_eq_ok h
    rw [hlayout, length_headD hrows hne]
  have hkey (row col : Nat) : layout.key? row col =
      (cell? rows row col).filter (· != KeyCode.noKey) := by
    rw [hlayout]
    exact LayoutText.key?_flatten hrows row col
  refine ⟨hproper.cols_pos, ?_, ?_, ?_, ?_⟩
  · rw [← hproper.length_codes, hlayout]
  · intro row col key
    rw [hkey, Option.filter_eq_some_iff, bne_iff_ne, hheight, hwidth]
    constructor
    · rintro ⟨hcell, hne⟩
      obtain ⟨hrow, hcol⟩ := lt_of_cell? hrows hcell
      exact ⟨hrow, hcol, hcell, hne⟩
    · rintro ⟨-, -, hcell, hne⟩
      exact ⟨hcell, hne⟩
  · exact fun key row col r c => key?_inj hproper
  · intro row col hcol
    rw [key?, if_neg (Nat.not_lt.2 hcol)]

end Cells

/-- A matrix of equally long rows is refused for want of a cell, or for the first cell whose key stands in
an earlier one, and is otherwise a layout that shows it. -/
theorem ofRows_shows_or_blames_first (hrows : ∀ codes ∈ rows, codes.length = cols) :
    (ofRows rows = .error .empty ↔ ∀ row col, cell? rows row col = none) ∧
    (∀ key row col, ofRows rows = .error (.duplicateKey key row col) ↔
      IsFirstRepeat rows key row col) ∧
    ((∃ key row col, ofRows rows = .error (.duplicateKey key row col)) ↔ HasKeyTwice rows) ∧
    ((∃ layout, ofRows rows = .ok layout) ↔
      ¬ (∀ row col, cell? rows row col = none) ∧ ¬ HasKeyTwice rows) ∧
    (ofRows rows ≠ .error .empty → 0 < cols) ∧
    ∀ layout, ofRows rows = .ok layout →
      layout.rows = rows.length ∧ layout.cols = cols ∧ layout.Shows rows := by
  rw [← flatten_eq_nil_iff hrows, ← exists_repeatsAt_iff]
  refine ⟨ofRows_eq_empty_iff hrows, fun key row col => ofRows_eq_duplicateKey_iff hrows, ?_, ?_,
    ?_, ?_⟩
  · simp only [ofRows_eq_duplicateKey_iff hrows]
    constructor
    · rintro ⟨key, row, col, h⟩
      exact ⟨key, row, col, h.repeats⟩
    · rintro ⟨key, row, col, h⟩
      exact exists_isFirstRepeat hrows h
  · simpa only [not_exists] using exists_ofRows_eq_ok_iff hrows
  · intro h
    exact cols_pos_of_flatten hrows (mt (ofRows_eq_empty_iff hrows).2 h)
  · intro layout h
    obtain ⟨hheight, hwidth⟩ := dimensions_of_ofRows hrows h
    exact ⟨hheight, hwidth, shows_of_ofRows hrows h⟩

/-- Cells without a key may repeat, and the first of two repeated keys is blamed. Rows may have no
cells. -/
theorem ofRows_shows_or_blames_first_threeColumns :
    (∃ layout, ofRows [[4, 0, 5], [0, 6, 7]] = .ok layout ∧ layout.Shows [[4, 0, 5], [0, 6, 7]]) ∧
    IsFirstRepeat [[4, 0, 5], [5, 0, 4]] 5 1 0 ∧ ∀ row col, cell? [[], []] row col = none := by
  have hshown : ∀ codes ∈ [[(4 : KeyCode), 0, 5], [0, 6, 7]], codes.length = 3 := by decide
  have hblamed : ∀ codes ∈ [[(4 : KeyCode), 0, 5], [5, 0, 4]], codes.length = 3 := by decide
  have hempty : ∀ codes ∈ [([] : List KeyCode), []], codes.length = 0 := by decide
  obtain ⟨-, -, -, -, -, hshows⟩ := ofRows_shows_or_blames_first hshown
  obtain ⟨-, hblames, -⟩ := ofRows_shows_or_blames_first hblamed
  obtain ⟨hnone, -⟩ := ofRows_shows_or_blames_first hempty
  exact ⟨⟨_, rfl, (hshows _ rfl).2.2⟩, (hblames 5 1 0).1 rfl, hnone.1 rfl⟩

end ChordPad.KeyLayout
