import ChordPad.Scanner

/-! Layouts that were accepted, and the numbering of their positions row after row. -/
namespace ChordPad.KeyLayout

/-- What holds of a layout that was made from rows of equal length. -/
structure Proper (layout : KeyLayout) : Prop where
  cols_pos : 0 < layout.cols
  length_codes : layout.codes.length = layout.rows * layout.cols
  nodup_keys : (layout.codes.filter (· != KeyCode.noKey)).Nodup

theorem length_flatten_of_length_eq {rows : List (List KeyCode)} {cols : Nat}
    (hrows : ∀ row ∈ rows, row.length = cols) : rows.flatten.length = rows.length * cols := by
  induction rows with
  | nil => simp
  | cons row rows ih =>
    have hrow := hrows row (by simp)
    have hrest := ih fun r hr => hrows r (by simp [hr])
    rw [List.flatten_cons, List.length_append, hrow, hrest, List.length_cons]
    rw [Nat.add_mul, Nat.one_mul, Nat.add_comm]

theorem ofRows_eq_ok {rows : List (List KeyCode)} {layout : KeyLayout}
    (h : ofRows rows = .ok layout) :
    rows.flatten ≠ [] ∧ layout = ⟨rows.flatten, (rows.headD []).length⟩ ∧
      (rows.flatten.filter (· != KeyCode.noKey)).Nodup := by
  simp only [ofRows] at h
  split at h
  · cases h
  · rename_i hne
    split at h
    · cases h
    · rename_i hrep
      refine ⟨by simpa using hne, (Except.ok.inj h).symm, ?_⟩
      exact (firstRepeat?_eq_none_iff.1 hrep).2

theorem length_headD {rows : List (List KeyCode)} {cols : Nat}
    (hrows : ∀ row ∈ rows, row.length = cols) (hne : rows.flatten ≠ []) :
    (rows.headD []).length = cols := by
  cases rows with
  | nil => simp at hne
  | cons row rows => exact hrows row (by simp)

theorem cols_pos_of_flatten {rows : List (List KeyCode)} {cols : Nat}
    (hrows : ∀ row ∈ rows, row.length = cols) (hne : rows.flatten ≠ []) : 0 < cols := by
  have hpos := List.length_pos_iff.2 hne
  rw [length_flatten_of_length_eq hrows] at hpos
  exact Nat.pos_of_mul_pos_left hpos

theorem proper_of_ofRows {rows : List (List KeyCode)} {cols : Nat} {layout : KeyLayout}
    (hrows : ∀ row ∈ rows, row.length = cols) (h : ofRows rows = .ok layout) :
    layout.Proper := by
  obtain ⟨hne, rfl, hnodup⟩ := ofRows_eq_ok h
  have hhead := length_headD hrows hne
  have hpos := cols_pos_of_flatten hrows hne
  refine ⟨by simpa only [hhead] using hpos, ?_, hnodup⟩
  simp only [KeyLayout.rows, hhead, length_flatten_of_length_eq hrows]
  rw [Nat.mul_div_cancel _ hpos]

theorem dimensions_of_ofRows {rows : List (List KeyCode)} {cols : Nat} {layout : KeyLayout}
    (hrows : ∀ row ∈ rows, row.length = cols) (h : ofRows rows = .ok layout) :
    layout.rows = rows.length ∧ layout.cols = cols := by
  have hproper := proper_of_ofRows hrows h
  obtain ⟨hne, hlayout, -⟩ := ofRows_eq_ok h
  have hcols : layout.cols = cols := by rw [hlayout, length_headD hrows hne]
  refine ⟨Nat.eq_of_mul_eq_mul_right hproper.cols_pos ?_, hcols⟩
  rw [← hproper.length_codes, hcols, ← length_flatten_of_length_eq hrows, hlayout]

/-- A matrix that has cells is a layout, unless a key stands in it twice. -/
theorem ofRows_eq_of_flatten {rows : List (List KeyCode)} {cols : Nat}
    (hrows : ∀ row ∈ rows, row.length = cols) (hne : rows.flatten ≠ []) :
    ofRows rows = match firstRepeat? (· != KeyCode.noKey) [] rows.flatten with
      | some (i, key) => .error (.duplicateKey key (i / cols) (i % cols))
      | none => .ok ⟨rows.flatten, cols⟩ := by
  simp only [ofRows, List.isEmpty_eq_false_iff.2 hne, length_headD hrows hne]
  rfl

theorem ofRows_eq {rows : List (List KeyCode)} {cols : Nat} (hne : rows ≠ []) (hcols : 0 < cols)
    (hrows : ∀ row ∈ rows, row.length = cols) :
    ofRows rows = match firstRepeat? (· != KeyCode.noKey) [] rows.flatten with
      | some (i, key) => .error (.duplicateKey key (i / cols) (i % cols))
      | none => .ok ⟨rows.flatten, cols⟩ := by
  have hflatten : rows.flatten ≠ [] := by
    rw [Ne, ← List.length_eq_zero_iff, length_flatten_of_length_eq hrows]
    exact Nat.mul_ne_zero (mt List.length_eq_zero_iff.1 hne) (Nat.ne_of_gt hcols)
  exact ofRows_eq_of_flatten hrows hflatten

theorem positions_eq_map_range {layout : KeyLayout} (h : layout.Proper) :
    layout.positions =
      (List.range (layout.rows * layout.cols)).map fun i => (i / layout.cols, i % layout.cols) := by
  have line (n : Nat) : ((List.range n).flatMap fun row =>
      (List.range layout.cols).map fun col => (row, col)) =
      (List.range (n * layout.cols)).map fun i => (i / layout.cols, i % layout.cols) := by
    induction n with
    | zero => simp
    | succ n ih =>
      rw [List.range_succ, List.flatMap_append, ih, Nat.succ_mul, List.range_add, List.map_append]
      congr 1
      rw [List.flatMap_singleton, List.map_map]
      refine List.map_congr_left fun col hcol => ?_
      have hlt := List.mem_range.1 hcol
      simp only [Function.comp, Nat.mul_comm n]
      rw [Nat.mul_add_div h.cols_pos, Nat.mul_add_mod, Nat.div_eq_of_lt hlt, Nat.mod_eq_of_lt hlt,
        Nat.add_zero]
  exact line layout.rows

theorem length_positions {layout : KeyLayout} (h : layout.Proper) :
    layout.positions.length = layout.codes.length := by
  rw [positions_eq_map_range h, List.length_map, List.length_range, h.length_codes]

theorem positions_getElem {layout : KeyLayout} (h : layout.Proper) {i : Nat}
    (hi : i < layout.positions.length) :
    layout.positions[i] = (i / layout.cols, i % layout.cols) := by
  simp only [positions_eq_map_range h, List.getElem_map, List.getElem_range]

theorem mem_positions {layout : KeyLayout} {row col : Nat} :
    (row, col) ∈ layout.positions ↔ row < layout.rows ∧ col < layout.cols := by
  simp [positions]

theorem slot_lt_mul {row col rows cols : Nat} (hrow : row < rows) (hcol : col < cols) :
    row * cols + col < rows * cols :=
  calc
    row * cols + col < row * cols + cols := Nat.add_lt_add_left hcol _
    _ = (row + 1) * cols := (Nat.succ_mul row cols).symm
    _ ≤ rows * cols := Nat.mul_le_mul_right _ hrow

theorem slot_lt {layout : KeyLayout} (h : layout.Proper) {row col : Nat}
    (hrow : row < layout.rows) (hcol : col < layout.cols) :
    row * layout.cols + col < layout.codes.length := by
  rw [h.length_codes]
  exact slot_lt_mul hrow hcol

theorem slot_div {row col cols : Nat} (hcol : col < cols) : (row * cols + col) / cols = row := by
  rw [Nat.mul_comm, Nat.mul_add_div (by omega), Nat.div_eq_of_lt hcol, Nat.add_zero]

theorem slot_mod {row col cols : Nat} (hcol : col < cols) : (row * cols + col) % cols = col := by
  rw [Nat.mul_comm, Nat.mul_add_mod, Nat.mod_eq_of_lt hcol]

theorem div_lt_rows {layout : KeyLayout} (h : layout.Proper) {i : Nat}
    (hi : i < layout.codes.length) : i / layout.cols < layout.rows :=
  Nat.div_lt_of_lt_mul (by rw [Nat.mul_comm, ← h.length_codes]; exact hi)

theorem key?_eq_getElem? {layout : KeyLayout} {row col : Nat} (hcol : col < layout.cols) :
    layout.key? row col =
      (layout.codes[row * layout.cols + col]?).filter (· != KeyCode.noKey) := by
  rw [key?, if_pos hcol]

theorem mem_take_iff {codes : List KeyCode} {key : KeyCode} {i : Nat} :
    key ∈ codes.take i ↔ ∃ j, j < i ∧ codes[j]? = some key := by
  simp only [List.mem_iff_getElem?, List.getElem?_take, Option.ite_none_right_eq_some]

theorem index_unique_of_nodup {codes : List KeyCode} (h : (codes.filter (· != KeyCode.noKey)).Nodup)
    {key : KeyCode} (hkey : key ≠ KeyCode.noKey) {i j : Nat} (hi : codes[i]? = some key)
    (hj : codes[j]? = some key) : i = j := by
  have hnone : firstRepeat? (· != KeyCode.noKey) [] codes = none :=
    firstRepeat?_eq_none_iff.2 ⟨fun _ _ _ => List.not_mem_nil, h⟩
  have apart {a b : Nat} (ha : codes[a]? = some key) (hb : codes[b]? = some key) : ¬ a < b := by
    intro hab
    have hbefore : key ∈ codes.take b := mem_take_iff.2 ⟨a, hab, ha⟩
    exact firstRepeat?_nil_eq_none_iff.1 hnone b key hb (by simpa using hkey) hbefore
  have h1 := apart hi hj
  have h2 := apart hj hi
  omega

/-- A key has one number. -/
theorem index_unique {layout : KeyLayout} (h : layout.Proper) {key : KeyCode}
    (hkey : key ≠ KeyCode.noKey) {i j : Nat} (hi : layout.codes[i]? = some key)
    (hj : layout.codes[j]? = some key) : i = j :=
  index_unique_of_nodup h.nodup_keys hkey hi hj

theorem idxOf_eq {layout : KeyLayout} (h : layout.Proper) {key : KeyCode}
    (hkey : key ≠ KeyCode.noKey) {i : Nat} (hi : layout.codes[i]? = some key) :
    layout.codes.idxOf key = i := by
  have hlt : layout.codes.idxOf key < layout.codes.length :=
    List.idxOf_lt_length_of_mem (List.mem_of_getElem? hi)
  have hget : layout.codes[layout.codes.idxOf key]? = some key := by
    rw [List.getElem?_eq_getElem hlt, List.getElem_idxOf hlt]
  exact index_unique h hkey hget hi

theorem getElem?_eq_key? {layout : KeyLayout} (h : layout.Proper) {row col : Nat}
    (hrow : row < layout.rows) (hcol : col < layout.cols) :
    layout.codes[row * layout.cols + col]? = some ((layout.key? row col).getD KeyCode.noKey) := by
  have hslot := slot_lt h hrow hcol
  rw [key?_eq_getElem? hcol, List.getElem?_eq_getElem hslot]
  by_cases hcode : layout.codes[row * layout.cols + col] = KeyCode.noKey
  · simp [hcode, Option.filter]
  · simp [hcode, Option.filter]

theorem key?_eq_some {layout : KeyLayout} {row col : Nat} {key : KeyCode}
    (hkey : layout.key? row col = some key) :
    col < layout.cols ∧ layout.codes[row * layout.cols + col]? = some key ∧
      key ≠ KeyCode.noKey := by
  rw [key?] at hkey
  split at hkey
  · rename_i hcol
    obtain ⟨hcode, hne⟩ := Option.filter_eq_some_iff.1 hkey
    exact ⟨hcol, hcode, by simpa using hne⟩
  · cases hkey

theorem filter_getD_key? (layout : KeyLayout) (row col : Nat) :
    (some ((layout.key? row col).getD KeyCode.noKey)).filter (· != KeyCode.noKey) =
      layout.key? row col := by
  cases hkey : layout.key? row col with
  | none => rfl
  | some key => simpa [Option.filter] using (key?_eq_some hkey).2.2

theorem row_lt_of_key? {layout : KeyLayout} (h : layout.Proper) {row col : Nat} {key : KeyCode}
    (hkey : layout.key? row col = some key) : row < layout.rows := by
  obtain ⟨hcol, hcode, -⟩ := key?_eq_some hkey
  have hlt := div_lt_rows h (List.getElem?_eq_some_iff.1 hcode).1
  rwa [slot_div hcol] at hlt

theorem key?_inj {layout : KeyLayout} (h : layout.Proper) {key : KeyCode} {row col r c : Nat}
    (h₁ : layout.key? row col = some key) (h₂ : layout.key? r c = some key) :
    row = r ∧ col = c := by
  obtain ⟨hcol, hcode, hkey⟩ := key?_eq_some h₁
  obtain ⟨hc, hcode', -⟩ := key?_eq_some h₂
  have hslot := index_unique h hkey hcode hcode'
  have hrow := congrArg (· / layout.cols) hslot
  have hmod := congrArg (· % layout.cols) hslot
  simp only [slot_div hcol, slot_div hc, slot_mod hcol, slot_mod hc] at hrow hmod
  exact ⟨hrow, hmod⟩

end ChordPad.KeyLayout
