import ChordPad.Proofs.FirstDefect
import ChordPad.Proofs.KeyNames

/-! Texts made of a matrix of codes, and both checks of a matrix. The compiler of layout texts looks
for a key among those named before, `KeyLayout.ofRows` among the codes before it in the flattened
matrix. Both refuse the same matrices, and blame the same place. -/
namespace ChordPad

/-! Lists that are mapped to options. -/

theorem mapM_eq_some_iff {α β : Type} {f : α → Option β} {xs : List α} {ys : List β} :
    xs.mapM f = some ys ↔ xs.map f = ys.map some := by
  induction xs generalizing ys with
  | nil => cases ys <;> simp
  | cons x xs ih =>
    cases ys with
    | nil => simp [List.mapM_cons, Option.bind_eq_some_iff]
    | cons y ys => simp [List.mapM_cons, Option.bind_eq_some_iff, ← ih]

theorem exists_mapM_eq_some {α β : Type} {f : α → Option β} {xs : List α}
    (h : ∀ x ∈ xs, ∃ y, f x = some y) : ∃ ys, xs.mapM f = some ys := by
  induction xs with
  | nil => exact ⟨[], rfl⟩
  | cons x xs ih =>
    obtain ⟨y, hy⟩ := h x List.mem_cons_self
    obtain ⟨ys, hys⟩ := ih fun z hz => h z (List.mem_cons_of_mem x hz)
    exact ⟨y :: ys, by simp [List.mapM_cons, hy, hys]⟩

/-- Where members that are mapped alike are also related by other maps, so are the lists. -/
theorem map_eq_map_of_forall {α β γ δ : Type} {f : α → γ} {g : β → γ} {k : α → δ} {h : β → δ}
    (hmaps : ∀ x y, f x = g y → h y = k x) {xs : List α} {ys : List β} (hlists : xs.map f = ys.map g) :
    ys.map h = xs.map k := by
  induction xs generalizing ys with
  | nil =>
    obtain rfl : ys = [] := List.map_eq_nil_iff.1 hlists.symm
    rfl
  | cons x xs ih =>
    cases ys with
    | nil => cases hlists
    | cons y ys =>
      obtain ⟨hhead, htail⟩ := List.cons.inj hlists
      rw [List.map_cons, List.map_cons, hmaps x y hhead, ih htail]

theorem exists_mem_of_map_eq {α β γ : Type} {f : α → γ} {g : β → γ} {xs : List α} {ys : List β}
    (h : xs.map f = ys.map g) {y : β} (hy : y ∈ ys) : ∃ x ∈ xs, f x = g y := by
  have hmem : g y ∈ xs.map f := by
    rw [h]
    exact List.mem_map_of_mem hy
  exact List.mem_map.1 hmem

/-! Words that are joined are read again. -/

namespace Text

theorem words_intercalate {names : List (List Char)} (h : ∀ name ∈ names, LayoutText.IsNameWord name) :
    words ([' '].intercalate names) = names := by
  induction names with
  | nil => rfl
  | cons name names ih =>
    have hname := h name List.mem_cons_self
    have hrest := ih fun other hother => h other (List.mem_cons_of_mem name hother)
    cases names with
    | nil =>
      rw [List.intercalate_singleton]
      exact words_eq_singleton hname.ne_nil hname.not_blank
    | cons next names =>
      have hblank : isBlank ' ' = true := by decide
      rw [List.intercalate_cons_cons, List.append_assoc, List.singleton_append,
        words_append_blank hblank, words_eq_singleton hname.ne_nil hname.not_blank, hrest]
      rfl

theorem lines_append_newline {line : List Char} (h : ∀ c ∈ line, c ≠ '\n') (rest : List Char) :
    lines (line ++ '\n' :: rest) = line :: lines rest := by
  have hline : pieces (· == '\n') line = [line] := pieces_eq_singleton (by simpa using h)
  rw [lines, pieces_append_cut (by decide), hline]
  rfl

end Text

namespace LayoutText
open ChordPad.Text

variable {named : List (List Word)} {rows : List (List KeyCode)} {cols row col i : Nat}
  {name : Word} {key : KeyCode} {defect : Defect}

theorem ne_newline_of_mem_intercalate {names : List Word} (h : ∀ name ∈ names, IsNameWord name) :
    ∀ c ∈ [' '].intercalate names, c ≠ '\n' := by
  induction names with
  | nil => simp
  | cons name names ih =>
    have hrest := ih fun other hother => h other (List.mem_cons_of_mem name hother)
    have hname : ∀ c ∈ name, c ≠ '\n' := by
      rintro c hc rfl
      exact absurd ((h name List.mem_cons_self).not_blank _ hc) (by decide)
    cases names with
    | nil => simpa using hname
    | cons next names =>
      rw [List.intercalate_cons_cons]
      intro c hc
      rcases List.mem_append.1 hc with hc | hc
      · rcases List.mem_append.1 hc with hc | hc
        · exact hname c hc
        · obtain rfl := List.mem_singleton.1 hc
          decide
      · exact hrest c hc

/-- The rows of a text that has one line for each row of names. -/
theorem rowWords_flatten (h : ∀ names ∈ named, names ≠ [] ∧ ∀ name ∈ names, IsNameWord name) :
    rowWords (named.map fun names => [' '].intercalate names ++ ['\n']).flatten = named := by
  induction named with
  | nil => rfl
  | cons names named ih =>
    obtain ⟨hne, hnames⟩ := h names List.mem_cons_self
    have hrest := ih fun line hline => h line (List.mem_cons_of_mem names hline)
    have hcontent : isContent names = true := by
      obtain ⟨name, others, rfl⟩ := List.exists_cons_of_ne_nil hne
      simpa [isContent] using (hnames name List.mem_cons_self).no_comment
    rw [rowWords] at hrest ⊢
    rw [List.map_cons, List.flatten_cons, List.append_assoc, List.singleton_append,
      lines_append_newline (ne_newline_of_mem_intercalate hnames), List.map_cons,
      words_intercalate hnames, List.filter_cons_of_pos hcontent, hrest]

/-- A text is made of names that stand for the codes of the matrix. -/
theorem render?_eq_some {text : List Char} (h : render? rows = some text) :
    ∃ named : List (List Word), named.map (List.map KeyCode.ofName?) = rows.map (List.map some) ∧
      (∀ names ∈ named, ∀ name ∈ names, IsNameWord name) ∧
      text = (named.map fun names => [' '].intercalate names ++ ['\n']).flatten := by
  obtain ⟨named, hnamed, rfl⟩ := Option.map_eq_some_iff.1 h
  have hrows : rows.map (List.map KeyCode.name?) = named.map (List.map some) := by
    symm
    refine map_eq_map_of_forall ?_ (mapM_eq_some_iff.1 hnamed)
    exact fun codes names hnames => (mapM_eq_some_iff.1 hnames).symm
  refine ⟨named, ?_, ?_, rfl⟩
  · refine map_eq_map_of_forall (fun codes names hnames => ?_) hrows
    exact map_eq_map_of_forall (fun code name hname => (KeyCode.name?_spec hname).1) hnames
  · intro names hnames name hname
    obtain ⟨codes, -, hcodes⟩ := exists_mem_of_map_eq hrows hnames
    obtain ⟨code, -, hcode⟩ := exists_mem_of_map_eq hcodes hname
    exact (KeyCode.name?_spec hcode).2

theorem exists_render? (h : ∀ codes ∈ rows, ∀ code ∈ codes, code.name? ≠ none) :
    ∃ text, render? rows = some text := by
  have hnamed : ∃ named, rows.mapM (List.mapM KeyCode.name?) = some named := by
    refine exists_mapM_eq_some fun codes hcodes => exists_mapM_eq_some fun code hcode => ?_
    exact Option.ne_none_iff_exists'.1 (h codes hcodes code hcode)
  obtain ⟨named, hnamed⟩ := hnamed
  exact ⟨_, by rw [render?, hnamed]; rfl⟩

/-! Places of a matrix of names against numbers of codes. -/

theorem number_lt_of_earlier {r c : Nat} (hc : c < cols) (h : Earlier r c row col) :
    r * cols + c < row * cols + col := by
  rcases h with hr | ⟨rfl, hc⟩
  · exact Nat.lt_of_lt_of_le (KeyLayout.slot_lt_mul hr hc) (Nat.le_add_right _ _)
  · exact Nat.add_lt_add_left hc _

theorem earlier_of_lt (cols : Nat) {i j : Nat} (h : j < i) :
    Earlier (j / cols) (j % cols) (i / cols) (i % cols) := by
  rcases Nat.lt_or_eq_of_le (Nat.div_le_div_right (c := cols) (Nat.le_of_lt h)) with hrow | hrow
  · exact .inl hrow
  · refine .inr ⟨hrow, ?_⟩
    have hj := Nat.div_add_mod j cols
    have hi := Nat.div_add_mod i cols
    rw [hrow] at hj
    omega

section Named
variable (hcodes : named.map (List.map KeyCode.ofName?) = rows.map (List.map some))
include hcodes

theorem exists_codes {line : List Word} (hline : named[row]? = some line) :
    ∃ codes ∈ rows, codes.map some = line.map KeyCode.ofName? :=
  exists_mem_of_map_eq hcodes.symm (List.mem_of_getElem? hline)

variable (hrows : ∀ codes ∈ rows, codes.length = cols)
include hrows

theorem length_names {line : List Word} (hline : named[row]? = some line) : line.length = cols := by
  obtain ⟨codes, hmem, hsame⟩ := exists_codes hcodes hline
  have hlength := congrArg List.length hsame
  rw [List.length_map, List.length_map] at hlength
  rw [← hlength, hrows codes hmem]

theorem lt_cols_of_nameAt? (hname : nameAt? named row col = some name) : col < cols := by
  obtain ⟨line, hline, hword⟩ := nameAt?_eq_some.1 hname
  rw [← length_names hcodes hrows hline]
  exact (List.getElem?_eq_some_iff.1 hword).1

theorem getElem?_flatten_of_nameAt? (hname : nameAt? named row col = some name)
    (hkey : KeyCode.ofName? name = some key) : rows.flatten[row * cols + col]? = some key := by
  rw [getElem?_flatten hrows (lt_cols_of_nameAt? hcodes hrows hname),
    ← bind_nameAt?_ofName? hcodes, hname]
  exact hkey

theorem exists_nameAt?_of_getElem? (hcols : 0 < cols) (hkey : rows.flatten[i]? = some key) :
    ∃ name, nameAt? named (i / cols) (i % cols) = some name ∧ KeyCode.ofName? name = some key := by
  rw [← Nat.div_add_mod' i cols, getElem?_flatten hrows (Nat.mod_lt i hcols), ← bind_nameAt?_ofName? hcodes] at hkey
  exact Option.bind_eq_some_iff.1 hkey

/-- Only a key that stands twice can be wrong. -/
theorem exists_repeat_of_wrong (h : Wrong named row col defect) :
    col < cols ∧ ∃ key j, key ≠ .noKey ∧ rows.flatten[row * cols + col]? = some key ∧
      rows.flatten[j]? = some key ∧ j < row * cols + col := by
  cases h with
  | unknownName hname hnone =>
    obtain ⟨line, hline, hword⟩ := nameAt?_eq_some.1 hname
    obtain ⟨codes, -, hsame⟩ := exists_codes hcodes hline
    obtain ⟨code, -, hcode⟩ := exists_mem_of_map_eq hsame (List.mem_of_getElem? hword)
    exact absurd (hcode.trans hnone) (by simp)
  | repeatedKey hname hkey hne hfirst hearlier =>
    have hcol := lt_cols_of_nameAt? hcodes hrows hfirst.nameAt_eq
    refine ⟨lt_cols_of_nameAt? hcodes hrows hname, _, _, hne, ?_, ?_,
      number_lt_of_earlier hcol hearlier⟩
    · exact getElem?_flatten_of_nameAt? hcodes hrows hname hkey
    · exact getElem?_flatten_of_nameAt? hcodes hrows hfirst.nameAt_eq hfirst.ofName_eq
  | wrongCount hzero hline _ hcount =>
    rw [length_names hcodes hrows hline, length_names hcodes hrows hzero] at hcount
    exact absurd rfl hcount

/-- No place is wrong as long as the codes before it differ. -/
theorem le_number_of_wrong (hnodup : ((rows.flatten.take i).filter (· != KeyCode.noKey)).Nodup)
    (h : Wrong named row col defect) : i ≤ row * cols + col := by
  obtain ⟨-, key, j, hne, hkey, hearlier, hlt⟩ := exists_repeat_of_wrong hcodes hrows h
  by_contra hi
  have htake {n : Nat} (hn : n < i) : (rows.flatten.take i)[n]? = rows.flatten[n]? :=
    List.getElem?_take_of_lt hn
  have hsame := KeyLayout.index_unique_of_nodup hnodup hne ((htake (by omega)).trans hkey)
    ((htake (by omega)).trans hearlier)
  omega

theorem faultless_of_firstRepeat? (h : firstRepeat? (· != KeyCode.noKey) [] rows.flatten = none) :
    Faultless named := by
  intro row col defect hwrong
  have hnodup := (firstRepeat?_eq_none_iff.1 h).2
  rw [← List.take_length (l := rows.flatten)] at hnodup
  have hle := le_number_of_wrong hcodes hrows hnodup hwrong
  obtain ⟨-, key, -, -, hkey, -⟩ := exists_repeat_of_wrong hcodes hrows hwrong
  have := (List.getElem?_eq_some_iff.1 hkey).1
  omega

theorem isFirstDefect_of_firstRepeat? (hcols : 0 < cols)
    (h : firstRepeat? (· != KeyCode.noKey) [] rows.flatten = some (i, key)) :
    ∃ name first r c, KeyCode.ofName? name = some key ∧
      IsFirstDefect named (.repeatedKey name (i / cols) (i % cols) first r c) := by
  obtain ⟨hkey, hne, hbefore, hnone⟩ := firstRepeat?_eq_some_iff.1 h
  obtain ⟨j, hlt, hj⟩ := KeyLayout.mem_take_iff.1 (hbefore.resolve_left List.not_mem_nil)
  obtain ⟨name, hname, hcode⟩ := exists_nameAt?_of_getElem? hcodes hrows hcols hkey
  obtain ⟨other, hother, hsame⟩ := exists_nameAt?_of_getElem? hcodes hrows hcols hj
  obtain ⟨first, r, c, hfirst, hle⟩ := exists_firstNamed hother hsame
  have hearlier : Earlier r c (i / cols) (i % cols) := by
    have hplaces := earlier_of_lt cols hlt
    unfold Earlier at hle hplaces ⊢
    omega
  have hwrong := Wrong.repeatedKey hname hcode (by simpa using hne) hfirst hearlier
  refine ⟨name, first, r, c, hcode, i / cols, i % cols, hwrong, ?_⟩
  intro r' c' defect hbefore hwrong'
  have hc := (exists_repeat_of_wrong hcodes hrows hwrong').1
  have hnumber := number_lt_of_earlier hc hbefore
  have hle' := le_number_of_wrong hcodes hrows (firstRepeat?_eq_none_iff.1 hnone).2 hwrong'
  have hi := Nat.div_add_mod' i cols
  omega

end Named

/-! Both checks of a matrix. -/

theorem key?_flatten (hrows : ∀ codes ∈ rows, codes.length = cols) (row col : Nat) :
    (KeyLayout.mk rows.flatten cols).key? row col =
      ((rows[row]?).bind (·[col]?)).filter (· != KeyCode.noKey) := by
  by_cases hcol : col < cols
  · rw [KeyLayout.key?_eq_getElem? hcol, getElem?_flatten hrows hcol]
  · rw [KeyLayout.key?, if_neg hcol]
    cases hline : rows[row]? with
    | none => rfl
    | some codes =>
      have hlength := hrows codes (List.mem_of_getElem? hline)
      have hnone : codes[col]? = none := List.getElem?_eq_none (by omega)
      simp [hnone]

theorem compile_eq_ok_iff_of_rowWords {text : List Char} (hwords : rowWords text = named)
    (hcodes : named.map (List.map KeyCode.ofName?) = rows.map (List.map some)) (hne : rows ≠ []) :
    compile text = .ok rows ↔ Faultless named := by
  have hnamed : named ≠ [] := by
    rintro rfl
    exact hne (List.map_eq_nil_iff.1 hcodes.symm)
  constructor
  · intro hok
    rw [← hwords]
    exact (exists_compile_eq_ok_iff.1 ⟨rows, hok⟩).2
  · intro hfaultless
    obtain ⟨codes, hok⟩ := exists_compile_eq_ok_iff.2 ⟨hwords ▸ hnamed, hwords ▸ hfaultless⟩
    have hsame := (compile_eq_ok hok).1
    rw [hwords, hcodes] at hsame
    have hsome : Function.Injective (some : KeyCode → Option KeyCode) := fun _ _ => Option.some.inj
    rw [hok, List.map_injective_iff.2 (List.map_injective_iff.2 hsome) hsame]

theorem name?_ne_none_of_compile {text : List Char} (h : compile text = .ok rows) :
    ∀ codes ∈ rows, ∀ code ∈ codes, code.name? ≠ none := by
  intro codes hcodes code hcode
  obtain ⟨line, -, hline⟩ := exists_mem_of_map_eq (compile_eq_ok h).1 hcodes
  obtain ⟨name, -, hname⟩ := exists_mem_of_map_eq hline hcode
  exact Option.ne_none_iff_exists'.2 (KeyCode.exists_name?_of_ofName? hname)

/-- A rendered matrix is compiled exactly when it is accepted as a layout, and a key that stands twice
is blamed at the same place. -/
theorem compile_render (hne : rows ≠ []) (hcols : 0 < cols)
    (hrows : ∀ codes ∈ rows, codes.length = cols) {text : List Char}
    (htext : render? rows = some text) :
    (compile text = .ok rows ↔ ∃ layout, KeyLayout.ofRows rows = .ok layout) ∧
      ∀ key row col, KeyLayout.ofRows rows = .error (.duplicateKey key row col) →
        ∃ name first r c, KeyCode.ofName? name = some key ∧
          compile text = .error (.repeatedKey name row col first r c) := by
  obtain ⟨named, hcodes, hnames, rfl⟩ := render?_eq_some htext
  have hsome : ∀ names ∈ named, names ≠ [] := by
    rintro names hmem rfl
    obtain ⟨row, hline⟩ := List.mem_iff_getElem?.1 hmem
    have hlength : 0 = cols := length_names hcodes hrows hline
    omega
  have hwords := rowWords_flatten fun names hmem => ⟨hsome names hmem, hnames names hmem⟩
  rw [compile_eq_ok_iff_of_rowWords hwords hcodes hne, KeyLayout.ofRows_eq hne hcols hrows]
  cases hrepeat : firstRepeat? (· != KeyCode.noKey) [] rows.flatten with
  | none => simpa using faultless_of_firstRepeat? hcodes hrows hrepeat
  | some found =>
    obtain ⟨i, key⟩ := found
    obtain ⟨name, first, r, c, hcode, hfirst⟩ :=
      isFirstDefect_of_firstRepeat? hcodes hrows hcols hrepeat
    constructor
    · simpa using fun hfaultless => not_isFirstDefect_of_faultless hfaultless hfirst
    · intro key' row col herror
      cases herror
      refine ⟨name, first, r, c, hcode, compile_eq_error_iff.2 (.inr ?_)⟩
      rwa [hwords]

/-- What is compiled from a text is accepted as a layout, and what is accepted as a layout is compiled
from its names, so that a layout text can be written anew from its codes. -/
theorem compile_agrees_with_ofRows :
    (∀ text rows, compile text = .ok rows → ∃ layout, KeyLayout.ofRows rows = .ok layout ∧
      layout.rows = rows.length ∧ (∀ codes ∈ rows, codes.length = layout.cols) ∧
      ∀ row col, layout.key? row col =
        ((rows[row]?).bind (·[col]?)).filter (· != KeyCode.noKey)) ∧
    (∀ rows cols, rows ≠ [] → 0 < cols → (∀ codes ∈ rows, codes.length = cols) →
      (∀ codes ∈ rows, ∀ code ∈ codes, code.name? ≠ none) →
      ∃ text, render? rows = some text ∧
        (compile text = .ok rows ↔ ∃ layout, KeyLayout.ofRows rows = .ok layout) ∧
        ∀ key row col, KeyLayout.ofRows rows = .error (.duplicateKey key row col) →
          ∃ name first r c, KeyCode.ofName? name = some key ∧
            compile text = .error (.repeatedKey name row col first r c)) ∧
    (∀ text rows, compile text = .ok rows →
      ∃ again, render? rows = some again ∧ compile again = .ok rows) := by
  refine ⟨?_, ?_, ?_⟩
  · intro text rows hok
    obtain ⟨-, cols, -, hrows, hlayout⟩ := compile_eq_ok hok
    have hheight := (KeyLayout.dimensions_of_ofRows hrows hlayout).1
    exact ⟨_, hlayout, hheight, hrows, key?_flatten hrows⟩
  · intro rows cols hne hcols hrows hnamed
    obtain ⟨text, htext⟩ := exists_render? hnamed
    exact ⟨text, htext, compile_render hne hcols hrows htext⟩
  · intro text rows hok
    obtain ⟨-, cols, hcols, hrows, hlayout⟩ := compile_eq_ok hok
    obtain ⟨again, hagain⟩ := exists_render? (name?_ne_none_of_compile hok)
    have hiff := (compile_render (ne_nil_of_compile hok) hcols hrows hagain).1
    exact ⟨again, hagain, hiff.2 ⟨_, hlayout⟩⟩

/-- A text with an alias and two places without a key is written anew; where `a` stands again in the
second row, it is blamed there. -/
theorem compile_agrees_with_ofRows_aliases :
    (∃ again, render? [[4, 0x29, 0], [0, 5, 6]] = some again ∧
      compile again = .ok [[4, 0x29, 0], [0, 5, 6]]) ∧
    ∃ text name first r c, render? [[4, 0x29, 0], [0, 4, 6]] = some text ∧
      KeyCode.ofName? name = some 4 ∧ compile text = .error (.repeatedKey name 1 1 first r c) := by
  refine ⟨?_, ?_⟩
  · have hok : compile "A esc _\n# letters\nNoop b c".toList = .ok [[4, 0x29, 0], [0, 5, 6]] := by
      decide +kernel
    exact compile_agrees_with_ofRows.2.2 _ _ hok
  · obtain ⟨text, htext, -, hblame⟩ := compile_agrees_with_ofRows.2.1 [[4, 0x29, 0], [0, 4, 6]] 3
      (by decide) (by decide) (by decide) (by decide +kernel)
    obtain ⟨name, first, r, c, hcode, hfound⟩ := hblame 4 1 1 rfl
    exact ⟨text, name, first, r, c, htext, hcode, hfound⟩

end LayoutText
end ChordPad
