import ChordPad.Proofs.CompiledText
import ChordPad.Proofs.LineWords

/-! Which defect of a layout text is blamed. A text is read row after row and word after word; how many
words a row has is looked at behind its last word. What is kept of the words read so far is what is
needed to see a key again, so reading stops at the first defect, and only there. -/
namespace ChordPad.LayoutText

/-- The order in which places are read. -/
def Earlier (r c row col : Nat) : Prop := r < row ∨ r = row ∧ c < col

/-- This is the first word with the code. -/
structure FirstNamed (rows : List (List Word)) (code : KeyCode) (name : Word) (row col : Nat) :
    Prop where
  nameAt_eq : nameAt? rows row col = some name
  ofName_eq : KeyCode.ofName? name = some code
  none_earlier : ∀ r c other, Earlier r c row col → nameAt? rows r c = some other →
    KeyCode.ofName? other ≠ some code

/-- What is wrong at a place. The number of words of a row has its place behind the last word. -/
inductive Wrong (rows : List (List Word)) : Nat → Nat → Defect → Prop
  | unknownName {row col : Nat} {name : Word} : nameAt? rows row col = some name →
      KeyCode.ofName? name = none → Wrong rows row col (.unknownName name row)
  | repeatedKey {row col r c : Nat} {name first : Word} {code : KeyCode} :
      nameAt? rows row col = some name → KeyCode.ofName? name = some code → code ≠ .noKey →
      FirstNamed rows code first r c → Earlier r c row col →
      Wrong rows row col (.repeatedKey name row col first r c)
  | wrongCount {row col : Nat} {line first : List Word} : rows[0]? = some first →
      rows[row]? = some line → col = line.length → line.length ≠ first.length →
      Wrong rows row col (.wrongCount row line.length first.length)

def IsFirstDefect (rows : List (List Word)) (defect : Defect) : Prop :=
  ∃ row col, Wrong rows row col defect ∧ ∀ r c other, Earlier r c row col → ¬ Wrong rows r c other

def Faultless (rows : List (List Word)) : Prop := ∀ row col defect, ¬ Wrong rows row col defect

variable {rows : List (List Word)} {row col r c : Nat} {name : Word} {code : KeyCode}
  {seen : List Named} {defect : Defect}

theorem earlier_trichotomy (r c row col : Nat) :
    Earlier r c row col ∨ (r = row ∧ c = col) ∨ Earlier row col r c := by
  unfold Earlier
  omega

theorem earlier_succ_col : Earlier r c row (col + 1) ↔ Earlier r c row col ∨ r = row ∧ c = col := by
  unfold Earlier
  omega

theorem nameAt?_eq_some :
    nameAt? rows row col = some name ↔ ∃ names, rows[row]? = some names ∧ names[col]? = some name :=
  Option.bind_eq_some_iff

theorem lt_length_of_nameAt? {line : List Word} (hname : nameAt? rows row col = some name)
    (hline : rows[row]? = some line) : col < line.length := by
  obtain ⟨_, hsame, hword⟩ := nameAt?_eq_some.1 hname
  rw [hline] at hsame
  cases hsame
  exact (List.getElem?_eq_some_iff.1 hword).1

theorem FirstNamed.unique {other : Word} (h : FirstNamed rows code name row col)
    (h' : FirstNamed rows code other r c) : name = other ∧ row = r ∧ col = c := by
  rcases earlier_trichotomy r c row col with hlt | ⟨rfl, rfl⟩ | hlt
  · exact absurd h'.ofName_eq (h.none_earlier r c other hlt h'.nameAt_eq)
  · have hsame := h.nameAt_eq.symm.trans h'.nameAt_eq
    exact ⟨Option.some_inj.1 hsame, rfl, rfl⟩
  · exact absurd h.ofName_eq (h'.none_earlier row col name hlt h.nameAt_eq)

/-- A word stands first with its code, or another one does that comes earlier. -/
theorem exists_firstNamed (hname : nameAt? rows row col = some name)
    (hcode : KeyCode.ofName? name = some code) :
    ∃ first r c, FirstNamed rows code first r c ∧ (Earlier r c row col ∨ r = row ∧ c = col) := by
  induction row using Nat.strongRecOn generalizing col name with
  | ind row ihrow =>
    induction col using Nat.strongRecOn generalizing name with
    | ind col ihcol =>
      by_cases hall : ∀ r c other, Earlier r c row col → nameAt? rows r c = some other →
          KeyCode.ofName? other ≠ some code
      · exact ⟨name, row, col, ⟨hname, hcode, hall⟩, .inr ⟨rfl, rfl⟩⟩
      · push Not at hall
        obtain ⟨r, c, other, hearlier, hother, hsame⟩ := hall
        rcases hearlier with hr | ⟨rfl, hc⟩
        · obtain ⟨first, r', c', hfirst, hle⟩ := ihrow r hr hother hsame
          refine ⟨first, r', c', hfirst, .inl ?_⟩
          unfold Earlier at hle ⊢
          omega
        · obtain ⟨first, r', c', hfirst, hle⟩ := ihcol c hc hother hsame
          refine ⟨first, r', c', hfirst, .inl ?_⟩
          unfold Earlier at hle ⊢
          omega

/-- What can be wrong with a word. -/
theorem Wrong.of_name (h : Wrong rows row col defect) (hname : nameAt? rows row col = some name) :
    KeyCode.ofName? name = none ∧ defect = .unknownName name row ∨
      ∃ code first r c, KeyCode.ofName? name = some code ∧ code ≠ .noKey ∧
        FirstNamed rows code first r c ∧ Earlier r c row col ∧
        defect = .repeatedKey name row col first r c := by
  cases h with
  | unknownName hname' hnone =>
    rw [hname] at hname'
    cases hname'
    exact .inl ⟨hnone, rfl⟩
  | repeatedKey hname' hcode hne hfirst hearlier =>
    rw [hname] at hname'
    cases hname'
    exact .inr ⟨_, _, _, _, hcode, hne, hfirst, hearlier, rfl⟩
  | wrongCount _ hline hcol _ => exact absurd (lt_length_of_nameAt? hname hline) (by omega)

/-- What can be wrong behind the last word of a row. -/
theorem Wrong.of_end {line : List Word} (h : Wrong rows row col defect)
    (hline : rows[row]? = some line) (hcol : col = line.length) :
    ∃ first, rows[0]? = some first ∧ line.length ≠ first.length ∧
      defect = .wrongCount row line.length first.length := by
  cases h with
  | unknownName hname _ => exact absurd (lt_length_of_nameAt? hname hline) (by omega)
  | repeatedKey hname _ _ _ _ => exact absurd (lt_length_of_nameAt? hname hline) (by omega)
  | wrongCount hzero hline' _ hcount =>
    rw [hline] at hline'
    cases hline'
    exact ⟨_, hzero, hcount, rfl⟩

theorem Wrong.exists_row (h : Wrong rows row col defect) : ∃ line, rows[row]? = some line := by
  cases h with
  | unknownName hname _ => exact ⟨_, (nameAt?_eq_some.1 hname).choose_spec.1⟩
  | repeatedKey hname _ _ _ _ => exact ⟨_, (nameAt?_eq_some.1 hname).choose_spec.1⟩
  | wrongCount _ hline _ _ => exact ⟨_, hline⟩

theorem Wrong.le_length {line : List Word} (h : Wrong rows row col defect)
    (hline : rows[row]? = some line) : col ≤ line.length := by
  cases h with
  | unknownName hname _ => exact Nat.le_of_lt (lt_length_of_nameAt? hname hline)
  | repeatedKey hname _ _ _ _ => exact Nat.le_of_lt (lt_length_of_nameAt? hname hline)
  | wrongCount _ hline' hcol _ =>
    rw [hline] at hline'
    cases hline'
    exact Nat.le_of_eq hcol

theorem Wrong.unique {other : Defect} (h : Wrong rows row col defect)
    (h' : Wrong rows row col other) : defect = other := by
  cases h with
  | unknownName hname hnone =>
    rcases h'.of_name hname with ⟨-, rfl⟩ | ⟨code, first, r, c, hcode, -⟩
    · rfl
    · exact absurd (hnone.symm.trans hcode) (by simp)
  | repeatedKey hname hcode _ hfirst _ =>
    rcases h'.of_name hname with ⟨hnone, -⟩ | ⟨code, first, r, c, hcode', -, hfirst', -, rfl⟩
    · exact absurd (hnone.symm.trans hcode) (by simp)
    · obtain rfl := Option.some_inj.1 (hcode.symm.trans hcode')
      obtain ⟨rfl, rfl, rfl⟩ := hfirst.unique hfirst'
      rfl
  | wrongCount hzero hline hcol _ =>
    obtain ⟨first, hzero', -, rfl⟩ := h'.of_end hline hcol
    obtain rfl := Option.some_inj.1 (hzero.symm.trans hzero')
    rfl

theorem IsFirstDefect.unique {other : Defect} (h : IsFirstDefect rows defect)
    (h' : IsFirstDefect rows other) : defect = other := by
  obtain ⟨row, col, hwrong, hbefore⟩ := h
  obtain ⟨r, c, hwrong', hbefore'⟩ := h'
  rcases earlier_trichotomy r c row col with hlt | ⟨rfl, rfl⟩ | hlt
  · exact absurd hwrong' (hbefore r c other hlt)
  · exact hwrong.unique hwrong'
  · exact absurd hwrong (hbefore' row col defect hlt)

/-! What reading keeps from word to word. -/

/-- The key was named in the rows, at the place that is noted. -/
structure Named.StandsIn (named : Named) (rows : List (List Word)) : Prop where
  code_ne : named.code ≠ .noKey
  nameAt_eq : nameAt? rows named.row named.col = some named.name
  ofName_eq : KeyCode.ofName? named.name = some named.code

/-- Everything before this place was read without a defect, and all keys in it are noted. -/
structure ReadUpTo (rows : List (List Word)) (row col : Nat) (seen : List Named) : Prop where
  no_defect : ∀ r c defect, Earlier r c row col → ¬ Wrong rows r c defect
  mem_seen_iff : ∀ named : Named, named ∈ seen ↔
    Earlier named.row named.col row col ∧ named.StandsIn rows

namespace ReadUpTo

theorem start (rows : List (List Word)) : ReadUpTo rows 0 0 [] := by
  refine ⟨?_, ?_⟩
  · intro r c defect h
    unfold Earlier at h
    omega
  · intro named
    unfold Earlier
    simp

theorem isFirstDefect (h : ReadUpTo rows row col seen) (hwrong : Wrong rows row col defect) :
    IsFirstDefect rows defect :=
  ⟨row, col, hwrong, h.no_defect⟩

/-- Reading goes on behind a word with which nothing is wrong. -/
theorem succ_col (h : ReadUpTo rows row col seen) (hright : ∀ defect, ¬ Wrong rows row col defect)
    {after : List Named} (hafter : ∀ named : Named, named ∈ after ↔
      named ∈ seen ∨ (named.row = row ∧ named.col = col) ∧ named.StandsIn rows) :
    ReadUpTo rows row (col + 1) after := by
  constructor
  · intro r c defect hearlier
    rcases earlier_succ_col.1 hearlier with hearlier | ⟨rfl, rfl⟩
    · exact h.no_defect r c defect hearlier
    · exact hright defect
  · intro named
    rw [hafter, h.mem_seen_iff, earlier_succ_col, or_and_right]

theorem noKey (h : ReadUpTo rows row col seen) (hname : nameAt? rows row col = some name)
    (hcode : KeyCode.ofName? name = some .noKey) : ReadUpTo rows row (col + 1) seen := by
  refine h.succ_col ?_ ?_
  · intro defect hwrong
    rcases hwrong.of_name hname with ⟨hnone, -⟩ | ⟨code, first, r, c, hkey, hne, -⟩
    · exact absurd (hnone.symm.trans hcode) (by simp)
    · exact hne (Option.some_inj.1 (hkey.symm.trans hcode))
  · intro named
    constructor
    · exact .inl
    · rintro (hmem | ⟨⟨hrow, hcol⟩, hstands⟩)
      · exact hmem
      · have hsame := hstands.nameAt_eq
        rw [hrow, hcol, hname] at hsame
        cases hsame
        exact absurd (Option.some_inj.1 (hstands.ofName_eq.symm.trans hcode)) hstands.code_ne

theorem newKey (h : ReadUpTo rows row col seen) (hname : nameAt? rows row col = some name)
    (hcode : KeyCode.ofName? name = some code) (hne : code ≠ .noKey)
    (hnew : ∀ named ∈ seen, named.code ≠ code) :
    ReadUpTo rows row (col + 1) (⟨code, name, row, col⟩ :: seen) := by
  refine h.succ_col ?_ ?_
  · intro defect hwrong
    rcases hwrong.of_name hname with ⟨hnone, -⟩ | ⟨code', first, r, c, hkey, -, hfirst, hearlier, -⟩
    · exact absurd (hnone.symm.trans hcode) (by simp)
    · obtain rfl := Option.some_inj.1 (hkey.symm.trans hcode)
      have hmem : (⟨code', first, r, c⟩ : Named) ∈ seen :=
        (h.mem_seen_iff _).2 ⟨hearlier, hne, hfirst.nameAt_eq, hfirst.ofName_eq⟩
      exact hnew _ hmem rfl
  · intro named
    rw [List.mem_cons, or_comm]
    refine or_congr_right ⟨?_, ?_⟩
    · rintro rfl
      exact ⟨⟨rfl, rfl⟩, hne, hname, hcode⟩
    · rintro ⟨⟨hrow, hcol⟩, hstands⟩
      obtain ⟨code', name', row', col'⟩ := named
      obtain ⟨rfl, rfl⟩ : row' = row ∧ col' = col := ⟨hrow, hcol⟩
      obtain rfl := Option.some_inj.1 (hstands.nameAt_eq.symm.trans hname)
      obtain rfl := Option.some_inj.1 (hstands.ofName_eq.symm.trans hcode)
      rfl

/-- A key that is noted stands at the first word with its code, since a second one would have been a
defect. -/
theorem firstNamed (h : ReadUpTo rows row col seen) {named : Named} (hmem : named ∈ seen) :
    FirstNamed rows named.code named.name named.row named.col := by
  obtain ⟨hearlier, hstands⟩ := (h.mem_seen_iff named).1 hmem
  obtain ⟨first, r, c, hfirst, hle⟩ := exists_firstNamed hstands.nameAt_eq hstands.ofName_eq
  rcases hle with hlt | ⟨rfl, rfl⟩
  · have hwrong := Wrong.repeatedKey hstands.nameAt_eq hstands.ofName_eq hstands.code_ne hfirst hlt
    exact absurd hwrong (h.no_defect _ _ _ hearlier)
  · have hsame := hfirst.nameAt_eq.symm.trans hstands.nameAt_eq
    cases hsame
    exact hfirst

theorem repeatedKey (h : ReadUpTo rows row col seen) (hname : nameAt? rows row col = some name)
    (hne : code ≠ .noKey) (hcode : KeyCode.ofName? name = some code) {named : Named}
    (hmem : named ∈ seen) (hsame : named.code = code) :
    IsFirstDefect rows (.repeatedKey name row col named.name named.row named.col) := by
  have hfirst := h.firstNamed hmem
  rw [hsame] at hfirst
  exact h.isFirstDefect (.repeatedKey hname hcode hne hfirst ((h.mem_seen_iff named).1 hmem).1)

/-- Reading goes on with the next row behind a row that is as long as the first one. -/
theorem succ_row {line first : List Word} (h : ReadUpTo rows row line.length seen)
    (hline : rows[row]? = some line) (hzero : rows[0]? = some first)
    (hlength : line.length = first.length) : ReadUpTo rows (row + 1) 0 seen := by
  constructor
  · intro r c defect hearlier hwrong
    have hr : r < row ∨ r = row := by unfold Earlier at hearlier; omega
    rcases hr with hr | rfl
    · exact h.no_defect r c defect (.inl hr) hwrong
    · rcases Nat.lt_or_eq_of_le (hwrong.le_length hline) with hlt | hend
      · exact h.no_defect r c defect (.inr ⟨rfl, hlt⟩) hwrong
      · obtain ⟨first', hzero', hcount, -⟩ := hwrong.of_end hline hend
        obtain rfl := Option.some_inj.1 (hzero.symm.trans hzero')
        exact hcount hlength
  · intro named
    rw [h.mem_seen_iff]
    refine and_congr_left fun hstands => ⟨?_, ?_⟩
    · intro hearlier
      unfold Earlier at hearlier ⊢
      omega
    · intro hearlier
      have hr : named.row < row ∨ named.row = row := by unfold Earlier at hearlier; omega
      rcases hr with hr | hr
      · exact .inl hr
      · exact .inr ⟨hr, lt_length_of_nameAt? hstands.nameAt_eq (hr ▸ hline)⟩

end ReadUpTo

/-! Reading to the end. -/

/-- The rest of a row is read to its end, or reading stops at the first defect. -/
theorem readWords_spec {names line : List Word} (h : ReadUpTo rows row col seen)
    (hline : rows[row]? = some line) (hcol : col ≤ line.length) (hnames : line.drop col = names) :
    match readWords row col seen names with
    | .ok (_, after) => ReadUpTo rows row line.length after
    | .error defect => IsFirstDefect rows defect := by
  have next {name : Word} {names : List Word} {col : Nat} (hnames : line.drop col = name :: names) :
      nameAt? rows row col = some name ∧ col + 1 ≤ line.length ∧ line.drop (col + 1) = names := by
    have hname : nameAt? rows row col = some name := by
      refine nameAt?_eq_some.2 ⟨line, hline, ?_⟩
      rw [← List.head?_drop, hnames, List.head?_cons]
    refine ⟨hname, lt_length_of_nameAt? hname hline, ?_⟩
    rw [← List.tail_drop, hnames, List.tail_cons]
  fun_induction readWords row col seen names with
  | case1 col seen =>
    have hend : col = line.length := Nat.le_antisymm hcol (List.drop_eq_nil_iff.1 hnames)
    exact hend ▸ h
  | case2 col seen name names hcode =>
    exact h.isFirstDefect (.unknownName (next hnames).1 hcode)
  | case3 col seen name names hcode ih =>
    obtain ⟨hname, hlt, hrest⟩ := next hnames
    have hspec := ih (h.noKey hname hcode) hlt hrest
    cases hread : readWords row (col + 1) seen names with
    | error defect => simpa [hread, bind, Except.bind] using hspec
    | ok read => simpa [hread, bind, Except.bind, pure, Except.pure] using hspec
  | case4 col seen name names code hcode hne named hfound =>
    have hmem := List.mem_of_find?_eq_some hfound
    have hsame : named.code = code := by simpa using List.find?_some hfound
    exact h.repeatedKey (next hnames).1 hne hcode hmem hsame
  | case5 col seen name names code hcode hne hnew ih =>
    obtain ⟨hname, hlt, hrest⟩ := next hnames
    have hfresh : ∀ named ∈ seen, named.code ≠ code := by simpa using hnew
    have hspec := ih (h.newKey hname hcode hne hfresh) hlt hrest
    cases hread : readWords row (col + 1) (⟨code, name, row, col⟩ :: seen) names with
    | error defect => simpa [hread, bind, Except.bind] using hspec
    | ok read => simpa [hread, bind, Except.bind, pure, Except.pure] using hspec

/-- All rows that are left are read, and then there is no defect, or reading stops at the first one. -/
theorem readRows_spec {rest : List (List Word)} {first : List Word}
    (h : ReadUpTo rows row 0 seen) (hzero : rows[0]? = some first) (hrow : row ≤ rows.length)
    (hrest : rows.drop row = rest) :
    match readRows first.length row seen rest with
    | .ok _ => Faultless rows
    | .error defect => IsFirstDefect rows defect := by
  induction rest generalizing row seen with
  | nil =>
    intro r c defect hwrong
    have hend : rows.length ≤ row := List.drop_eq_nil_iff.1 hrest
    refine h.no_defect r c defect (.inl ?_) hwrong
    obtain ⟨line, hline⟩ := hwrong.exists_row
    have := (List.getElem?_eq_some_iff.1 hline).1
    omega
  | cons line rest ih =>
    have hline : rows[row]? = some line := by
      rw [← List.head?_drop, hrest, List.head?_cons]
    have hlt : row < rows.length := (List.getElem?_eq_some_iff.1 hline).1
    have hnext : rows.drop (row + 1) = rest := by
      rw [← List.tail_drop, hrest, List.tail_cons]
    have hwords := readWords_spec h hline (Nat.zero_le _) rfl
    rw [List.drop_zero] at hwords
    rw [readRows]
    cases hread : readWords row 0 seen line with
    | error defect => simpa [hread, bind, Except.bind] using hwords
    | ok read =>
      rw [hread] at hwords
      by_cases hlength : line.length = first.length
      · have hspec := ih (hwords.succ_row hline hzero hlength) hlt hnext
        cases hmore : readRows first.length (row + 1) read.2 rest with
        | error defect =>
          simpa [hlength, hmore, bind, Except.bind, pure, Except.pure] using hspec
        | ok codes => simpa [hlength, hmore, bind, Except.bind, pure, Except.pure] using hspec
      · have hwrong := Wrong.wrongCount hzero hline rfl hlength
        simpa [hlength, bind, Except.bind, throw, throwThe, MonadExceptOf.throw] using
          hwords.isFirstDefect hwrong

theorem compile_spec (text : List Char) :
    match compile text with
    | .ok _ => rowWords text ≠ [] ∧ Faultless (rowWords text)
    | .error defect => rowWords text = [] ∧ defect = .noRows ∨
        IsFirstDefect (rowWords text) defect := by
  rw [compile]
  cases hrows : rowWords text with
  | nil => exact .inl ⟨rfl, rfl⟩
  | cons first rest =>
    have hzero : (first :: rest)[0]? = some first := rfl
    have hspec := readRows_spec (.start (first :: rest)) hzero (Nat.zero_le _) rfl
    rw [List.drop_zero] at hspec
    cases hread : readRows first.length 0 [] (first :: rest) with
    | error defect => simpa [hread] using hspec
    | ok codes => simpa [hread] using hspec

theorem not_isFirstDefect_of_faultless (h : Faultless rows) : ¬ IsFirstDefect rows defect := by
  rintro ⟨row, col, hwrong, -⟩
  exact h row col defect hwrong

theorem compile_eq_error_iff {text : List Char} :
    compile text = .error defect ↔ rowWords text = [] ∧ defect = .noRows ∨
      IsFirstDefect (rowWords text) defect := by
  have hspec := compile_spec text
  cases hread : compile text with
  | ok codes =>
    rw [hread] at hspec
    simp [hspec.1, not_isFirstDefect_of_faultless hspec.2]
  | error found =>
    rw [hread] at hspec
    constructor
    · intro hsame
      cases hsame
      exact hspec
    · intro hdefect
      have hempty (hnil : rowWords text = []) (other : Defect) :
          ¬ IsFirstDefect (rowWords text) other := by
        rintro ⟨row, col, hwrong, -⟩
        obtain ⟨line, hline⟩ := hwrong.exists_row
        simp [hnil] at hline
      rcases hspec with ⟨hnil, rfl⟩ | hfound
      · rcases hdefect with ⟨-, rfl⟩ | hdefect
        · rfl
        · exact absurd hdefect (hempty hnil _)
      · rcases hdefect with ⟨hnil, -⟩ | hdefect
        · exact absurd hfound (hempty hnil _)
        · rw [hfound.unique hdefect]

theorem exists_compile_eq_ok_iff {text : List Char} :
    (∃ codes, compile text = .ok codes) ↔ rowWords text ≠ [] ∧ Faultless (rowWords text) := by
  have hspec := compile_spec text
  cases hread : compile text with
  | ok codes =>
    rw [hread] at hspec
    simp [hspec]
  | error defect =>
    rw [hread] at hspec
    rcases hspec with ⟨hnil, -⟩ | hfirst
    · simp [hnil]
    · simp only [reduceCtorEq, exists_false, false_iff, not_and]
      exact fun _ hfaultless => not_isFirstDefect_of_faultless hfaultless hfirst

theorem ne_nil_of_compile {text : List Char} {codes : List (List KeyCode)}
    (h : compile text = .ok codes) : codes ≠ [] := by
  rintro rfl
  have hne : rowWords text ≠ [] := (exists_compile_eq_ok_iff.1 ⟨[], h⟩).1
  exact hne (List.map_eq_nil_iff.1 (compile_eq_ok h).1)

/-- The words of a layout: there are some, all are names, no key is named twice, and all rows have
equally many. -/
structure Grammatical (rows : List (List Word)) : Prop where
  ne_nil : rows ≠ []
  known : ∀ row col name, nameAt? rows row col = some name → KeyCode.ofName? name ≠ none
  distinct : ∀ row col r c name other code, nameAt? rows row col = some name →
    nameAt? rows r c = some other → KeyCode.ofName? name = some code →
    KeyCode.ofName? other = some code → code ≠ .noKey → row = r ∧ col = c
  even : ∀ line ∈ rows, ∀ other ∈ rows, line.length = other.length

theorem Grammatical.faultless (h : Grammatical rows) : Faultless rows := by
  intro row col defect hwrong
  cases hwrong with
  | unknownName hname hnone => exact h.known _ _ _ hname hnone
  | repeatedKey hname hcode hne hfirst hearlier =>
    have hsame := h.distinct _ _ _ _ _ _ _ hname hfirst.nameAt_eq hcode hfirst.ofName_eq hne
    unfold Earlier at hearlier
    omega
  | wrongCount hzero hline _ hcount =>
    exact hcount (h.even _ (List.mem_of_getElem? hline) _ (List.mem_of_getElem? hzero))

theorem Faultless.grammatical (h : Faultless rows) (hne : rows ≠ []) : Grammatical rows := by
  have hlater {row col r c : Nat} {name other : Word} {code : KeyCode}
      (hname : nameAt? rows row col = some name) (hother : nameAt? rows r c = some other)
      (hcode : KeyCode.ofName? name = some code) (hsame : KeyCode.ofName? other = some code)
      (hkey : code ≠ .noKey) : ¬ Earlier r c row col := by
    intro hearlier
    obtain ⟨first, r', c', hfirst, hle⟩ := exists_firstNamed hother hsame
    have hbefore : Earlier r' c' row col := by
      unfold Earlier at hearlier hle ⊢
      omega
    exact h row col _ (.repeatedKey hname hcode hkey hfirst hbefore)
  refine ⟨hne, ?_, ?_, ?_⟩
  · intro row col name hname hnone
    exact h row col _ (.unknownName hname hnone)
  · intro row col r c name other code hname hother hcode hsame hkey
    rcases earlier_trichotomy row col r c with hlt | hplace | hlt
    · exact absurd hlt (hlater hother hname hsame hcode hkey)
    · exact hplace
    · exact absurd hlt (hlater hname hother hcode hsame hkey)
  · obtain ⟨first, rest, rfl⟩ := List.exists_cons_of_ne_nil hne
    have hfirst : ∀ line ∈ first :: rest, line.length = first.length := by
      intro line hmem
      obtain ⟨row, hline⟩ := List.mem_iff_getElem?.1 hmem
      by_contra hcount
      exact h row line.length _ (.wrongCount rfl hline rfl hcount)
    intro line hline other hother
    rw [hfirst line hline, hfirst other hother]

theorem head?_append_toList {a b : String} {c : Char} (h : a.toList.head? = some c) :
    (a ++ b).toList.head? = some c := by
  rw [String.toList_append, List.head?_append, h]
  rfl

theorem head?_message (defect : Defect) : defect.message.toList.head? = some (match defect with
    | .unknownName .. => 'U'
    | .repeatedKey .. => 'K'
    | .wrongCount .. => 'R'
    | .noRows => 'L') := by
  cases defect with
  | noRows => rfl
  | _ =>
    -- The equations of `message` are too slow to make.
    delta Defect.message
    simp only [String.append_assoc]
    exact head?_append_toList rfl

theorem message_eq_noRows_iff : defect.message = "Layout has no rows" ↔ defect = .noRows := by
  constructor
  · intro h
    have hfirst := head?_message defect
    rw [h] at hfirst
    cases defect with
    | noRows => rfl
    | _ => simp at hfirst
  · rintro rfl
    rfl

/-- A text is accepted exactly when the words of its lines form a layout, and then every place has the
code of its word. Otherwise the defect that is read first is blamed. -/
theorem compile_accepts_or_blames_first (text : List Char) :
    let rows := (contentLines text).map Text.words
    (∀ line ∈ contentLines text, ∀ names, Text.Reads line names ↔ names = Text.words line) ∧
    ((∃ codes, compile text = .ok codes) ↔ Grammatical rows) ∧
    (∀ codes, compile text = .ok codes →
      codes.map (List.map some) = rows.map (List.map KeyCode.ofName?) ∧
      0 < codes.length ∧ ∀ line ∈ codes, 0 < line.length) ∧
    (∀ defect, compile text = .error defect ↔
      rows = [] ∧ defect = .noRows ∨ IsFirstDefect rows defect) ∧
    ((∃ defect, compile text = .error defect ∧ defect.message = "Layout has no rows") ↔
      contentLines text = []) := by
  intro rows
  have hrows : rowWords text = rows := rowWords_eq text
  refine ⟨fun _ _ _ => Text.reads_iff, ?_, ?_, ?_, ?_⟩
  · rw [exists_compile_eq_ok_iff, hrows]
    exact ⟨fun h => h.2.grammatical h.1, fun h => ⟨h.ne_nil, h.faultless⟩⟩
  · intro codes hcodes
    obtain ⟨hwords, width, hpos, hwidth, -⟩ := compile_eq_ok hcodes
    have hlength : 0 < codes.length := List.length_pos_iff.2 (ne_nil_of_compile hcodes)
    exact ⟨by rw [← hwords, hrows], hlength, fun line hline => by rw [hwidth line hline]; exact hpos⟩
  · intro defect
    rw [compile_eq_error_iff, hrows]
  · have hnil : contentLines text = [] ↔ rows = [] := List.map_eq_nil_iff.symm
    simp only [message_eq_noRows_iff, exists_eq_right]
    rw [compile_eq_error_iff, hrows, hnil]
    constructor
    · rintro (⟨hnone, -⟩ | ⟨row, col, hwrong, -⟩)
      · exact hnone
      · cases hwrong
    · intro hnone
      exact .inl ⟨hnone, rfl⟩

end ChordPad.LayoutText
