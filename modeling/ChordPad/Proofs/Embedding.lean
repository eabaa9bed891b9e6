import ChordPad.Embed
import ChordPad.Proofs.Arguments
import ChordPad.Proofs.FirstDefect

/-! A layout text is embedded in the same way wherever it stands: in the argument, in a named file
or in the usual one. Only the file that has to be watched differs. -/
namespace ChordPad.Embed

/-- The file at a path holds a text: its bytes are the text in UTF-8. -/
def Files.Holds (fs : Files) (path text : List Char) : Prop :=
  fs.read path = .ok (String.ofList text).toUTF8.data.toList

instance (fs : Files) (path text : List Char) : Decidable (fs.Holds path text) :=
  inferInstanceAs (Decidable (_ = _))

theorem fromUTF8?_toArray_eq_some_iff {bytes : List UInt8} {text : String} :
    String.fromUTF8? ⟨bytes.toArray⟩ = some text ↔ bytes = text.toUTF8.data.toList := by
  have hbytes : bytes = text.toUTF8.data.toList ↔ ByteArray.mk bytes.toArray = text.toUTF8 := by
    constructor
    · rintro rfl
      rfl
    · intro h
      rw [← h]
  rw [hbytes, String.fromUTF8?]
  split
  · rename_i hvalid
    rw [Option.some.injEq]
    exact ⟨fun h => h ▸ rfl, fun h => String.toByteArray_inj.1 h⟩
  · rename_i hvalid
    constructor
    · intro h
      cases h
    · intro h
      exact absurd (h ▸ text.isValidUTF8) hvalid

/-- The text that an argument leads to, and the file that it is read from. -/
inductive LeadsTo (fs : Files) :
    Option (List Char) → List Token → List Char → Option (List Char) → Prop
  | text {directory : Option (List Char)} {text : List Char} :
    LeadsTo fs directory [.text text] text none
  | file {directory path text : List Char} {joined : Bool}
    (h : fs.Holds (joinPath directory path) text) :
    LeadsTo fs (some directory) (fileArgument joined path) text (some (joinPath directory path))
  | usual {directory text : List Char} (h : fs.Holds (joinPath directory usualFile) text) :
    LeadsTo fs (some directory) [] text (some (joinPath directory usualFile))

namespace Embedded

/-- The matrix fits its declared dimensions, none of which is zero, so that there is a first row. -/
structure WellTyped (e : Embedded) : Prop where
  length_rows : e.rows.length = e.rowCount
  length_row : ∀ row ∈ e.rows, row.length = e.cols
  rowCount_pos : 1 ≤ e.rowCount
  cols_pos : 1 ≤ e.cols
  length_first : (e.rows[0]?).map List.length = some e.cols

/-- The same matrix, read from a file. -/
def tracking (path : List Char) (e : Embedded) : Embedded := { e with tracked := some path }

/-- The rows fix the dimensions. -/
theorem WellTyped.eq {e f : Embedded} (he : e.WellTyped) (hf : f.WellTyped)
    (hrows : e.rows = f.rows) (htracked : e.tracked = f.tracked) : e = f := by
  have hcount : e.rowCount = f.rowCount := by rw [← he.length_rows, ← hf.length_rows, hrows]
  have hcols : some e.cols = some f.cols := by rw [← he.length_first, ← hf.length_first, hrows]
  cases e
  cases f
  cases hrows
  cases htracked
  cases hcount
  cases hcols
  rfl

end Embedded

section Texts
variable {tracked : Option (List Char)} {text : List Char} {e : Embedded}

theorem wellTyped_of_compile (tracked : Option (List Char)) {rows : List (List KeyCode)}
    (h : LayoutText.compile text = .ok rows) :
    (Embedded.mk rows rows.length (rows.headD []).length tracked).WellTyped := by
  obtain ⟨-, width, hwidth, hlength, -⟩ := LayoutText.compile_eq_ok h
  cases rows with
  | nil => exact absurd rfl (LayoutText.ne_nil_of_compile h)
  | cons first rest =>
    have hfirst : first.length = width := hlength first List.mem_cons_self
    exact {
      length_rows := rfl
      length_row := fun row hrow => (hlength row hrow).trans hfirst.symm
      rowCount_pos := Nat.succ_pos _
      cols_pos := by rwa [List.headD_cons, hfirst]
      length_first := rfl }

theorem embedText_eq_ok_iff : embedText tracked text = .ok e ↔
    LayoutText.compile text = .ok e.rows ∧ e.WellTyped ∧ e.tracked = tracked := by
  rw [embedText]
  cases hcompile : LayoutText.compile text with
  | error defect => simp
  | ok rows =>
    have htyped := wellTyped_of_compile tracked hcompile
    constructor
    · intro h
      cases h
      exact ⟨rfl, htyped, rfl⟩
    · rintro ⟨hrows, he, htracked⟩
      exact congrArg _ (htyped.eq he (Except.ok.inj hrows) htracked.symm)

theorem embedText_eq_error_iff {error : EmbedError} : embedText tracked text = .error error ↔
    ∃ defect, LayoutText.compile text = .error defect ∧ error = .layout defect := by
  rw [embedText]
  cases LayoutText.compile text with
  | error defect => simp [eq_comm]
  | ok rows => simp

theorem embedText_some (path text : List Char) :
    embedText (some path) text = (embedText none text).map (Embedded.tracking path) := by
  rw [embedText, embedText]
  cases LayoutText.compile text with
  | error defect => rfl
  | ok rows => rfl

end Texts

section Sources
variable {fs : Files} {directory : Option (List Char)} {tokens : List Token} {text : List Char}
  {tracked : Option (List Char)} {e : Embedded}

theorem Files.readText_eq_ok_iff {path : List Char} :
    fs.readText path = .ok text ↔ fs.Holds path text := by
  rw [Files.Holds]
  cases hread : fs.read path with
  | error error => simp [Files.readText, hread, bind, Except.bind]
  | ok bytes =>
    rw [Except.ok.injEq, ← fromUTF8?_toArray_eq_some_iff]
    cases hfound : String.fromUTF8? ⟨bytes.toArray⟩ with
    | none =>
      simp [Files.readText, hread, hfound, bind, Except.bind, throw, throwThe,
        MonadExceptOf.throw]
    | some found =>
      simp [Files.readText, hread, hfound, bind, Except.bind, pure, Except.pure, String.ext_iff]

theorem embedFile_eq {start path : List Char} (h : fs.Holds (joinPath start path) text) :
    embedFile fs (some start) path = embedText (some (joinPath start path)) text := by
  simp only [embedFile, Files.readText_eq_ok_iff.2 h]

/-- What is embedded from a file is the text that the file holds. -/
theorem of_embedFile {path : List Char} (h : embedFile fs directory path = .ok e) :
    ∃ start text, directory = some start ∧ fs.Holds (joinPath start path) text ∧
      LayoutText.compile text = .ok e.rows ∧ e.WellTyped ∧
      e.tracked = some (joinPath start path) := by
  cases directory with
  | none => cases h
  | some start =>
    cases hread : fs.readText (joinPath start path) with
    | error error =>
      simp only [embedFile, hread] at h
      cases h
    | ok text =>
      simp only [embedFile, hread] at h
      exact ⟨start, text, rfl, Files.readText_eq_ok_iff.1 hread, embedText_eq_ok_iff.1 h⟩

/-- What an argument leads to is embedded. -/
theorem embed_eq (h : LeadsTo fs directory tokens text tracked) :
    embed fs directory tokens = embedText tracked text := by
  cases h with
  | text => rfl
  | file hholds =>
    rw [embed, Argument.ofTokens_fileArgument]
    exact embedFile_eq hholds
  | usual hholds => exact embedFile_eq hholds

/-- Whatever is embedded, an argument has led to it. -/
theorem exists_leadsTo (h : embed fs directory tokens = .ok e) :
    ∃ text, LeadsTo fs directory tokens text e.tracked ∧ LayoutText.compile text = .ok e.rows ∧
      e.WellTyped := by
  rw [embed] at h
  cases hargument : Argument.ofTokens tokens with
  | error error =>
    rw [hargument] at h
    cases h
  | ok argument =>
    rw [hargument] at h
    cases Argument.ofTokens_eq_ok_iff.1 hargument with
    | usual =>
      obtain ⟨start, text, rfl, hholds, hcompile, htyped, htracked⟩ := of_embedFile h
      exact ⟨text, htracked ▸ .usual hholds, hcompile, htyped⟩
    | text =>
      obtain ⟨hcompile, htyped, htracked⟩ := embedText_eq_ok_iff.1 h
      exact ⟨_, htracked ▸ .text, hcompile, htyped⟩
    | file =>
      obtain ⟨start, text, rfl, hholds, hcompile, htyped, htracked⟩ := of_embedFile h
      exact ⟨text, htracked ▸ .file hholds, hcompile, htyped⟩

end Sources

/-- A text is embedded as the same matrix, or blamed for the same defect, wherever it stands; files
do not matter when it stands in the argument. What is embedded is what some text compiles to, and
the file that is watched is the one that the text was read from. -/
theorem sources_agree {text directory directory' path : List Char} {fs fs' fs₀ fs₁ : Files}
    {directory₀ directory₁ : Option (List Char)} (joined : Bool)
    (hfile : fs.Holds (joinPath directory path) text)
    (husual : fs'.Holds (joinPath directory' usualFile) text) :
    embed fs₀ directory₀ [.text text] = embed fs₁ directory₁ [.text text] ∧
    embed fs (some directory) (fileArgument joined path) =
      (embed fs₀ directory₀ [.text text]).map (Embedded.tracking (joinPath directory path)) ∧
    embed fs' (some directory') [] =
      (embed fs₀ directory₀ [.text text]).map (Embedded.tracking (joinPath directory' usualFile)) ∧
    (∀ e, embed fs₀ directory₀ [.text text] = .ok e ↔
      LayoutText.compile text = .ok e.rows ∧ e.WellTyped ∧ e.tracked = none) ∧
    (∀ error, embed fs₀ directory₀ [.text text] = .error error ↔
      ∃ defect, LayoutText.compile text = .error defect ∧ error = .layout defect) ∧
    ∀ fs directory tokens e, embed fs directory tokens = .ok e →
      e.WellTyped ∧ ∃ text, LeadsTo fs directory tokens text e.tracked ∧
        LayoutText.compile text = .ok e.rows := by
  have hinline : embed fs₀ directory₀ [.text text] = embedText none text := embed_eq .text
  refine ⟨rfl, ?_, ?_, ?_, ?_, ?_⟩
  · rw [hinline, ← embedText_some, embed_eq (.file hfile)]
  · rw [hinline, ← embedText_some, embed_eq (.usual husual)]
  · intro e
    rw [hinline, embedText_eq_ok_iff]
  · intro error
    rw [hinline, embedText_eq_error_iff]
  · intro fs directory tokens e h
    obtain ⟨text, hleads, hcompile, htyped⟩ := exists_leadsTo h
    exact ⟨htyped, text, hleads, hcompile⟩

/-- The bytes of `a b`, a line feed and `c d`, in a named file and in the usual one. -/
theorem sources_agree_twoByTwo :
    let fs := (({} : Files).addFile "/p/keys".toList [97, 32, 98, 10, 99, 32, 100]).addFile
      "/p/layout.txt".toList [97, 32, 98, 10, 99, 32, 100]
    let matrix : List (List KeyCode) := [[4, 5], [6, 7]]
    fs.Holds (joinPath "/p".toList "keys".toList) "a b\nc d".toList ∧
      fs.Holds (joinPath "/p".toList usualFile) "a b\nc d".toList ∧
      embed fs (some "/p".toList) (fileArgument true "keys".toList) =
        .ok ⟨matrix, 2, 2, some "/p/keys".toList⟩ ∧
      embed fs (some "/p".toList) [] = .ok ⟨matrix, 2, 2, some "/p/layout.txt".toList⟩ := by
  intro fs matrix
  have hfile : fs.Holds (joinPath "/p".toList "keys".toList) "a b\nc d".toList := by
    decide +kernel
  have husual : fs.Holds (joinPath "/p".toList usualFile) "a b\nc d".toList := by
    decide +kernel
  obtain ⟨-, hnamed, hempty, hok, -, -⟩ :=
    @sources_agree _ _ _ _ fs fs {} {} none none true hfile husual
  have hinline : embed {} none [.text "a b\nc d".toList] = .ok ⟨matrix, 2, 2, none⟩ := by
    refine (hok _).2 ⟨by decide +kernel, ?_, rfl⟩
    exact ⟨rfl, by decide, by decide, by decide, rfl⟩
  rw [hinline] at hnamed hempty
  exact ⟨hfile, husual, hnamed, hempty⟩

end ChordPad.Embed
