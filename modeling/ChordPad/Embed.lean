import ChordPad.Embed.Argument
import ChordPad.Embed.Lexeme
import ChordPad.Embed.Files
import ChordPad.LayoutText

/-! Embedding a layout in a program when it is built: the argument says where the text is, and the
compiled matrix comes out with its dimensions and with the file that has to be watched. -/
namespace ChordPad.Embed

structure Embedded where
  rows : List (List KeyCode)
  rowCount : Nat
  cols : Nat
  /-- The file that the layout was read from. -/
  tracked : Option (List Char)
  deriving DecidableEq, Repr

inductive EmbedError
  | argument (error : ArgumentError)
  | noDirectory
  | file (path : List Char) (error : FileError)
  | layout (defect : LayoutText.Defect)
  deriving DecidableEq, Repr

def EmbedError.message : EmbedError → String
  | argument error => error.message
  | noDirectory => "CARGO_MANIFEST_DIR not found"
  | file path error => "Can't read layout file " ++ .ofList path ++ ", " ++ error.message
  | layout defect => defect.message

/-- The name of the layout file when none is given. -/
def usualFile : List Char := "layout.txt".toList

/-- The matrix of a layout text, read from a file or not. -/
def embedText (tracked : Option (List Char)) (text : List Char) : Except EmbedError Embedded :=
  match LayoutText.compile text with
  | .error defect => .error (.layout defect)
  | .ok rows => .ok ⟨rows, rows.length, (rows.headD []).length, tracked⟩

def embedFile (fs : Files) (directory : Option (List Char)) (path : List Char) :
    Except EmbedError Embedded :=
  match directory with
  | none => .error .noDirectory
  | some directory =>
    let path := joinPath directory path
    match fs.readText path with
    | .error error => .error (.file path error)
    | .ok text => embedText (some path) text

/-- Embeds the layout that an argument names, for a program in `directory`. -/
def embed (fs : Files) (directory : Option (List Char)) (tokens : List Token) :
    Except EmbedError Embedded :=
  match Argument.ofTokens tokens with
  | .error error => .error (.argument error)
  | .ok .usual => embedFile fs directory usualFile
  | .ok (.text layout) => embedText none layout
  | .ok (.file path) => embedFile fs directory path

end ChordPad.Embed
