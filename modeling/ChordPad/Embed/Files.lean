import ChordPad.Text.Words

/-! The files that a layout can be read from: a tree of directories, found by walking along the
names of a path. -/
namespace ChordPad.Embed
open ChordPad.Text

abbrev Name := List Char

structure Files where
  files : List (List Name × List UInt8) := []
  directories : List (List Name) := []

inductive FileError
  | notFound
  | notADirectory
  | isADirectory
  | notText
  | nameTooLong
  /-- No name holds the character zero. -/
  | zeroInName
  deriving DecidableEq, Repr

def FileError.message : FileError → String
  | notFound => "Os \x7b code: 2, kind: NotFound, message: \"No such file or directory\" \x7d"
  | notADirectory => "Os \x7b code: 20, kind: NotADirectory, message: \"Not a directory\" \x7d"
  | isADirectory => "Os \x7b code: 21, kind: IsADirectory, message: \"Is a directory\" \x7d"
  | nameTooLong => "Os \x7b code: 36, kind: InvalidFilename, message: \"File name too long\" \x7d"
  | notText => "Error \x7b kind: InvalidData, message: \"stream did not contain valid UTF-8\" \x7d"
  | zeroInName =>
    "Error \x7b kind: InvalidInput, message: \"file name contained an unexpected NUL byte\" \x7d"

inductive Node
  | file (content : List UInt8)
  | directory
  deriving DecidableEq, Repr

/-- A path under a directory; one that begins at the root replaces the directory. -/
def joinPath (directory path : List Char) : List Char :=
  if path.head? = some '/' then path
  else if directory = [] ∨ directory.getLast? = some '/' then directory ++ path
  else directory ++ '/' :: path

namespace Files

/-- What stands at a place. Every place above an entry is a directory, the root among them. -/
def node? (fs : Files) (place : List Name) : Option Node :=
  match fs.files.find? (·.1 = place) with
  | some (_, content) => some (.file content)
  | none =>
    if place = [] ∨ (fs.directories ++ fs.files.map (·.1)).any (place.isPrefixOf ·) then
      some .directory
    else none

def longestName : Nat := 255

def longestPath : Nat := 4095

/-- Walks from a place along names. Every name, an empty one too, has to be looked up in a
directory. -/
def walk (fs : Files) (place : List Name) : List Name → Except FileError (List Name)
  | [] => .ok place
  | name :: rest =>
    match fs.node? place with
    | none => .error .notFound
    | some (.file _) => .error .notADirectory
    | some .directory =>
      if name = [] ∨ name = ['.'] then walk fs place rest
      else if name = ['.', '.'] then walk fs place.dropLast rest
      else if longestName < (String.ofList name).utf8ByteSize then .error .nameTooLong
      else walk fs (place ++ [name]) rest

def names (path : List Char) : List Name := pieces (· == '/') path

def read (fs : Files) (path : List Char) : Except FileError (List UInt8) := do
  if path.contains '\x00' then throw .zeroInName
  if longestPath < (String.ofList path).utf8ByteSize then throw .nameTooLong
  match fs.node? (← fs.walk [] (names path)) with
  | some (.file content) => return content
  | some .directory => throw .isADirectory
  | none => throw .notFound

def readText (fs : Files) (path : List Char) : Except FileError (List Char) := do
  match String.fromUTF8? ⟨(← fs.read path).toArray⟩ with
  | some text => return text.toList
  | none => throw .notText

/-- The place that a path means when all directories on the way exist. -/
def place (path : List Char) : List Name :=
  (names path).foldl (fun reached name =>
    if name = [] ∨ name = ['.'] then reached
    else if name = ['.', '.'] then reached.dropLast
    else reached ++ [name]) []

def addFile (fs : Files) (path : List Char) (content : List UInt8) : Files :=
  { fs with files := (place path, content) :: fs.files }

def addDirectory (fs : Files) (path : List Char) : Files :=
  { fs with directories := place path :: fs.directories }

end Files
end ChordPad.Embed
