import BlockWorld.Files.Tree
import BlockWorld.Packed
import BlockWorld.Tag.Cbor

/-! # Tag files

A tag file holds one packed tag. It is written with the directories that lead to it.
-/

namespace BlockWorld

namespace TagFile

inductive ReadError
  | file (e : FileError)
  | content (e : UnpackError)
  deriving DecidableEq

def ReadError.message : ReadError → String
  | .file e => "IO error: " ++ e.message
  | .content e => "tag could not be decoded: " ++ e.message

def read (files : FileTree) (path : String) : Except ReadError Tag :=
  match files.readFile path with
  | .error e => .error (.file e)
  | .ok content => (unpack Tag.readFirst content).mapError .content

/-- Writes a tag file into a directory, which is made if it is missing. -/
def write (files : FileTree) (directory name : String) (t : Tag) :
    Except FileError Unit × FileTree :=
  match files.createDirectories directory with
  | (.ok (), files) =>
    match files.writeFile (Path.join directory name) (pack t.encode) with
    | .ok files => (.ok (), files)
    | .error e => (.error e, files)
  | failed => failed

end TagFile

end BlockWorld
