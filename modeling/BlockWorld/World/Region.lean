import BlockWorld.Chunk.Record
import BlockWorld.Chunk.Service

/-! # Chunk files

Each dimension of a world has a directory with one packed record for each stored chunk. A chunk
whose file is missing is not stored; any other trouble with the file is an error.
-/

namespace BlockWorld

namespace Region

def directory (world : String) : Dimension → String
  | .normal => Path.join world "region"
  | .nether => Path.join (Path.join world "DIM-1") "region"

def suffix : String := ".cbor.zst"

def fileName (loc : ChunkLoc) : String :=
  "c." ++ toString loc.x.toInt ++ "." ++ toString loc.z.toInt ++ suffix

def path (world : String) (dimension : Dimension) (loc : ChunkLoc) : String :=
  Path.join (directory world dimension) (fileName loc)

def decode (loc : ChunkLoc) (content : Bytes) : Except ChunkError Chunk :=
  match unpack (ChunkRecord.read Tag.maxDepth) content with
  | .error e => .error (.undecodable loc (.packed e))
  | .ok r => r.toChunk loc

def load (files : FileTree) (world : String) (dimension : Dimension) (loc : ChunkLoc) :
    ChunkAnswer :=
  match files.readFile (path world dimension loc) with
  | .error .notFound => .ok none
  | .error e => .error (.file e)
  | .ok content => some <$> decode loc content

def save (files : FileTree) (world : String) (dimension : Dimension) (c : Chunk) :
    Except ChunkError Unit × FileTree :=
  match files.createDirectories (directory world dimension) with
  | (.ok (), files) =>
    match files.writeFile (path world dimension c.loc) (pack (ChunkRecord.ofChunk c).encode) with
    | .ok files => (.ok (), files)
    | .error e => (.error (.file e), files)
  | (.error e, files) => (.error (.file e), files)

def source (world : String) (dimension : Dimension) : ChunkSource where
  name := match dimension with
    | .normal => "disk:Normal"
    | .nether => "disk:Nether"
  load := fun files _ loc => some (load files world dimension loc)

/-- How many chunk files a dimension has. A missing directory has none. -/
def count (files : FileTree) (world : String) (dimension : Dimension) : Except FileError Nat :=
  match files.list (directory world dimension) with
  | .ok names => .ok (names.countP (·.endsWith suffix))
  | .error .notFound => .ok 0
  | .error e => .error e

end Region

end BlockWorld
