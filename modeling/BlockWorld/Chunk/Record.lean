import BlockWorld.Chunk.Error
import BlockWorld.Chunk
import BlockWorld.Digest.Sha256
import BlockWorld.Tag.Cbor

/-! # Chunk records

A chunk is recorded as a map of its place, the digest of its blocks and the blocks. Reading takes
the four fields in any order, each once, and passes over others. A record is a chunk only if it is
for the place asked for, has the digest that it claims, and holds exactly one column.
-/

namespace BlockWorld

structure ChunkRecord where
  x : Int32
  z : Int32
  sha256 : String
  blocks : List Block

namespace ChunkRecord

open Cbor

def ofChunk (c : Chunk) : ChunkRecord := ⟨c.loc.x, c.loc.z, Bytes.sha256 c.toBytes, c.toBytes⟩

def encode (r : ChunkRecord) : Bytes :=
  Header.encode (.map (some 4)) ++
    (encodeText "x" ++ encodeInt r.x.toInt) ++
    (encodeText "z" ++ encodeInt r.z.toInt) ++
    (encodeText "sha256" ++ encodeText r.sha256) ++
    (encodeText "blocks" ++ Header.encode (.array r.blocks.length) ++
      r.blocks.flatMap fun b => encodeInt b.toNat)

structure Fields where
  x : Option Int32 := none
  z : Option Int32 := none
  sha256 : Option String := none
  blocks : Option (List Block) := none

def once {α : Type} (old : Option α) (r : Read α) : Read (Option α) :=
  match old with
  | some _ => throw .unexpected
  | none => some <$> r

def coordinate : Read Int32 := Int32.ofInt <$> Read.integerIn (-2147483648) 2147483647

def block : Read Block := (fun v => UInt8.ofNat v.toNat) <$> Read.integerIn 0 255

def entry (depth : Nat) (f : Fields) : Read Fields := do
  let key ← Read.name
  if key = utf8 "x" then return { f with x := ← once f.x coordinate }
  else if key = utf8 "z" then return { f with z := ← once f.z coordinate }
  else if key = utf8 "sha256" then return { f with sha256 := ← once f.sha256 Read.text }
  else if key = utf8 "blocks" then
    return { f with blocks := ← once f.blocks (Read.sequence depth block pure) }
  else
    Read.skip depth
    return f

def Fields.complete? (f : Fields) : Option ChunkRecord := do
  return ⟨← f.x, ← f.z, ← f.sha256, ← f.blocks⟩

def read (depth : Nat) : Read ChunkRecord := do
  let f ← Read.foldMapping depth (entry (depth - 1)) {}
  match f.complete? with
  | some r => pure r
  | none => throw .unexpected

/-- The chunk of a record that was found where `loc` belongs. -/
def toChunk (r : ChunkRecord) (loc : ChunkLoc) : Except ChunkError Chunk :=
  let found : ChunkLoc := ⟨r.x, r.z⟩
  let actual := Bytes.sha256 r.blocks
  if found ≠ loc then .error (.misplaced loc found)
  else if actual ≠ r.sha256 then .error (.integrity loc r.sha256 actual)
  else
    match Chunk.ofBlocks? loc r.blocks with
    | some c => .ok c
    | none => .error (.undecodable loc .blockCount)

end ChunkRecord

end BlockWorld
