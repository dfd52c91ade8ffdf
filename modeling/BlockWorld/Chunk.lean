import BlockWorld.Grid

/-! # Chunks

A chunk is a column of blocks, sixteen by sixteen and 128 high. Blocks are stored with height
varying fastest, then `z`, then `x`; `index` numbers the cells without gap or overlap.
-/

namespace BlockWorld

abbrev Block := UInt8

namespace Block

def air : Block := 0
def stone : Block := 1
def grass : Block := 2
def dirt : Block := 3
def bedrock : Block := 7

end Block

structure Chunk where
  loc : ChunkLoc
  blocks : Vector Block 32768

namespace Chunk

/-- The place of a cell in storage order. -/
def index (x : Fin 16) (y : Fin 128) (z : Fin 16) : Fin 32768 :=
  ⟨y + 128 * z + 2048 * x, by omega⟩

def xOf (i : Fin 32768) : Fin 16 := ⟨i / 2048, by omega⟩

def yOf (i : Fin 32768) : Fin 128 := ⟨i % 128, by omega⟩

def zOf (i : Fin 32768) : Fin 16 := ⟨i / 128 % 16, by omega⟩

@[simp] theorem xOf_index (x : Fin 16) (y : Fin 128) (z : Fin 16) : xOf (index x y z) = x := by
  ext; simp only [xOf, index]; omega

@[simp] theorem yOf_index (x : Fin 16) (y : Fin 128) (z : Fin 16) : yOf (index x y z) = y := by
  ext; simp only [yOf, index]; omega

@[simp] theorem zOf_index (x : Fin 16) (y : Fin 128) (z : Fin 16) : zOf (index x y z) = z := by
  ext; simp only [zOf, index]; omega

@[simp] theorem index_of (i : Fin 32768) : index (xOf i) (yOf i) (zOf i) = i := by
  ext; simp only [xOf, yOf, zOf, index]; omega

def empty (loc : ChunkLoc) : Chunk := ⟨loc, Vector.replicate 32768 Block.air⟩

/-- The chunk with these blocks in storage order, if they are exactly one column. -/
def ofBlocks? (loc : ChunkLoc) (blocks : List Block) : Option Chunk :=
  let stored := blocks.toArray
  if h : stored.size = 32768 then some ⟨loc, ⟨stored, h⟩⟩ else none

def toBytes (c : Chunk) : List Block := c.blocks.toList

theorem ofBlocks?_toBytes (c : Chunk) : ofBlocks? c.loc c.toBytes = some c := by
  obtain ⟨loc, ⟨stored, h⟩⟩ := c
  simp [ofBlocks?, toBytes, h]

def block (c : Chunk) (x : Fin 16) (y : Fin 128) (z : Fin 16) : Block :=
  c.blocks.get (index x y z)

def setBlock (c : Chunk) (x : Fin 16) (y : Fin 128) (z : Fin 16) (b : Block) : Chunk :=
  { c with blocks := c.blocks.set (index x y z) b }

def heightAt (c : Chunk) (x z : Fin 16) : Option (Fin 128) :=
  (List.finRange 128).reverse.find? fun y => c.block x y z != Block.air

end Chunk

end BlockWorld
