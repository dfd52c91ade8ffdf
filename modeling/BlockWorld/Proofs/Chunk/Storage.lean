import BlockWorld.Proofs.Chunk.Cells
import Mathlib.Data.List.Induction
import Mathlib.Order.Bounds.Defs

/-! # Chunks as arrays

Whatever is written to a chunk, each cell holds the block that was last put there, and where none
was, the block that stood in the payload at the cell's place. Every place of the payload is that of
one cell, so a write alters one octet and no other.
-/

namespace BlockWorld.Chunk

variable {loc : ChunkLoc} {stored : List Block} {c : Chunk} {x z : Fin 16} {y : Fin 128}

structure Write where
  x : Fin 16
  y : Fin 128
  z : Fin 16
  block : Block

def writeAll (c : Chunk) (ws : List Write) : Chunk :=
  ws.foldl (fun c w => c.setBlock w.x w.y w.z w.block) c

def lastPut (ws : List Write) (x : Fin 16) (y : Fin 128) (z : Fin 16) : Option Block :=
  (ws.filter fun w => w.x = x ∧ w.y = y ∧ w.z = z).getLast?.map (·.block)

theorem lastPut_concat (ws : List Write) (w : Write) (x : Fin 16) (y : Fin 128) (z : Fin 16) :
    lastPut (ws ++ [w]) x y z =
      if w.x = x ∧ w.y = y ∧ w.z = z then some w.block else lastPut ws x y z := by
  unfold lastPut
  rw [List.filter_append]
  split <;> rename_i hw <;> simp [hw]

theorem writeAll_concat (c : Chunk) (ws : List Write) (w : Write) :
    c.writeAll (ws ++ [w]) = (c.writeAll ws).setBlock w.x w.y w.z w.block := by
  simp [writeAll]

theorem loc_writeAll (c : Chunk) (ws : List Write) : (c.writeAll ws).loc = c.loc := by
  induction ws using List.reverseRecOn with
  | nil => rfl
  | append_singleton ws w ih =>
    rw [writeAll_concat]
    exact ih

/-- A cell holds what was last put there, and until then what it held before. -/
theorem block_writeAll (c : Chunk) (ws : List Write) (x : Fin 16) (y : Fin 128) (z : Fin 16) :
    some ((c.writeAll ws).block x y z) = (lastPut ws x y z).or (some (c.block x y z)) := by
  induction ws using List.reverseRecOn with
  | nil => rfl
  | append_singleton ws w ih =>
    rw [writeAll_concat, block_setBlock, lastPut_concat]
    split
    · rfl
    · exact ih

/-! ## The payload -/

theorem exists_ofBlocks?_iff : (∃ c, ofBlocks? loc stored = some c) ↔ stored.length = 32768 := by
  constructor
  · rintro ⟨c, hc⟩
    rw [← (ofBlocks?_eq_some_iff.1 hc).2]
    exact length_toBytes c
  · intro h
    obtain ⟨c, hc, -⟩ := ofBlocks?_of_length loc h
    exact ⟨c, hc⟩

theorem toBytes_empty (loc : ChunkLoc) :
    (empty loc).toBytes = List.replicate 32768 Block.air := Vector.toList_replicate

theorem getElem?_toBytes (c : Chunk) (x : Fin 16) (y : Fin 128) (z : Fin 16) :
    c.toBytes[(y + 128 * z + 2048 * x : ℕ)]? = some (c.block x y z) := by
  have hlt : (y + 128 * z + 2048 * x : ℕ) < c.toBytes.length := by
    rw [length_toBytes]
    exact (index x y z).isLt
  rw [List.getElem?_eq_getElem hlt]
  rfl

theorem toBytes_setBlock (c : Chunk) (x : Fin 16) (y : Fin 128) (z : Fin 16) (b : Block) :
    (c.setBlock x y z b).toBytes = c.toBytes.set (y + 128 * z + 2048 * x) b := by
  simp only [toBytes, setBlock, index, Vector.toList, Vector.toArray_set, Array.toList_set]

theorem existsUnique_cell {i : ℕ} (hi : i < 32768) :
    ∃! p : Fin 16 × Fin 128 × Fin 16, (p.2.1 + 128 * p.2.2 + 2048 * p.1 : ℕ) = i := by
  let i' : Fin 32768 := ⟨i, hi⟩
  refine ⟨(xOf i', yOf i', zOf i'), congrArg Fin.val (index_of i'), ?_⟩
  rintro ⟨x, y, z⟩ h
  have hindex : index x y z = i' := Fin.ext h
  rw [← hindex, xOf_index, yOf_index, zOf_index]

/-! ## The surface -/

theorem heightAt_eq_none_iff : c.heightAt x z = none ↔ ∀ y, c.block x y z = Block.air := by
  simp [heightAt]

theorem heightAt_eq_some_iff_isGreatest :
    c.heightAt x z = some y ↔ IsGreatest {y | c.block x y z ≠ Block.air} y := by
  rw [heightAt_eq_some_iff]
  refine and_congr_right fun _ => forall_congr' fun y' => ?_
  show _ ↔ (c.block x y' z ≠ Block.air → y' ≤ y)
  rw [← Fin.not_le, not_imp_comm]

/-- A payload is accepted if it has one block for each cell, and an empty chunk is that of nothing
but air. In a chunk of any payload, after any sequence of writes, each cell holds the block that was
last put at just this cell, or else the payload's block at the cell's place; the places of the cells
are all places below the length of the payload, each once; a write alters the payload at its own
place only; and the height of a column is that of the highest block other than air. -/
theorem cells_hold_last_written (h : ofBlocks? loc stored = some c) (ws : List Write) :
    let d := c.writeAll ws
    let place := fun (x : Fin 16) (y : Fin 128) (z : Fin 16) => (y + 128 * z + 2048 * x : ℕ)
    (∀ blocks, (∃ c, ofBlocks? loc blocks = some c) ↔ blocks.length = 32768) ∧
    ofBlocks? loc (List.replicate 32768 Block.air) = some (empty loc) ∧
    (∀ i < 32768, ∃! p : Fin 16 × Fin 128 × Fin 16, place p.1 p.2.1 p.2.2 = i) ∧
    d.loc = loc ∧ d.toBytes.length = 32768 ∧
    (∀ x y z, some (d.block x y z) = (lastPut ws x y z).or stored[place x y z]? ∧
      d.toBytes[place x y z]? = some (d.block x y z) ∧
      ∀ b, (d.setBlock x y z b).toBytes = d.toBytes.set (place x y z) b ∧
        ∀ i ≠ place x y z, (d.setBlock x y z b).toBytes[i]? = d.toBytes[i]?) ∧
    ∀ x z, (∀ y, d.heightAt x z = some y ↔ IsGreatest {y | d.block x y z ≠ Block.air} y) ∧
      (d.heightAt x z = none ↔ ∀ y, d.block x y z = Block.air) := by
  intro d place
  obtain ⟨rfl, rfl⟩ := ofBlocks?_eq_some_iff.1 h
  refine ⟨fun blocks => exists_ofBlocks?_iff, ofBlocks?_eq_some_iff.2 ⟨rfl, toBytes_empty _⟩,
    fun i => existsUnique_cell, loc_writeAll c ws, length_toBytes d, fun x y z => ?_,
    fun x z => ⟨fun y => heightAt_eq_some_iff_isGreatest, heightAt_eq_none_iff⟩⟩
  refine ⟨?_, getElem?_toBytes d x y z, fun b => ⟨toBytes_setBlock d x y z b, fun i hi => ?_⟩⟩
  · rw [getElem?_toBytes]
    exact block_writeAll c ws x y z
  · rw [toBytes_setBlock, List.getElem?_set_ne hi.symm]

/-- A column that is built up and taken down to its bottom again, and the one whose coordinates are
the other way round. -/
theorem cells_hold_last_written_lowered :
    let ws : List Write :=
      [⟨4, 0, 5, Block.bedrock⟩, ⟨4, 70, 5, Block.grass⟩, ⟨4, 70, 5, Block.air⟩]
    let d := (empty ⟨2, 3⟩).writeAll ws
    ofBlocks? ⟨2, 3⟩ (List.replicate 32768 Block.air) = some (empty ⟨2, 3⟩) ∧
      d.toBytes.length = 32768 ∧ d.block 4 0 5 = Block.bedrock ∧ d.block 4 70 5 = Block.air ∧
      d.heightAt 4 5 = some 0 ∧ d.block 5 0 4 = Block.air ∧ d.heightAt 5 4 = none := by
  intro ws d
  have hempty : ofBlocks? ⟨2, 3⟩ (List.replicate 32768 Block.air) = some (empty ⟨2, 3⟩) :=
    ofBlocks?_eq_some_iff.2 ⟨rfl, toBytes_empty _⟩
  obtain ⟨-, -, -, -, hlength, hcells, hheights⟩ := cells_hold_last_written hempty ws
  have hcell : ∀ x y z, d.block x y z = (lastPut ws x y z).getD Block.air := by
    intro x y z
    have hread := (hcells x y z).1
    have hair : (List.replicate 32768 Block.air)[(y + 128 * z + 2048 * x : ℕ)]? = some Block.air :=
      List.getElem?_replicate_of_lt (index x y z).isLt
    dsimp only at hread
    rw [hair, Option.or_some] at hread
    exact Option.some.inj hread
  have hbottom : d.block 4 0 5 = Block.bedrock := hcell 4 0 5
  refine ⟨hempty, hlength, hbottom, hcell 4 70 5, ((hheights 4 5).1 0).2 ⟨?_, fun y hy => ?_⟩,
    hcell 5 0 4, (hheights 5 4).2.2 fun y => hcell 5 y 4⟩
  · show d.block 4 0 5 ≠ Block.air
    rw [hbottom]
    decide
  · have hair : ∀ y : Fin 128, ¬ y ≤ 0 → (lastPut ws 4 y 5).getD Block.air = Block.air := by
      decide +kernel
    exact not_imp_comm.1 (hair y) fun h => hy ((hcell 4 y 5).trans h)

end BlockWorld.Chunk
