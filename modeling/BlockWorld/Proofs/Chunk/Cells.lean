import BlockWorld.Chunk
import Mathlib.Data.Fin.Basic

/-! # The cells of a chunk

Places in storage and coordinates determine each other, so a chunk is known by its blocks and a
write is seen at one cell only.
-/

namespace BlockWorld.Chunk

variable {c d : Chunk} {loc : ChunkLoc} {blocks : List Block} {x x' z z' : Fin 16}
  {y y' h : Fin 128}

theorem index_inj : index x y z = index x' y' z' ↔ x = x' ∧ y = y' ∧ z = z' := by
  refine ⟨fun heq => ⟨?_, ?_, ?_⟩, by rintro ⟨rfl, rfl, rfl⟩; rfl⟩
  · rw [← xOf_index x y z, heq, xOf_index]
  · rw [← yOf_index x y z, heq, yOf_index]
  · rw [← zOf_index x y z, heq, zOf_index]

theorem block_eq_getElem (c : Chunk) (x : Fin 16) (y : Fin 128) (z : Fin 16) :
    c.block x y z = getElem c.blocks (index x y z).val (index x y z).isLt := rfl

theorem block_setBlock (c : Chunk) (x x' : Fin 16) (y y' : Fin 128) (z z' : Fin 16) (b : Block) :
    (c.setBlock x y z b).block x' y' z' =
      if x = x' ∧ y = y' ∧ z = z' then b else c.block x' y' z' := by
  simp only [block_eq_getElem, setBlock, Vector.getElem_set, ← index_inj]
  simp only [Fin.ext_iff]

theorem ext_block (hloc : c.loc = d.loc) (h : ∀ x y z, c.block x y z = d.block x y z) : c = d := by
  obtain ⟨loc, blocks⟩ := c
  obtain ⟨loc', blocks'⟩ := d
  obtain rfl : loc = loc' := hloc
  congr 1
  refine Vector.ext fun i hi => ?_
  have hcell := h (xOf ⟨i, hi⟩) (yOf ⟨i, hi⟩) (zOf ⟨i, hi⟩)
  rw [block, block, index_of] at hcell
  exact hcell

theorem block_empty (loc : ChunkLoc) (x : Fin 16) (y : Fin 128) (z : Fin 16) :
    (empty loc).block x y z = Block.air := Vector.getElem_replicate _

theorem length_toBytes (c : Chunk) : c.toBytes.length = 32768 := Vector.length_toList

/-! ## Payloads -/

theorem ofBlocks?_of_length (loc : ChunkLoc) (h : blocks.length = 32768) :
    ∃ c, ofBlocks? loc blocks = some c ∧ c.loc = loc ∧ c.toBytes = blocks :=
  ⟨⟨loc, ⟨blocks.toArray, h⟩⟩, dif_pos h, rfl, rfl⟩

theorem eq_of_toBytes (hloc : c.loc = d.loc) (h : c.toBytes = d.toBytes) : c = d := by
  have hc := ofBlocks?_toBytes c
  rw [hloc, h, ofBlocks?_toBytes d] at hc
  exact (Option.some.inj hc).symm

theorem ofBlocks?_eq_none (h : blocks.length ≠ 32768) : ofBlocks? loc blocks = none := dif_neg h

theorem ofBlocks?_eq_some_iff :
    ofBlocks? loc blocks = some c ↔ c.loc = loc ∧ c.toBytes = blocks := by
  constructor
  · intro h
    have hlength : blocks.length = 32768 := by
      by_contra hne
      rw [ofBlocks?_eq_none hne] at h
      cases h
    obtain ⟨d, hd, hloc, hbytes⟩ := ofBlocks?_of_length loc hlength
    cases h.symm.trans hd
    exact ⟨hloc, hbytes⟩
  · rintro ⟨rfl, rfl⟩
    exact ofBlocks?_toBytes c

/-! ## Columns -/

theorem find?_eq_some_iff_of_descending {p : Fin 128 → Bool} {l : List (Fin 128)}
    (hl : l.Pairwise (· > ·)) (hmem : h ∈ l) :
    l.find? p = some h ↔ p h ∧ ∀ y ∈ l, h < y → p y = false := by
  rw [List.find?_eq_some_iff_append]
  refine and_congr_right fun hp => ⟨?_, fun hno => ?_⟩
  · rintro ⟨before, after, rfl, hno⟩ y hy hlt
    rcases List.mem_append.1 hy with hbefore | hrest
    · simpa using hno y hbefore
    · rcases List.mem_cons.1 hrest with rfl | hafter
      · exact absurd hlt (Fin.lt_irrefl _)
      · have := (List.pairwise_cons.1 (List.pairwise_append.1 hl).2.1).1 y hafter
        exact absurd hlt (Fin.lt_asymm this)
  · obtain ⟨before, after, rfl⟩ := List.append_of_mem hmem
    refine ⟨before, after, rfl, fun y hy => ?_⟩
    have hgt := (List.pairwise_append.1 hl).2.2 y hy h List.mem_cons_self
    simpa using hno y (List.mem_append_left _ hy) hgt

theorem heightAt_eq_some_iff : c.heightAt x z = some h ↔
    c.block x h z ≠ Block.air ∧ ∀ y, h < y → c.block x y z = Block.air := by
  have hl : (List.finRange 128).reverse.Pairwise (· > ·) :=
    List.pairwise_reverse.2 (List.pairwise_lt_finRange 128)
  rw [heightAt, find?_eq_some_iff_of_descending hl (by simp)]
  simp

end BlockWorld.Chunk
