import BlockWorld.Proofs.Chunk.Cells
import BlockWorld.Proofs.Terrain.Height

/-! # Columns of generated chunks

Terrain is laid column by column and from the bottom up, each block put where its coordinates say.
No two columns share a place, and a column's blocks are laid at different heights, so each cell
keeps the one block that was meant for it, and what lies above the surface stays air.
-/

namespace BlockWorld

/-- A block to be put somewhere, by coordinates that nothing bounds. -/
structure Placement where
  x : ℕ
  y : ℕ
  z : ℕ
  block : Block

namespace Placement

def ofCell (x : Fin 16) (y : Fin 128) (z : Fin 16) (b : Block) : Placement := ⟨x, y, z, b⟩

theorem ofCell_inj {x x' z z' : Fin 16} {y y' : Fin 128} {b b' : Block} :
    ofCell x y z b = ofCell x' y' z' b' ↔ x = x' ∧ y = y' ∧ z = z' ∧ b = b' := by
  simp only [ofCell, mk.injEq, Fin.ext_iff]

def offset (p : Placement) : ℕ := p.y + 128 * p.z + 2048 * p.x

end Placement

namespace Chunk

open Placement (ofCell)

/-- Puts a block where its offset says, in another column if need be; past the end there is no
place. -/
def place? (c : Chunk) (p : Placement) : Option Chunk :=
  if h : p.offset < 32768 then some { c with blocks := c.blocks.set p.offset p.block } else none

theorem place?_ofCell (c : Chunk) (x : Fin 16) (y : Fin 128) (z : Fin 16) (b : Block) :
    c.place? (ofCell x y z b) = some (c.setBlock x y z b) := dif_pos (index x y z).isLt

/-- Placements that agree on what belongs where leave it there, in whatever order they come. -/
theorem foldlM_place? {f : Fin 16 → Fin 128 → Fin 16 → Block} (c : Chunk) {ps : List Placement}
    (hps : ∀ p ∈ ps, ∃ x y z, p = ofCell x y z (f x y z)) :
    ∃ d, ps.foldlM place? c = some d ∧ d.loc = c.loc ∧ ∀ x y z,
      (ofCell x y z (f x y z) ∈ ps → d.block x y z = f x y z) ∧
        (ofCell x y z (f x y z) ∉ ps → d.block x y z = c.block x y z) := by
  induction ps generalizing c with
  | nil => exact ⟨c, rfl, rfl, by simp⟩
  | cons p ps ih =>
    obtain ⟨x, y, z, rfl⟩ := hps p List.mem_cons_self
    obtain ⟨d, hd, hloc, hcells⟩ := ih (c.setBlock x y z (f x y z)) fun q hq =>
      hps q (List.mem_cons_of_mem _ hq)
    refine ⟨d, by rw [List.foldlM_cons, place?_ofCell]; exact hd, hloc, fun x' y' z' => ?_⟩
    have hcell := hcells x' y' z'
    rw [block_setBlock] at hcell
    by_cases hlater : ofCell x' y' z' (f x' y' z') ∈ ps
    · exact ⟨fun _ => hcell.1 hlater, fun hno => absurd (List.mem_cons_of_mem _ hlater) hno⟩
    · have hnow := hcell.2 hlater
      refine ⟨fun hmem => ?_, fun hno => ?_⟩
      · obtain ⟨rfl, rfl, rfl, -⟩ :=
          Placement.ofCell_inj.1 ((List.mem_cons.1 hmem).resolve_right hlater)
        rw [hnow, if_pos ⟨rfl, rfl, rfl⟩]
      · rw [hnow, if_neg]
        rintro ⟨rfl, rfl, rfl⟩
        exact hno List.mem_cons_self

end Chunk

namespace Terrain

/-- The coordinate in the world of the `k`-th block of column `n` of the grid, in machine words. -/
def blockCoordinate (n : Int32) (k : ℕ) : Int64 := n.toInt64 * 16 + Int64.ofNat k

/-- How the column at `(x, z)` is laid up to a surface at `h`. -/
def column (h x z : ℕ) : List Placement :=
  ⟨x, 0, z, Block.bedrock⟩ ::
    ((List.range' 1 (h - 1)).map fun y =>
      ⟨x, y, z, if h ≤ y + 3 then Block.dirt else Block.stone⟩) ++ [⟨x, h, z, Block.grass⟩]

def placements (seed : Int64) (loc : ChunkLoc) : List Placement :=
  (List.range 16).flatMap fun x => (List.range 16).flatMap fun z =>
    column (columnHeight seed (blockCoordinate loc.x x).toInt (blockCoordinate loc.z z).toInt) x z

theorem toInt_blockCoordinate (n : Int32) {k : ℕ} (hk : k < 16) :
    (blockCoordinate n k).toInt = 16 * n.toInt + k := by
  have hle := n.le_toInt
  have hlt := n.toInt_lt
  have hk' : (Int64.ofNat k).toInt = k := Int64.toInt_ofNat_of_lt (by omega)
  have hedge : (n.toInt64 * 16).toInt = 16 * n.toInt := by
    have hedge' : (16 : Int64).toInt = 16 := rfl
    rw [Int64.toInt_mul, Int32.toInt_toInt64, hedge', Int.mul_comm]
    exact Int.bmod_eq_of_le (by omega) (by omega)
  rw [blockCoordinate, Int64.toInt_add, hedge, hk']
  exact Int.bmod_eq_of_le (by omega) (by omega)

theorem inWord_block (n : Int32) {k : ℕ} (hk : k < 16) :
    InWord (16 * n.toInt) ∧ InWord (16 * n.toInt + k) := by
  have hle := n.le_toInt
  have hlt := n.toInt_lt
  unfold InWord
  omega

section stratum

variable {h y : ℕ}

theorem stratum_zero (h : ℕ) : stratum h 0 = Block.bedrock := rfl

theorem stratum_of_deep (hy : 0 < y) (hh : y + 3 < h) : stratum h y = Block.stone := by
  rw [stratum, if_neg hy.ne', if_pos hh]

theorem stratum_of_shallow (hy : 0 < y) (hh : h ≤ y + 3) (hlt : y < h) :
    stratum h y = Block.dirt := by
  rw [stratum, if_neg hy.ne', if_neg hh.not_gt, if_pos hlt]

theorem stratum_self (hh : 0 < h) : stratum h h = Block.grass := by
  rw [stratum, if_neg hh.ne', if_neg (by omega), if_neg (lt_irrefl h), if_pos rfl]

theorem stratum_of_lt (hlt : h < y) : stratum h y = Block.air := by
  rw [stratum, if_neg (by omega), if_neg (by omega), if_neg (by omega), if_neg hlt.ne']

end stratum

theorem mem_column_iff {h x z : ℕ} (hh : 0 < h) {p : Placement} :
    p ∈ column h x z ↔ ∃ y ≤ h, p = ⟨x, y, z, stratum h y⟩ := by
  have hearth : ∀ {y}, 0 < y → y < h →
      (if h ≤ y + 3 then Block.dirt else Block.stone) = stratum h y := fun hy hlt => by
    split
    · rw [stratum_of_shallow hy ‹_› hlt]
    · rw [stratum_of_deep hy (by omega)]
  simp only [column, List.cons_append, List.mem_cons, List.mem_append, List.mem_map,
    List.mem_range'_1, List.not_mem_nil, or_false]
  constructor
  · rintro (rfl | ⟨y, hy, rfl⟩ | rfl)
    · exact ⟨0, by omega, rfl⟩
    · exact ⟨y, by omega, by rw [hearth (by omega) (by omega)]⟩
    · exact ⟨h, le_rfl, by rw [stratum_self hh]⟩
  · rintro ⟨y, hy, rfl⟩
    rcases Nat.eq_zero_or_pos y with rfl | hpos
    · exact .inl rfl
    · rcases hy.lt_or_eq with hlt | rfl
      · exact .inr (.inl ⟨y, by omega, by rw [hearth hpos hlt]⟩)
      · exact .inr (.inr (by rw [stratum_self hh]))

def surfaceAt (seed : Int64) (loc : ChunkLoc) (x z : ℕ) : ℕ :=
  columnHeight seed (16 * loc.x.toInt + x) (16 * loc.z.toInt + z)

theorem surfaceAt_bounds (seed : Int64) (loc : ChunkLoc) (x z : ℕ) :
    60 ≤ surfaceAt seed loc x z ∧ surfaceAt seed loc x z ≤ 68 := columnHeight_bounds seed _ _

theorem mem_placements_iff {seed : Int64} {loc : ChunkLoc} {p : Placement} :
    p ∈ placements seed loc ↔ ∃ x < 16, ∃ z < 16, ∃ y ≤ surfaceAt seed loc x z,
      p = ⟨x, y, z, stratum (surfaceAt seed loc x z) y⟩ := by
  simp only [placements, List.mem_flatMap, List.mem_range]
  refine exists_congr fun x => and_congr_right fun hx => exists_congr fun z =>
    and_congr_right fun hz => ?_
  rw [toInt_blockCoordinate _ hx, toInt_blockCoordinate _ hz, mem_column_iff]
  · rfl
  · exact Nat.lt_of_lt_of_le (by omega) (surfaceAt_bounds seed loc x z).1

theorem block_generate (seed : Int64) (loc : ChunkLoc) (x : Fin 16) (y : Fin 128) (z : Fin 16) :
    (generate seed loc).block x y z = stratum (surfaceAt seed loc x z) y := by
  have hx : (y.val + 128 * z.val + 2048 * x.val) / 128 / 16 = x := by omega
  have hz : (y.val + 128 * z.val + 2048 * x.val) / 128 % 16 = z := by omega
  have hy : (y.val + 128 * z.val + 2048 * x.val) % 128 = y := by omega
  have hget : ∀ (f : Fin 256 → ℕ) k, (Vector.ofFn f).get k = f k := fun f k =>
    Vector.getElem_ofFn k.isLt
  simp only [Chunk.block_eq_getElem, generate, Chunk.index, Vector.getElem_ofFn, hget, hx, hy, hz,
    surfaceAt]

/-- Laid in place, column after column, the blocks make the generated chunk. -/
theorem foldlM_placements (seed : Int64) (loc : ChunkLoc) :
    (placements seed loc).foldlM Chunk.place? (Chunk.empty loc) = some (generate seed loc) := by
  have hps : ∀ p ∈ placements seed loc, ∃ (x : Fin 16) (y : Fin 128) (z : Fin 16),
      p = .ofCell x y z (stratum (surfaceAt seed loc x z) y) := fun p hp => by
    obtain ⟨x, hx, z, hz, y, hy, rfl⟩ := mem_placements_iff.1 hp
    have hlt : y < 128 := by
      have := surfaceAt_bounds seed loc x z
      omega
    exact ⟨⟨x, hx⟩, ⟨y, hlt⟩, ⟨z, hz⟩, rfl⟩
  obtain ⟨d, hd, hloc, hcells⟩ := Chunk.foldlM_place? (Chunk.empty loc) hps
  rw [hd]
  refine congrArg some (Chunk.ext_block hloc fun x y z => ?_)
  rw [block_generate]
  rcases Nat.lt_or_ge (surfaceAt seed loc x z) y with hlt | hle
  · have hair : stratum (surfaceAt seed loc x z) y = Block.air := stratum_of_lt hlt
    rw [(hcells x y z).2 ?_, Chunk.block_empty, hair]
    rintro hmem
    obtain ⟨x', -, z', -, y', hy', heq⟩ := mem_placements_iff.1 hmem
    simp only [Placement.ofCell, Placement.mk.injEq] at heq
    obtain ⟨rfl, rfl, rfl, -⟩ := heq
    omega
  · exact (hcells x y z).1 (mem_placements_iff.2 ⟨x, x.isLt, z, z.isLt, y, hle, rfl⟩)

theorem heightAt_generate (seed : Int64) (loc : ChunkLoc) (x z : Fin 16) :
    ((generate seed loc).heightAt x z).map (·.val) = some (surfaceAt seed loc x z) := by
  obtain ⟨hlow, hhigh⟩ := surfaceAt_bounds seed loc x z
  have htop : (generate seed loc).heightAt x z = some ⟨surfaceAt seed loc x z, by omega⟩ := by
    refine Chunk.heightAt_eq_some_iff.2 ⟨?_, fun y hy => ?_⟩
    · rw [block_generate, stratum_self (by omega)]
      decide
    · rw [block_generate, stratum_of_lt (Fin.lt_def.1 hy)]
  rw [htop]
  rfl

theorem offset_column {h x z : ℕ} (hh : 0 < h) (hh' : h < 128) (hx : x < 16) (hz : z < 16)
    {p : Placement} (hp : p ∈ column h x z) :
    p.offset < 32768 ∧ p.offset / 2048 = x ∧ p.offset / 128 % 16 = z := by
  obtain ⟨y, hy, rfl⟩ := (mem_column_iff hh).1 hp
  show y + 128 * z + 2048 * x < 32768 ∧ (y + 128 * z + 2048 * x) / 2048 = x ∧
    (y + 128 * z + 2048 * x) / 128 % 16 = z
  omega

/-- Every chunk, be it at an end of the grid, has the columns that the heights ask for: bedrock
below stone, three blocks of dirt, grass on top and air above. It is laid in machine words and in
place without a block going astray. -/
theorem generate_columns (seed : Int64) (loc : ChunkLoc) :
    (placements seed loc).foldlM Chunk.place? (Chunk.empty loc) = some (generate seed loc) ∧
      (generate seed loc).toBytes.length = 32768 ∧
      ∀ x z : Fin 16,
        let h := columnHeight seed (16 * loc.x.toInt + x) (16 * loc.z.toInt + z)
        (InWord (16 * loc.x.toInt) ∧ InWord (16 * loc.x.toInt + x) ∧
          (blockCoordinate loc.x x).toInt = 16 * loc.x.toInt + x) ∧
        (InWord (16 * loc.z.toInt) ∧ InWord (16 * loc.z.toInt + z) ∧
          (blockCoordinate loc.z z).toInt = 16 * loc.z.toInt + z) ∧
        (∀ y : Fin 128,
          let b := (generate seed loc).block x y z
          (y.val = 0 → b = Block.bedrock) ∧
          (0 < y.val → y + 3 < h → b = Block.stone) ∧
          (h ≤ y + 3 → y < h → b = Block.dirt) ∧
          (y = h → b = Block.grass) ∧
          (h < y → b = Block.air)) ∧
        ((generate seed loc).heightAt x z).map (·.val) = some h ∧
        ∀ p ∈ column h x z,
          p.offset < 32768 ∧ p.offset / 2048 = x ∧ p.offset / 128 % 16 = z := by
  refine ⟨foldlM_placements seed loc, Chunk.length_toBytes _, fun x z => ?_⟩
  have hbounds := columnHeight_bounds seed (16 * loc.x.toInt + x) (16 * loc.z.toInt + z)
  have hwords : ∀ (n : Int32) (k : Fin 16), InWord (16 * n.toInt) ∧ InWord (16 * n.toInt + k) ∧
      (blockCoordinate n k).toInt = 16 * n.toInt + k := fun n k =>
    ⟨(inWord_block n k.isLt).1, (inWord_block n k.isLt).2, toInt_blockCoordinate n k.isLt⟩
  refine ⟨hwords loc.x x, hwords loc.z z, fun y => ?_, heightAt_generate seed loc x z,
    fun p => offset_column (by omega) (by omega) x.isLt z.isLt⟩
  rw [block_generate]
  refine ⟨fun hy => ?_, stratum_of_deep, fun hlow => stratum_of_shallow (by omega) hlow,
    fun hy => ?_, stratum_of_lt⟩
  · rw [hy]
    exact stratum_zero _
  · rw [hy]
    exact stratum_self (Nat.lt_of_lt_of_le (by decide) hbounds.1)

/-- At a corner of the grid, in a column whose surface is at 63. -/
theorem generate_columns_corner :
    let c := generate 7 ⟨Int32.minValue, Int32.maxValue⟩
    columnHeight 7 (16 * Int32.minValue.toInt + 3) (16 * Int32.maxValue.toInt + 5) = 63 ∧
      c.block 3 0 5 = Block.bedrock ∧ c.block 3 59 5 = Block.stone ∧
      c.block 3 60 5 = Block.dirt ∧ c.block 3 63 5 = Block.grass ∧ c.block 3 64 5 = Block.air := by
  have hh : columnHeight 7 (16 * Int32.minValue.toInt + ((3 : Fin 16) : ℕ))
      (16 * Int32.maxValue.toInt + ((5 : Fin 16) : ℕ)) = 63 := by decide +kernel
  obtain ⟨-, -, hcells, -⟩ :=
    (generate_columns 7 ⟨Int32.minValue, Int32.maxValue⟩).2.2 3 5
  rw [hh] at hcells
  exact ⟨hh, (hcells 0).1 rfl, (hcells 59).2.1 (by decide) (by decide),
    (hcells 60).2.2.1 (by decide) (by decide), (hcells 63).2.2.2.1 rfl,
    (hcells 64).2.2.2.2 (by decide)⟩

end Terrain

end BlockWorld
