import BlockWorld.Chunk
import BlockWorld.Ieee

/-! # Terrain

Surface heights are drawn from a hash at every eighth block and interpolated in between, in exact
integer arithmetic: a value is carried as the number of its sixty-fourths and rounded once, halves
upwards. Seed and place determine a chunk.
-/

namespace BlockWorld

namespace Terrain

/-- One step of the splitmix generator: a well-mixed word for each word. -/
def mix (word : UInt64) : UInt64 :=
  let z := word + 0x9e3779b97f4a7c15
  let z := (z ^^^ (z >>> 30)) * 0xbf58476d1ce4e5b9
  let z := (z ^^^ (z >>> 27)) * 0x94d049bb133111eb
  z ^^^ (z >>> 31)

/-- The surface height at a lattice point, in `60..68`. -/
def latticeHeight (seed : Int64) (lx lz : Int) : Nat :=
  let key := mix (Int64.ofInt lx).toUInt64 ^^^ (Int64.ofInt lz).toUInt64
  60 + (mix (seed.toUInt64 ^^^ mix key)).toNat % 9

theorem latticeHeight_bounds (seed : Int64) (lx lz : Int) :
    60 ≤ latticeHeight seed lx lz ∧ latticeHeight seed lx lz ≤ 68 := by
  simp only [latticeHeight]; omega

/-- Eight times the value `t` eighths of the way from `a` to `b`. -/
def blend (a b t : Int) : Int := 8 * a + (b - a) * t

/-- The surface height of the column at block coordinates `(wx, wz)`. -/
def columnHeight (seed : Int64) (wx wz : Int) : Nat :=
  let lx := wx / 8
  let lz := wz / 8
  let near := blend (latticeHeight seed lx lz) (latticeHeight seed (lx + 1) lz) (wx % 8)
  let far := blend (latticeHeight seed lx (lz + 1)) (latticeHeight seed (lx + 1) (lz + 1)) (wx % 8)
  ((blend near far (wz % 8) + 32) / 64).toNat

/-! In doubles the height is `Ieee.roundToUInt64` of the following `surface`. -/

def latticeDouble (seed : Int64) (lx lz : Int) : Float :=
  let key := mix (Int64.ofInt lx).toUInt64 ^^^ (Int64.ofInt lz).toUInt64
  (60 : UInt64).toFloat + (mix (seed.toUInt64 ^^^ mix key) % 9).toFloat

def fraction (w : Int) : Float := (UInt64.ofNat (w % 8).toNat).toFloat / (8 : UInt64).toFloat

def surface (seed : Int64) (wx wz : Int) : Float :=
  let fx := fraction wx
  let fz := fraction wz
  let h00 := latticeDouble seed (wx / 8) (wz / 8)
  let h10 := latticeDouble seed (wx / 8 + 1) (wz / 8)
  let h01 := latticeDouble seed (wx / 8) (wz / 8 + 1)
  let h11 := latticeDouble seed (wx / 8 + 1) (wz / 8 + 1)
  let near := h00 + (h10 - h00) * fx
  let far := h01 + (h11 - h01) * fx
  near + (far - near) * fz

def stratum (h y : Nat) : Block :=
  if y = 0 then Block.bedrock
  else if y + 3 < h then Block.stone
  else if y < h then Block.dirt
  else if y = h then Block.grass
  else Block.air

def generate (seed : Int64) (loc : ChunkLoc) : Chunk :=
  let heights : Vector Nat 256 := Vector.ofFn fun k =>
    columnHeight seed (16 * loc.x.toInt + (k / 16 : Nat)) (16 * loc.z.toInt + (k % 16 : Nat))
  ⟨loc, Vector.ofFn fun i => stratum (heights.get ⟨i / 128, by omega⟩) (i % 128)⟩

end Terrain

end BlockWorld
