import BlockWorld.Ieee

/-! # The block grid

Positions are in blocks; the world is cut into square columns of blocks, named by their place on
the horizontal grid. Two columns are near each other when neither axis separates them by more than
the radius, the difference taken over the integers, so that the ends of the grid are far apart.
-/

namespace BlockWorld

/-- A point of the world, one unit to a block. -/
structure Position where
  x : Float
  y : Float
  z : Float

structure Orientation where
  yaw : Float32
  pitch : Float32

namespace Orientation

def ahead : Orientation := ⟨0, 0⟩

end Orientation

inductive Dimension
  | normal
  | nether
  deriving DecidableEq

/-- The place of a column of blocks on the horizontal grid. -/
structure ChunkLoc where
  x : Int32
  z : Int32
  deriving DecidableEq

namespace ChunkLoc

/-- Neither axis separates the columns by more than `radius`. -/
def Near (radius : Int32) (a b : ChunkLoc) : Prop :=
  ((b.x.toInt - a.x.toInt).natAbs : Int) ≤ radius.toInt ∧
    ((b.z.toInt - a.z.toInt).natAbs : Int) ≤ radius.toInt

instance (radius : Int32) (a b : ChunkLoc) : Decidable (Near radius a b) :=
  inferInstanceAs (Decidable (_ ∧ _))

theorem near_comm {radius : Int32} {a b : ChunkLoc} : Near radius a b ↔ Near radius b a := by
  unfold Near; omega

theorem near_self_iff {radius : Int32} {a : ChunkLoc} : Near radius a a ↔ 0 ≤ radius.toInt := by
  simp [Near]

def text (loc : ChunkLoc) : String :=
  "(" ++ toString loc.x.toInt ++ ", " ++ toString loc.z.toInt ++ ")"

end ChunkLoc

/-- The number of the column that holds coordinate `v`; a coordinate off the grid counts as its
nearest end, and one that is no number as zero. -/
def columnOf (v : Float) : Int32 := Ieee.floorToInt32 (v / 16)

def Position.chunk (p : Position) : ChunkLoc := ⟨columnOf p.x, columnOf p.z⟩

end BlockWorld
