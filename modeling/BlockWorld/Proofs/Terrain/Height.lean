import BlockWorld.Terrain
import BlockWorld.Proofs.Grid

/-! # Surface heights

The heights of the lattice are arbitrary between the lowest and the highest, and the terrain between
them is the bilinear surface through the four corners of a cell. Cells agree where they meet, so the
surface has one slope bound everywhere, and rounding takes no step from a column to the next that is
higher than one block.
-/

namespace BlockWorld.Terrain

open Double (Stores Fits)

/-! ## The bilinear surface -/

def bilinear (a b c d u v : ℚ) : ℚ :=
  (1 - u) * (1 - v) * a + u * (1 - v) * b + (1 - u) * v * c + u * v * d

section bilinear

variable {a b c d u v k : ℚ}

theorem bilinear_comm (a b c d u v : ℚ) : bilinear a b c d u v = bilinear a c b d v u := by
  unfold bilinear
  ring

theorem bilinear_le (hu : 0 ≤ u ∧ u ≤ 1) (hv : 0 ≤ v ∧ v ≤ 1) (ha : a ≤ k) (hb : b ≤ k)
    (hc : c ≤ k) (hd : d ≤ k) : bilinear a b c d u v ≤ k := by
  have hu' := sub_nonneg.2 hu.2
  have hv' := sub_nonneg.2 hv.2
  calc bilinear a b c d u v
      ≤ (1 - u) * (1 - v) * k + u * (1 - v) * k + (1 - u) * v * k + u * v * k := by
        have := hu.1
        have := hv.1
        unfold bilinear
        gcongr
    _ = k := by ring

theorem le_bilinear (hu : 0 ≤ u ∧ u ≤ 1) (hv : 0 ≤ v ∧ v ≤ 1) (ha : k ≤ a) (hb : k ≤ b)
    (hc : k ≤ c) (hd : k ≤ d) : k ≤ bilinear a b c d u v := by
  have hu' := sub_nonneg.2 hu.2
  have hv' := sub_nonneg.2 hv.2
  calc k = (1 - u) * (1 - v) * k + u * (1 - v) * k + (1 - u) * v * k + u * v * k := by ring
    _ ≤ bilinear a b c d u v := by
        have := hu.1
        have := hv.1
        unfold bilinear
        gcongr

/-- Where the ends of the sides are at most eight apart, an eighth of the way is a step of one. -/
theorem abs_bilinear_sub_le (hv : 0 ≤ v ∧ v ≤ 1) (hab : |b - a| ≤ 8) (hcd : |d - c| ≤ 8) :
    |bilinear a b c d (u + 1 / 8) v - bilinear a b c d u v| ≤ 1 := by
  have hstep : bilinear a b c d (u + 1 / 8) v - bilinear a b c d u v =
      ((1 - v) * (b - a) + v * (d - c)) / 8 := by
    unfold bilinear
    ring
  have hv' := sub_nonneg.2 hv.2
  rw [hstep, abs_div, abs_of_pos (by norm_num : (0 : ℚ) < 8), div_le_one (by norm_num)]
  calc |(1 - v) * (b - a) + v * (d - c)| ≤ |(1 - v) * (b - a)| + |v * (d - c)| := abs_add_le _ _
    _ = (1 - v) * |b - a| + v * |d - c| := by
        rw [abs_mul, abs_mul, abs_of_nonneg hv', abs_of_nonneg hv.1]
    _ ≤ (1 - v) * 8 + v * 8 := by
        have := hv.1
        gcongr
    _ = 8 := by ring

end bilinear

variable (seed : Int64) (lx lz : ℤ) {s t : ℤ}

/-- The bilinear surface over the cell at `(lx, lz)`, in eighths of its sides. -/
def cell (s t : ℤ) : ℚ :=
  bilinear (latticeHeight seed lx lz) (latticeHeight seed (lx + 1) lz)
    (latticeHeight seed lx (lz + 1)) (latticeHeight seed (lx + 1) (lz + 1)) (s / 8) (t / 8)

def altitude (wx wz : ℤ) : ℚ := cell seed (wx / 8) (wz / 8) (wx % 8) (wz % 8)

theorem cell_eight_left : cell seed lx lz 8 t = cell seed (lx + 1) lz 0 t := by
  simp only [cell, bilinear]
  ring

theorem cell_eight_right : cell seed lx lz s 8 = cell seed lx (lz + 1) s 0 := by
  simp only [cell, bilinear]
  ring

theorem altitude_eq_cell (hs : 0 ≤ s ∧ s ≤ 8) (ht : 0 ≤ t ∧ t ≤ 8) :
    altitude seed (8 * lx + s) (8 * lz + t) = cell seed lx lz s t := by
  have hx : cell seed ((8 * lx + s) / 8) ((8 * lz + t) / 8) ((8 * lx + s) % 8) ((8 * lz + t) % 8) =
      cell seed lx ((8 * lz + t) / 8) s ((8 * lz + t) % 8) := by
    rcases hs.2.lt_or_eq with hlt | rfl
    · rw [show (8 * lx + s) / 8 = lx by omega, show (8 * lx + s) % 8 = s by omega]
    · rw [show (8 * lx + 8) / 8 = lx + 1 by omega, show (8 * lx + 8) % 8 = 0 by omega,
        cell_eight_left]
  rw [altitude, hx]
  rcases ht.2.lt_or_eq with hlt | rfl
  · rw [show (8 * lz + t) / 8 = lz by omega, show (8 * lz + t) % 8 = t by omega]
  · rw [show (8 * lz + 8) / 8 = lz + 1 by omega, show (8 * lz + 8) % 8 = 0 by omega,
      cell_eight_right]

theorem lattice_bounds :
    60 ≤ (latticeHeight seed lx lz : ℤ) ∧ (latticeHeight seed lx lz : ℤ) ≤ 68 := by
  have := latticeHeight_bounds seed lx lz
  omega

theorem cast_latticeHeight_bounds :
    60 ≤ (latticeHeight seed lx lz : ℚ) ∧ (latticeHeight seed lx lz : ℚ) ≤ 68 := by
  obtain ⟨h, h'⟩ := latticeHeight_bounds seed lx lz
  generalize latticeHeight seed lx lz = n at h h'
  exact ⟨by exact_mod_cast h, by exact_mod_cast h'⟩

theorem abs_latticeHeight_sub_le (lx lz lx' lz' : ℤ) :
    |(latticeHeight seed lx lz : ℚ) - latticeHeight seed lx' lz'| ≤ 8 := by
  have h := cast_latticeHeight_bounds seed lx lz
  have h' := cast_latticeHeight_bounds seed lx' lz'
  exact abs_le.2 ⟨by linarith, by linarith⟩

theorem eighth_mem_unit (hs : 0 ≤ s ∧ s ≤ 8) : 0 ≤ (s : ℚ) / 8 ∧ (s : ℚ) / 8 ≤ 1 := by
  have h₀ : (0 : ℚ) ≤ s := by exact_mod_cast hs.1
  have h₈ : (s : ℚ) ≤ 8 := by exact_mod_cast hs.2
  exact ⟨by positivity, (div_le_one (by norm_num)).2 h₈⟩

theorem abs_altitude_succ_left (wx wz : ℤ) :
    |altitude seed (wx + 1) wz - altitude seed wx wz| ≤ 1 := by
  have hx := altitude_eq_cell seed (wx / 8) (wz / 8) (s := wx % 8 + 1) (t := wz % 8)
    (by omega) (by omega)
  rw [show 8 * (wx / 8) + (wx % 8 + 1) = wx + 1 by omega, Int.mul_ediv_add_emod] at hx
  rw [hx, altitude, cell, cell, Int.cast_add, Int.cast_one, add_div]
  exact abs_bilinear_sub_le (eighth_mem_unit (by omega)) (abs_latticeHeight_sub_le seed _ _ _ _)
    (abs_latticeHeight_sub_le seed _ _ _ _)

theorem abs_altitude_succ_right (wx wz : ℤ) :
    |altitude seed wx (wz + 1) - altitude seed wx wz| ≤ 1 := by
  have hz := altitude_eq_cell seed (wx / 8) (wz / 8) (s := wx % 8) (t := wz % 8 + 1)
    (by omega) (by omega)
  rw [show 8 * (wz / 8) + (wz % 8 + 1) = wz + 1 by omega, Int.mul_ediv_add_emod] at hz
  rw [hz, altitude, cell, cell, Int.cast_add, Int.cast_one, add_div, bilinear_comm,
    bilinear_comm _ _ _ _ ((wx % 8 : ℤ) / 8 : ℚ)]
  exact abs_bilinear_sub_le (eighth_mem_unit (by omega)) (abs_latticeHeight_sub_le seed _ _ _ _)
    (abs_latticeHeight_sub_le seed _ _ _ _)

/-! ## Rounding -/

theorem round_mono {p q : ℚ} (h : p ≤ q) : round p ≤ round q := by
  rw [round_eq, round_eq]
  exact Int.floor_mono (by gcongr)

theorem abs_round_sub_le {p q : ℚ} (h : |p - q| ≤ 1) : |round p - round q| ≤ 1 := by
  rw [abs_le] at h ⊢
  have hle := round_mono (show p ≤ q + 1 by linarith)
  have hge := round_mono (show q ≤ p + 1 by linarith)
  rw [round_add_one] at hle hge
  omega

theorem blend_blend (a b c d s t : ℤ) :
    (blend (blend a b s) (blend c d s) t : ℚ) / 64 = bilinear a b c d (s / 8) (t / 8) := by
  simp only [blend, bilinear]
  push_cast
  ring

theorem blend_bounds {lo hi a b t : ℤ} (ha : lo ≤ a ∧ a ≤ hi) (hb : lo ≤ b ∧ b ≤ hi)
    (ht : 0 ≤ t ∧ t ≤ 8) : 8 * lo ≤ blend a b t ∧ blend a b t ≤ 8 * hi := by
  have hsplit : blend a b t = (8 - t) * a + t * b := by
    unfold blend
    ring
  rw [hsplit]
  constructor <;> nlinarith

/-- The height of the terrain in sixty-fourths. -/
def sixtyFourths (s t : ℤ) : ℤ :=
  blend (blend (latticeHeight seed lx lz) (latticeHeight seed (lx + 1) lz) s)
    (blend (latticeHeight seed lx (lz + 1)) (latticeHeight seed (lx + 1) (lz + 1)) s) t

theorem sixtyFourths_div (s t : ℤ) :
    (sixtyFourths seed lx lz s t : ℚ) / 64 = cell seed lx lz s t := by
  rw [sixtyFourths, blend_blend]
  rfl

theorem sixtyFourths_bounds (hs : 0 ≤ s ∧ s ≤ 8) (ht : 0 ≤ t ∧ t ≤ 8) :
    3840 ≤ sixtyFourths seed lx lz s t ∧ sixtyFourths seed lx lz s t ≤ 4352 := by
  have hside : ∀ lz, 480 ≤ blend (latticeHeight seed lx lz) (latticeHeight seed (lx + 1) lz) s ∧
      blend (latticeHeight seed lx lz) (latticeHeight seed (lx + 1) lz) s ≤ 544 := fun lz =>
    blend_bounds (lattice_bounds seed lx lz) (lattice_bounds seed (lx + 1) lz) hs
  exact blend_bounds (hside lz) (hside (lz + 1)) ht

theorem columnHeight_eq_round (wx wz : ℤ) :
    (columnHeight seed wx wz : ℤ) = round (altitude seed wx wz) := by
  have hlow := (sixtyFourths_bounds seed (wx / 8) (wz / 8) (s := wx % 8) (t := wz % 8)
    (by omega) (by omega)).1
  have hcolumn : columnHeight seed wx wz =
      ((sixtyFourths seed (wx / 8) (wz / 8) (wx % 8) (wz % 8) + 32) / 64).toNat := rfl
  have hhalf : (sixtyFourths seed (wx / 8) (wz / 8) (wx % 8) (wz % 8) : ℚ) / 64 + 1 / 2 =
      ((sixtyFourths seed (wx / 8) (wz / 8) (wx % 8) (wz % 8) + 32 : ℤ) : ℚ) / (64 : ℕ) := by
    push_cast
    ring
  rw [hcolumn, round_eq, altitude, ← sixtyFourths_div, hhalf, Rat.floor_intCast_div_natCast]
  exact Int.toNat_of_nonneg (by omega)

/-- The least of the heights at the corners of a cell. -/
def least : ℕ :=
  min (min (latticeHeight seed lx lz) (latticeHeight seed (lx + 1) lz))
    (min (latticeHeight seed lx (lz + 1)) (latticeHeight seed (lx + 1) (lz + 1)))

def greatest : ℕ :=
  max (max (latticeHeight seed lx lz) (latticeHeight seed (lx + 1) lz))
    (max (latticeHeight seed lx (lz + 1)) (latticeHeight seed (lx + 1) (lz + 1)))

theorem least_le_columnHeight (wx wz : ℤ) :
    least seed (wx / 8) (wz / 8) ≤ columnHeight seed wx wz := by
  have hle : ((least seed (wx / 8) (wz / 8) : ℕ) : ℚ) ≤ altitude seed wx wz := by
    refine le_bilinear (eighth_mem_unit (by omega)) (eighth_mem_unit (by omega)) ?_ ?_ ?_ ?_ <;>
      exact Nat.cast_le.2 (by simp [least])
  have hround := round_mono hle
  rw [round_natCast, ← columnHeight_eq_round] at hround
  exact_mod_cast hround

theorem columnHeight_le_greatest (wx wz : ℤ) :
    columnHeight seed wx wz ≤ greatest seed (wx / 8) (wz / 8) := by
  have hle : altitude seed wx wz ≤ ((greatest seed (wx / 8) (wz / 8) : ℕ) : ℚ) := by
    refine bilinear_le (eighth_mem_unit (by omega)) (eighth_mem_unit (by omega)) ?_ ?_ ?_ ?_ <;>
      exact Nat.cast_le.2 (by simp [greatest])
  have hround := round_mono hle
  rw [round_natCast, ← columnHeight_eq_round] at hround
  exact_mod_cast hround

theorem columnHeight_bounds (wx wz : ℤ) :
    60 ≤ columnHeight seed wx wz ∧ columnHeight seed wx wz ≤ 68 := by
  have h := least_le_columnHeight seed wx wz
  have h' := columnHeight_le_greatest seed wx wz
  have hcorner := latticeHeight_bounds seed
  constructor
  · exact (le_min (le_min (hcorner _ _).1 (hcorner _ _).1)
      (le_min (hcorner _ _).1 (hcorner _ _).1)).trans h
  · exact h'.trans (max_le (max_le (hcorner _ _).2 (hcorner _ _).2)
      (max_le (hcorner _ _).2 (hcorner _ _).2))

theorem columnHeight_lattice :
    columnHeight seed (8 * lx) (8 * lz) = latticeHeight seed lx lz := by
  have h := columnHeight_eq_round seed (8 * lx) (8 * lz)
  have hcell := altitude_eq_cell seed lx lz (s := 0) (t := 0) (by omega) (by omega)
  rw [add_zero, add_zero] at hcell
  have hcorner : cell seed lx lz 0 0 = latticeHeight seed lx lz := by
    simp [cell, bilinear]
  rw [hcell, hcorner, round_natCast] at h
  exact_mod_cast h

/-! ## In doubles -/

theorem fits_of_sixtyFourths {q : ℚ} (n : ℤ) (hn : |n| < 8192) (h : q = n / 64) : Fits q :=
  ⟨n, -6, by omega, by omega, by omega, by rw [h, div_eq_mul_inv]; norm_num⟩

theorem stores_latticeDouble :
    Stores (latticeDouble seed lx lz) (latticeHeight seed lx lz) := by
  simp only [latticeDouble, latticeHeight]
  generalize mix (seed.toUInt64 ^^^ mix _) = w
  have hspread := Double.stores_toFloat (w := w % 9)
    (by rw [UInt64.toNat_mod]; exact (Nat.mod_lt _ (by decide)).trans (by decide))
  rw [UInt64.toNat_mod] at hspread
  have hlt : w.toNat % 9 < 9 := Nat.mod_lt _ (by omega)
  change Stores _ ((w.toNat % 9 : ℕ) : ℚ) at hspread
  generalize w.toNat % 9 = r at hspread hlt
  rw [Nat.cast_add]
  refine (Double.stores_toFloat (w := 60) (by decide)).add hspread
    (fits_of_sixtyFourths (64 * (60 + r)) ?_ ?_)
  · rw [abs_of_nonneg] <;> omega
  · push_cast
    ring

theorem stores_fraction (w : ℤ) : Stores (fraction w) ((w % 8 : ℤ) / 8) := by
  generalize hs : (w % 8).toNat = s
  have hlt : s < 8 := by omega
  have hw : w % 8 = s := by omega
  have hnat : (UInt64.ofNat s).toNat = s := UInt64.toNat_ofNat_of_lt' (hlt.trans (by decide))
  have hsteps := Double.stores_toFloat (w := UInt64.ofNat s) (by rw [hnat]; omega)
  rw [hnat] at hsteps
  rw [fraction, hs, hw, Int.cast_natCast]
  refine hsteps.div (Double.stores_toFloat (w := 8) (by decide)) (by norm_num)
    (fits_of_sixtyFourths (8 * s) ?_ ?_)
  · rw [abs_of_nonneg] <;> omega
  · push_cast
    ring

theorem stores_blend {f g h : Float} {a b t : ℤ} (hf : Stores f (a / 8)) (hg : Stores g (b / 8))
    (hh : Stores h (t / 8)) (ha : 480 ≤ a ∧ a ≤ 544) (hb : 480 ≤ b ∧ b ≤ 544)
    (ht : 0 ≤ t ∧ t ≤ 8) : Stores (f + (g - f) * h) (blend a b t / 64) := by
  have hdiff : Stores (g - f) ((b - a : ℤ) / 8) := by
    have hsub : (b : ℚ) / 8 - a / 8 = (b - a : ℤ) / 8 := by
      push_cast
      ring
    rw [← hsub]
    refine hg.sub hf (fits_of_sixtyFourths (8 * (b - a)) (abs_lt.2 (by omega)) ?_)
    push_cast
    ring
  have hprod : Stores ((g - f) * h) (((b - a) * t : ℤ) / 64) := by
    have hmul : ((b - a : ℤ) : ℚ) / 8 * (t / 8) = ((b - a) * t : ℤ) / 64 := by
      push_cast
      ring
    rw [← hmul]
    refine hdiff.mul hh (fits_of_sixtyFourths ((b - a) * t) ?_ hmul)
    have hrise : |b - a| ≤ 64 := abs_le.2 (by omega)
    have hsteps : |t| ≤ 8 := abs_le.2 (by omega)
    calc |(b - a) * t| = |b - a| * |t| := abs_mul _ _
      _ ≤ 64 * 8 := by gcongr
      _ < 8192 := by norm_num
  have hsum : (a : ℚ) / 8 + ((b - a) * t : ℤ) / 64 = blend a b t / 64 := by
    unfold blend
    push_cast
    ring
  have hbounds := blend_bounds ha hb ht
  rw [← hsum]
  exact hf.add hprod (fits_of_sixtyFourths (blend a b t) (abs_lt.2 (by omega)) hsum)

theorem stores_side (lx lx' lz w : ℤ) :
    Stores (latticeDouble seed lx lz +
        (latticeDouble seed lx' lz - latticeDouble seed lx lz) * fraction w)
      (blend (latticeHeight seed lx lz) (latticeHeight seed lx' lz) (w % 8) / 8) := by
  have hcorner : ∀ lx, Stores (latticeDouble seed lx lz) ((8 * latticeHeight seed lx lz : ℤ) / 8) :=
    fun lx => by
      rw [Int.cast_mul, Int.cast_natCast, Int.cast_ofNat, mul_div_cancel_left₀ _ (by norm_num)]
      exact stores_latticeDouble seed lx lz
  have hbounds : ∀ lx, 480 ≤ (8 * latticeHeight seed lx lz : ℤ) ∧
      (8 * latticeHeight seed lx lz : ℤ) ≤ 544 := fun lx => by
    have := latticeHeight_bounds seed lx lz
    omega
  have hblend : ∀ a b t : ℤ, (blend (8 * a) (8 * b) t : ℚ) / 64 = blend a b t / 8 := fun a b t => by
    unfold blend
    push_cast
    ring
  rw [← hblend]
  exact stores_blend (hcorner lx) (hcorner lx') (stores_fraction w) (hbounds lx) (hbounds lx')
    (by omega)

/-- The height computed in doubles is the exact one. -/
theorem stores_surface (wx wz : ℤ) : Stores (surface seed wx wz) (altitude seed wx wz) := by
  have hbounds : ∀ lx lx' lz, 480 ≤ blend (latticeHeight seed lx lz) (latticeHeight seed lx' lz)
      (wx % 8) ∧ blend (latticeHeight seed lx lz) (latticeHeight seed lx' lz) (wx % 8) ≤ 544 :=
    fun lx lx' lz =>
      blend_bounds (lattice_bounds seed lx lz) (lattice_bounds seed lx' lz) (by omega)
  rw [altitude, ← sixtyFourths_div]
  exact stores_blend (stores_side seed _ _ _ wx) (stores_side seed _ _ _ wx) (stores_fraction wz)
    (hbounds _ _ _) (hbounds _ _ _) (by omega)

/-- Rounded to a word, the height computed in doubles is that of the column. -/
theorem toNat_roundToUInt64_surface (wx wz : ℤ) :
    (Ieee.roundToUInt64 (surface seed wx wz)).toNat = columnHeight seed wx wz := by
  have hround := columnHeight_eq_round seed wx wz
  have hbounds := columnHeight_bounds seed wx wz
  have hpos : 0 ≤ altitude seed wx wz := by
    by_contra hneg
    have hle := round_mono (not_le.1 hneg).le
    rw [round_zero] at hle
    omega
  rw [Ieee.roundToUInt64_eq (stores_surface seed wx wz) hpos, ← hround, Int.toNat_natCast,
    UInt64.toNat_ofNatClamp_of_lt]
  exact hbounds.2.trans_lt (by decide)

/-! ## The height of a column -/

def InWord (v : ℤ) : Prop := -9223372036854775808 ≤ v ∧ v ≤ 9223372036854775807

theorem inWord_lattice (w : Int64) :
    InWord (w.toInt / 8) ∧ InWord (w.toInt / 8 + 1) ∧ InWord (w.toInt % 8) := by
  have hle := w.le_toInt
  have hlt := w.toInt_lt
  unfold InWord
  omega

/-- The height of the column at `(x, z)` is the bilinear one of the cell around it: the exact value,
rounded once, halves upwards. Neither the words nor the doubles it is computed in lose anything. -/
structure Interpolates (seed : Int64) (x z : ℤ) : Prop where
  rounded : (columnHeight seed x z : ℤ) = round (altitude seed x z)
  between : least seed (x / 8) (z / 8) ≤ columnHeight seed x z ∧
    columnHeight seed x z ≤ greatest seed (x / 8) (z / 8)
  bounded : 60 ≤ columnHeight seed x z ∧ columnHeight seed x z ≤ 68
  lattice : ∀ lx lz, x = 8 * lx → z = 8 * lz → columnHeight seed x z = latticeHeight seed lx lz
  step_x : |(columnHeight seed (x + 1) z : ℤ) - columnHeight seed x z| ≤ 1
  step_z : |(columnHeight seed x (z + 1) : ℤ) - columnHeight seed x z| ≤ 1
  words_x : InWord (x / 8) ∧ InWord (x / 8 + 1) ∧ InWord (x % 8)
  words_z : InWord (z / 8) ∧ InWord (z / 8 + 1) ∧ InWord (z % 8)
  double : Stores (surface seed x z) (altitude seed x z)
  computed : (Ieee.roundToUInt64 (surface seed x z)).toNat = columnHeight seed x z

/-- Every column has the interpolated height, and from one to the next it changes by one block at
most, wherever cells, chunks or the two sides of the origin meet. -/
theorem columnHeight_interpolates (seed wx wz : Int64) :
    Interpolates seed wx.toInt wz.toInt where
  rounded := columnHeight_eq_round seed _ _
  between := ⟨least_le_columnHeight seed _ _, columnHeight_le_greatest seed _ _⟩
  bounded := columnHeight_bounds seed _ _
  lattice lx lz hx hz := by
    rw [hx, hz]
    exact columnHeight_lattice seed lx lz
  step_x := by
    rw [columnHeight_eq_round, columnHeight_eq_round]
    exact abs_round_sub_le (abs_altitude_succ_left seed _ _)
  step_z := by
    rw [columnHeight_eq_round, columnHeight_eq_round]
    exact abs_round_sub_le (abs_altitude_succ_right seed _ _)
  words_x := inWord_lattice wx
  words_z := inWord_lattice wz
  double := stores_surface seed _ _
  computed := toNat_roundToUInt64_surface seed _ _

end BlockWorld.Terrain
