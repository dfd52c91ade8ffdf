import BlockWorld.Proofs.Bytes.Reader
import BlockWorld.Tag.Cbor
import Mathlib.Data.Int.Notation
import Mathlib.Data.Nat.Notation

/-! # Items are read back

A header is read back whose argument fits in eight octets, and with it texts, integers, floats and
the names of variants. The readers pass over tags, which are never written.
-/

namespace BlockWorld.Cbor

def argumentLimit : ℕ := 18446744073709551616

namespace Header

variable {n : ℕ} {a : Bytes} {h : Header}

theorem reads_octet_argument (kind low : ℕ) (hk : kind < 8) (hlow : low < 28)
    (hw : width? low = some a.length) (hn : (if low < 24 then low else Bytes.toNat a) = n)
    (hh : assemble? kind low n = some h) :
    Reads Header.read (UInt8.ofNat (32 * kind + low) :: a) h := by
  intro rest
  have hd : (UInt8.ofNat (32 * kind + low)).toNat = 32 * kind + low :=
    UInt8.toNat_ofNat_of_lt' (by show _ < 256; omega)
  have hmod : (32 * kind + low) % 32 = low := by omega
  have hdiv : (32 * kind + low) / 32 = kind := by omega
  rw [List.cons_append, Header.read]
  simp only [hd, hmod, hdiv, hw, Bytes.splitAt?_append, hn, hh]

/-- The header is the one of its kind and argument however the argument is written. -/
theorem reads_lead (kind : ℕ) (hk : kind < 8) (hn : n < argumentLimit)
    (hh : ∀ low ≠ 31, assemble? kind low n = some h) : Reads Header.read (lead kind n) h := by
  unfold lead
  split
  · exact reads_octet_argument kind n hk (by omega) (by simp [width?, *]) (by simp [*])
      (hh n (by omega))
  split
  · exact reads_octet_argument kind 24 hk (by omega) rfl (Bytes.toNat_ofNat (w := 1) ‹_›)
      (hh 24 (by omega))
  split
  · exact reads_octet_argument kind 25 hk (by omega) rfl (Bytes.toNat_ofNat (w := 2) ‹_›)
      (hh 25 (by omega))
  split
  · exact reads_octet_argument kind 26 hk (by omega) rfl (Bytes.toNat_ofNat (w := 4) ‹_›)
      (hh 26 (by omega))
  · exact reads_octet_argument kind 27 hk (by omega) rfl (Bytes.toNat_ofNat (w := 8) hn)
      (hh 27 (by omega))

theorem reads_leadFloat (bits : UInt64) : Reads Header.read (leadFloat bits) (.float bits) := by
  unfold leadFloat
  split
  · rename_i hhalf
    refine reads_octet_argument 7 25 (by omega) (by omega) rfl
      (Bytes.toNat_ofNat (w := 2) (Ieee.halfOfDouble bits).toNat_lt) ?_
    show some (Header.float (Ieee.doubleOfHalf (UInt16.ofNat _))) = _
    rw [UInt16.ofNat_toNat, hhalf]
  split
  · rename_i hsingle
    refine reads_octet_argument 7 26 (by omega) (by omega) rfl
      (Bytes.toNat_ofNat (w := 4) (Ieee.singleOfDouble bits).toNat_lt) ?_
    show some (Header.float (Ieee.doubleOfSingle (UInt32.ofNat _))) = _
    rw [UInt32.ofNat_toNat, hsingle]
  · refine reads_octet_argument 7 27 (by omega) (by omega) rfl
      (Bytes.toNat_ofNat (w := 8) bits.toNat_lt) ?_
    show some (Header.float (UInt64.ofNat _)) = _
    rw [UInt64.ofNat_toNat]

theorem reads_positive (hn : n < argumentLimit) :
    Reads Header.read (Header.positive n).encode (.positive n) :=
  reads_lead 0 (by omega) hn fun low hl => by simp [assemble?, hl]

theorem reads_negative (hn : n < argumentLimit) :
    Reads Header.read (Header.negative n).encode (.negative n) :=
  reads_lead 1 (by omega) hn fun low hl => by simp [assemble?, hl]

theorem reads_text (hn : n < argumentLimit) :
    Reads Header.read (Header.text n).encode (.text n) :=
  reads_lead 3 (by omega) hn fun low hl => by simp [assemble?, hl]

theorem reads_array (hn : n < argumentLimit) :
    Reads Header.read (Header.array n).encode (.array n) :=
  reads_lead 4 (by omega) hn fun low hl => by simp [assemble?, hl]

theorem reads_map (hn : n < argumentLimit) :
    Reads Header.read (Header.map n).encode (.map n) :=
  reads_lead 5 (by omega) hn fun low hl => by simp [assemble?, hl]

theorem reads_float (bits : UInt64) :
    Reads Header.read (Header.float bits).encode (.float bits) := reads_leadFloat bits

end Header

namespace Read

variable {α : Type} {h : Header} {b c : Bytes} {a : α} {e : Error} {r : Read α} {n depth : ℕ}

theorem reads_take (b : Bytes) : Reads (take b.length) b b := by
  intro rest
  rw [take, Bytes.splitAt?_append]

theorem reads_valueHeader (hr : Reads Header.read b h) (ht : ∀ n, h ≠ .tag n) :
    Reads valueHeader b h := by
  intro rest
  rw [valueHeader]
  split
  · rename_i htag
    rw [hr rest] at htag
    cases htag
    exact absurd rfl (ht _)
  · exact hr rest

theorem reads_text {s : String} (hs : (utf8 s).length < argumentLimit) :
    Reads text (encodeText s) s := by
  refine (reads_valueHeader (Header.reads_text hs) nofun).bind ?_
  refine (reads_take (utf8 s)).bind_nil ?_
  rw [utf8Text, text?_utf8]
  exact .pure s

theorem reads_name {s : String} (hs : (utf8 s).length ≤ 4096) :
    Reads name (encodeText s) (utf8 s) := by
  have hlimit : (utf8 s).length < argumentLimit := Nat.lt_of_le_of_lt hs (by decide)
  refine (reads_valueHeader (Header.reads_text hlimit) nofun).bind ?_
  dsimp only
  rw [if_pos hs]
  refine (reads_take (utf8 s)).bind_nil ?_
  rw [utf8Text, text?_utf8]
  exact .pure (utf8 s)

theorem reads_float (bits : UInt64) : Reads float (Header.float bits).encode bits :=
  (reads_valueHeader (Header.reads_float bits) nofun).bind_nil (.pure bits)

/-! ## Integers -/

theorem reads_integer_positive (hr : Reads Header.read b (.positive n)) : Reads integer b n := by
  intro rest
  rw [integer]
  split
  case h_6 hpos _ _ _ _ heq => exact (hpos n rest (Except.ok.inj (heq.symm.trans (hr rest)))).elim
  all_goals simp_all [hr rest]

theorem reads_integer_negative (hr : Reads Header.read b (.negative n)) :
    Reads integer b (-1 - n) := by
  intro rest
  rw [integer]
  split
  case h_6 _ hneg _ _ _ heq => exact (hneg n rest (Except.ok.inj (heq.symm.trans (hr rest)))).elim
  all_goals simp_all [hr rest]

theorem reads_integer {v : ℤ} (hv : v.natAbs < argumentLimit) :
    Reads integer (encodeInt v) v := by
  rw [encodeInt]
  split
  · have hr := reads_integer_positive (Header.reads_positive (n := v.toNat) (by omega))
    rwa [Int.toNat_of_nonneg ‹_›] at hr
  · have hr := reads_integer_negative (Header.reads_negative (n := (-1 - v).toNat) (by omega))
    rwa [Int.toNat_of_nonneg (by omega), Int.sub_sub_self] at hr

theorem reads_integerIn {v lo hi : ℤ} (hlo : lo ≤ v) (hhi : v ≤ hi)
    (hv : v.natAbs < argumentLimit) : Reads (integerIn lo hi) (encodeInt v) v := by
  refine (reads_integer hv).bind_nil ?_
  rw [if_pos ⟨hlo, hhi⟩]
  exact .pure v

/-! ## Variants -/

theorem variant_of_map {rest : Bytes} (h : valueHeader b = .ok (.map (some 1), rest)) :
    variant depth b = if depth = 0 then .error .tooDeep else name rest := by
  show (valueHeader b >>= fun x => _) = _
  rw [h]
  show (if depth = 0 then throw .tooDeep else name : Read Bytes) rest = _
  split <;> rfl

theorem reads_variant {s : String} (hs : (utf8 s).length ≤ 4096) :
    Reads (variant (depth + 1)) (Header.encode (.map (some 1)) ++ encodeText s) (utf8 s) := by
  have hm := reads_valueHeader (Header.reads_map (n := 1) (by decide)) nofun
  intro rest
  rw [List.append_assoc, variant_of_map (hm _), if_neg (Nat.succ_ne_zero depth)]
  exact reads_name hs rest

theorem refuses_variant : Refuses (variant 0) (Header.encode (.map (some 1))) .tooDeep := by
  have hm := reads_valueHeader (Header.reads_map (n := 1) (by decide)) nofun
  intro rest
  rw [variant_of_map (hm _), if_pos rfl]

/-! ## Collections -/

theorem reads_repeatFor_cons {acc out : List α} (hr : Reads r b a)
    (hrest : Reads (repeatFor (fun done => (· :: done) <$> r) n (a :: acc)) c out) :
    Reads (repeatFor (fun done => (· :: done) <$> r) (n + 1) acc) (b ++ c) out :=
  (hr.map (· :: acc)).bind hrest

theorem refuses_repeatFor_head {acc : List α} (hr : Refuses r b e) (c : Bytes) :
    Refuses (repeatFor (fun done => (· :: done) <$> r) (n + 1) acc) (b ++ c) e :=
  (hr.map (· :: acc)).bind c

theorem refuses_repeatFor_tail {acc : List α} (hr : Reads r b a)
    (hrest : Refuses (repeatFor (fun done => (· :: done) <$> r) n (a :: acc)) c e) :
    Refuses (repeatFor (fun done => (· :: done) <$> r) (n + 1) acc) (b ++ c) e :=
  (hr.map (· :: acc)).bind_refuses hrest

theorem reads_sequence {items : List α} {ofOctet : UInt8 → Read α} (hn : n < argumentLimit)
    (hr : Reads (repeatFor (fun done => (· :: done) <$> r) n []) b items.reverse) :
    Reads (sequence (depth + 1) r ofOctet) (Header.encode (.array n) ++ b) items := by
  refine (reads_valueHeader (Header.reads_array hn) nofun).bind ?_
  have h := hr.map List.reverse
  rw [List.reverse_reverse] at h
  exact h

theorem refuses_sequence {ofOctet : UInt8 → Read α} (hn : n < argumentLimit)
    (hr : Refuses (repeatFor (fun done => (· :: done) <$> r) n []) b e) :
    Refuses (sequence (depth + 1) r ofOctet) (Header.encode (.array n) ++ b) e :=
  (reads_valueHeader (Header.reads_array hn) nofun).bind_refuses (hr.map List.reverse)

theorem refuses_sequence_zero {ofOctet : UInt8 → Read α} (hn : n < argumentLimit) (b : Bytes) :
    Refuses (sequence 0 r ofOctet) (Header.encode (.array n) ++ b) .tooDeep :=
  (reads_valueHeader (Header.reads_array hn) nofun).bind_refuses (.throw b Error.tooDeep)

theorem reads_repeatFor_flatMap {items : List α} {form : α → Bytes}
    (h : ∀ a ∈ items, Reads r (form a) a) (acc : List α) :
    Reads (repeatFor (fun done => (· :: done) <$> r) items.length acc) (items.flatMap form)
      (items.reverse ++ acc) := by
  induction items generalizing acc with
  | nil => exact .pure acc
  | cons a items ih =>
    rw [List.forall_mem_cons] at h
    rw [List.flatMap_cons, List.reverse_cons, List.append_assoc]
    exact reads_repeatFor_cons h.1 (ih h.2 (a :: acc))

theorem reads_foldMapping {σ : Type} {step : σ → Read σ} {s out : σ} (depth : ℕ)
    (hn : n < argumentLimit) (hr : Reads (repeatFor step n s) b out) :
    Reads (foldMapping (depth + 1) step s) (Header.encode (.map n) ++ b) out :=
  (reads_valueHeader (Header.reads_map hn) nofun).bind hr

theorem reads_mapping {entries : List α} (hn : n < argumentLimit)
    (hr : Reads (repeatFor (fun done => (· :: done) <$> r) n []) b entries.reverse) :
    Reads (mapping (depth + 1) r) (Header.encode (.map n) ++ b) entries := by
  have h := (reads_foldMapping depth hn hr).map List.reverse
  rw [List.reverse_reverse] at h
  exact h

theorem refuses_mapping (hn : n < argumentLimit)
    (hr : Refuses (repeatFor (fun done => (· :: done) <$> r) n []) b e) :
    Refuses (mapping (depth + 1) r) (Header.encode (.map n) ++ b) e :=
  Refuses.map ((reads_valueHeader (Header.reads_map hn) nofun).bind_refuses hr) List.reverse

theorem refuses_mapping_zero (hn : n < argumentLimit) (b : Bytes) :
    Refuses (mapping 0 r) (Header.encode (.map n) ++ b) .tooDeep :=
  Refuses.map ((reads_valueHeader (Header.reads_map hn) nofun).bind_refuses
    (.throw b Error.tooDeep)) List.reverse

end Read

end BlockWorld.Cbor
