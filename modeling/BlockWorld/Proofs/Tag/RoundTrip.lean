import BlockWorld.Proofs.Cbor.Item
import BlockWorld.Proofs.Ieee
import BlockWorld.Proofs.Zstd

/-! # Tag trees are read back

A tree is read back from its form exactly if it is not nested deeper than the reader goes: `cost`
counts the levels that reading takes. Where it is, the reader stops at the first part that is too
deep, whatever follows.
-/

namespace BlockWorld.Tag

open Cbor

mutual

/-- How many levels reading the tree takes. -/
def cost : Tag → ℕ
  | .list items => 2 + costItems items
  | .compound fields => 2 + costFields fields
  | _ => 1

def costItems : List Tag → ℕ
  | [] => 0
  | t :: r => max (cost t) (costItems r)

def costFields : List (String × Tag) → ℕ
  | [] => 0
  | (_, t) :: r => max (cost t) (costFields r)

end

mutual

/-- The fields of compounds ascend, and no text or collection is longer than an argument tells. -/
def Proper : Tag → Prop
  | .string s => (utf8 s).length < argumentLimit
  | .list items => items.length < argumentLimit ∧ ProperItems items
  | .compound fields => fields.length < argumentLimit ∧
      fields.Pairwise (fun f g => f.1 < g.1) ∧ ProperFields fields
  | _ => True

def ProperItems : List Tag → Prop
  | [] => True
  | t :: r => Proper t ∧ ProperItems r

def ProperFields : List (String × Tag) → Prop
  | [] => True
  | (k, t) :: r => (utf8 k).length < argumentLimit ∧ Proper t ∧ ProperFields r

end

theorem insertField_of_last {key : String} {value : Tag} {l : List (String × Tag)}
    (h : ∀ f ∈ l, f.1 < key) : insertField key value l = l ++ [(key, value)] := by
  induction l with
  | nil => rfl
  | cons f r ih =>
    obtain ⟨hf, hr⟩ := List.forall_mem_cons.1 h
    rw [insertField, if_neg hf.ne', if_neg hf.asymm, ih hr, List.cons_append]

theorem ofFields_of_ascending {fields : List (String × Tag)}
    (h : fields.Pairwise fun f g => f.1 < g.1) : ofFields fields = .compound fields := by
  have hfold : ∀ done, (done ++ fields).Pairwise (fun f g => f.1 < g.1) →
      fields.foldl (fun l f => insertField f.1 f.2 l) done = done ++ fields := by
    induction fields with
    | nil => intro done _; exact (List.append_nil done).symm
    | cons f r ih =>
      intro done hdone
      have hlast : ∀ g ∈ done, g.1 < f.1 := fun g hg =>
        (List.pairwise_append.1 hdone).2.2 g hg f List.mem_cons_self
      rw [List.foldl_cons, insertField_of_last hlast,
        ih h.of_cons _ (by rwa [List.append_assoc]), List.append_assoc]
      rfl
  exact congrArg Tag.compound (hfold [] h)

theorem kind?_name {name : String} {k : Kind} (h : (name, k) ∈ kindNames) :
    kind? (utf8 name) = some k := by
  fin_cases h <;> rfl

theorem length_name_le {name : String} {k : Kind} (h : (name, k) ∈ kindNames) :
    (utf8 name).length ≤ 4096 := by
  fin_cases h <;> decide

section Variant

variable {name : String} {k : Kind} {value : Bytes} {t : Tag} {depth : ℕ} {inner : Read Tag}
  {e : Cbor.Error}

theorem reads_readBy (hk : (name, k) ∈ kindNames) (hv : Reads (readValue depth inner k) value t) :
    Reads (readBy depth inner) (encodeVariant name value) t := by
  refine (Read.reads_variant (length_name_le hk)).bind ?_
  rw [kind?_name hk]
  exact hv

theorem refuses_readBy (hk : (name, k) ∈ kindNames)
    (hv : Refuses (readValue depth inner k) value e) :
    Refuses (readBy depth inner) (encodeVariant name value) e := by
  refine (Read.reads_variant (length_name_le hk)).bind_refuses ?_
  rw [kind?_name hk]
  exact hv

theorem refuses_zero (t : Tag) : Refuses (read 0) t.encode .tooDeep := by
  have hv : ∀ name value, Refuses (read 0) (encodeVariant name value) .tooDeep := by
    intro name value
    rw [read, encodeVariant, List.append_assoc]
    exact (Read.refuses_variant.map fun _ => ()).bind _
  cases t <;> exact hv _ _

end Variant

theorem reads_bounded {lo hi v : ℤ} (hlo : lo ≤ v) (hhi : v ≤ hi) (f : ℤ → Tag)
    (hlo' : -9223372036854775808 ≤ lo := by decide) (hhi' : hi ≤ 9223372036854775807 := by decide) :
    Reads (do return f (← Read.integerIn lo hi)) (encodeInt v) (f v) := by
  have hv : v.natAbs < argumentLimit := by
    rw [argumentLimit]
    omega
  exact (Read.reads_integerIn hlo hhi hv).bind_pure f

theorem reads_leaf {t : Tag} (ht : t.Proper) (hl : t.cost = 1) (depth : ℕ) (inner : Read Tag) :
    Reads (readBy depth inner) t.encode t := by
  cases t with
  | byte v =>
    refine reads_readBy (k := .byte) (by simp [kindNames]) ?_
    have h := reads_bounded v.le_toInt v.toInt_le fun v => Tag.byte (Int8.ofInt v)
    rwa [Int8.ofInt_toInt] at h
  | short v =>
    refine reads_readBy (k := .short) (by simp [kindNames]) ?_
    have h := reads_bounded v.le_toInt v.toInt_le fun v => Tag.short (Int16.ofInt v)
    rwa [Int16.ofInt_toInt] at h
  | int v =>
    refine reads_readBy (k := .int) (by simp [kindNames]) ?_
    have h := reads_bounded v.le_toInt v.toInt_le fun v => Tag.int (Int32.ofInt v)
    rwa [Int32.ofInt_toInt] at h
  | long v =>
    refine reads_readBy (k := .long) (by simp [kindNames]) ?_
    have h := reads_bounded v.le_toInt v.toInt_le fun v => Tag.long (Int64.ofInt v)
    rwa [Int64.ofInt_toInt] at h
  | float v =>
    refine reads_readBy (k := .float) (by simp [kindNames]) ?_
    have h := (Read.reads_float (Ieee.doubleOfSingle v.toBits)).bind_pure fun bits =>
      Tag.float (Float32.ofBits (Ieee.singleOfDouble bits))
    rwa [Ieee.ofBits_singleOfDouble] at h
  | double v =>
    refine reads_readBy (k := .double) (by simp [kindNames]) ?_
    have h := (Read.reads_float v.toBits).bind_pure fun bits => Tag.double (Float.ofBits bits)
    rwa [Float.ofBits_toBits] at h
  | string s =>
    exact reads_readBy (k := .string) (by simp [kindNames])
      ((Read.reads_text ht).bind_pure Tag.string)
  | list items =>
    rw [cost] at hl
    omega
  | compound fields =>
    rw [cost] at hl
    omega

theorem reads_read_leaf {t : Tag} (ht : t.Proper) (hl : t.cost = 1) {n : ℕ} (hn : t.cost ≤ n) :
    Reads (read n) t.encode t := by
  rw [hl] at hn
  obtain _ | _ | d := n
  · omega
  · exact reads_leaf ht hl 0 _
  · exact reads_leaf ht hl (d + 1) _

theorem reads_list {items : List Tag} {d : ℕ} (hlen : items.length < argumentLimit)
    (hr : Reads (Read.repeatFor (fun done => (· :: done) <$> read d) items.length [])
      (encodeItems items) items.reverse) :
    Reads (read (d + 2)) (list items).encode (list items) :=
  reads_readBy (k := .list) (by simp [kindNames]) ((Read.reads_sequence hlen hr).bind_pure Tag.list)

theorem reads_compound {fields : List (String × Tag)} {d : ℕ}
    (hlen : fields.length < argumentLimit) (hascending : fields.Pairwise fun f g => f.1 < g.1)
    (hr : Reads (Read.repeatFor (fun done => (· :: done) <$> do
      return (← Read.text, ← read d)) fields.length []) (encodeFields fields) fields.reverse) :
    Reads (read (d + 2)) (compound fields).encode (compound fields) := by
  refine reads_readBy (k := .compound) (by simp [kindNames]) ?_
  rw [← ofFields_of_ascending hascending]
  exact (Read.reads_mapping hlen hr).bind_pure ofFields

mutual

/-- A tree is read back that is not nested deeper than the reader goes. -/
theorem reads_encode : (t : Tag) → (n : ℕ) → t.Proper → t.cost ≤ n → Reads (read n) t.encode t
  | .list items, n, ht, hn => by
    obtain ⟨hlen, hitems⟩ := ht
    rw [cost] at hn
    obtain ⟨d, rfl⟩ : ∃ d, n = d + 2 := ⟨n - 2, by omega⟩
    have hr := reads_items items d hitems (by omega) []
    rw [List.append_nil] at hr
    exact reads_list hlen hr
  | .compound fields, n, ht, hn => by
    obtain ⟨hlen, hascending, hfields⟩ := ht
    rw [cost] at hn
    obtain ⟨d, rfl⟩ : ∃ d, n = d + 2 := ⟨n - 2, by omega⟩
    have hr := reads_fields fields d hfields (by omega) []
    rw [List.append_nil] at hr
    exact reads_compound hlen hascending hr
  | .byte _, _, ht, hn | .short _, _, ht, hn | .int _, _, ht, hn | .long _, _, ht, hn
  | .float _, _, ht, hn | .double _, _, ht, hn | .string _, _, ht, hn =>
    reads_read_leaf ht rfl hn

theorem reads_items : (items : List Tag) → (d : ℕ) → ProperItems items → costItems items ≤ d →
    (acc : List Tag) → Reads (Read.repeatFor (fun done => (· :: done) <$> read d) items.length acc)
      (encodeItems items) (items.reverse ++ acc)
  | [], _, _, _, acc => .pure acc
  | t :: r, d, ⟨ht, hr⟩, hd, acc => by
    rw [costItems, Nat.max_le] at hd
    rw [encodeItems, List.reverse_cons, List.append_assoc]
    exact Read.reads_repeatFor_cons (reads_encode t d ht hd.1) (reads_items r d hr hd.2 (t :: acc))

theorem reads_fields : (fields : List (String × Tag)) → (d : ℕ) → ProperFields fields →
    costFields fields ≤ d → (acc : List (String × Tag)) →
    Reads (Read.repeatFor (fun done => (· :: done) <$> do return (← Read.text, ← read d))
      fields.length acc) (encodeFields fields) (fields.reverse ++ acc)
  | [], _, _, _, acc => .pure acc
  | (k, t) :: r, d, ⟨hk, ht, hr⟩, hd, acc => by
    rw [costFields, Nat.max_le] at hd
    rw [encodeFields, ← List.append_assoc, List.reverse_cons, List.append_assoc r.reverse]
    exact Read.reads_repeatFor_cons
      ((Read.reads_text hk).bind ((reads_encode t d ht hd.1).bind_pure fun t => (k, t)))
      (reads_fields r d hr hd.2 ((k, t) :: acc))

end

theorem refuses_list_one {items : List Tag} (hlen : items.length < argumentLimit) :
    Refuses (read 1) (list items).encode .tooDeep :=
  refuses_readBy (k := .list) (by simp [kindNames])
    (Refuses.map (Read.refuses_sequence_zero hlen _) Tag.list)

theorem refuses_compound_one {fields : List (String × Tag)} (hlen : fields.length < argumentLimit) :
    Refuses (read 1) (compound fields).encode .tooDeep :=
  refuses_readBy (k := .compound) (by simp [kindNames])
    (Refuses.map (Read.refuses_mapping_zero hlen _) ofFields)

theorem refuses_list {items : List Tag} {d : ℕ} (hlen : items.length < argumentLimit)
    (hr : Refuses (Read.repeatFor (fun done => (· :: done) <$> read d) items.length [])
      (encodeItems items) .tooDeep) : Refuses (read (d + 2)) (list items).encode .tooDeep :=
  refuses_readBy (k := .list) (by simp [kindNames])
    (Refuses.map (Read.refuses_sequence hlen hr) Tag.list)

theorem refuses_compound {fields : List (String × Tag)} {d : ℕ}
    (hlen : fields.length < argumentLimit)
    (hr : Refuses (Read.repeatFor (fun done => (· :: done) <$> do
      return (← Read.text, ← read d)) fields.length []) (encodeFields fields) .tooDeep) :
    Refuses (read (d + 2)) (compound fields).encode .tooDeep :=
  refuses_readBy (k := .compound) (by simp [kindNames])
    (Refuses.map (Read.refuses_mapping hlen hr) ofFields)

mutual

/-- A tree that is nested deeper is refused where it is: what precedes is read. -/
theorem refuses_encode : (t : Tag) → (n : ℕ) → t.Proper → n < t.cost →
    Refuses (read n) t.encode .tooDeep
  | t, 0, _, _ => refuses_zero t
  | .list items, 1, ht, _ => refuses_list_one ht.1
  | .compound fields, 1, ht, _ => refuses_compound_one ht.1
  | .list items, d + 2, ht, hn => by
    rw [cost] at hn
    exact refuses_list ht.1 (refuses_items items d ht.2 (by omega) [])
  | .compound fields, d + 2, ht, hn => by
    rw [cost] at hn
    exact refuses_compound ht.1 (refuses_fields fields d ht.2.2 (by omega) [])
  | .byte _, _ + 1, _, hn | .short _, _ + 1, _, hn | .int _, _ + 1, _, hn
  | .long _, _ + 1, _, hn | .float _, _ + 1, _, hn | .double _, _ + 1, _, hn
  | .string _, _ + 1, _, hn => absurd (Nat.lt_of_succ_lt_succ hn) (Nat.not_lt_zero _)

theorem refuses_items : (items : List Tag) → (d : ℕ) → ProperItems items → d < costItems items →
    (acc : List Tag) →
    Refuses (Read.repeatFor (fun done => (· :: done) <$> read d) items.length acc)
      (encodeItems items) .tooDeep
  | t :: r, d, ⟨ht, hr⟩, hd, acc => by
    rw [costItems, lt_max_iff] at hd
    rw [encodeItems]
    rcases Nat.lt_or_ge d t.cost with hlt | hle
    · exact Read.refuses_repeatFor_head (refuses_encode t d ht hlt) _
    · exact Read.refuses_repeatFor_tail (reads_encode t d ht hle)
        (refuses_items r d hr (by omega) (t :: acc))

theorem refuses_fields : (fields : List (String × Tag)) → (d : ℕ) → ProperFields fields →
    d < costFields fields → (acc : List (String × Tag)) →
    Refuses (Read.repeatFor (fun done => (· :: done) <$> do return (← Read.text, ← read d))
      fields.length acc) (encodeFields fields) .tooDeep
  | (k, t) :: r, d, ⟨hk, ht, hr⟩, hd, acc => by
    rw [costFields, lt_max_iff] at hd
    rw [encodeFields, ← List.append_assoc]
    rcases Nat.lt_or_ge d t.cost with hlt | hle
    · exact Read.refuses_repeatFor_head
        ((Read.reads_text hk).bind_refuses ((refuses_encode t d ht hlt).map fun t => (k, t))) _
    · exact Read.refuses_repeatFor_tail
        ((Read.reads_text hk).bind ((reads_encode t d ht hle).bind_pure fun t => (k, t)))
        (refuses_fields r d hr (by omega) ((k, t) :: acc))

end

/-- A file gives back the tree that was put into it, whatever follows the tree, if reading it takes
no more than 256 levels. Else it cannot be read. -/
theorem unpack_pack (t : Tag) (ht : t.Proper) (trailing : Bytes) :
    unpack readFirst (pack (t.encode ++ trailing)) =
      if t.cost ≤ 256 then .ok t else .error (.item .tooDeep) := by
  rcases Nat.lt_or_ge 256 t.cost with (hlt : 256 < t.cost) | (hle : t.cost ≤ 256)
  · rw [if_neg (Nat.not_le_of_lt hlt)]
    exact (refuses_encode t maxDepth ht hlt).unpacked trailing
  · rw [if_pos hle]
    exact (reads_encode t maxDepth ht hle).unpacked trailing

/-- A tree with an empty name, a mixed list, a negative zero and an integer at its lower end. -/
theorem unpack_pack_mixed :
    let t : Tag := .compound [("", .list [.byte (-128), .string "", .float (-0), .double 0.1]),
      ("Data", .compound [("Time", .long (-9223372036854775808))])]
    t.Proper ∧ unpack readFirst (pack (t.encode ++ [0xff, 0x00])) =
      if t.cost ≤ 256 then .ok t else .error (.item .tooDeep) := by
  intro t
  have hitems : ProperItems [.byte (-128), .string "", .float (-0), .double 0.1] :=
    ⟨trivial, show (utf8 "").length < argumentLimit by decide, trivial, trivial, trivial⟩
  have hdata : Proper (.compound [("Time", .long (-9223372036854775808))]) :=
    ⟨by decide, List.pairwise_singleton _ _, by decide, trivial, trivial⟩
  have ht : t.Proper :=
    ⟨by decide, by decide, by decide, ⟨by decide, hitems⟩, by decide, hdata, trivial⟩
  exact ⟨ht, unpack_pack t ht [0xff, 0x00]⟩

end BlockWorld.Tag
