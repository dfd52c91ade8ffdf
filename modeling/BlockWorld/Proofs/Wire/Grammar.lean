import BlockWorld.Proofs.Bytes.Number
import BlockWorld.Proofs.Wire.Client

/-! # The grammar of what a client sends

A packet is an identifier and its fields in order. Its forms are those that the readers take, and an
input that starts with no form has a first field that is not as it should be, which is what the
reader complains of. A reader that follows a list of fields does both.
-/

namespace BlockWorld

namespace Wire

/-! ## Forms -/

def TextForm (s : String) (c : Bytes) : Prop :=
  (utf8 s).length ≤ maxStringLength ∧ c = Bytes.ofNat 2 (utf8 s).length ++ utf8 s

def FloatForm (v : Float) (c : Bytes) : Prop :=
  ∃ w : UInt64, v = .ofBits w ∧ c = Bytes.ofNat 8 w.toNat

def Float32Form (v : Float32) (c : Bytes) : Prop :=
  ∃ w : UInt32, v = .ofBits w ∧ c = Bytes.ofNat 4 w.toNat

/-- Any octet but zero stands for truth. -/
def FlagForm (v : Bool) (c : Bytes) : Prop := ∃ d : UInt8, v = (d != 0) ∧ c = [d]

theorem handshakeForm_eq_ok_iff {s : String} {c : Bytes} :
    handshakeForm s = .ok c ↔ ∃ t, TextForm s t ∧ c = 0x02 :: t := by
  constructor
  · intro h
    obtain ⟨t, ht, ⟨⟩⟩ := bind_eq_ok h
    exact ⟨t, Read.putString_eq_ok_iff.1 ht, rfl⟩
  · rintro ⟨t, ht, rfl⟩
    rw [handshakeForm, Read.putString_eq_ok_iff.2 ht]
    rfl

theorem Login.form_eq_ok_iff {l : Login} {c : Bytes} :
    l.form = .ok c ↔ ∃ u p, TextForm l.username u ∧ TextForm l.password p ∧
      c = 0x01 ::
        (putInt32 l.version ++ (u ++ (p ++ (putInt64 l.seed ++ putInt8 l.dimension)))) := by
  constructor
  · intro h
    obtain ⟨u, hu, h⟩ := bind_eq_ok h
    obtain ⟨p, hp, ⟨⟩⟩ := bind_eq_ok h
    exact ⟨u, p, Read.putString_eq_ok_iff.1 hu, Read.putString_eq_ok_iff.1 hp, by simp⟩
  · rintro ⟨u, p, hu, hp, rfl⟩
    rw [Login.form, Read.putString_eq_ok_iff.2 hu, Read.putString_eq_ok_iff.2 hp]
    simp [Bind.bind, Except.bind, Pure.pure, Except.pure]

/-- The octets that a client may send for a packet. -/
inductive ClientPacket.Form : ClientPacket → Bytes → Prop
  | keepAlive : Form .keepAlive [0x00]
  | chat {s c} : TextForm s c → Form (.chat s) (0x03 :: c)
  | flying {g c} : FlagForm g c → Form (.flying g) (0x0a :: c)
  | position {x y t z g cx cy ct cz cg} : FloatForm x cx → FloatForm y cy → FloatForm t ct →
      FloatForm z cz → FlagForm g cg →
      Form (.position x y t z g) (0x0b :: (cx ++ cy ++ ct ++ cz ++ cg))
  | look {yaw pitch g ca cb cg} : Float32Form yaw ca → Float32Form pitch cb → FlagForm g cg →
      Form (.look yaw pitch g) (0x0c :: (ca ++ cb ++ cg))
  | positionLook {x y t z yaw pitch g cx cy ct cz ca cb cg} : FloatForm x cx → FloatForm y cy →
      FloatForm t ct → FloatForm z cz → Float32Form yaw ca → Float32Form pitch cb →
      FlagForm g cg →
      Form (.positionLook x y t z yaw pitch g) (0x0d :: (cx ++ cy ++ ct ++ cz ++ ca ++ cb ++ cg))
  | disconnect {s c} : TextForm s c → Form (.disconnect s) (0xff :: c)

/-! ## Faults -/

/-- What can be wrong with a field depends on its kind only: its width, or that it is a text. -/
inductive Field
  | fixed (width : ℕ)
  | text

namespace Field

def Form : Field → Bytes → Prop
  | .fixed width, c => c.length = width
  | .text, c => ∃ s, TextForm s c

/-- What is wrong with an input that should start with the field. The length of a text is judged
before its octets are looked for, and these before they are read. -/
inductive Fault : Field → Bytes → WireError → Prop
  | short {width b} : b.length < width → Fault (.fixed width) b .truncated
  | noLength {b} : b.length < 2 → Fault .text b .truncated
  | tooLong {n b} : maxStringLength < n → n < 65536 →
      Fault .text (Bytes.ofNat 2 n ++ b) (.stringTooLong n)
  | cut {n b} : n ≤ maxStringLength → b.length < n →
      Fault .text (Bytes.ofNat 2 n ++ b) .truncated
  | notText {t b} : t.length ≤ maxStringLength → (∀ s, t ≠ utf8 s) →
      Fault .text (Bytes.ofNat 2 t.length ++ (t ++ b)) .invalidString

end Field

/-- What is wrong with the first field that is not as it should be. -/
inductive Fault : List Field → Bytes → WireError → Prop
  | here {f fs b e} : f.Fault b e → Fault (f :: fs) b e
  | later {f fs c b e} : f.Form c → Fault fs b e → Fault (f :: fs) (c ++ b) e

/-- What is wrong with an input that should start with a packet, if the fields that come after each
of the accepted identifiers are these. -/
inductive PacketFault (fields : UInt8 → Option (List Field)) : Bytes → WireError → Prop
  | nothing : PacketFault fields [] .truncated
  | foreign {id b} : fields id = none → PacketFault fields (id :: b) (.unexpectedPacket id)
  | field {id fs b e} : fields id = some fs → Fault fs b e → PacketFault fields (id :: b) e

def handshakeFields (id : UInt8) : Option (List Field) := if id = 0x02 then some [.text] else none

def loginFields (id : UInt8) : Option (List Field) :=
  if id = 0x01 then some [.fixed 4, .text, .text, .fixed 8, .fixed 1] else none

def clientFields : UInt8 → Option (List Field)
  | 0x00 => some []
  | 0x03 => some [.text]
  | 0x0a => some [.fixed 1]
  | 0x0b => some [.fixed 8, .fixed 8, .fixed 8, .fixed 8, .fixed 1]
  | 0x0c => some [.fixed 4, .fixed 4, .fixed 1]
  | 0x0d => some [.fixed 8, .fixed 8, .fixed 8, .fixed 8, .fixed 4, .fixed 4, .fixed 1]
  | 0xff => some [.text]
  | _ => none

/-! ## Following a list of fields -/

namespace Read

variable {α β : Type} {r : Read α} {k : α → Read β} {form : α → Bytes → Prop}
  {f : Field} {fs : List Field} {b : Bytes} {e : WireError}

theorem bind_of_ok {a : α} {rest : Bytes} (h : r b = .ok (a, rest)) :
    (r >>= k) b = k a rest := by
  show (r b >>= fun x => k x.1 x.2) = _
  rw [h]
  rfl

theorem bind_of_error (h : r b = .error e) : (r >>= k) b = .error e := by
  show (r b >>= fun x => k x.1 x.2) = _
  rw [h]
  rfl

/-- The reader takes these forms, and where there is none it complains of the first of the fields
that is not as it should be. -/
structure Follows (r : Read α) (form : α → Bytes → Prop) (fs : List Field) : Prop where
  reads : ∀ {a c}, form a c → Reads r c a
  fails : ∀ {b e}, Fault fs b e → r b = .error e
  total : ∀ b, (∃ e, Fault fs b e) ∨ ∃ a c rest, b = c ++ rest ∧ form a c

structure FollowsField (r : Read α) (form : α → Bytes → Prop) (f : Field) : Prop where
  reads : ∀ {a c}, form a c → Reads r c a
  fails : ∀ {b e}, f.Fault b e → r b = .error e
  total : ∀ b, (∃ e, f.Fault b e) ∨ ∃ a c rest, b = c ++ rest ∧ form a c
  form_iff : ∀ {c}, f.Form c ↔ ∃ a, form a c

namespace Follows

theorem eq_ok_iff (h : Follows r form fs) {a : α} {rest : Bytes} :
    r b = .ok (a, rest) ↔ ∃ c, b = c ++ rest ∧ form a c := by
  constructor
  · intro hr
    rcases h.total b with ⟨e, he⟩ | ⟨a', c, rest', rfl, hc⟩
    · rw [h.fails he] at hr
      cases hr
    · rw [h.reads hc] at hr
      cases hr
      exact ⟨c, rfl, hc⟩
  · rintro ⟨c, rfl, hc⟩
    exact h.reads hc rest

theorem eq_error_iff (h : Follows r form fs) : r b = .error e ↔ Fault fs b e := by
  constructor
  · intro hr
    rcases h.total b with ⟨e', he⟩ | ⟨a, c, rest, rfl, hc⟩
    · rw [h.fails he] at hr
      cases hr
      exact he
    · rw [h.reads hc] at hr
      cases hr
  · exact h.fails

theorem pure (a : α) : Follows (Pure.pure a) (fun a' c => a' = a ∧ c = []) [] where
  reads := by
    rintro _ _ ⟨rfl, rfl⟩
    exact .pure _
  fails h := by cases h
  total b := .inr ⟨a, [], b, rfl, rfl, rfl⟩

theorem bind {form' : α → β → Bytes → Prop} (hr : FollowsField r form f)
    (hk : ∀ a, Follows (k a) (form' a) fs) :
    Follows (r >>= k) (fun d c => ∃ a x y, c = x ++ y ∧ form a x ∧ form' a d y) (f :: fs) where
  reads := by
    rintro d _ ⟨a, x, y, rfl, hx, hy⟩
    exact (hr.reads hx).bind ((hk a).reads hy)
  fails {b e} h := by
    cases h with
    | here h => exact bind_of_error (hr.fails h)
    | later hc h =>
      obtain ⟨a, ha⟩ := hr.form_iff.1 hc
      exact (bind_of_ok (hr.reads ha _)).trans ((hk a).fails h)
  total b := by
    rcases hr.total b with ⟨e, he⟩ | ⟨a, x, rest, rfl, hx⟩
    · exact .inl ⟨e, .here he⟩
    · rcases (hk a).total rest with ⟨e, he⟩ | ⟨d, y, rest', rfl, hy⟩
      · exact .inl ⟨e, .later (hr.form_iff.2 ⟨a, hx⟩) he⟩
      · exact .inr ⟨d, x ++ y, rest', (List.append_assoc ..).symm, a, x, y, rfl, hx, hy⟩

theorem congr {form' : α → Bytes → Prop} (h : Follows r form fs)
    (hf : ∀ a c, form a c ↔ form' a c) : Follows r form' fs := by
  obtain rfl : form = form' := funext fun a => funext fun c => propext (hf a c)
  exact h

end Follows

namespace FollowsField

theorem congr {form' : α → Bytes → Prop} (h : FollowsField r form f)
    (hf : ∀ a c, form a c ↔ form' a c) : FollowsField r form' f := by
  obtain rfl : form = form' := funext fun a => funext fun c => propext (hf a c)
  exact h

theorem map (hr : FollowsField r form f) (g : α → β) :
    FollowsField (g <$> r) (fun d c => ∃ a, d = g a ∧ form a c) f where
  reads := by
    rintro _ c ⟨a, rfl, ha⟩
    exact (hr.reads ha).map g
  fails {b e} h := by
    show (r b >>= fun x => Pure.pure (g x.1, x.2)) = _
    rw [hr.fails h]
    rfl
  total b := by
    rcases hr.total b with h | ⟨a, c, rest, hb, hc⟩
    · exact .inl h
    · exact .inr ⟨g a, c, rest, hb, a, rfl, hc⟩
  form_iff {c} := by
    rw [hr.form_iff]
    constructor
    · rintro ⟨a, ha⟩
      exact ⟨g a, a, rfl, ha⟩
    · rintro ⟨_, a, -, ha⟩
      exact ⟨a, ha⟩

theorem last (hr : FollowsField r form f) (g : α → β) :
    Follows (r >>= fun a => Pure.pure (g a)) (fun d c => ∃ a, form a c ∧ d = g a) [f] := by
  refine (Follows.bind hr fun a => .pure (g a)).congr fun d c => ?_
  constructor
  · rintro ⟨a, x, _, rfl, ha, rfl, rfl⟩
    exact ⟨a, by rwa [List.append_nil], rfl⟩
  · rintro ⟨a, ha, rfl⟩
    exact ⟨a, c, [], (List.append_nil c).symm, ha, rfl, rfl⟩

theorem single (hr : FollowsField r form f) : Follows r form [f] where
  reads := hr.reads
  fails h := by
    rcases h with h | ⟨-, ⟨⟩⟩
    exact hr.fails h
  total b := (hr.total b).imp_left fun ⟨e, he⟩ => ⟨e, .here he⟩

end FollowsField

/-! ## Field readers -/

theorem follows_octet : FollowsField octet (fun d c => c = [d]) (.fixed 1) where
  reads := by
    rintro d _ rfl
    exact reads_octet d
  fails := by
    rintro b _ ⟨h⟩
    obtain rfl : b = [] := by simpa using h
    rfl
  total
    | [] => .inl ⟨.truncated, .short Nat.zero_lt_one⟩
    | d :: b => .inr ⟨d, [d], b, rfl, rfl⟩
  form_iff := List.length_eq_one_iff

theorem follows_octets (n : ℕ) :
    FollowsField (octets n) (fun x c => x.length = n ∧ c = x) (.fixed n) where
  reads := by
    rintro _ c ⟨rfl, rfl⟩
    exact reads_octets c
  fails := by
    rintro b _ ⟨h⟩
    rw [octets, Bytes.splitAt?]
    simp [Nat.not_le.2 h]
  total b := by
    rcases Nat.lt_or_ge b.length n with h | h
    · exact .inl ⟨_, .short h⟩
    · exact .inr ⟨b.take n, b.take n, b.drop n, by simp, by simpa using h, rfl⟩
  form_iff {c} := by simp [Field.Form]

theorem follows_nat (w : ℕ) :
    FollowsField (nat w) (fun n c => n < 256 ^ w ∧ c = Bytes.ofNat w n) (.fixed w) := by
  refine ((follows_octets w).map _).congr fun n c => ?_
  constructor
  · rintro ⟨x, rfl, rfl, rfl⟩
    exact ⟨c.toNat_lt, c.ofNat_toNat.symm⟩
  · rintro ⟨hn, rfl⟩
    exact ⟨_, (Bytes.toNat_ofNat hn).symm, Bytes.length_ofNat .., rfl⟩

theorem follows_int8 : FollowsField int8 (fun v c => c = putInt8 v) (.fixed 1) := by
  refine (follows_octet.map _).congr fun v c => ?_
  constructor
  · rintro ⟨d, rfl, rfl⟩
    rfl
  · rintro rfl
    exact ⟨v.toUInt8, rfl, rfl⟩

theorem follows_int32 : FollowsField int32 (fun v c => c = putInt32 v) (.fixed 4) := by
  refine ((follows_nat 4).map _).congr fun v c => ?_
  constructor
  · rintro ⟨n, rfl, hn, rfl⟩
    rw [putInt32, Int32.toUInt32, UInt32.toInt32, UInt32.toNat_ofNat_of_lt' hn]
  · rintro rfl
    exact ⟨v.toUInt32.toNat, by rw [UInt32.ofNat_toNat]; rfl, v.toUInt32.toNat_lt, rfl⟩

theorem follows_int64 : FollowsField int64 (fun v c => c = putInt64 v) (.fixed 8) := by
  refine ((follows_nat 8).map _).congr fun v c => ?_
  constructor
  · rintro ⟨n, rfl, hn, rfl⟩
    rw [putInt64, Int64.toUInt64, UInt64.toInt64, UInt64.toNat_ofNat_of_lt' hn]
  · rintro rfl
    exact ⟨v.toUInt64.toNat, by rw [UInt64.ofNat_toNat]; rfl, v.toUInt64.toNat_lt, rfl⟩

theorem follows_float32 : FollowsField float32 Float32Form (.fixed 4) := by
  refine ((follows_nat 4).map _).congr fun v c => ?_
  constructor
  · rintro ⟨n, rfl, hn, rfl⟩
    exact ⟨UInt32.ofNat n, rfl, by rw [UInt32.toNat_ofNat_of_lt' hn]⟩
  · rintro ⟨w, rfl, rfl⟩
    exact ⟨w.toNat, by rw [UInt32.ofNat_toNat], w.toNat_lt, rfl⟩

theorem follows_float : FollowsField float FloatForm (.fixed 8) := by
  refine ((follows_nat 8).map _).congr fun v c => ?_
  constructor
  · rintro ⟨n, rfl, hn, rfl⟩
    exact ⟨UInt64.ofNat n, rfl, by rw [UInt64.toNat_ofNat_of_lt' hn]⟩
  · rintro ⟨w, rfl, rfl⟩
    exact ⟨w.toNat, by rw [UInt64.ofNat_toNat], w.toNat_lt, rfl⟩

theorem follows_bool : FollowsField bool FlagForm (.fixed 1) := follows_octet.map _

section Text

variable {n : ℕ} {t : Bytes}

theorem reads_length (hn : n < 65536) (b : Bytes) : nat 2 (Bytes.ofNat 2 n ++ b) = .ok (n, b) :=
  reads_nat (w := 2) hn b

theorem string_of_le (hmax : n ≤ maxStringLength) (b : Bytes) :
    string (Bytes.ofNat 2 n ++ b) =
      (octets n >>= fun t => match t.text? with
        | some s => Pure.pure s
        | none => throw .invalidString : Read String) b := by
  refine (bind_of_ok (reads_length (Nat.lt_of_le_of_lt hmax (by decide)) b)).trans ?_
  exact congrFun (if_pos hmax) b

theorem follows_string : FollowsField string TextForm .text where
  reads := by
    rintro s _ ⟨hle, rfl⟩
    exact reads_string (putString_eq_ok_iff.2 ⟨hle, rfl⟩)
  fails := by
    intro b e h
    cases h with
    | noLength h =>
      exact bind_of_error ((follows_nat 2).fails (.short h))
    | @tooLong n b hmax hn =>
      refine (bind_of_ok (reads_length hn b)).trans ?_
      rw [if_neg (Nat.not_le.2 hmax)]
      rfl
    | @cut n b hmax hlt =>
      rw [string_of_le hmax]
      exact bind_of_error ((follows_octets n).fails (.short hlt))
    | @notText t b hmax ht =>
      have htext : t.text? = none := by
        cases h : t.text? with
        | none => rfl
        | some s => exact absurd (text?_eq_some_iff.1 h) (ht s)
      rw [string_of_le hmax]
      refine (bind_of_ok (reads_octets t b)).trans ?_
      rw [htext]
      rfl
  total b := by
    rcases (follows_nat 2).total b with ⟨_, ⟨h⟩⟩ | ⟨n, _, rest, rfl, hn, rfl⟩
    · exact .inl ⟨_, .noLength h⟩
    rcases Nat.lt_or_ge maxStringLength n with hmax | hmax
    · exact .inl ⟨_, .tooLong hmax hn⟩
    rcases (follows_octets n).total rest with ⟨_, ⟨h⟩⟩ | ⟨_, t, rest, rfl, rfl, rfl⟩
    · exact .inl ⟨_, .cut hmax h⟩
    by_cases ht : ∀ s, t ≠ utf8 s
    · exact .inl ⟨_, .notText hmax ht⟩
    · obtain ⟨s, rfl⟩ : ∃ s, t = utf8 s := by simpa using ht
      exact .inr ⟨s, _, rest, (List.append_assoc ..).symm, hmax, rfl⟩
  form_iff := Iff.rfl

end Text

end Read

end Wire

end BlockWorld
