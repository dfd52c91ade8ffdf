import BlockWorld.Proofs.Wire.Field
import BlockWorld.Wire.ClientPacket

/-! # What a client sends

A client opens a connection with a handshake and a login, whose forms are read back, and then sends
packets. What a reader finds at the front of an input stays what it finds when more octets follow,
unless it ran out of octets: such a reader is steady, and every reader of client packets is.
-/

namespace BlockWorld.Wire

def handshakeForm (username : String) : Except WireError Bytes :=
  return 0x02 :: (← putString username)

def Login.form (l : Login) : Except WireError Bytes :=
  return 0x01 :: putInt32 l.version ++ (← putString l.username) ++ (← putString l.password) ++
    putInt64 l.seed ++ putInt8 l.dimension

namespace Read

variable {α β : Type} {r : Read α} {f : α → Read β}

theorem reads_expect (id : UInt8) : Reads (expect id) [id] () := by
  intro rest
  show (if id = id then Pure.pure () else throw (.unexpectedPacket id) : Read Unit) rest = _
  rw [if_pos rfl]
  rfl

theorem reads_handshake {username : String} {b : Bytes} (h : handshakeForm username = .ok b) :
    Reads handshake b username := by
  obtain ⟨s, hs, ⟨⟩⟩ := bind_eq_ok h
  exact (reads_expect 0x02).bind (reads_string hs)

theorem reads_login {l : Login} {b : Bytes} (h : l.form = .ok b) (hv : l.version = version) :
    Reads login b l := by
  obtain ⟨u, hu, h⟩ := bind_eq_ok h
  obtain ⟨p, hp, ⟨⟩⟩ := bind_eq_ok h
  have hassoc : 0x01 :: putInt32 l.version ++ u ++ p ++ putInt64 l.seed ++ putInt8 l.dimension =
      [0x01] ++ (putInt32 l.version ++ (u ++ (p ++ (putInt64 l.seed ++ putInt8 l.dimension)))) := by
    simp
  rw [hassoc]
  refine (reads_expect 0x01).bind ((reads_int32 _).bind ((reads_string hu).bind
    ((reads_string hp).bind ((reads_int64 _).bind ((reads_int8 _).bind_nil ?_)))))
  rw [if_pos hv]
  exact .pure l

/-- A value is read from a form at the front of the input, and an error other than a lack of octets
is there whatever follows. -/
structure Steady (r : Read α) : Prop where
  reads : ∀ {b a rest}, r b = .ok (a, rest) → ∃ c, b = c ++ rest ∧ Reads r c a
  refuses : ∀ {b e}, r b = .error e → e ≠ .truncated → Refuses r b e

namespace Steady

theorem pure (a : α) : Steady (Pure.pure a : Read α) where
  reads h := by
    cases h
    exact ⟨[], rfl, .pure a⟩
  refuses h := by cases h

theorem throw (e : WireError) : Steady (throwThe WireError e : Read α) where
  reads h := by cases h
  refuses h _ := by
    cases h
    exact .throw _ e

theorem bind (hr : Steady r) (hf : ∀ a, Steady (f a)) : Steady (r >>= f) where
  reads {b d rest} h := by
    change (r b >>= fun x => f x.1 x.2) = _ at h
    cases hb : r b with
    | error e => rw [hb] at h; cases h
    | ok x =>
      obtain ⟨a, left⟩ := x
      rw [hb] at h
      obtain ⟨c, rfl, hc⟩ := hr.reads hb
      obtain ⟨c', rfl, hc'⟩ := (hf a).reads h
      exact ⟨c ++ c', (List.append_assoc ..).symm, hc.bind hc'⟩
  refuses {b e} h he := by
    change (r b >>= fun x => f x.1 x.2) = _ at h
    cases hb : r b with
    | error e' =>
      rw [hb] at h
      obtain rfl : e' = e := Except.error.inj h
      have hrefuses := (hr.refuses hb he).bind (f := f) []
      rwa [List.append_nil] at hrefuses
    | ok x =>
      obtain ⟨a, left⟩ := x
      rw [hb] at h
      obtain ⟨c, rfl, hc⟩ := hr.reads hb
      exact hc.bind_refuses ((hf a).refuses h he)

theorem map (hr : Steady r) (g : α → β) : Steady (g <$> r) := hr.bind fun a => .pure (g a)

end Steady

theorem steady_octet : Steady octet where
  reads {b a _} h := by
    cases b with
    | nil => cases h
    | cons d b =>
      cases h
      exact ⟨[a], rfl, reads_octet a⟩
  refuses {b _} h he := by
    cases b with
    | nil => cases h; exact absurd rfl he
    | cons d b => cases h

theorem steady_octets (n : ℕ) : Steady (octets n) where
  reads {b a rest} h := by
    rw [octets] at h
    split at h
    · rename_i found hs
      cases h
      obtain ⟨rfl, rfl⟩ := Bytes.splitAt?_eq_some_iff.1 hs
      exact ⟨a, rfl, reads_octets a⟩
    · cases h
  refuses {b _} h he := by
    rw [octets] at h
    split at h
    · cases h
    · cases h; exact absurd rfl he

theorem steady_nat (w : ℕ) : Steady (nat w) := (steady_octets w).map _

theorem steady_bool : Steady bool := steady_octet.map _

theorem steady_float : Steady float := (steady_nat 8).map _

theorem steady_float32 : Steady float32 := (steady_nat 4).map _

theorem steady_string : Steady string := by
  refine (steady_nat 2).bind fun n => ?_
  split
  · refine (steady_octets n).bind fun b => ?_
    split
    · exact .pure _
    · exact .throw _
  · exact .throw _

theorem steady_expect (id : UInt8) : Steady (expect id) := by
  refine steady_octet.bind fun found => ?_
  split
  · exact .pure _
  · exact .throw _

theorem steady_handshake : Steady handshake := (steady_expect 0x02).bind fun _ => steady_string

theorem steady_login : Steady login := by
  refine (steady_expect 0x01).bind fun _ => ((steady_nat 4).map _).bind fun v =>
    steady_string.bind fun u => steady_string.bind fun p => ((steady_nat 8).map _).bind fun seed =>
      (steady_octet.map _).bind fun dimension => ?_
  dsimp only
  split
  · exact .pure _
  · exact .throw _

theorem steady_clientPacket : Steady clientPacket := by
  refine steady_octet.bind fun d => ?_
  split
  · exact .pure _
  · exact steady_string.bind fun _ => .pure _
  · exact steady_bool.bind fun _ => .pure _
  · exact steady_float.bind fun _ => steady_float.bind fun _ => steady_float.bind fun _ =>
      steady_float.bind fun _ => steady_bool.bind fun _ => .pure _
  · exact steady_float32.bind fun _ => steady_float32.bind fun _ => steady_bool.bind fun _ =>
      .pure _
  · exact steady_float.bind fun _ => steady_float.bind fun _ => steady_float.bind fun _ =>
      steady_float.bind fun _ => steady_float32.bind fun _ => steady_float32.bind fun _ =>
        steady_bool.bind fun _ => .pure _
  · exact steady_string.bind fun _ => .pure _
  · exact .throw _

theorem Steady.length_lt (hr : Steady r) (he : r [] = .error .truncated) {b rest : Bytes} {a : α}
    (h : r b = .ok (a, rest)) : rest.length < b.length := by
  obtain ⟨c, rfl, hc⟩ := hr.reads h
  cases c with
  | nil =>
    have hn : r [] = .ok (a, []) := hc []
    rw [he] at hn
    cases hn
  | cons d c =>
    rw [List.length_append, List.length_cons]
    omega

end Read

/-- The packets in what a client sends, up to the first that cannot be read. -/
def packets (b : Bytes) : List ClientPacket :=
  match Read.clientPacket b with
  | .ok (p, rest) => if rest.length < b.length then p :: packets rest else []
  | .error _ => []
termination_by b.length

theorem packets_of_ok {b rest : Bytes} {p : ClientPacket}
    (h : Read.clientPacket b = .ok (p, rest)) : packets b = p :: packets rest := by
  have hlt : rest.length < b.length := Read.steady_clientPacket.length_lt rfl h
  rw [packets, h]
  simp only [hlt, if_true]

theorem packets_of_error {b : Bytes} {e : WireError} (h : Read.clientPacket b = .error e) :
    packets b = [] := by
  rw [packets, h]

end BlockWorld.Wire
