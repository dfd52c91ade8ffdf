import BlockWorld.Proofs.Wire.Grammar
import Mathlib.Data.List.Forall2

/-! # Readers and their grammar

The readers of the handshake, the login and the packets that follow take exactly the forms of the
grammar, and complain of the first fault wherever there is none. So packets that are sent one after
the other are read one after the other.
-/

namespace BlockWorld.Wire

namespace Read

variable {α : Type} {r : Read α} {form : α → Bytes → Prop} {fs : List Field} {b : Bytes}
  {e : WireError}

/-- The reader takes these packets, by their identifiers and the fields that come after each. -/
structure FollowsPacket (r : Read α) (form : α → Bytes → Prop)
    (fields : UInt8 → Option (List Field)) : Prop where
  nothing : r [] = .error .truncated
  foreign : ∀ {id b}, fields id = none → r (id :: b) = .error (.unexpectedPacket id)
  body : ∀ {id fs}, fields id = some fs →
    Follows (fun b => r (id :: b)) (fun a c => form a (id :: c)) fs
  known : ∀ {a c}, form a c → ∃ id c' fs, c = id :: c' ∧ fields id = some fs

namespace FollowsPacket

variable {fields : UInt8 → Option (List Field)}

theorem reads (h : FollowsPacket r form fields) {a : α} {c : Bytes} (hc : form a c) :
    Reads r c a := by
  obtain ⟨id, c, fs, rfl, hid⟩ := h.known hc
  exact (h.body hid).reads hc

theorem eq_ok_iff (h : FollowsPacket r form fields) {a : α} {rest : Bytes} :
    r b = .ok (a, rest) ↔ ∃ c, b = c ++ rest ∧ form a c := by
  constructor
  · intro hr
    cases b with
    | nil =>
      rw [h.nothing] at hr
      cases hr
    | cons id b =>
      cases hid : fields id with
      | none =>
        rw [h.foreign hid] at hr
        cases hr
      | some fs =>
        obtain ⟨c, rfl, hc⟩ := (h.body hid).eq_ok_iff.1 hr
        exact ⟨id :: c, rfl, hc⟩
  · rintro ⟨c, rfl, hc⟩
    exact h.reads hc rest

theorem eq_error_iff (h : FollowsPacket r form fields) :
    r b = .error e ↔ PacketFault fields b e := by
  constructor
  · intro hr
    cases b with
    | nil =>
      rw [h.nothing] at hr
      cases hr
      exact .nothing
    | cons id b =>
      cases hid : fields id with
      | none =>
        rw [h.foreign hid] at hr
        cases hr
        exact .foreign hid
      | some fs => exact .field hid ((h.body hid).eq_error_iff.1 hr)
  · rintro (_ | hid | ⟨hid, hf⟩)
    · exact h.nothing
    · exact h.foreign hid
    · exact (h.body hid).fails hf

end FollowsPacket

theorem expect_self (id : UInt8) (body : Read α) (b : Bytes) :
    (expect id >>= fun _ => body) (id :: b) = body b := bind_of_ok (reads_expect id b)

theorem expect_of_ne {id d : UInt8} (h : d ≠ id) (body : Read α) (b : Bytes) :
    (expect id >>= fun _ => body) (d :: b) = .error (.unexpectedPacket d) := by
  refine bind_of_error ?_
  show (if d = id then Pure.pure () else throw (.unexpectedPacket d) : Read Unit) b = _
  rw [if_neg h]
  rfl

theorem follows_handshake :
    FollowsPacket handshake (fun s c => handshakeForm s = .ok c) handshakeFields where
  nothing := rfl
  foreign {id b} h := by
    refine expect_of_ne (fun hid => ?_) _ _
    rw [handshakeFields, if_pos hid] at h
    cases h
  body {id fs} h := by
    rw [handshakeFields] at h
    split at h
    · subst id
      cases h
      have hbody : (fun b => handshake (0x02 :: b)) = string := funext (expect_self 0x02 string)
      rw [hbody]
      refine follows_string.single.congr fun s c => ?_
      simp [handshakeForm_eq_ok_iff]
    · cases h
  known {s c} h := by
    obtain ⟨t, -, rfl⟩ := handshakeForm_eq_ok_iff.1 h
    exact ⟨_, _, _, rfl, rfl⟩

/-- A login whose version is not judged. -/
def loginRequest : Read Login := do
  expect 0x01
  return ⟨← int32, ← string, ← string, ← int64, ← int8⟩

theorem follows_loginRequest :
    FollowsPacket loginRequest (fun l c => l.form = .ok c) loginFields where
  nothing := rfl
  foreign {id b} h := by
    refine expect_of_ne (fun hid => ?_) _ _
    rw [loginFields, if_pos hid] at h
    cases h
  body {id fs} h := by
    rw [loginFields] at h
    split at h
    · subst id
      cases h
      have hbody : (fun b => loginRequest (0x01 :: b)) = (do
          return ⟨← int32, ← string, ← string, ← int64, ← int8⟩ : Read Login) :=
        funext (expect_self 0x01 _)
      rw [hbody]
      refine (Follows.bind follows_int32 fun v => .bind follows_string fun u =>
        .bind follows_string fun p => .bind follows_int64 fun seed =>
          .bind follows_int8 fun d => .pure _).congr fun l c => ?_
      rw [Login.form_eq_ok_iff]
      constructor
      · rintro ⟨v, _, _, rfl, rfl, u, _, _, rfl, hu, p, _, _, rfl, hp, seed, _, _, rfl, rfl, d, _,
          _, rfl, rfl, rfl, rfl⟩
        exact ⟨_, _, hu, hp, by simp⟩
      · rintro ⟨u, p, hu, hp, hc⟩
        obtain rfl := (List.cons.inj hc).2
        exact ⟨_, _, _, rfl, rfl, _, _, _, rfl, hu, _, _, _, rfl, hp, _, _, _, rfl, rfl, _, _, [],
          (List.append_nil _).symm, rfl, rfl, rfl⟩
    · cases h
  known {l c} h := by
    obtain ⟨u, p, -, -, rfl⟩ := Login.form_eq_ok_iff.1 h
    exact ⟨_, _, _, rfl, rfl⟩

theorem follows_clientPacket : FollowsPacket clientPacket ClientPacket.Form clientFields where
  nothing := rfl
  foreign {id b} h := by
    refine (bind_of_ok (reads_octet id b)).trans ?_
    split
    case h_8 => rfl
    all_goals cases h
  body {id fs} h := by
    unfold clientFields at h
    split at h <;> cases h
    · refine (Follows.pure ClientPacket.keepAlive).congr fun p c => ?_
      constructor
      · rintro ⟨rfl, rfl⟩
        exact .keepAlive
      · rintro ⟨⟩
        exact ⟨rfl, rfl⟩
    · refine (follows_string.last ClientPacket.chat).congr fun p c => ?_
      constructor
      · rintro ⟨s, hs, rfl⟩
        exact .chat hs
      · rintro (_ | hs)
        exact ⟨_, hs, rfl⟩
    · refine (follows_bool.last ClientPacket.flying).congr fun p c => ?_
      constructor
      · rintro ⟨g, hg, rfl⟩
        exact .flying hg
      · rintro (_ | _ | hg)
        exact ⟨_, hg, rfl⟩
    · refine (Follows.bind follows_float fun x => .bind follows_float fun y =>
        .bind follows_float fun t => .bind follows_float fun z =>
          follows_bool.last (ClientPacket.position x y t z)).congr fun p c => ?_
      constructor
      · rintro ⟨x, cx, _, rfl, hx, y, cy, _, rfl, hy, t, ct, _, rfl, ht, z, cz, _, rfl, hz, g, hg,
          rfl⟩
        simpa using ClientPacket.Form.position hx hy ht hz hg
      · rintro (_ | _ | _ | ⟨hx, hy, ht, hz, hg⟩)
        exact ⟨_, _, _, by simp, hx, _, _, _, rfl, hy, _, _, _, rfl, ht, _, _, _, rfl, hz, _, hg,
          rfl⟩
    · refine (Follows.bind follows_float32 fun yaw => .bind follows_float32 fun pitch =>
          follows_bool.last (ClientPacket.look yaw pitch)).congr fun p c => ?_
      constructor
      · rintro ⟨yaw, ca, _, rfl, ha, pitch, cb, _, rfl, hb, g, hg, rfl⟩
        simpa using ClientPacket.Form.look ha hb hg
      · rintro (_ | _ | _ | _ | ⟨ha, hb, hg⟩)
        exact ⟨_, _, _, by simp, ha, _, _, _, rfl, hb, _, hg, rfl⟩
    · refine (Follows.bind follows_float fun x => .bind follows_float fun y =>
        .bind follows_float fun t => .bind follows_float fun z => .bind follows_float32 fun yaw =>
          .bind follows_float32 fun pitch =>
            follows_bool.last (ClientPacket.positionLook x y t z yaw pitch)).congr fun p c => ?_
      constructor
      · rintro ⟨x, cx, _, rfl, hx, y, cy, _, rfl, hy, t, ct, _, rfl, ht, z, cz, _, rfl, hz, yaw, ca,
          _, rfl, ha, pitch, cb, _, rfl, hb, g, hg, rfl⟩
        simpa using ClientPacket.Form.positionLook hx hy ht hz ha hb hg
      · rintro (_ | _ | _ | _ | _ | ⟨hx, hy, ht, hz, ha, hb, hg⟩)
        exact ⟨_, _, _, by simp, hx, _, _, _, rfl, hy, _, _, _, rfl, ht, _, _, _, rfl, hz, _, _, _,
          rfl, ha, _, _, _, rfl, hb, _, hg, rfl⟩
    · refine (follows_string.last ClientPacket.disconnect).congr fun p c => ?_
      constructor
      · rintro ⟨s, hs, rfl⟩
        exact .disconnect hs
      · rintro (_ | _ | _ | _ | _ | _ | hs)
        exact ⟨_, hs, rfl⟩
  known {p c} h := by
    cases h <;> exact ⟨_, _, _, rfl, rfl⟩

theorem login_eq :
    login = loginRequest >>= fun l =>
      if l.version = version then Pure.pure l else throw (.unsupportedVersion l.version) := by
  simp only [login, loginRequest, bind_assoc, pure_bind]

theorem login_of_request {l : Login} {rest : Bytes} (h : loginRequest b = .ok (l, rest)) :
    login b = if l.version = version then .ok (l, rest)
      else .error (.unsupportedVersion l.version) := by
  rw [login_eq, bind_of_ok h]
  split <;> rfl

theorem login_of_fault (h : PacketFault loginFields b e) : login b = .error e := by
  rw [login_eq]
  exact bind_of_error (follows_loginRequest.eq_error_iff.2 h)

theorem login_eq_ok_iff {l : Login} {rest : Bytes} :
    login b = .ok (l, rest) ↔ l.version = version ∧ ∃ c, b = c ++ rest ∧ l.form = .ok c := by
  rw [← follows_loginRequest.eq_ok_iff]
  constructor
  · intro h
    cases hr : loginRequest b with
    | error e =>
      rw [login_of_fault (follows_loginRequest.eq_error_iff.1 hr)] at h
      cases h
    | ok x =>
      obtain ⟨l', rest'⟩ := x
      rw [login_of_request hr] at h
      split at h
      · cases h
        exact ⟨‹_›, rfl⟩
      · cases h
  · rintro ⟨hv, h⟩
    rw [login_of_request h, if_pos hv]

theorem not_packetFault_unsupportedVersion {fields : UInt8 → Option (List Field)} {v : Int32} :
    ¬ PacketFault fields b (.unsupportedVersion v) := by
  suffices h : ∀ fs b e, Fault fs b e → e ≠ .unsupportedVersion v by
    rintro (_ | _ | ⟨-, hf⟩)
    exact h _ _ _ hf rfl
  intro fs b e h
  induction h with
  | here h => cases h <;> exact nofun
  | later _ _ ih => exact ih

theorem login_eq_unsupportedVersion_iff {v : Int32} :
    login b = .error (.unsupportedVersion v) ↔
      v ≠ version ∧ ∃ (l : Login) (c rest : Bytes), l.version = v ∧ b = c ++ rest ∧
        l.form = .ok c := by
  constructor
  · intro h
    cases hr : loginRequest b with
    | error e =>
      have hf := follows_loginRequest.eq_error_iff.1 hr
      rw [login_of_fault hf] at h
      cases h
      exact absurd hf not_packetFault_unsupportedVersion
    | ok x =>
      obtain ⟨l, rest⟩ := x
      obtain ⟨c, hb, hc⟩ := follows_loginRequest.eq_ok_iff.1 hr
      rw [login_of_request hr] at h
      split at h
      · cases h
      · cases h
        exact ⟨‹_›, l, c, rest, rfl, hb, hc⟩
  · rintro ⟨hv, l, c, rest, rfl, hb, hc⟩
    rw [login_of_request (follows_loginRequest.eq_ok_iff.2 ⟨c, hb, hc⟩), if_neg hv]

theorem login_eq_error_iff (he : ∀ v, e ≠ .unsupportedVersion v) :
    login b = .error e ↔ PacketFault loginFields b e := by
  constructor
  · intro h
    cases hr : loginRequest b with
    | error e' =>
      have hf := follows_loginRequest.eq_error_iff.1 hr
      rw [login_of_fault hf] at h
      cases h
      exact hf
    | ok x =>
      obtain ⟨l, rest⟩ := x
      rw [login_of_request hr] at h
      split at h
      · cases h
      · cases h
        exact absurd rfl (he _)
  · exact login_of_fault

end Read

/-- The packets that are read one after the other, and what is complained of in the end. -/
def readAll (b : Bytes) : List ClientPacket × WireError :=
  match h : Read.clientPacket b with
  | .ok (p, rest) =>
    have : rest.length < b.length := Read.steady_clientPacket.length_lt rfl h
    let (ps, e) := readAll rest
    (p :: ps, e)
  | .error e => ([], e)
termination_by b.length

theorem readAll_of_ok {b rest : Bytes} {p : ClientPacket}
    (h : Read.clientPacket b = .ok (p, rest)) :
    readAll b = (p :: (readAll rest).1, (readAll rest).2) := by
  rw [readAll]
  split
  · rename_i h'
    rw [h] at h'
    cases h'
    rfl
  · rename_i h'
    rw [h] at h'
    cases h'

theorem readAll_of_error {b : Bytes} {e : WireError} (h : Read.clientPacket b = .error e) :
    readAll b = ([], e) := by
  rw [readAll]
  split
  · rename_i h'
    rw [h] at h'
    cases h'
  · rename_i h'
    rw [h] at h'
    cases h'
    rfl

theorem readAll_flatten {ps : List ClientPacket} {cs : List Bytes}
    (h : List.Forall₂ ClientPacket.Form ps cs) : readAll cs.flatten = (ps, .truncated) := by
  induction h with
  | nil => exact readAll_of_error rfl
  | cons hp _ ih =>
    rw [List.flatten_cons, readAll_of_ok (Read.follows_clientPacket.reads hp _), ih]

/-- A reader succeeds exactly where one of the forms of a packet stands, and takes that form; it
fails exactly where the packet has a fault, and complains of the first. A login whose version is not
spoken is complained of as such once all of it is there. Packets that are sent one after the other
are read one after the other, and then there is nothing left to read. -/
theorem reads_grammar (b : Bytes) :
    (∀ name rest, Read.handshake b = .ok (name, rest) ↔
      ∃ c, b = c ++ rest ∧ handshakeForm name = .ok c) ∧
    (∀ e, Read.handshake b = .error e ↔ PacketFault handshakeFields b e) ∧
    (∀ l rest, Read.login b = .ok (l, rest) ↔
      l.version = version ∧ ∃ c, b = c ++ rest ∧ l.form = .ok c) ∧
    (∀ v, Read.login b = .error (.unsupportedVersion v) ↔
      v ≠ version ∧ ∃ (l : Login) (c rest : Bytes), l.version = v ∧ b = c ++ rest ∧
        l.form = .ok c) ∧
    (∀ e, (∀ v, e ≠ .unsupportedVersion v) →
      (Read.login b = .error e ↔ PacketFault loginFields b e)) ∧
    (∀ p rest, Read.clientPacket b = .ok (p, rest) ↔ ∃ c, b = c ++ rest ∧ p.Form c) ∧
    (∀ e, Read.clientPacket b = .error e ↔ PacketFault clientFields b e) ∧
    ∀ ps cs, List.Forall₂ ClientPacket.Form ps cs → b = cs.flatten →
      readAll b = (ps, .truncated) := by
  refine ⟨fun _ _ => Read.follows_handshake.eq_ok_iff,
    fun _ => Read.follows_handshake.eq_error_iff, fun _ _ => Read.login_eq_ok_iff,
    fun _ => Read.login_eq_unsupportedVersion_iff, fun _ => Read.login_eq_error_iff,
    fun _ _ => Read.follows_clientPacket.eq_ok_iff,
    fun _ => Read.follows_clientPacket.eq_error_iff, ?_⟩
  rintro ps cs h rfl
  exact readAll_flatten h

end BlockWorld.Wire
