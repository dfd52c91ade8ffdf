import BlockWorld.Proofs.Session.Unregistered
import BlockWorld.Proofs.Wire.Client

/-! # Texts on the wire and chat lines

A packet that holds a text has a form if the text has at most 32767 octets, and it is read back
whatever follows. A chat line is longer than what was typed by the name of its speaker and three
octets, so it may have no form where the typed text had one; then nobody is shown it.
-/

namespace BlockWorld

open Wire

namespace Wire

/-- What a text is written as, if it has a form, is read back as `a`; if it has none, the error
tells how long it is. -/
structure ReadBack {α : Type} (text : String) (written : Except WireError Bytes) (r : Read α)
    (a : α) : Prop where
  written_iff : (∃ b, written = .ok b) ↔ text.utf8ByteSize ≤ 32767
  reads : ∀ b, written = .ok b → ∀ rest, r (b ++ rest) = .ok (a, rest)
  refused : ∀ e, written = .error e → e = .stringTooLong text.utf8ByteSize

namespace ReadBack

variable {α : Type} {text : String} {d : UInt8} {r : Read α} {a : α}

theorem of_reads (hr : ∀ b, Reads Read.string b text → Reads r (d :: b) a) :
    ReadBack text (putString text >>= fun b => pure (d :: b)) r a := by
  cases h : putString text with
  | ok b =>
    have hle := (Read.putString_eq_ok_iff.1 h).1
    refine ⟨⟨fun _ => hle, fun _ => ⟨_, rfl⟩⟩, ?_, nofun⟩
    rintro b' ⟨⟩
    exact hr b (Read.reads_string h)
  | error e =>
    have hlong : maxStringLength < text.utf8ByteSize := by
      refine Nat.lt_of_not_le fun hle => ?_
      rw [Read.putString_eq_ok_iff.2 ⟨hle, rfl⟩] at h
      cases h
    refine ⟨⟨nofun, fun hle => absurd hle (Nat.not_le.2 hlong)⟩, nofun, ?_⟩
    rintro e' ⟨⟩
    rw [putString, length_utf8, if_neg (Nat.not_le.2 hlong)] at h
    exact (Except.error.inj h).symm

theorem chat (text : String) :
    ReadBack text (ServerPacket.chat text).encode Read.clientPacket (.chat text) :=
  of_reads fun _ hb => (Read.reads_octet 0x03).bind (hb.bind_pure ClientPacket.chat)

theorem disconnect (text : String) :
    ReadBack text (ServerPacket.disconnect text).encode Read.clientPacket (.disconnect text) :=
  of_reads fun _ hb => (Read.reads_octet 0xff).bind (hb.bind_pure ClientPacket.disconnect)

theorem handshake (text : String) :
    ReadBack text (ServerPacket.handshake text).encode Read.handshake text :=
  of_reads fun _ hb => (Read.reads_expect 0x02).bind hb

end ReadBack

end Wire

/-! ## Who is shown a line -/

namespace Inbox

variable {i : Inbox}

theorem waiting_post (ha : i.attended = true) (hroom : i.isFull = false) (b : Bytes) :
    (i.post b).waiting = i.waiting ++ [b] := by
  have ho : i.overflows = false := by rw [overflows, hroom, Bool.and_false]
  rw [waiting, log_post ha ho, post_taken, Array.toList_push,
    List.drop_append_of_le_length i.taken_le]
  rfl

theorem waiting_prefix_post (b : Bytes) : i.waiting <+: (i.post b).waiting := by
  by_cases h : i.attended && !i.isFull
  · obtain ⟨ha, hroom⟩ : i.attended = true ∧ i.isFull = false := by simpa using h
    exact ⟨[b], (waiting_post ha hroom b).symm⟩
  · rw [post, if_neg h]

end Inbox

theorem Player.waiting_prefix_receive (p : Player) (l : List Bytes) :
    p.inbox.waiting <+: (p.receive l).inbox.waiting := by
  induction l generalizing p with
  | nil => exact List.prefix_refl _
  | cons b l ih => exact (Inbox.waiting_prefix_post b).trans (ih (p.transmit b))

namespace Game

variable {g : Game} {line : String}

/-- Whoever was registered before a cascade still is after it or is removed by it, and the removals
of others have only sent it more. -/
theorem Cascade.exists_receive {g' : Game} {es : List Player} (h : Cascade g es g') (hk : g.Keyed)
    {k : EntityId} {p : Player} (hp : g.players.get? k = some p) :
    ∃ more, g'.players.get? k = some (p.receive more) ∨ p.receive more ∈ es := by
  induction h generalizing p with
  | nil => exact ⟨[], .inl hp⟩
  | @cons g g' q es hq _ _ ih =>
    by_cases hid : q.id = k
    · obtain rfl : q = p := Option.some.inj (hq.symm.trans (hid ▸ hp))
      exact ⟨[], .inr List.mem_cons_self⟩
    · have hp' : (g.removePlayer q.id).1.players.get? k = some (p.receive (g.farewell q p)) := by
        rw [removePlayer_eq hq rfl, get?_deliver, get?_forget, if_neg hid, hp]
        rfl
      obtain ⟨more, hmore⟩ := ih (hk.removePlayer _) hp'
      refine ⟨g.farewell q p ++ more, ?_⟩
      rw [← Player.receive_receive]
      exact hmore.imp_right (List.mem_cons_of_mem _)

/-- A line with a form is the next thing that waits for whoever has room for it, even for those who
have no room for what follows. -/
theorem Keyed.waiting_say (hk : g.Keyed) {b : Bytes}
    (hb : (ServerPacket.chat line).encode = .ok b) {k : EntityId} {p : Player}
    (hp : g.players.get? k = some p) (ha : p.inbox.attended = true)
    (hroom : p.inbox.isFull = false) :
    ∃ q, ((g.apply (.say line)).game.players.get? k = some q ∨
        q ∈ (g.apply (.say line)).evicted ∧ q.id = k) ∧
      p.inbox.waiting ++ [b] <+: q.inbox.waiting := by
  have hbuffers : (ServerPacket.chat line).buffers = [b] := by rw [ServerPacket.buffers, hb]
  have hsent : (g.perform (.say line)).game.players.get? k = some (p.receive [b]) := by
    rw [perform_game hk, get?_deliver]
    show (g.players.get? k).map (fun p => p.receive (ServerPacket.chat line).buffers) = _
    rw [hp, hbuffers]
    rfl
  -- The line comes before all that the evictions send, so it finds the room that there was.
  obtain ⟨more, hmore⟩ := (cascade_apply hk (.say line)).exists_receive (hk.perform _) hsent
  refine ⟨(p.receive [b]).receive more, hmore.imp_right fun h => ⟨h, ?_⟩, ?_⟩
  · rw [Player.receive_id, Player.receive_id, hk k p hp]
  · have hposted : (p.receive [b]).inbox.waiting = p.inbox.waiting ++ [b] :=
      Inbox.waiting_post ha hroom b
    rw [← hposted]
    exact (p.receive [b]).waiting_prefix_receive more

end Game

theorem utf8ByteSize_line (user text : String) :
    ("<" ++ user ++ "> " ++ text).utf8ByteSize = user.utf8ByteSize + text.utf8ByteSize + 3 := by
  have hopen : "<".utf8ByteSize = 1 := rfl
  have hclose : "> ".utf8ByteSize = 2 := rfl
  rw [String.utf8ByteSize_append, String.utf8ByteSize_append, String.utf8ByteSize_append, hopen,
    hclose]
  omega

namespace Session

open Game
open Player (guest)

/-- Packets with a text are read back as they were written. So in every game, what a user types is
read by its session, put on a line of its own and shown to all: whoever has room for the line has it
waiting next if the name and the text together have at most 32764 octets, and else nobody is shown
it. -/
theorem texts_read_back_and_lines_shown :
    (∀ text : String,
      ReadBack text (ServerPacket.chat text).encode Read.clientPacket (.chat text) ∧
      ReadBack text (ServerPacket.disconnect text).encode Read.clientPacket (.disconnect text) ∧
      ReadBack text (ServerPacket.handshake text).encode Read.handshake text) ∧
    ∀ (config : GameConfig) (time : Int64) (es : List Event) (user text : String),
      let g := (Game.new config time).run es
      let line := "<" ++ user ++ "> " ++ text
      (∀ w files (s : Session) (task : GameTask) id rest, s.phase = .play user id →
        task.running → s.find Read.clientPacket = .value (.chat text) rest →
        ∃ s', s.step GameTask.submit w files task =
          some (s', { task with host := (task.host.submit (.say line)).1 })) ∧
      (∀ k p, g.players.get? k = some p → p.inbox.attended = true → p.inbox.isFull = false →
        ((∃ b q, Reads Read.clientPacket b (.chat line) ∧
            ((g.apply (.say line)).game.players.get? k = some q ∨
              q ∈ (g.apply (.say line)).evicted ∧ q.id = k) ∧
            p.inbox.waiting ++ [b] <+: q.inbox.waiting) ↔
          user.utf8ByteSize + text.utf8ByteSize ≤ 32764)) ∧
      (32764 < user.utf8ByteSize + text.utf8ByteSize →
        (g.apply (.say line)).game = g ∧ (g.apply (.say line)).evicted = []) := by
  refine ⟨fun text => ⟨.chat text, .disconnect text, .handshake text⟩, ?_⟩
  intro config time es user text g line
  have hg : g.Consistent := (Consistent.new config time).run es
  have hsize : line.utf8ByteSize = user.utf8ByteSize + text.utf8ByteSize + 3 :=
    utf8ByteSize_line user text
  have hlong (h : 32764 < user.utf8ByteSize + text.utf8ByteSize) :
      (g.apply (.say line)).game = g ∧ (g.apply (.say line)).evicted = [] := by
    have hrefuses : g.Refuses (.say line) := by
      show maxStringLength < line.utf8ByteSize
      rw [hsize, maxStringLength]
      omega
    exact hrefuses.apply_eq hg (unstalled_run_new config time es)
  refine ⟨?_, fun k p hp ha hroom => ⟨?_, fun hshort => ?_⟩, hlong⟩
  · intro w files s task id rest hphase hrun hfind
    exact step_play_eq w files hphase hrun hfind
  · rintro ⟨b, q, -, hq, hwaiting⟩
    refine Nat.le_of_not_lt fun h => ?_
    obtain ⟨hgame, hevicted⟩ := hlong h
    rw [hgame, hevicted, hp] at hq
    obtain hq | ⟨hq, -⟩ := hq
    · obtain rfl := Option.some.inj hq
      have hlength := hwaiting.length_le
      rw [List.length_append] at hlength
      exact Nat.not_succ_le_self _ hlength
    · cases hq
  · have hback := ReadBack.chat line
    obtain ⟨b, hb⟩ := hback.written_iff.2 (by omega)
    obtain ⟨q, hq, hwaiting⟩ := hg.keyed.waiting_say hb hp ha hroom
    exact ⟨b, q, hback.reads b hb, hq, hwaiting⟩

/-- A guest types the longest line that is shown, and one that is longer by one. -/
theorem texts_read_back_and_lines_shown_longest :
    let g := (Game.new {} 0).run [.submit (.addPlayer (guest 1 none))]
    let typed (n : ℕ) := (String.push · 'x')^[n] ""
    let line (n : ℕ) := "<" ++ "guest" ++ "> " ++ typed n
    (typed 32760).utf8ByteSize ≤ maxStringLength ∧
    (∃ p, g.players.get? 1 = some p ∧ ∃ b q, Reads Read.clientPacket b (.chat (line 32759)) ∧
      ((g.apply (.say (line 32759))).game.players.get? 1 = some q ∨
        q ∈ (g.apply (.say (line 32759))).evicted ∧ q.id = 1) ∧
      p.inbox.waiting ++ [b] <+: q.inbox.waiting) ∧
    (g.apply (.say (line 32760))).game = g := by
  intro g typed line
  have hguest : "guest".utf8ByteSize = 5 := rfl
  have htyped (n : ℕ) : (typed n).utf8ByteSize = n := by
    induction n with
    | zero => rfl
    | succ n ih =>
      show ((String.push · 'x')^[n + 1] "").utf8ByteSize = n + 1
      rw [Function.iterate_succ_apply', String.utf8ByteSize_push]
      exact congrArg (· + 1) ih
  have hplayer : (g.players.get? 1).any fun p => p.inbox.attended && !p.inbox.isFull := by
    decide +kernel
  obtain ⟨p, hp, hready⟩ := (Option.any_eq_true ..).1 hplayer
  obtain ⟨ha, hroom⟩ : p.inbox.attended = true ∧ p.inbox.isFull = false := by simpa using hready
  have hlines := fun n => texts_read_back_and_lines_shown.2 {} 0
    [.submit (.addPlayer (guest 1 none))] "guest" (typed n)
  have hlong (n : ℕ) (h : 32759 < n) : (g.apply (.say (line n))).game = g :=
    ((hlines n).2.2 (by rw [hguest, htyped]; omega)).1
  have hshort (n : ℕ) (h : n ≤ 32759) : ∃ b q, Reads Read.clientPacket b (.chat (line n)) ∧
      ((g.apply (.say (line n))).game.players.get? 1 = some q ∨
        q ∈ (g.apply (.say (line n))).evicted ∧ q.id = 1) ∧
      p.inbox.waiting ++ [b] <+: q.inbox.waiting :=
    ((hlines n).2.1 1 p hp ha hroom).2 (by rw [hguest, htyped]; omega)
  exact ⟨by rw [htyped]; decide, ⟨p, hp, hshort 32759 le_rfl⟩, hlong 32760 (by decide)⟩

end Session

end BlockWorld
