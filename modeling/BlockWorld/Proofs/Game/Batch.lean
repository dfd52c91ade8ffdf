import BlockWorld.Proofs.Game.Registry
import BlockWorld.Proofs.Game.View
import BlockWorld.Proofs.Wire.Stream

/-! # Batches

What a client gets comes in buffers, each of which holds a batch of packets, most often a single
one. Where all clients listen and have room, a command's effect on them can be told by the batches
that it sends to each.
-/

namespace BlockWorld

open Wire

namespace Wire

/-- Each buffer holds the forms of a batch of packets, one after the other, and nothing else. -/
abbrev Batched : List (List ServerPacket) → List Bytes → Prop :=
  List.Forall₂ fun ps b => ∃ forms, Forms ps forms ∧ b = forms.flatten

/-- A chat line, which is not sent if it is too long. -/
def line (text : String) : List (List ServerPacket) :=
  if text.utf8ByteSize ≤ maxStringLength then [[.chat text]] else []

def shared (ps : List ServerPacket) : List (List ServerPacket) := if ps = [] then [] else [ps]

variable {batches : List (List ServerPacket)} {bs : List Bytes} {packet : ServerPacket}
  {ps : List ServerPacket}

@[simp] theorem flatten_shared (ps : List ServerPacket) : (shared ps).flatten = ps := by
  unfold shared
  split <;> simp [*]

theorem batched_buffers {b : Bytes} (h : packet.encode = .ok b) :
    Batched [[packet]] packet.buffers := by
  rw [ServerPacket.buffers, h]
  exact .cons ⟨[b], .cons h .nil, by simp⟩ .nil

theorem buffers_chat_of_long {text : String} (h : ¬ text.utf8ByteSize ≤ maxStringLength) :
    (ServerPacket.chat text).buffers = [] := by
  have hlength := ServerPacket.length_buffers_chat text
  rwa [if_neg h, List.length_eq_zero_iff] at hlength

theorem batched_line (text : String) : Batched (line text) (ServerPacket.chat text).buffers := by
  unfold line
  split
  · rename_i hle
    have hs := Read.putString_eq_ok_iff.2 ⟨hle, rfl⟩
    exact batched_buffers (by rw [ServerPacket.encode, hs]; rfl)
  · rename_i hlong
    rw [buffers_chat_of_long hlong]
    exact .nil

theorem batched_shared (h : Forms ps bs) :
    Batched (shared ps) (if bs.flatten ≠ [] then [bs.flatten] else []) := by
  cases h with
  | nil => exact .nil
  | @cons p b ps bs hp hps =>
    -- A form has an octet at least, so the buffer is not empty.
    have hne : (b :: bs).flatten ≠ [] := fun hnil => by
      have hb := (List.append_eq_nil_iff.1 hnil).1
      exact ServerPacket.encode_ne_nil (hb ▸ hp)
    rw [shared, if_neg (List.cons_ne_nil p ps), if_pos hne]
    exact .cons ⟨b :: bs, .cons hp hps, rfl⟩ .nil

theorem Batched.seen (h : Batched batches bs) :
    bs.flatMap seen = batches.flatten.map (·.shown) := by
  induction h with
  | nil => rfl
  | cons hb _ ih =>
    obtain ⟨forms, hforms, rfl⟩ := hb
    rw [List.flatMap_cons, List.flatten_cons, List.map_append, ih, seen_flatten hforms]

end Wire

namespace DroppedItem

variable {d : DroppedItem}

/-- A stack of a size that can be told to a client. -/
def Proper (d : DroppedItem) : Prop := 1 ≤ d.count.toInt ∧ d.count.toInt ≤ 64

theorem proper_iff : d.Proper ↔ 0 < d.count ∧ d.count ≤ 64 := by
  have hzero : (0 : Int8).toInt = 0 := rfl
  have hmax : (64 : Int8).toInt = 64 := rfl
  rw [Proper, Int8.lt_iff_toInt_lt, Int8.le_iff_toInt_le, hzero, hmax]
  omega

theorem Proper.encode (h : d.Proper) : ∃ b, d.spawnPacket.encode = .ok b := by
  rw [spawnPacket, ServerPacket.encode, if_pos (proper_iff.1 h)]
  exact ⟨_, rfl⟩

theorem buffers_of_not_proper (h : ¬ d.Proper) : d.spawnPacket.buffers = [] := by
  rw [ServerPacket.buffers, spawnPacket, ServerPacket.encode, if_neg (h ∘ proper_iff.2)]
  rfl

end DroppedItem

namespace Player

variable {p q : Player} {batches : List (List ServerPacket)}

theorem buffers_of_not_named (h : ¬ p.Named) : p.spawnPacket.buffers = [] := by
  have hlong : ¬ p.name.utf8ByteSize ≤ maxStringLength := h
  rw [ServerPacket.buffers, spawnPacket, ServerPacket.encode, putString, length_utf8, if_neg hlong]
  rfl

/-- The client listens, and there is room for a buffer for each of the batches. -/
def Takes (p : Player) (batches : List (List ServerPacket)) : Prop :=
  p.inbox.attended = true ∧ (batches.length : ℕ∞) ≤ p.inbox.room

/-- `q` is `p` after its inbox has taken a buffer for each of the batches and nothing else. -/
structure Got (p : Player) (batches : List (List ServerPacket)) (q : Player) : Prop where
  bare_eq : q.bare = p.bare
  buffers : ∃ bs, Batched batches bs ∧ q.inbox.stream = p.inbox.stream ++ bs

theorem Takes.stalled_receive (h : p.Takes batches) (hs : p.stalled = false) {l : List Bytes}
    (hl : Batched batches l) : (p.receive l).stalled = false :=
  stalled_receive_eq_false_iff.2 ⟨hs, hl.length_eq ▸ h.2⟩

theorem Takes.got (h : p.Takes batches) (hs : p.stalled = false) {l : List Bytes}
    (hl : Batched batches l) : p.Got batches (p.receive l) where
  bare_eq := bare_receive p l
  buffers := ⟨l, hl, stream_receive h.1 (h.stalled_receive hs hl)⟩

def sees (p q : Player) : List Shown :=
  (q.inbox.stream.drop p.inbox.stream.length).flatMap seen

theorem Got.sees_eq (h : p.Got batches q) : p.sees q = batches.flatten.map (·.shown) := by
  obtain ⟨bs, hbs, hstream⟩ := h.buffers
  rw [sees, hstream, List.drop_left, hbs.seen]

end Player

namespace Game

variable {g : Game}

theorem Keyed.pairwise_values (h : g.Keyed) :
    g.players.values.Pairwise fun a b => a.id.toInt < b.id.toInt := by
  rw [EntityMap.values, List.pairwise_map]
  refine List.Pairwise.imp_of_mem (fun {e f} he hf hlt => ?_) g.players.sorted
  rw [h e.1 e.2 (EntityMap.mem_entries_iff.1 he), h f.1 f.2 (EntityMap.mem_entries_iff.1 hf)]
  exact hlt

theorem Keyed.mem_values_iff (h : g.Keyed) {p : Player} :
    p ∈ g.players.values ↔ g.players.get? p.id = some p :=
  ⟨h.get?_id, fun hp => EntityMap.mem_values_iff.2 ⟨p.id, hp⟩⟩

/-- A command for which everyone has room evicts nobody and reaches everyone. -/
theorem apply_of_takes (hk : g.Keyed) (c : Command) (batches : Player → List (List ServerPacket))
    (h : ∀ id p, (g.settle c).players.get? id = some p → p.stalled = false ∧
      p.Takes (batches p) ∧ Batched (batches p) (g.mail c p)) :
    (g.apply c).evicted = [] ∧ (g.apply c).game = (g.settle c).deliver (g.mail c) ∧
      ∀ id p, (g.settle c).players.get? id = some p →
        ∃ q, (g.apply c).game.players.get? id = some q ∧ p.Got (batches p) q := by
  have hu : ((g.settle c).deliver (g.mail c)).Unstalled := by
    intro id q hq
    obtain ⟨p, hp, rfl⟩ := get?_deliver_eq_some_iff.1 hq
    obtain ⟨hs, htakes, hmail⟩ := h id p hp
    exact htakes.stalled_receive hs hmail
  obtain ⟨hgame, hevicted⟩ := apply_of_unstalled hk hu
  refine ⟨hevicted, hgame, fun id p hp => ?_⟩
  obtain ⟨hs, htakes, hmail⟩ := h id p hp
  rw [hgame]
  exact ⟨_, get?_deliver_eq_some_iff.2 ⟨p, hp, rfl⟩, htakes.got hs hmail⟩

end Game

end BlockWorld
