import BlockWorld.Proofs.Game.Delivery
import BlockWorld.Proofs.Wire.Shown
import Mathlib.Data.Finset.Basic

/-! # What a client shows

A client that follows the spawns and the despawns in its stream knows which players to show, unless
it is told to show one twice or to hide one that it does not show.
-/

namespace BlockWorld

open Wire

namespace Wire.Shown

/-- The ids that a client shows after a packet. No answer if the packet shows one that is shown
already, or hides one that is not. -/
def track (ids : Finset EntityId) : Shown → Option (Finset EntityId)
  | .namedSpawn id .. => if id ∈ ids then none else some (insert id ids)
  | .destroyEntity id => if id ∈ ids then some (ids.erase id) else none
  | _ => some ids

def Neutral : Shown → Prop
  | .namedSpawn .. | .destroyEntity _ => False
  | _ => True

theorem Neutral.track_eq {s : Shown} (h : s.Neutral) (ids : Finset EntityId) :
    s.track ids = some ids := by
  cases s with
  | namedSpawn | destroyEntity => exact h.elim
  | _ => rfl

end Wire.Shown

/-- The ids that a client shows after a part of its stream, if it showed `ids` before. -/
def follow (ids : Finset EntityId) (stream : List Bytes) : Option (Finset EntityId) :=
  (stream.flatMap seen).foldlM Shown.track ids

def view (stream : List Bytes) : Option (Finset EntityId) := follow ∅ stream

theorem follow_append (ids : Finset EntityId) (l k : List Bytes) :
    follow ids (l ++ k) = (follow ids l).bind fun ids => follow ids k := by
  rw [follow, List.flatMap_append, List.foldlM_append]
  rfl

theorem follow_of_neutral {l : List Bytes} (h : ∀ b ∈ l, ∀ s ∈ seen b, s.Neutral)
    (ids : Finset EntityId) : follow ids l = some ids := by
  have hs : ∀ s ∈ l.flatMap seen, s.Neutral := fun s hs => by
    obtain ⟨b, hb, hs⟩ := List.mem_flatMap.1 hs
    exact h b hb s hs
  rw [follow]
  generalize l.flatMap seen = shown at hs
  induction shown with
  | nil => rfl
  | cons s shown ih =>
    rw [List.foldlM_cons, (hs s List.mem_cons_self).track_eq ids]
    exact ih fun t ht => hs t (List.mem_cons_of_mem _ ht)

theorem seen_of_encode {p : ServerPacket} {b : Bytes} (h : p.encode = .ok b) :
    seen b = [p.shown] := by
  have := seen_append h []
  rwa [List.append_nil, seen_nil] at this

theorem follow_buffers_of_neutral {p : ServerPacket} (h : p.shown.Neutral)
    (ids : Finset EntityId) : follow ids p.buffers = some ids := by
  refine follow_of_neutral (fun b hb s hs => ?_) ids
  cases he : p.encode with
  | error e => simp [ServerPacket.buffers, he] at hb
  | ok b' =>
    obtain rfl : b = b' := by simpa [ServerPacket.buffers, he] using hb
    rw [seen_of_encode he, List.mem_singleton] at hs
    rwa [hs]

theorem follow_buffers_chat (ids : Finset EntityId) (text : String) :
    follow ids (ServerPacket.chat text).buffers = some ids :=
  follow_buffers_of_neutral (p := .chat text) trivial ids

theorem follow_buffers_destroyEntity {ids : Finset EntityId} {id : EntityId} (h : id ∈ ids) :
    follow ids (ServerPacket.destroyEntity id).buffers = some (ids.erase id) := by
  have he : (ServerPacket.destroyEntity id).encode = .ok (0x1d :: putInt32 id) := rfl
  have hb : (ServerPacket.destroyEntity id).buffers = [0x1d :: putInt32 id] := rfl
  rw [hb, follow, List.flatMap_singleton, seen_of_encode he]
  simp [ServerPacket.shown, Shown.track, h]

namespace Player

def Named (p : Player) : Prop := p.name.utf8ByteSize ≤ maxStringLength

theorem Named.encode {p : Player} (h : p.Named) :
    ∃ b, p.spawnPacket.encode = .ok b := by
  have hs := Read.putString_eq_ok_iff.2 ⟨h, rfl⟩
  rw [spawnPacket, ServerPacket.encode, hs]
  exact ⟨_, rfl⟩

end Player

theorem follow_spawnPacket {ids : Finset EntityId} {p : Player} (hn : p.Named) (h : p.id ∉ ids) :
    follow ids p.spawnPacket.buffers = some (insert p.id ids) := by
  obtain ⟨b, hb⟩ := hn.encode
  have hbuf : p.spawnPacket.buffers = [b] := by rw [ServerPacket.buffers, hb]
  rw [hbuf, follow, List.flatMap_singleton, seen_of_encode hb]
  simp [Player.spawnPacket, ServerPacket.shown, Shown.track, h]

theorem seen_flatMap_spawnPacket {l : List Player} (h : ∀ q ∈ l, q.Named) :
    seen (l.flatMap fun q => match q.spawnPacket.encode with
      | .ok b => b
      | .error _ => []) = l.map (·.spawnPacket.shown) := by
  induction l with
  | nil => exact seen_nil
  | cons q l ih =>
    obtain ⟨b, hb⟩ := (h q List.mem_cons_self).encode
    rw [List.flatMap_cons, List.map_cons, ← ih fun r hr => h r (List.mem_cons_of_mem _ hr), hb]
    exact seen_append hb _

theorem track_spawnPackets {l : List Player} (hl : (l.map (·.id)).Nodup) (ids : Finset EntityId)
    (hd : ∀ q ∈ l, q.id ∉ ids) :
    (l.map (·.spawnPacket.shown)).foldlM Shown.track ids =
      some (ids ∪ (l.map (·.id)).toFinset) := by
  induction l generalizing ids with
  | nil => simp
  | cons q l ih =>
    rw [List.map_cons, List.nodup_cons] at hl
    have hq : Shown.track ids q.spawnPacket.shown = some (insert q.id ids) :=
      if_neg (hd q List.mem_cons_self)
    rw [List.map_cons, List.foldlM_cons, hq]
    show (l.map (·.spawnPacket.shown)).foldlM Shown.track (insert q.id ids) = _
    rw [ih hl.2 (insert q.id ids)]
    · rw [List.map_cons, List.toFinset_cons, Finset.insert_union, Finset.union_insert]
    · intro r hr hmem
      rcases Finset.mem_insert.1 hmem with heq | hmem
      · exact hl.1 (heq ▸ List.mem_map_of_mem hr)
      · exact hd r (List.mem_cons_of_mem _ hr) hmem

end BlockWorld
