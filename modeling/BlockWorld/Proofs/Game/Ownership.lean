import BlockWorld.Game.Lobby
import BlockWorld.Proofs.Game.Eviction

/-! # Whose entity an id is

An id is handed out before anything is registered under it, and nothing keeps it for the client that
got it. While the ids last this does not matter: whatever other clients do in between, an id that
was handed out is free until its client uses it, and no other client ever has it.
-/

namespace BlockWorld

/-! ## What a command does to the directory -/

def Command.entering : Command → Option (EntityId × EntityKind)
  | .addPlayer p => some (p.id, .player)
  | .addItem item => some (item.id, .item)
  | _ => none

namespace Game

variable {g : Game} {c : Command} {id : EntityId}

theorem next_forget (g : Game) (id : EntityId) :
    (g.forget id).directory.next = g.directory.next := by
  simp only [forget, Directory.unregister]
  cases g.directory.live.get? id <;> rfl

theorem contains_of_contains_forget {k : EntityId} (h : (g.forget id).directory.contains k) :
    g.directory.contains k := by
  simp only [forget, Directory.unregister] at h
  cases hid : g.directory.live.get? id with
  | none => simpa only [hid] using h
  | some kind =>
    simp only [hid] at h
    exact ((EntityMap.contains_erase ..).1 h).2

theorem next_settle (hc : c ≠ .allocateId) : (g.settle c).directory.next = g.directory.next := by
  cases c with
  | allocateId => exact absurd rfl hc
  | addPlayer p => rw [settle]; split <;> rfl
  | removePlayer id =>
    rw [settle]
    split
    · exact g.next_forget id
    · rfl
  | addItem item => rw [settle]; split <;> rfl
  | _ => rfl

theorem contains_of_contains_settle (h : (g.settle c).directory.contains id) :
    g.directory.contains id ∨ ∃ kind, c.entering = some (id, kind) := by
  cases c with
  | allocateId =>
    rw [Directory.contains, EntityMap.contains, settle, ← Directory.kind?,
      Directory.kind?_allocate] at h
    exact .inl h
  | addPlayer p =>
    rw [settle] at h
    split at h
    · exact .inl h
    · obtain rfl | h := (EntityMap.contains_insert ..).1 h
      · exact .inr ⟨.player, rfl⟩
      · exact .inl h
  | removePlayer k =>
    rw [settle] at h
    split at h
    · exact .inl (contains_of_contains_forget h)
    · exact .inl h
  | addItem item =>
    rw [settle] at h
    split at h
    · exact .inl h
    · obtain rfl | h := (EntityMap.contains_insert ..).1 h
      · exact .inr ⟨.item, rfl⟩
      · exact .inl h
  | _ => exact .inl h

theorem next_apply (hk : g.Keyed) (c : Command) :
    (g.apply c).game.directory.next = (g.settle c).directory.next :=
  apply_induction hk c (P := fun r => r.directory.next = (g.settle c).directory.next) rfl
    fun r p _ hr _ _ => by rw [directory_deliver, next_forget, hr]

theorem items_apply (hk : g.Keyed) (c : Command) :
    (g.apply c).game.items = (g.settle c).items :=
  apply_induction hk c (P := fun r => r.items = (g.settle c).items) rfl
    fun _ _ _ hr _ _ => hr

theorem contains_of_contains_apply (hk : g.Keyed) (h : (g.apply c).game.directory.contains id) :
    g.directory.contains id ∨ ∃ kind, c.entering = some (id, kind) := by
  refine contains_of_contains_settle (apply_induction hk c
    (P := fun r => r.directory.contains id → (g.settle c).directory.contains id) (fun h => h) ?_ h)
  exact fun r p _ hr _ _ hin => hr (contains_of_contains_forget hin)

/-- A command registers its entity, and nobody is given back. -/
structure Accepts (g : Game) (c : Command) (id : EntityId) (kind : EntityKind) : Prop where
  free : g.directory.contains id = false
  registered : (g.perform c).game.directory.kind? id = some kind
  unreturned : (g.apply c).parted = none

/-- A command leaves the entity of this id as it is, up to the packets that are sent to it. At most,
the entity is evicted because it falls behind with them. -/
structure Spares (g : Game) (c : Command) (id : EntityId) : Prop where
  player : ((g.perform c).game.players.get? id).map Player.bare =
    (g.players.get? id).map Player.bare
  item : (g.apply c).game.items.get? id = g.items.get? id
  kept : (∃ p ∈ (g.apply c).evicted, p.id = id) ∨
    ((g.apply c).game.players.get? id).map Player.bare = (g.players.get? id).map Player.bare

theorem spares_of_settle (hk : g.Keyed)
    (hplayers : (g.settle c).players.get? id = g.players.get? id)
    (hitems : (g.settle c).items = g.items) : g.Spares c id where
  player := by
    rw [perform_game hk, get?_deliver, hplayers, Option.map_map]
    exact congrArg (Option.map · _) (funext fun p => p.bare_receive _)
  item := by rw [items_apply hk, hitems]
  kept := by
    have hget := get?_apply hk c id
    split at hget
    · rename_i hmem
      obtain ⟨p, hp, hid⟩ := List.mem_map.1 hmem
      exact .inl ⟨p, hp, hid⟩
    · right
      rw [hget, hplayers, Option.map_map]
      exact congrArg (Option.map · _) (funext fun p => p.bare_receive _)

theorem accepts_addPlayer (hk : g.Keyed) {p : Player}
    (h : g.directory.contains p.id = false) : g.Accepts (.addPlayer p) p.id .player where
  free := h
  registered := by
    rw [perform_game hk, settle, if_neg (Bool.eq_false_iff.1 h)]
    exact (EntityMap.get?_insert ..).trans (if_pos rfl)
  unreturned := by
    show (g.perform (.addPlayer p)).parted = none
    simp only [perform, addPlayer_eq hk h, if_true]

theorem accepts_addItem (hk : g.Keyed) {d : DroppedItem}
    (h : g.directory.contains d.id = false) : g.Accepts (.addItem d) d.id .item where
  free := h
  registered := by
    rw [perform_game hk, settle, if_neg (Bool.eq_false_iff.1 h)]
    exact (EntityMap.get?_insert ..).trans (if_pos rfl)
  unreturned := rfl

end Game

/-! ## Clients -/

namespace Lobby

variable {κ : Type} {L : Lobby κ}

theorem length_replies_grant (L : Lobby κ) :
    L.grant.replies.length = L.replies.length + 1 := List.length_append

def ids : ℕ := 2147483647

theorem toInt_ofNat {n : ℕ} (h : n ≤ ids) : (Int32.ofNat n).toInt = n :=
  Int32.toInt_ofNat_of_lt (by unfold ids at h; omega)

theorem successor_ofNat {n : ℕ} (h : n < ids) :
    Directory.successor (Int32.ofNat n) = Int32.ofNat (n + 1) := by
  have hmax : Int32.ofNat n ≠ Int32.maxValue := fun hmax => by
    have hn := toInt_ofNat h.le
    rw [hmax, Int32.toInt_maxValue] at hn
    unfold ids at h
    omega
  rw [Directory.successor, if_neg hmax, Int32.ofNat_add]
  rfl

/-- What was handed out are the first ids in order, and whatever is registered was registered by the
only client that has its id. -/
structure Sound (L : Lobby κ) : Prop where
  consistent : L.game.Consistent
  replies : L.replies = (List.range L.replies.length).map fun n => .id (Int32.ofNat (n + 1))
  next : L.replies.length < ids →
    L.game.directory.next = Int32.ofNat (L.replies.length + 1)
  handed : ∀ k id, (L.standing k).id? = some id →
    1 ≤ id.toInt ∧ id.toInt ≤ L.replies.length
  apart : ∀ k l id, (L.standing k).id? = some id → (L.standing l).id? = some id → k = l
  owned : ∀ id, L.game.directory.contains id → ∃ k, L.standing k = .added id

namespace Sound

theorem free (h : L.Sound) {k : κ} {id : EntityId} (hk : L.standing k = .holding id) :
    L.game.directory.contains id = false := by
  refine Bool.eq_false_iff.2 fun hin => ?_
  obtain ⟨l, hl⟩ := h.owned id hin
  obtain rfl := h.apart k l id (by rw [hk]; rfl) (by rw [hl]; rfl)
  cases hk.symm.trans hl

theorem fresh (h : L.Sound) (hroom : L.replies.length < ids) :
    L.game.directory.contains L.game.directory.next = false := by
  refine Bool.eq_false_iff.2 fun hin => ?_
  obtain ⟨l, hl⟩ := h.owned _ hin
  have hle := (h.handed l _ (by rw [hl]; rfl)).2
  rw [h.next hroom, toInt_ofNat hroom] at hle
  omega

theorem reply_eq (h : L.Sound) (hroom : L.replies.length < ids) :
    (L.game.apply .allocateId).reply = .id (Int32.ofNat (L.replies.length + 1)) := by
  show (L.game.perform .allocateId).reply = _
  simp only [Game.perform, Directory.allocate_of_free (h.fresh hroom), h.next hroom]
  rfl

theorem grant (h : L.Sound) (hroom : L.replies.length < ids) : L.grant.Sound where
  consistent := h.consistent.apply .allocateId
  replies := by
    rw [length_replies_grant, Lobby.grant, h.reply_eq hroom, List.range_succ, List.map_append,
      ← h.replies]
    rfl
  next hlt := by
    rw [length_replies_grant] at hlt ⊢
    rw [Lobby.grant, Game.next_apply h.consistent.keyed]
    show L.game.directory.allocate.2.next = _
    rw [Directory.allocate_of_free (h.fresh hroom), h.next hroom, successor_ofNat hlt]
  handed k id hid := by
    obtain ⟨hlo, hhi⟩ := h.handed k id hid
    rw [length_replies_grant]
    exact ⟨hlo, by omega⟩
  apart := h.apart
  owned id hin := by
    obtain hin | ⟨kind, hkind⟩ := Game.contains_of_contains_apply h.consistent.keyed hin
    · exact h.owned id hin
    · cases hkind

theorem submit (h : L.Sound) {c : Command} (hc : c ≠ .allocateId) (hentering : c.entering = none) :
    (L.submit c).Sound where
  consistent := h.consistent.apply c
  replies := h.replies
  next hlt := by
    rw [Lobby.submit, Game.next_apply h.consistent.keyed, Game.next_settle hc]
    exact h.next hlt
  handed := h.handed
  apart := h.apart
  owned id hin := by
    obtain hin | ⟨kind, hkind⟩ := Game.contains_of_contains_apply h.consistent.keyed hin
    · exact h.owned id hin
    · cases hentering.symm.trans hkind

theorem attend (h : L.Sound) (connection : ℕ) (f : Inbox → Inbox) :
    ({ L with game := L.game.attend connection f } : Lobby κ).Sound :=
  ⟨h.consistent.attend connection f, h.replies, h.next, h.handed, h.apart, h.owned⟩

theorem event (h : L.Sound) {e : Event} (he : e.Impersonal) :
    ({ L with game := L.game.step e } : Lobby κ).Sound := by
  cases e with
  | submit c =>
    cases c with
    | multicast packet except => exact h.submit (by simp) rfl
    | say text => exact h.submit (by simp) rfl
    | tick => exact h.submit (by simp) rfl
    | query q => exact h.submit (by simp) rfl
    | _ => exact he.elim
  | read connection n => exact h.attend connection (·.read n)
  | hangUp connection => exact h.attend connection (·.abandon)

theorem new (config : GameConfig) (time : Int64) : (Lobby.new config time : Lobby κ).Sound where
  consistent := .new config time
  replies := rfl
  next _ := rfl
  handed k id hid := by cases hid
  apart k l id hid := by cases hid
  owned id hin := by cases hin

theorem mem_replies (h : L.Sound) {k : κ} {id : EntityId} (hid : (L.standing k).id? = some id) :
    .id id ∈ L.replies := by
  obtain ⟨hlo, hhi⟩ := h.handed k id hid
  rw [h.replies, List.mem_map]
  refine ⟨id.toInt.toNat - 1, List.mem_range.2 (by omega), congrArg Reply.id ?_⟩
  rw [← Int32.toInt_inj, toInt_ofNat (by have := id.toInt_lt; unfold ids; omega)]
  omega

theorem nodup (h : L.Sound) (hroom : L.replies.length ≤ ids) : L.replies.Nodup := by
  rw [h.replies]
  refine List.nodup_range.map_on fun n hn m hm heq => ?_
  rw [List.mem_range] at hn hm
  have hint := congrArg Int32.toInt (Reply.id.inj heq)
  rw [toInt_ofNat (by omega), toInt_ofNat (by omega)] at hint
  omega

theorem accepted (h : L.Sound) {k : κ} {id : EntityId} (hk : L.standing k = .holding id)
    (newcomer : Newcomer) : L.game.Accepts (newcomer.command id) id newcomer.kind := by
  cases newcomer with
  | player p => exact Game.accepts_addPlayer (p := { p with id }) h.consistent.keyed (h.free hk)
  | item d => exact Game.accepts_addItem (d := { d with id }) h.consistent.keyed (h.free hk)

theorem spared (h : L.Sound) {id other : EntityId} (hne : id ≠ other) (deed : Deed) :
    L.game.Spares (deed.command id) other := by
  refine Game.spares_of_settle h.consistent.keyed ?_ ?_
  · cases deed with
    | move position orientation =>
      rw [Deed.command, Game.settle, Game.movePlayer, EntityMap.get?_modify, if_neg hne]
    | remove =>
      rw [Deed.command, Game.settle]
      split
      · rw [Game.get?_forget, if_neg hne]
      · rfl
  · cases deed with
    | move position orientation => rfl
    | remove =>
      rw [Deed.command, Game.settle]
      split <;> rfl

end Sound

/-- What an onlooker may rely on. Ids are handed out in order and go to one client each, which can
always use its id, and nothing that it does under that id changes what another client has added. -/
structure Orderly (L : Lobby κ) : Prop where
  replies : L.replies = (List.range L.replies.length).map fun n => .id (Int32.ofNat (n + 1))
  nodup : L.replies.Nodup
  handed : ∀ k id, (L.standing k).id? = some id → .id id ∈ L.replies
  apart : ∀ k l id, (L.standing k).id? = some id → (L.standing l).id? = some id → k = l
  owned : ∀ id, L.game.directory.contains id → ∃ k, L.standing k = .added id
  accepted : ∀ k id (newcomer : Newcomer), L.standing k = .holding id →
    L.game.Accepts (newcomer.command id) id newcomer.kind
  spared : ∀ k id (deed : Deed), (L.standing k).id? = some id → ∀ l ≠ k, ∀ other,
    L.standing l = .added other → L.game.Spares (deed.command id) other

variable [DecidableEq κ]

theorem standing_stand (L : Lobby κ) (k l : κ) (now : Standing) :
    (L.stand k now).standing l = if l = k then now else L.standing l :=
  Function.update_apply ..

theorem length_replies_allocate {k : κ} (hk : L.standing k = .outside) :
    (L.step (.allocate k)).replies.length = L.replies.length + 1 := by
  simp only [step, hk]
  cases (L.game.apply .allocateId).reply <;> exact L.length_replies_grant

theorem length_replies_le_step (L : Lobby κ) (turn : Turn κ) :
    L.replies.length ≤ (L.step turn).replies.length := by
  cases turn with
  | allocate k =>
    cases hk : L.standing k with
    | outside => exact (length_replies_allocate hk).ge.trans' (Nat.le_succ _)
    | _ => simp only [step, hk, le_refl]
  | allocateUnclaimed => exact L.length_replies_grant.ge.trans' (Nat.le_succ _)
  | add k newcomer =>
    rw [step]
    split <;> exact le_refl _
  | act k deed =>
    rw [step]
    split <;> exact le_refl _
  | other e h => exact le_refl _

theorem length_replies_le_run (L : Lobby κ) (turns : List (Turn κ)) :
    L.replies.length ≤ (L.run turns).replies.length := by
  induction turns generalizing L with
  | nil => exact le_refl _
  | cons turn turns ih => exact (L.length_replies_le_step turn).trans (ih _)

namespace Sound

/-- A client gets an id that no other client has, and with it what is registered under that id. -/
theorem stand (h : L.Sound) {g : Game} (hg : g.Consistent)
    (hnext : g.directory.next = L.game.directory.next) {k : κ} {id : EntityId} {now : Standing}
    (hid : now.id? = some id) (hle : 1 ≤ id.toInt ∧ id.toInt ≤ L.replies.length)
    (halone : ∀ l ≠ k, (L.standing l).id? ≠ some id)
    (howned : ∀ i, g.directory.contains i →
      now = .added i ∨ ∃ l ≠ k, L.standing l = .added i) :
    ({ L with game := g }.stand k now : Lobby κ).Sound where
  consistent := hg
  replies := h.replies
  next hlt := hnext.trans (h.next hlt)
  handed l i hl := by
    rw [standing_stand] at hl
    split at hl
    · cases hid.symm.trans hl
      exact hle
    · exact h.handed l i hl
  apart l m i hl hm := by
    rw [standing_stand] at hl hm
    split at hl <;> split at hm <;> rename_i hlk hmk
    · rw [hlk, hmk]
    · cases hid.symm.trans hl
      exact absurd hm (halone m hmk)
    · cases hid.symm.trans hm
      exact absurd hl (halone l hlk)
    · exact h.apart l m i hl hm
  owned i hin := by
    obtain hnow | ⟨l, hlk, hl⟩ := howned i hin
    · exact ⟨k, by rw [standing_stand, if_pos rfl, hnow]⟩
    · exact ⟨l, by rw [standing_stand, if_neg hlk, hl]⟩

theorem hold (h : L.Sound) (hroom : L.replies.length < ids) {k : κ}
    (hk : L.standing k = .outside) :
    (L.grant.stand k (.holding (Int32.ofNat (L.replies.length + 1)))).Sound := by
  have hgrant := h.grant hroom
  have hlength := L.length_replies_grant
  have hfresh := toInt_ofNat (show L.replies.length + 1 ≤ ids from hroom)
  refine hgrant.stand hgrant.consistent rfl rfl ⟨by omega, by omega⟩ (fun l _ hl => ?_)
    fun i hin => ?_
  · have := (h.handed l _ hl).2
    omega
  · obtain ⟨l, hl⟩ := hgrant.owned i hin
    refine .inr ⟨l, ?_, hl⟩
    rintro rfl
    cases hk.symm.trans hl

theorem add (h : L.Sound) {k : κ} {id : EntityId} (hk : L.standing k = .holding id)
    (newcomer : Newcomer) : ((L.submit (newcomer.command id)).stand k (.added id)).Sound := by
  have hid : (L.standing k).id? = some id := by rw [hk]; rfl
  have hc : newcomer.command id ≠ .allocateId := by cases newcomer <;> simp [Newcomer.command]
  refine h.stand (h.consistent.apply _) ?_ rfl (h.handed k id hid) (fun l hl hlid => ?_)
    fun i hin => ?_
  · rw [Game.next_apply h.consistent.keyed, Game.next_settle hc]
  · exact hl (h.apart l k id hlid hid)
  · obtain hin | ⟨kind, hkind⟩ := Game.contains_of_contains_apply h.consistent.keyed hin
    · obtain ⟨l, hl⟩ := h.owned i hin
      refine .inr ⟨l, ?_, hl⟩
      rintro rfl
      cases hk.symm.trans hl
    · left
      cases newcomer <;> cases hkind <;> rfl

/-- As long as there are ids, every turn keeps the order. -/
theorem step (h : L.Sound) (turn : Turn κ) (hroom : (L.step turn).replies.length ≤ ids) :
    (L.step turn).Sound := by
  cases turn with
  | allocate k =>
    cases hk : L.standing k with
    | outside =>
      have hlt : L.replies.length < ids := by
        rw [length_replies_allocate hk] at hroom
        omega
      simp only [Lobby.step, hk, h.reply_eq hlt]
      exact h.hold hlt hk
    | _ =>
      simp only [Lobby.step, hk]
      exact h
  | allocateUnclaimed =>
    rw [Lobby.step, length_replies_grant] at hroom
    exact h.grant hroom
  | add k newcomer =>
    rw [Lobby.step]
    cases hk : L.standing k with
    | holding id => exact h.add hk newcomer
    | _ => exact h
  | act k deed =>
    rw [Lobby.step]
    cases hk : (L.standing k).id? with
    | none => exact h
    | some id => cases deed <;> exact h.submit (by simp [Deed.command]) rfl
  | other e he => exact h.event he

theorem run (h : L.Sound) (turns : List (Turn κ)) (hroom : (L.run turns).replies.length ≤ ids) :
    (L.run turns).Sound := by
  induction turns generalizing L with
  | nil => exact h
  | cons turn turns ih =>
    exact ih (h.step turn ((length_replies_le_run _ turns).trans hroom)) hroom

end Sound

/-- Ids are never shared. Clients take ids, add an entity each, move and remove it, in any order,
while others do the same, chat, fall behind, and leave without the id that they asked for: if there
are ids for all of the run, the lobby is orderly at every moment of it. -/
theorem orderly (config : GameConfig) (time : Int64) (turns : List (Turn κ))
    (h : ((new config time : Lobby κ).run turns).replies.length ≤ ids) :
    ∀ done, done <+: turns → ((new config time : Lobby κ).run done).Orderly := by
  rintro done ⟨rest, rfl⟩
  have hdone : ((new config time : Lobby κ).run done).replies.length ≤ ids := by
    refine le_trans ?_ h
    rw [Lobby.run, Lobby.run, List.foldl_append]
    exact length_replies_le_run _ rest
  have hsound := (Sound.new config time).run done hdone
  exact {
    replies := hsound.replies
    nodup := hsound.nodup hdone
    handed := fun k id => hsound.mem_replies
    apart := hsound.apart
    owned := hsound.owned
    accepted := fun k id newcomer hk => hsound.accepted hk newcomer
    spared := fun k id deed hk l hl other hother => hsound.spared (by
      rintro rfl
      exact hl (hsound.apart l k id (by rw [hother]; rfl) hk)) deed }

/-- An id is lost with the client that asked for it; a player comes and goes, an item stays, and the
next client gets an id of its own. -/
theorem orderly_four :
    let turns : List (Turn (Fin 3)) := [.allocate 0, .allocateUnclaimed, .allocate 1,
      .add 1 (.player (Player.guest 9 none)), .other (.submit .tick) trivial, .act 1 .remove,
      .add 0 (.item ⟨9, 4, 1, ⟨0, 0, 0⟩⟩), .allocate 2]
    let L := (new {} 0).run turns
    L.replies = [.id 1, .id 2, .id 3, .id 4] ∧ L.standing 0 = .added 1 ∧
      L.standing 2 = .holding 4 ∧
      (∀ p : Player, L.game.Accepts (.addPlayer { p with id := 4 }) 4 .player) ∧
      L.game.Spares (.removePlayer 4) 1 := by
  intro turns L
  have hlength : L.replies.length = 4 := by rfl
  have hitem : L.standing 0 = .added 1 := by rfl
  have hlast : L.standing 2 = .holding 4 := by rfl
  have hroom : L.replies.length ≤ ids := by rw [hlength]; decide
  have h : L.Orderly := orderly {} 0 turns hroom turns (List.prefix_refl _)
  have hreplies := h.replies
  rw [hlength] at hreplies
  exact ⟨hreplies, hitem, hlast, fun p => h.accepted 2 4 (.player p) hlast,
    h.spared 2 4 .remove (by rw [hlast]; rfl) 0 (by decide) 1 hitem⟩

end Lobby

end BlockWorld
