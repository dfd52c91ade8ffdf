import BlockWorld.Game.Host
import BlockWorld.Game.Queue
import BlockWorld.Proofs.Game.Batch

/-! # Refused commands

Every command ends with the eviction loop, which may change all there is. One that is refused leaves
the game as it was all the same, since it sends nothing and nobody was marked before it.
-/

namespace BlockWorld

open Wire

namespace Game

variable {g : Game} {c : Command} {id : EntityId}

open Player (guest)

/-- Commands that ask for something that cannot be done, or for nothing but an answer. An id is
taken by a player or by an item. -/
def Refuses (g : Game) : Command → Prop
  | .addPlayer p => g.players.contains p.id ∨ g.items.contains p.id
  | .addItem d => g.players.contains d.id ∨ g.items.contains d.id
  | .removePlayer id => g.players.contains id = false
  | .movePlayer id _ _ => g.players.contains id = false
  | .say text => maxStringLength < text.utf8ByteSize
  | .query _ => True
  | .allocateId | .multicast .. | .tick => False

theorem Consistent.contains_iff (h : g.Consistent) :
    g.directory.contains id ↔ g.players.contains id ∨ g.items.contains id := by
  show g.directory.live.contains id = true ↔ _
  rw [← EntityMap.mem_ids, h.ids_live, Finset.mem_union, EntityMap.mem_ids, EntityMap.mem_ids]

theorem Consistent.not_player_of_item (h : g.Consistent) (hi : g.items.contains id) :
    g.players.contains id = false := by
  rw [← EntityMap.mem_ids] at hi
  rw [Bool.eq_false_iff, ne_eq, ← EntityMap.mem_ids]
  exact Finset.disjoint_right.1 h.disjoint hi

theorem movePlayer_of_missing (h : g.players.contains id = false) (position : Option Position)
    (orientation : Option Orientation) : g.movePlayer id position orientation = g := by
  have hmodify : ∀ f : Player → Player, g.players.modify id f = g.players := fun f =>
    EntityMap.ext_get? fun k => by
      rw [EntityMap.get?_modify]
      split
      · rename_i hid
        rw [← hid, EntityMap.contains_eq_false_iff.1 h]
        rfl
      · rfl
  rw [movePlayer, hmodify]

theorem Refuses.settle_eq (h : g.Refuses c) (hg : g.Consistent) : g.settle c = g := by
  cases c with
  | addPlayer p => exact if_pos (hg.contains_iff.2 h)
  | addItem d => exact if_pos (hg.contains_iff.2 h)
  | removePlayer id => exact if_neg (Bool.eq_false_iff.1 h)
  | movePlayer id position orientation => exact movePlayer_of_missing h position orientation
  | say text | query q => rfl
  | allocateId | multicast packet except | tick => exact h.elim

theorem Refuses.mail_eq (h : g.Refuses c) (hg : g.Consistent) : g.mail c = fun _ => [] := by
  cases c with
  | addPlayer p => exact if_pos (hg.contains_iff.2 h)
  | addItem d => exact if_pos (hg.contains_iff.2 h)
  | removePlayer id => rw [mail, EntityMap.contains_eq_false_iff.1 h]; rfl
  | movePlayer id position orientation | query q => rfl
  | say text =>
    funext p
    exact buffers_chat_of_long (Nat.not_le.2 h)
  | allocateId | multicast packet except | tick => exact h.elim

theorem apply_of_silent (hk : g.Keyed) (hu : (g.settle c).Unstalled)
    (hmail : g.mail c = fun _ => []) :
    (g.apply c).game = g.settle c ∧ (g.apply c).evicted = [] := by
  have hdeliver : (g.settle c).deliver (g.mail c) = g.settle c := by
    rw [hmail, deliver_nothing]
  have happly := apply_of_unstalled hk (hdeliver.symm ▸ hu)
  rwa [hdeliver] at happly

theorem Refuses.apply_eq (h : g.Refuses c) (hg : g.Consistent) (hu : g.Unstalled) :
    (g.apply c).game = g ∧ (g.apply c).evicted = [] := by
  have hsettle := h.settle_eq hg
  have happly := apply_of_silent hg.keyed (hsettle.symm ▸ hu) (h.mail_eq hg)
  rwa [hsettle] at happly

theorem Refuses.parted_eq {p : Player} (h : g.Refuses (.addPlayer p)) (hg : g.Consistent) :
    (g.apply (.addPlayer p)).parted = some p := by
  show (if (g.addPlayer p).2 then none else some p) = some p
  rw [addPlayer_of_contains (hg.contains_iff.2 h)]
  rfl

theorem allocateId_eq (hk : g.Keyed) (hu : g.Unstalled) :
    (∃ next, (g.apply .allocateId).game = { g with directory := { g.directory with next } }) ∧
      (g.apply .allocateId).evicted = [] := by
  obtain ⟨hgame, hevicted⟩ := apply_of_silent (c := .allocateId) hk hu rfl
  refine ⟨?_, hevicted⟩
  rw [hgame, settle, Directory.allocate]
  split
  · exact ⟨_, rfl⟩
  · exact ⟨g.directory.next, rfl⟩

theorem addItem_of_not_proper (hk : g.Keyed) (hu : g.Unstalled) {d : DroppedItem}
    (hfree : g.directory.contains d.id = false) (hd : ¬ d.Proper) :
    (g.apply (.addItem d)).game = { g with
      directory := { g.directory with live := g.directory.live.insert d.id .item }
      items := g.items.insert d.id d } ∧ (g.apply (.addItem d)).evicted = [] := by
  have hsettle : g.settle (.addItem d) = { g with
      directory := { g.directory with live := g.directory.live.insert d.id .item }
      items := g.items.insert d.id d } := by
    simp [settle, hfree]
  have hmail : g.mail (.addItem d) = fun _ => [] := by
    simp [mail, hfree, DroppedItem.buffers_of_not_proper hd]
  rw [← hsettle]
  exact apply_of_silent hk (hsettle ▸ hu) hmail

/-- The connection of a player that is refused finds its inbox as it was, and closed. -/
theorem Refuses.collect_eq {h : Host} {p : Player} (heq : h.game = g)
    (hp : g.Refuses (.addPlayer p)) (hg : g.Consistent) (hu : g.Unstalled)
    (hatt : p.inbox.attended = true)
    (hown : ∀ q ∈ g.players.values ++ h.parted, q.connection ≠ p.connection) :
    (h.submit (.addPlayer p)).1.game = g ∧
      ((h.submit (.addPlayer p)).1.collect p.connection).1 = ⟨p.inbox.waiting, true⟩ := by
  subst heq
  obtain ⟨hgame, hevicted⟩ := hp.apply_eq hg hu
  have hsubmit : (h.submit (.addPlayer p)).1 = { game := h.game, parted := h.parted ++ [p] } := by
    simp [Host.submit, hgame, Step.departed, hp.parted_eq hg, hevicted, hatt]
  have hplayers : h.game.players.values.find? (·.connection == p.connection) = none := by
    refine List.find?_eq_none.2 fun q hq => ?_
    simpa using hown q (List.mem_append_left _ hq)
  have hparted : (h.parted ++ [p]).find? (·.connection == p.connection) = some p := by
    have hothers : h.parted.find? (·.connection == p.connection) = none := by
      refine List.find?_eq_none.2 fun q hq => ?_
      simpa using hown q (List.mem_append_right _ hq)
    rw [List.find?_append, hothers]
    simp
  rw [hsubmit, Host.collect, hplayers]
  simp only [hparted, and_self]

/-- In every game, a command that is refused changes nothing, neither the inboxes nor the next id,
and evicts nobody; and what is not a player is not removed or moved, be it an item. The connection
of a player that is refused finds its inbox closed, with nothing added. Handing out an id changes
only the next id, and an item in a stack of no proper size is registered but told to nobody.
Whatever has become of the one who waits for an answer makes no difference to the game. -/
theorem refused_changes_nothing {ι : Type} [DecidableEq ι] (config : GameConfig) (time : Int64)
    (es : List Event) :
    let g := (Game.new config time).run es
    (∀ c, g.Refuses c → (g.apply c).game = g ∧ (g.apply c).evicted = []) ∧
    (∀ id, g.items.contains id → g.Refuses (.removePlayer id) ∧
      ∀ position orientation, g.Refuses (.movePlayer id position orientation)) ∧
    (∀ (h : Host) (p : Player), h.game = g → g.Refuses (.addPlayer p) → p.inbox.attended = true →
      (∀ q ∈ g.players.values ++ h.parted, q.connection ≠ p.connection) →
      (h.submit (.addPlayer p)).1.game = g ∧
      ((h.submit (.addPlayer p)).1.collect p.connection).1 = ⟨p.inbox.waiting, true⟩) ∧
    ((∃ next, (g.apply .allocateId).game = { g with directory := { g.directory with next } }) ∧
      (g.apply .allocateId).evicted = []) ∧
    (∀ d : DroppedItem, g.directory.contains d.id = false → ¬ d.Proper →
      (g.apply (.addItem d)).game = { g with
        directory := { g.directory with live := g.directory.live.insert d.id .item }
        items := g.items.insert d.id d } ∧ (g.apply (.addItem d)).evicted = []) ∧
    ∀ (s : QueuedGame ι) (i : ι) (call : Call) queue (p : Producer), s.game = g →
      s.queue = (i, call) :: queue → (∀ q, call = .ask q → (s.setProducer i p).apply.game = g) ∧
      (call = .allocateId → ∃ next, (s.setProducer i p).apply.game =
        { g with directory := { g.directory with next } }) := by
  intro g
  have hg : g.Consistent := (Consistent.new config time).run es
  have hu : g.Unstalled := unstalled_run_new config time es
  have hrefused : ∀ c, g.Refuses c → (g.apply c).game = g ∧ (g.apply c).evicted = [] :=
    fun c hc => hc.apply_eq hg hu
  refine ⟨hrefused, fun id hi => ?_, ?_, allocateId_eq hg.keyed hu, ?_, ?_⟩
  · have hmissing := hg.not_player_of_item hi
    exact ⟨hmissing, fun _ _ => hmissing⟩
  · exact fun h p heq hp hatt hown => hp.collect_eq heq hg hu hatt hown
  · exact fun d hfree hd => addItem_of_not_proper hg.keyed hu hfree hd
  · intro s i call queue p hs hqueue
    have hserved : (s.setProducer i p).apply.game = (g.apply call.command).game := by
      have hqueue' : (s.setProducer i p).queue = (i, call) :: queue := hqueue
      rw [QueuedGame.apply, hqueue', ← hs]
      rfl
    rw [hserved]
    refine ⟨?_, ?_⟩
    · rintro q rfl
      exact (hrefused (.query q) trivial).1
    · rintro rfl
      exact (allocateId_eq hg.keyed hu).1

/-- A second guest of the same id is turned away, and nobody leaves who is not there. -/
theorem refused_changes_nothing_guest :
    let g := (Game.new {} 0).run [.submit (.addPlayer (guest 1 none))]
    let again : Player := { guest 1 none with connection := 7 }
    (g.apply (.addPlayer again)).game = g ∧ (g.apply (.removePlayer 2)).game = g ∧
      (({ game := g : Host }.submit (.addPlayer again)).1.collect 7).1 = ⟨[], true⟩ := by
  intro g again
  obtain ⟨hrefused, -, hcollect, -⟩ := @refused_changes_nothing Unit _ {} 0
    [.submit (.addPlayer (guest 1 none))]
  have hagain : g.Refuses (.addPlayer again) := .inl rfl
  have hmissing : g.Refuses (.removePlayer 2) := rfl
  have hown : ∀ q ∈ g.players.values ++ [], q.connection ≠ again.connection := by decide
  exact ⟨(hrefused _ hagain).1, (hrefused _ hmissing).1,
    (hcollect { game := g } again rfl hagain rfl hown).2⟩

end Game

end BlockWorld
