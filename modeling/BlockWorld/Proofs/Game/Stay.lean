import BlockWorld.Proofs.Game.Ownership
import BlockWorld.Proofs.Game.Refusal

/-! # From join to leave

A player is registered from the moment at which it joins until it is removed or evicted, and an item
from the moment at which it is dropped. In between each is what its own commands have made of it:
ids come back and commands name ids of the wrong kind, but no command has an effect on an entity
other than that of its id.
-/

namespace BlockWorld

namespace Event

def position? (id : EntityId) : Event → Option Position
  | .submit (.movePlayer k position _) => if k = id then position else none
  | _ => none

def orientation? (id : EntityId) : Event → Option Orientation
  | .submit (.movePlayer k _ orientation) => if k = id then orientation else none
  | _ => none

end Event

/-- The last value that an event of the run supplies, or `a` if none does. -/
def lastSupplied {α : Type} (supply : Event → Option α) (a : α) (es : List Event) : α :=
  (es.filterMap supply).getLast?.getD a

theorem lastSupplied_cons {α : Type} (supply : Event → Option α) (a : α) (e : Event)
    (es : List Event) :
    lastSupplied supply a (e :: es) = lastSupplied supply ((supply e).getD a) es := by
  unfold lastSupplied
  cases h : supply e with
  | none => rw [List.filterMap_cons_none h, Option.getD_none]
  | some b =>
    rw [List.filterMap_cons_some h, List.getLast?_cons, Option.getD_some, Option.getD_some]

namespace Player

/-- What an event makes of a player that stays, its inbox apart. -/
def guided (p : Player) (e : Event) : Player :=
  { p with
    position := (e.position? p.id).getD p.position
    orientation := (e.orientation? p.id).getD p.orientation }

theorem foldl_guided (p : Player) (es : List Event) :
    es.foldl guided p = { p with
      position := lastSupplied (·.position? p.id) p.position es
      orientation := lastSupplied (·.orientation? p.id) p.orientation es } := by
  induction es generalizing p with
  | nil => rfl
  | cons e es ih =>
    rw [List.foldl_cons, ih, lastSupplied_cons, lastSupplied_cons]
    rfl

theorem foldl_guided_bare {p q : Player} (h : p.bare = q.bare) (es : List Event) :
    (es.foldl guided p).bare = (es.foldl guided q).bare := by
  have hbare : ∀ r : Player, (es.foldl guided r).bare = es.foldl guided r.bare := fun r => by
    rw [foldl_guided, foldl_guided]
    rfl
  rw [hbare, hbare, h]

end Player

namespace Game

variable {g : Game} {id : EntityId} {c : Command} {e : Event} {es : List Event} {p q : Player}
  {d : DroppedItem}

/-! ## Histories -/

/-- `P` holds of every event of a run, in the game as it then is. -/
def Throughout (P : Game → Event → Prop) (g : Game) : List Event → Prop
  | [] => True
  | e :: es => P g e ∧ (g.step e).Throughout P es

theorem throughout_of_forall {P : Game → Event → Prop} (h : ∀ g e, P g e) (g : Game)
    (es : List Event) : g.Throughout P es := by
  induction es generalizing g with
  | nil => trivial
  | cons e es ih => exact ⟨h g e, ih (g.step e)⟩

/-- What an event leaves alone or brings about has been so after a run since its beginning, or since
an event in it. -/
theorem Consistent.holds_run_iff {H : Game → Prop} {keeps brings : Game → Event → Prop}
    (hstep : ∀ {g : Game} {e}, g.Consistent → (H (g.step e) ↔ keeps g e ∧ (H g ∨ brings g e)))
    (h : g.Consistent) : H (g.run es) ↔ (H g ∧ g.Throughout keeps es) ∨
      ∃ before e since, es = before ++ e :: since ∧ brings (g.run before) e ∧
        (g.run before).Throughout keeps (e :: since) := by
  induction es generalizing g with
  | nil => simp [Throughout]
  | cons f es ih =>
    rw [run_cons, ih (h.step f), hstep h]
    constructor
    · rintro (⟨⟨hf, hin | hbrings⟩, hes⟩ | ⟨before, e, since, rfl, hbrings, hsince⟩)
      · exact .inl ⟨hin, hf, hes⟩
      · exact .inr ⟨[], f, es, rfl, hbrings, hf, hes⟩
      · exact .inr ⟨f :: before, e, since, rfl, hbrings, hsince⟩
    · rintro (⟨hin, hf, hes⟩ | ⟨before, e, since, heq, hbrings, hsince⟩)
      · exact .inl ⟨⟨hf, .inl hin⟩, hes⟩
      · cases before with
        | nil =>
          obtain ⟨rfl, rfl⟩ := List.cons.inj heq
          exact .inl ⟨⟨hsince.1, .inr hbrings⟩, hsince.2⟩
        | cons f' before =>
          obtain ⟨rfl, rfl⟩ := List.cons.inj heq
          exact .inr ⟨before, e, since, rfl, hbrings, hsince⟩

/-! ## Leaving -/

def Dismisses (g : Game) (id : EntityId) : Event → Prop
  | .submit c => c = .removePlayer id ∨ id ∈ (g.apply c).evicted.map (·.id)
  | _ => False

def Keeps (g : Game) (id : EntityId) (es : List Event) : Prop :=
  g.Throughout (fun r e => ¬ r.Dismisses id e) es

theorem Consistent.settle_kept (h : g.Consistent) (hp : g.players.get? id = some p)
    (hc : c ≠ .removePlayer id) :
    (g.settle c).players.get? id = some (p.guided (.submit c)) := by
  obtain rfl := h.keyed id p hp
  have hlive : g.directory.contains p.id = true :=
    h.contains_iff.2 (.inl (EntityMap.contains_iff.2 ⟨p, hp⟩))
  cases c with
  | addPlayer r =>
    rw [Game.settle]
    split
    · exact hp
    · rename_i hfree
      have hne : r.id ≠ p.id := fun hid => hfree (hid ▸ hlive)
      exact get?_enrol_eq_some_iff.2 (.inr ⟨hne, hp⟩)
  | removePlayer k =>
    have hne : k ≠ p.id := fun hk => hc (hk ▸ rfl)
    rw [Game.settle]
    split
    · exact get?_forget_eq_some_iff.2 ⟨hne, hp⟩
    · exact hp
  | movePlayer k position orientation =>
    rw [Game.settle, movePlayer, EntityMap.get?_modify, hp]
    by_cases hk : k = p.id <;> simp [hk, Player.guided, Event.position?, Event.orientation?]
  | addItem d =>
    rw [Game.settle]
    split <;> exact hp
  | _ => exact hp

theorem Consistent.step_kept (h : g.Consistent) (hp : g.players.get? id = some p)
    (he : ¬ g.Dismisses id e) :
    ∃ q, (g.step e).players.get? id = some q ∧ q.bare = (p.guided e).bare := by
  cases e with
  | submit c =>
    obtain ⟨hremoved, hevicted⟩ := not_or.1 he
    have hget := get?_apply h.keyed c id
    rw [if_neg hevicted, h.settle_kept hp hremoved] at hget
    exact ⟨_, hget, Player.bare_receive ..⟩
  | read connection n | hangUp connection =>
    refine ⟨_, get?_attend_eq_some_iff.2 ⟨p, hp, rfl⟩, ?_⟩
    split <;> rfl

theorem Consistent.run_kept (h : g.Consistent) (hp : g.players.get? id = some p)
    (hes : g.Keeps id es) :
    ∃ q, (g.run es).players.get? id = some q ∧ q.bare = (es.foldl Player.guided p).bare := by
  induction es generalizing g p with
  | nil => exact ⟨p, hp, rfl⟩
  | cons e es ih =>
    obtain ⟨r, hr, hbare⟩ := h.step_kept hp hes.1
    obtain ⟨q, hq, hlast⟩ := ih (h.step e) hr hes.2
    exact ⟨q, hq, hlast.trans (Player.foldl_guided_bare hbare es)⟩

theorem contains_of_dismisses (hk : g.Keyed) (he : g.Dismisses id e) :
    (g.step e).players.contains id = false := by
  rw [EntityMap.contains_eq_false_iff]
  cases e with
  | submit c =>
    refine (get?_apply hk c id).trans ?_
    split
    · rfl
    · rename_i hstays
      obtain rfl := he.resolve_right hstays
      rw [Option.map_eq_none_iff, Game.settle]
      split
      · rw [get?_forget, if_pos rfl]
      · exact EntityMap.contains_eq_false_iff.1 (Bool.eq_false_of_not_eq_true ‹_›)
  | read connection n | hangUp connection => exact he.elim

/-! ## Joining -/

/-- The player `p` joins after the events `before`, and has not left in the events since. -/
structure Stays (g : Game) (before : List Event) (p : Player) (since : List Event) : Prop where
  accepted : (g.run before).Accepts (.addPlayer p) p.id .player
  kept : (g.run before).Keeps p.id (.submit (.addPlayer p) :: since)

theorem get?_settle_joined (hfree : g.directory.contains p.id = false) :
    (g.settle (.addPlayer p)).players.get? p.id = some p := by
  rw [settle, if_neg (Bool.eq_false_iff.1 hfree)]
  exact get?_enrol_eq_some_iff.2 (.inl ⟨rfl, rfl⟩)

theorem Consistent.step_joined (h : g.Consistent) (hfree : g.directory.contains p.id = false)
    (hp : ¬ g.Dismisses p.id (.submit (.addPlayer p))) :
    ∃ q, (g.step (.submit (.addPlayer p))).players.get? p.id = some q ∧ q.bare = p.bare := by
  have hget := get?_apply h.keyed (.addPlayer p) p.id
  rw [if_neg (not_or.1 hp).2, get?_settle_joined hfree] at hget
  exact ⟨_, hget, Player.bare_receive ..⟩

theorem Consistent.contains_of_settle (h : g.Consistent)
    (hp : (g.settle c).players.get? id = some p) : g.players.contains id ∨
      c = .addPlayer p ∧ p.id = id ∧ g.Accepts (.addPlayer p) id .player := by
  rcases settle_player hp with ⟨q, hq, -⟩ | rfl
  · exact .inl (EntityMap.contains_iff.2 ⟨q, hq⟩)
  · obtain rfl := h.keyed.settle _ id p hp
    cases hfree : g.directory.contains p.id with
    | true =>
      rw [Game.settle, if_pos hfree] at hp
      exact .inl (EntityMap.contains_iff.2 ⟨p, hp⟩)
    | false => exact .inr ⟨rfl, rfl, accepts_addPlayer h.keyed hfree⟩

theorem Consistent.contains_step_iff (h : g.Consistent) :
    (g.step e).players.contains id ↔ ¬ g.Dismisses id e ∧ (g.players.contains id ∨
      ∃ p, e = .submit (.addPlayer p) ∧ p.id = id ∧ g.Accepts (.addPlayer p) id .player) := by
  constructor
  · intro hid
    refine ⟨fun he => ?_, ?_⟩
    · rw [contains_of_dismisses h.keyed he] at hid
      cases hid
    obtain ⟨q, hq⟩ := EntityMap.contains_iff.1 hid
    cases e with
    | submit c =>
      have hget := (get?_apply h.keyed c id).symm.trans hq
      split at hget
      · cases hget
      · obtain ⟨p, hp, -⟩ := Option.map_eq_some_iff.1 hget
        rcases h.contains_of_settle hp with hin | ⟨rfl, hjoin⟩
        · exact .inl hin
        · exact .inr ⟨p, rfl, hjoin⟩
    | read connection n | hangUp connection =>
      obtain ⟨p, hp, -⟩ := get?_attend_eq_some_iff.1 hq
      exact .inl (EntityMap.contains_iff.2 ⟨p, hp⟩)
  · rintro ⟨he, hid | ⟨p, rfl, rfl, haccepts⟩⟩
    · obtain ⟨p, hp⟩ := EntityMap.contains_iff.1 hid
      obtain ⟨q, hq, -⟩ := h.step_kept hp he
      exact EntityMap.contains_iff.2 ⟨q, hq⟩
    · obtain ⟨q, hq, -⟩ := h.step_joined haccepts.free he
      exact EntityMap.contains_iff.2 ⟨q, hq⟩

/-- Whoever is registered after a run has stayed since its beginning, or since a join in it. -/
theorem Consistent.contains_run_iff (h : g.Consistent) :
    (g.run es).players.contains id ↔ (g.players.contains id ∧ g.Keeps id es) ∨
      ∃ before p since, es = before ++ .submit (.addPlayer p) :: since ∧ p.id = id ∧
        g.Stays before p since := by
  rw [holds_run_iff (H := fun r => r.players.contains id) (fun h => h.contains_step_iff) h]
  refine or_congr_right ⟨?_, ?_⟩
  · rintro ⟨before, _, since, rfl, ⟨p, rfl, rfl, haccepts⟩, hkept⟩
    exact ⟨before, p, since, rfl, rfl, haccepts, hkept⟩
  · rintro ⟨before, p, since, rfl, rfl, hstays⟩
    exact ⟨before, _, since, rfl, ⟨p, rfl, rfl, hstays.accepted⟩, hstays.kept⟩

theorem contains_run_new_iff (config : GameConfig) (time : Int64) :
    ((Game.new config time).run es).players.contains id ↔ ∃ before p since,
      es = before ++ .submit (.addPlayer p) :: since ∧ p.id = id ∧
        (Game.new config time).Stays before p since := by
  have hnobody : ¬ ((Game.new config time).players.contains id = true ∧
    (Game.new config time).Keeps id es) := nofun
  rw [(Consistent.new config time).contains_run_iff, or_iff_right hnobody]

/-- A player that stays is as it joined but for what its moves have changed. -/
theorem Stays.get?_run {before since : List Event} (hs : g.Stays before p since)
    (h : g.Consistent) : ∃ q,
      (g.run (before ++ .submit (.addPlayer p) :: since)).players.get? p.id = some q ∧
        q.bare = (since.foldl Player.guided p).bare := by
  obtain ⟨r, hr, hjoin⟩ := (h.run before).step_joined hs.accepted.free hs.kept.1
  obtain ⟨q, hq, hbare⟩ := ((h.run before).step _).run_kept hr hs.kept.2
  rw [run_append]
  exact ⟨q, hq, hbare.trans (Player.foldl_guided_bare hjoin since)⟩

/-! ## Items -/

theorem items_settle_of_free (hfree : g.directory.contains d.id = false) :
    (g.settle (.addItem d)).items = g.items.insert d.id d := by
  rw [settle, if_neg (Bool.eq_false_iff.1 hfree)]

theorem items_settle_of_not_dropped
    (hc : ∀ d, c = .addItem d → g.directory.contains d.id = true) :
    (g.settle c).items = g.items := by
  cases c with
  | addPlayer p | removePlayer id =>
    rw [settle]
    split <;> rfl
  | addItem d => rw [settle, if_pos (hc d rfl)]
  | _ => rfl

theorem Consistent.get?_items_step_iff (h : g.Consistent) :
    (g.step e).items.get? id = some d ↔ g.items.get? id = some d ∨
      e = .submit (.addItem d) ∧ d.id = id ∧ g.Accepts (.addItem d) id .item := by
  by_cases he : ∃ d, e = .submit (.addItem d) ∧ g.directory.contains d.id = false
  · obtain ⟨d', rfl, hfree⟩ := he
    have hitems : (g.step (.submit (.addItem d'))).items = g.items.insert d'.id d' :=
      (items_apply h.keyed _).trans (items_settle_of_free hfree)
    rw [hitems, EntityMap.get?_insert]
    split
    · rename_i hid
      have hnone : g.items.get? id = none := by
        rw [← EntityMap.contains_eq_false_iff, ← hid]
        exact Bool.eq_false_iff.2 fun hi => Bool.eq_false_iff.1 hfree (h.contains_iff.2 (.inr hi))
      rw [hnone]
      constructor
      · rintro ⟨⟩
        exact .inr ⟨rfl, hid, hid ▸ accepts_addItem h.keyed hfree⟩
      · rintro (⟨⟨⟩⟩ | ⟨⟨⟩, -⟩)
        rfl
    · rename_i hne
      rw [or_iff_left]
      rintro ⟨⟨⟩, hid, -⟩
      exact hne hid
  · have hitems : (g.step e).items = g.items := by
      cases e with
      | submit c =>
        refine (items_apply h.keyed c).trans (items_settle_of_not_dropped fun d hd => ?_)
        exact Bool.eq_true_of_not_eq_false fun hfree => he ⟨d, hd ▸ rfl, hfree⟩
      | read connection n | hangUp connection => rfl
    rw [hitems, or_iff_left]
    rintro ⟨rfl, rfl, haccepts⟩
    exact he ⟨d, rfl, haccepts.free⟩

/-- What lies there after a run has lain there since its beginning, or since it was dropped. -/
theorem Consistent.get?_items_run_iff (h : g.Consistent) :
    (g.run es).items.get? id = some d ↔ g.items.get? id = some d ∨
      ∃ before since, es = before ++ .submit (.addItem d) :: since ∧ d.id = id ∧
        (g.run before).Accepts (.addItem d) id .item := by
  have hkeeps := throughout_of_forall (P := fun _ _ => True) fun _ _ => trivial
  rw [holds_run_iff (H := fun r => r.items.get? id = some d)
    (fun h => h.get?_items_step_iff.trans (iff_of_eq (true_and _)).symm) h]
  simp only [hkeeps, and_true]
  refine or_congr_right ⟨?_, ?_⟩
  · rintro ⟨before, _, since, rfl, rfl, hdropped⟩
    exact ⟨before, since, rfl, hdropped⟩
  · rintro ⟨before, since, rfl, hdropped⟩
    exact ⟨before, _, since, rfl, rfl, hdropped⟩

/-! ## Whole runs -/

/-- After every run, an item lies there exactly if it was accepted under its id, with all that it
was dropped with, and it is in the directory; a player is registered exactly if it was accepted and
has been neither removed nor evicted since; and it has the name and the item in hand that it joined
with, and the position and the orientation that moves of its id have supplied last since then, each
by itself, or those that it joined with. -/
theorem entities_follow_own_commands (config : GameConfig) (time : Int64) (es : List Event) :
    let start := Game.new config time
    let g := start.run es
    (∀ id d, g.items.get? id = some d ↔ ∃ before since,
      es = before ++ .submit (.addItem d) :: since ∧ d.id = id ∧
        (start.run before).Accepts (.addItem d) id .item) ∧
    (∀ id d, g.items.get? id = some d → g.directory.kind? id = some .item) ∧
    (∀ id, g.players.contains id ↔ ∃ before p since,
      es = before ++ .submit (.addPlayer p) :: since ∧ p.id = id ∧ start.Stays before p since) ∧
    ∀ before p since, es = before ++ .submit (.addPlayer p) :: since → start.Stays before p since →
      ∃ q, g.players.get? p.id = some q ∧ q.name = p.name ∧ q.item = p.item ∧
        q.position = lastSupplied (·.position? p.id) p.position since ∧
        q.orientation = lastSupplied (·.orientation? p.id) p.orientation since := by
  intro start g
  have hstart : start.Consistent := .new config time
  have hg : g.Consistent := hstart.run es
  refine ⟨fun id d => ?_, fun id d hd => ?_, fun id => contains_run_new_iff config time, ?_⟩
  · have hnone : start.items.get? id ≠ some d := nofun
    rw [hstart.get?_items_run_iff, or_iff_right hnone]
  · exact (hg.item_iff id).2 (EntityMap.contains_iff.2 ⟨d, hd⟩)
  · rintro before p since rfl hstays
    obtain ⟨q, hq, hbare⟩ := hstays.get?_run hstart
    rw [Player.foldl_guided] at hbare
    have hname := congrArg Player.name hbare
    have hitem := congrArg Player.item hbare
    have hposition := congrArg Player.position hbare
    have horientation := congrArg Player.orientation hbare
    exact ⟨q, hq, hname, hitem, hposition, horientation⟩

/-- A torch keeps its id from a guest that would have it, and a guest that comes back under its old
id is moved and the torch is not. -/
theorem entities_follow_own_commands_return :
    let torch : DroppedItem := ⟨2, 50, 1, ⟨0, 64, 0⟩⟩
    let back : Player := { Player.guest 1 none with name := "back" }
    let before : List Event := [.submit (.addItem torch),
      .submit (.addPlayer (Player.guest 2 none)), .submit (.addPlayer (Player.guest 1 none)),
      .submit (.removePlayer 2), .submit (.removePlayer 1)]
    let since : List Event := [.submit (.movePlayer 1 (some ⟨8, 64, 8⟩) none),
      .submit (.movePlayer 2 (some ⟨9, 64, 9⟩) none), .submit .tick]
    let g := (Game.new {} 0).run (before ++ .submit (.addPlayer back) :: since)
    g.items.get? 2 = some torch ∧ g.directory.kind? 2 = some .item ∧ g.players.contains 1 ∧
      ∃ q, g.players.get? 1 = some q ∧ q.name = "back" ∧ q.position = ⟨8, 64, 8⟩ ∧
        q.orientation = .ahead := by
  intro torch back before since g
  obtain ⟨hitems, hkind, hplayers, hdata⟩ := entities_follow_own_commands {} 0
    (before ++ .submit (.addPlayer back) :: since)
  have hkeyed : ∀ es, ((Game.new {} 0).run es).Keyed := fun es =>
    ((Consistent.new {} 0).run es).keyed
  have htorch : g.items.get? 2 = some torch :=
    (hitems 2 torch).2 ⟨[], _, rfl, rfl, accepts_addItem (hkeyed []) rfl⟩
  have hstays : (Game.new {} 0).Stays before back since := by
    refine ⟨accepts_addPlayer (hkeyed before) (by decide +kernel), ?_⟩
    exact ⟨not_or.2 ⟨nofun, by decide +kernel⟩, not_or.2 ⟨nofun, by decide +kernel⟩,
      not_or.2 ⟨nofun, by decide +kernel⟩, not_or.2 ⟨nofun, by decide +kernel⟩, trivial⟩
  obtain ⟨q, hq, hname, -, hposition, horientation⟩ := hdata before back since rfl hstays
  exact ⟨htorch, hkind 2 torch htorch, (hplayers 1).2 ⟨before, back, since, rfl, rfl, hstays⟩,
    q, hq, hname, hposition, horientation⟩

end Game

end BlockWorld
