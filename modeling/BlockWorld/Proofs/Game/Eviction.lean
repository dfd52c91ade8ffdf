import BlockWorld.Proofs.Game.Registry
import Mathlib.Algebra.BigOperators.Group.Finset.Basic

/-! # Who is evicted

A command's own mail overfills some inboxes, and the mail about each removed player may overfill
more. The players that a cascade removes before it comes to rest form the least set that holds
everyone who has no room for the command's mail and the mail about the others in the set. The order
of the removals has no influence on it.
-/

namespace BlockWorld

namespace Game

variable {g : Game}

/-- How many packets the removal of the player `e` sends to another player `p`: one that hides `e`
if the two are near each other, and the line that tells of it if it is not too long. -/
def partingLoad (g : Game) (e : EntityId) (p : Player) : ℕ :=
  match g.players.get? e with
  | none => 0
  | some q =>
    (if ChunkLoc.Near g.config.chunkRadius q.position.chunk p.position.chunk then 1 else 0) +
      if (q.name ++ " has left").utf8ByteSize ≤ Wire.maxStringLength then 1 else 0

/-- There is no room for what `mail` holds for `p` and what it is sent about the others in `T`. -/
def Overloaded (g : Game) (mail : Player → List Bytes) (T : Finset EntityId) (p : Player) : Prop :=
  p.inbox.room < ((mail p).length + ∑ e ∈ T.erase p.id, g.partingLoad e p : ℕ)

/-- Whoever is overloaded by the removal of a set is in it. -/
def Closed (g : Game) (mail : Player → List Bytes) (T : Finset EntityId) : Prop :=
  ∀ p ∈ g.players.values, g.Overloaded mail T p → p.id ∈ T

theorem length_farewell {p q : Player} (hp : g.players.get? p.id = some p) (hne : q.id ≠ p.id) :
    (g.farewell p q).length = g.partingLoad p.id q := by
  rw [farewell, List.length_append, Wire.ServerPacket.length_buffers_chat, partingLoad, hp]
  simp only [isNeighbour_iff_of_ne hne]
  split <;> rfl

theorem partingLoad_forget {id e : EntityId} {q : Player} :
    (g.forget id).partingLoad e q = if id = e then 0 else g.partingLoad e q := by
  rw [partingLoad, get?_forget]
  by_cases h : id = e
  · simp only [h, if_true]
  · simp only [h, if_false]
    rfl

theorem overloaded_forget_iff {m : Player → List Bytes} {T : Finset EntityId} {p q : Player}
    (hp : g.players.get? p.id = some p) (hT : p.id ∈ T) (hne : q.id ≠ p.id) :
    (g.forget p.id).Overloaded (fun r => m r ++ g.farewell p r) T q ↔ g.Overloaded m T q := by
  have hsum : ∑ e ∈ T.erase q.id, g.partingLoad e q =
      g.partingLoad p.id q + ∑ e ∈ T.erase q.id, (g.forget p.id).partingLoad e q := by
    have hmem : p.id ∈ T.erase q.id := Finset.mem_erase.2 ⟨hne.symm, hT⟩
    rw [← Finset.add_sum_erase _ _ hmem, ← Finset.add_sum_erase _ _ hmem]
    rw [partingLoad_forget, if_pos rfl, Nat.zero_add]
    congr 1
    refine Finset.sum_congr rfl fun e he => ?_
    rw [partingLoad_forget, if_neg (Finset.ne_of_mem_erase he).symm]
  rw [Overloaded, Overloaded, List.length_append, length_farewell hp hne, hsum, Nat.add_assoc]

theorem overloaded_forget_insert_iff {m : Player → List Bytes} {T : Finset EntityId}
    {id : EntityId} {q : Player} :
    (g.forget id).Overloaded m (insert id T) q ↔ (g.forget id).Overloaded m T q := by
  have hsum : ∑ e ∈ (insert id T).erase q.id, (g.forget id).partingLoad e q =
      ∑ e ∈ T.erase q.id, (g.forget id).partingLoad e q := by
    refine (Finset.sum_subset (Finset.erase_subset_erase _ (Finset.subset_insert _ _)) ?_).symm
    intro e he hne
    have : e = id := by grind
    rw [partingLoad_forget, if_pos this.symm]
  rw [Overloaded, Overloaded, hsum]

theorem mem_values_forget (hk : g.Keyed) {id : EntityId} {q : Player} :
    q ∈ (g.forget id).players.values ↔ q ∈ g.players.values ∧ q.id ≠ id := by
  simp only [EntityMap.mem_values_iff, get?_forget_eq_some_iff]
  constructor
  · rintro ⟨k, hne, hq⟩
    rw [← hk k q hq] at hne
    exact ⟨⟨k, hq⟩, hne.symm⟩
  · rintro ⟨⟨k, hq⟩, hne⟩
    rw [hk k q hq] at hne
    exact ⟨k, hne.symm, hq⟩

theorem Unstalled.forget (h : g.Unstalled) (id : EntityId) : (g.forget id).Unstalled :=
  fun k p hp => h k p (get?_forget_eq_some_iff.1 hp).2

theorem Sealed.farewell {m : Player → List Bytes} (hm : Sealed m) (p : Player) :
    Sealed fun q => m q ++ g.farewell p q := by
  intro q l
  simp only [hm q l, sealed_farewell p q l]

theorem closed_forget_iff (hk : g.Keyed) {m : Player → List Bytes} {T : Finset EntityId}
    {p : Player} (hp : g.players.get? p.id = some p) (hT : p.id ∈ T) :
    (g.forget p.id).Closed (fun q => m q ++ g.farewell p q) T ↔ g.Closed m T := by
  constructor
  · intro h q hq ho
    by_cases hne : q.id = p.id
    · rwa [hne]
    · exact h q ((mem_values_forget hk).2 ⟨hq, hne⟩) ((overloaded_forget_iff hp hT hne).2 ho)
  · intro h q hq ho
    obtain ⟨hq, hne⟩ := (mem_values_forget hk).1 hq
    exact h q hq ((overloaded_forget_iff hp hT hne).1 ho)

theorem closed_forget_insert_iff (hk : g.Keyed) {m : Player → List Bytes} {T : Finset EntityId}
    {id : EntityId} : (g.forget id).Closed m (insert id T) ↔ (g.forget id).Closed m T := by
  constructor
  · intro h q hq ho
    have hin := h q hq (overloaded_forget_insert_iff.2 ho)
    exact Finset.mem_of_mem_insert_of_ne hin ((mem_values_forget hk).1 hq).2
  · intro h q hq ho
    exact Finset.mem_insert_of_mem (h q hq (overloaded_forget_insert_iff.1 ho))

theorem Cascade.cases_deliver {m : Player → List Bytes} {es : List Player} {g' : Game}
    (h : Cascade (g.deliver m) es g') :
    (es = [] ∧ g' = g.deliver m) ∨
      ∃ p fs, es = p.receive (m p) :: fs ∧ g.players.get? p.id = some p ∧
        (p.receive (m p)).stalled = true ∧
        Cascade ((g.forget p.id).deliver fun q => m q ++ g.farewell p q) fs g' := by
  cases h with
  | nil => exact Or.inl ⟨rfl, rfl⟩
  | @cons _ _ p' fs hp hs hc =>
    obtain ⟨p, hg, rfl⟩ := get?_deliver_eq_some_iff.1 hp
    rw [Player.receive_id] at hg hc
    rw [removePlayer_deliver hg] at hc
    exact Or.inr ⟨p, fs, rfl, hg, hs, hc⟩

/-- A closed set holds everyone that a cascade removes, in whatever order. -/
theorem Closed.mem_of_cascade {T : Finset EntityId} {es : List Player} {g' : Game}
    {m : Player → List Bytes} (hT : g.Closed m T) (hk : g.Keyed) (hu : g.Unstalled)
    (hc : Cascade (g.deliver m) es g') : ∀ e ∈ es, e.id ∈ T := by
  induction es generalizing g m with
  | nil => simp
  | cons e es ih =>
    rcases hc.cases_deliver with ⟨hes, -⟩ | ⟨p, fs, hes, hp, hs, hc⟩
    · cases hes
    · cases hes
      have hlt := (Player.stalled_receive_iff (hu p.id p hp)).1 hs
      have hpT : p.id ∈ T := by
        refine hT p (EntityMap.mem_values_iff.2 ⟨p.id, hp⟩) (hlt.trans_le ?_)
        exact_mod_cast Nat.le_add_right _ _
      intro e he
      rcases List.mem_cons.1 he with rfl | he
      · rwa [Player.receive_id]
      · exact ih ((closed_forget_iff hk hp hpT).2 hT) (hk.forget p.id) (hu.forget p.id) hc e he

/-- The players that a cascade removes before it comes to rest form a closed set. -/
theorem closed_of_cascade {es : List Player} {g' : Game} {m : Player → List Bytes} (hk : g.Keyed)
    (hu : g.Unstalled) (hc : Cascade (g.deliver m) es g') (hu' : g'.Unstalled) :
    g.Closed m (es.map (·.id)).toFinset := by
  induction es generalizing g m with
  | nil =>
    rcases hc.cases_deliver with ⟨-, rfl⟩ | ⟨p, fs, hes, -⟩
    · intro p hp ho
      have hs := hu' p.id _ (by rw [get?_deliver, hk.get?_id hp, Option.map_some])
      have hle := (Player.stalled_receive_eq_false_iff.1 hs).2
      simp [Overloaded] at ho
      exact absurd ho (not_lt.2 hle)
    · cases hes
  | cons e es ih =>
    rcases hc.cases_deliver with ⟨hes, -⟩ | ⟨p, fs, hes, hp, hs, hc⟩
    · cases hes
    · cases hes
      have h := ih (hk.forget p.id) (hu.forget p.id) hc
      -- Once `p` is gone, nothing is sent about it, so it may be counted in the set or not.
      rw [List.map_cons, List.toFinset_cons, Player.receive_id,
        ← closed_forget_iff hk hp (Finset.mem_insert_self _ _), closed_forget_insert_iff hk]
      exact h

theorem Cascade.isLeast {es : List Player} {g' : Game} {m : Player → List Bytes}
    (hc : Cascade (g.deliver m) es g') (hk : g.Keyed) (hu : g.Unstalled) (hu' : g'.Unstalled) :
    IsLeast {T | g.Closed m T} (es.map (·.id)).toFinset := by
  refine ⟨closed_of_cascade hk hu hc hu', fun T hT id hid => ?_⟩
  obtain ⟨e, he, rfl⟩ := List.mem_map.1 (List.mem_toFinset.1 hid)
  exact hT.mem_of_cascade hk hu hc e he

/-- What a cascade leaves: those whom it did not remove, sent the mail about each that it did. -/
theorem Cascade.get?_eq {es : List Player} {g' : Game} {m : Player → List Bytes}
    (hc : Cascade (g.deliver m) es g') (hk : g.Keyed) (hm : Sealed m) (id : EntityId) :
    g'.players.get? id = if id ∈ es.map (·.id) then none
      else (g.players.get? id).map fun p =>
        p.receive (m p ++ es.flatMap fun e => g.farewell e p) := by
  induction es generalizing g m with
  | nil =>
    rcases hc.cases_deliver with ⟨-, rfl⟩ | ⟨p, fs, hes, -⟩
    · simp [get?_deliver]
    · cases hes
  | cons e es ih =>
    rcases hc.cases_deliver with ⟨hes, -⟩ | ⟨p, fs, hes, hp, hs, hc⟩
    · cases hes
    · cases hes
      rw [ih hc (hk.forget p.id) (hm.farewell p), get?_forget]
      by_cases hid : p.id = id
      · simp [hid]
      · simp only [hid, Ne.symm hid, if_false, false_or, List.map_cons, List.mem_cons,
          Player.receive_id, List.flatMap_cons, farewell_receive, farewell_forget,
          List.append_assoc]

theorem Cascade.contains_of_mem {es : List Player} {g' : Game} (hc : Cascade g es g')
    (hk : g.Keyed) : ∀ e ∈ es, g.players.contains e.id := by
  induction hc with
  | nil => simp
  | @cons g _ p es hp _ _ ih =>
    intro e he
    rcases List.mem_cons.1 he with rfl | he
    · exact EntityMap.contains_iff.2 ⟨_, hp⟩
    · have hr := ih (hk.removePlayer _) e he
      rw [removePlayer_eq hp rfl, deliver, EntityMap.contains_map] at hr
      exact ((EntityMap.contains_erase ..).1 hr).2

theorem Cascade.nodup {es : List Player} {g' : Game} (hc : Cascade g es g') (hk : g.Keyed) :
    (es.map (·.id)).Nodup := by
  induction hc with
  | nil => exact List.nodup_nil
  | @cons g _ p es hp _ h ih =>
    rw [List.map_cons, List.nodup_cons]
    refine ⟨fun hmem => ?_, ih (hk.removePlayer _)⟩
    obtain ⟨e, he, heq⟩ := List.mem_map.1 hmem
    have hr := h.contains_of_mem (hk.removePlayer _) e he
    rw [removePlayer_eq hp rfl, deliver, EntityMap.contains_map] at hr
    exact ((EntityMap.contains_erase ..).1 hr).1 heq.symm

theorem Unstalled.settle (h : g.Unstalled) {c : Command} (hc : c.Fresh) :
    (g.settle c).Unstalled := by
  intro id p hp
  rcases settle_player hp with ⟨q, hq, -, -, hs⟩ | rfl
  · rw [← hs]
    exact h id q hq
  · exact (hc p rfl).unstalled

/-- Whoever is not evicted by a command is as the command has settled it, and has been sent its mail
and the mail about those that are. -/
theorem get?_apply (hk : g.Keyed) (c : Command) (id : EntityId) :
    (g.apply c).game.players.get? id = if id ∈ (g.apply c).evicted.map (·.id) then none
      else ((g.settle c).players.get? id).map fun p =>
        p.receive (g.mail c p ++ (g.apply c).evicted.flatMap fun e => g.farewell e p) := by
  have hrun := cascade_apply hk c
  rw [perform_game hk] at hrun
  have hget := hrun.get?_eq (hk.settle c) (sealed_mail c) id
  simpa only [farewell_settle] using hget

/-- The players that a command evicts are the least closed set of those registered once it has
settled: it is the same in whatever order the stalled are removed, the loop takes one round for
each member and then finds nobody stalled, and whoever is left was sent the command's mail and then
the mail about the members in the order of their removal. -/
theorem evicted_isLeast_closed (h : g.Reachable) {c : Command} (hc : c.Fresh) :
    let S : Finset EntityId := ((g.apply c).evicted.map (·.id)).toFinset
    (g.perform c).game = (g.settle c).deliver (g.mail c) ∧
    (∀ id p, (g.settle c).players.get? id = some p →
      (∃ q, g.players.get? id = some q ∧ q.inbox = p.inbox) ∨ c = .addPlayer p) ∧
    IsLeast {T | (g.settle c).Closed (g.mail c) T} S ∧
    (∀ es g', Cascade (g.perform c).game es g' → g'.Unstalled → (es.map (·.id)).toFinset = S) ∧
    (g.apply c).evicted.length = S.card ∧
    (∀ n, (evict n (g.perform c).game).1.Unstalled ↔ S.card ≤ n) ∧
    (g.apply c).game.Unstalled ∧
    (∀ id, (g.apply c).game.players.get? id =
      if id ∈ S then none
      else ((g.settle c).players.get? id).map fun p =>
        p.receive (g.mail c p ++ (g.apply c).evicted.flatMap fun e => g.farewell e p)) ∧
    ∀ id p, (g.settle c).players.get? id = some p → id ∉ S → p.inbox.attended = true →
      ∃ q, (g.apply c).game.players.get? id = some q ∧ q.inbox.stream =
        p.inbox.stream ++ (g.mail c p ++ (g.apply c).evicted.flatMap fun e => g.farewell e p) := by
  intro S
  obtain ⟨hcons, hu⟩ := h.consistent_unstalled
  have hk := hcons.keyed
  have hks := hk.settle c
  have hus := hu.settle hc
  have hu' := unstalled_apply hk c
  have hperform := perform_game hk c
  have hrun := cascade_apply hk c
  rw [hperform] at hrun
  have hcard : (g.apply c).evicted.length = S.card := by
    rw [List.toFinset_card_of_nodup (hrun.nodup (hks.deliver _)), List.length_map]
  have hleast := hrun.isLeast hks hus hu'
  have hplayers : ∀ id, (g.apply c).game.players.get? id = if id ∈ S then none
      else ((g.settle c).players.get? id).map fun p =>
        p.receive (g.mail c p ++ (g.apply c).evicted.flatMap fun e => g.farewell e p) := by
    intro id
    rw [hrun.get?_eq hks (sealed_mail c)]
    simp only [S, List.mem_toFinset, farewell_settle]
  refine ⟨hperform, ?_, hleast, ?_, hcard, ?_, hu', hplayers, ?_⟩
  · intro id p hp
    rcases settle_player hp with ⟨q, hq, -, hi, -⟩ | hjoin
    · exact Or.inl ⟨q, hq, hi⟩
    · exact Or.inr hjoin
  · intro es g' hes hue
    rw [hperform] at hes
    exact (hes.isLeast hks hus hue).unique hleast
  · intro n
    rw [← hcard]
    exact unstalled_evict_iff (hk.perform c)
  · intro id p hp hid ha
    have hget := hplayers id
    rw [if_neg hid, hp, Option.map_some] at hget
    exact ⟨_, hget, Player.stream_receive ha (hu' id _ hget)⟩

/-- Two guests with full inboxes are evicted by a tick: the first by the tick itself, the second,
which still had room for that, by the mail about the first. A third stays. -/
theorem tick_evicts_full_guest :
    let g := (Game.new {} 0).run [.submit (.addPlayer (Player.guest 1 (some 5))),
      .submit (.addPlayer (Player.guest 2 (some 5))), .submit (.addPlayer (Player.guest 3 none))]
    g.Reachable ∧ Command.tick.Fresh ∧
      ((g.perform .tick).game.players.values.filter (·.stalled)).map (·.id) = [1] ∧
      (g.apply .tick).evicted.map (·.id) = [1, 2] ∧
      IsLeast {T | (g.settle .tick).Closed (g.mail .tick) T} {1, 2} ∧
      ((g.apply .tick).game.players.get? 3).isSome := by
  intro g
  have hg : g.Reachable := by
    refine ⟨{}, 0, _, ?_, rfl⟩
    simp only [List.forall_mem_cons]
    exact ⟨(Player.fresh_guest 1 _).addPlayer.submit, (Player.fresh_guest 2 _).addPlayer.submit,
      (Player.fresh_guest 3 _).addPlayer.submit, List.forall_mem_nil _⟩
  have hids : (g.apply .tick).evicted.map (·.id) = [1, 2] := by decide +kernel
  have hleast := (evicted_isLeast_closed hg Command.fresh_tick).2.2.1
  rw [hids] at hleast
  exact ⟨hg, Command.fresh_tick, by decide +kernel, hids, hleast, by decide +kernel⟩

end Game

end BlockWorld
