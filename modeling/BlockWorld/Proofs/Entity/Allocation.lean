import BlockWorld.Entity.Directory
import BlockWorld.Proofs.Entity.Map
import Mathlib.Logic.Function.Iterate
import Mathlib.Data.Finset.Image
import Mathlib.Data.Nat.Find

/-! # Handing out ids

A search for a free id tries one id more than are live, and so stops at the first free one on the
way round from the counter. The counter never jumps: between two searches that find the same id it
went all the way round, and everything on the way was found or met alive.
-/

namespace BlockWorld

namespace Directory

variable {d : Directory} {id a b r : EntityId} {j k : ℕ}

/-! ## The cycle -/

theorem toInt_successor (h : 1 ≤ id.toInt) :
    (successor id).toInt = id.toInt % 2147483647 + 1 := by
  have hlt := id.toInt_lt
  unfold successor
  split
  · rename_i hmax
    rw [hmax]
    decide
  · rename_i hne
    have hmax : id.toInt ≠ 2147483647 := fun h => hne (Int32.toInt_inj.1 h)
    rw [Int32.toInt_add, Int.bmod_eq_of_le] <;> simp <;> omega

theorem one_le_successor (h : 1 ≤ id.toInt) : 1 ≤ (successor id).toInt := by
  rw [toInt_successor h]
  omega

theorem toInt_iterate (h : 1 ≤ id.toInt) (k : ℕ) :
    (successor^[k] id).toInt = (id.toInt - 1 + k) % 2147483647 + 1 := by
  have hlt := id.toInt_lt
  induction k with
  | zero => simp; omega
  | succ k ih =>
    rw [Function.iterate_succ_apply', toInt_successor (by omega), ih]
    omega

theorem one_le_iterate (h : 1 ≤ id.toInt) (k : ℕ) : 1 ≤ (successor^[k] id).toInt := by
  rw [toInt_iterate h]
  omega

theorem iterate_eq_iff (h : 1 ≤ id.toInt) :
    successor^[j] id = successor^[k] id ↔ j % 2147483647 = k % 2147483647 := by
  rw [← Int32.toInt_inj, toInt_iterate h, toInt_iterate h]
  omega

theorem exists_iterate (ha : 1 ≤ a.toInt) (hb : 1 ≤ b.toInt) :
    ∃ k < 2147483647, successor^[k] a = b := by
  have hlt := b.toInt_lt
  refine ⟨((b.toInt - a.toInt) % 2147483647).toNat, by omega, Int32.toInt_inj.1 ?_⟩
  rw [toInt_iterate ha]
  omega

/-! ## One search -/

theorem firstFree_eq_some_iff {live : EntityMap EntityKind} {n : ℕ} :
    firstFree live n id = some r ↔
      ∃ k < n, successor^[k] id = r ∧ live.contains r = false ∧
        ∀ j < k, live.contains (successor^[j] id) := by
  induction n generalizing id with
  | zero => simp [firstFree]
  | succ n ih =>
    rw [firstFree]
    split
    · rename_i hlive
      rw [ih]
      constructor
      · rintro ⟨k, hk, hr, hfree, hbefore⟩
        refine ⟨k + 1, by omega, hr, hfree, fun j hj => ?_⟩
        cases j with
        | zero => exact hlive
        | succ j => exact hbefore j (by omega)
      · rintro ⟨k, hk, hr, hfree, hbefore⟩
        cases k with
        | zero => exact absurd hlive (by simp [show id = r from hr, hfree])
        | succ k => exact ⟨k, by omega, hr, hfree, fun j hj => hbefore (j + 1) (by omega)⟩
    · rename_i hfree
      simp only [Bool.not_eq_true] at hfree
      constructor
      · rintro ⟨⟩
        exact ⟨0, by omega, rfl, hfree, by simp⟩
      · rintro ⟨k, -, hr, -, hbefore⟩
        cases k with
        | zero => exact congrArg some hr
        | succ k => exact absurd (hbefore 0 (by omega)) (by simp [hfree])

/-- A search from the counter comes to `id`: whatever lies before it on the way is live. -/
def Reaches (d : Directory) (id : EntityId) : Prop :=
  ∃ k, successor^[k] d.next = id ∧ ∀ j < k, d.contains (successor^[j] d.next)

theorem le_size_of_live (h : 1 ≤ d.next.toInt) (hfree : d.contains (successor^[k] d.next) = false)
    (hbefore : ∀ j < k, d.contains (successor^[j] d.next)) : k ≤ d.size := by
  have hturn : k < 2147483647 := by
    by_contra hk
    obtain ⟨i, hi, heq⟩ := exists_iterate h (one_le_iterate h k)
    have := hbefore i (by omega)
    rw [heq, hfree] at this
    cases this
  have hinj : Set.InjOn (fun j => successor^[j] d.next) (Finset.range k) := by
    intro i hi j hj heq
    rw [iterate_eq_iff h] at heq
    simp only [Finset.coe_range, Set.mem_Iio] at hi hj
    omega
  calc k = ((Finset.range k).image fun j => successor^[j] d.next).card := by
        rw [Finset.card_image_of_injOn hinj, Finset.card_range]
    _ ≤ d.live.ids.card := Finset.card_le_card fun id hid => by
        obtain ⟨j, hj, rfl⟩ := Finset.mem_image.1 hid
        exact EntityMap.mem_ids.2 (hbefore j (Finset.mem_range.1 hj))
    _ = d.size := EntityMap.card_ids _

theorem free?_eq_some_iff (h : 1 ≤ d.next.toInt) :
    d.free? = some id ↔ d.Reaches id ∧ d.contains id = false := by
  rw [free?, firstFree_eq_some_iff]
  constructor
  · rintro ⟨k, -, hid, hfree, hbefore⟩
    exact ⟨⟨k, hid, hbefore⟩, hfree⟩
  · rintro ⟨⟨k, rfl, hbefore⟩, hfree⟩
    exact ⟨k, Nat.lt_succ_of_le (le_size_of_live h hfree hbefore), rfl, hfree, hbefore⟩

theorem fst_allocate (d : Directory) : d.allocate.1 = d.free? := by
  unfold allocate
  split <;> simp [*]

theorem allocate_of_free? (h : d.free? = some id) :
    d.allocate = (some id, { d with next := successor id }) := by
  rw [allocate, h]

theorem allocate_of_free (h : d.contains d.next = false) :
    d.allocate = (some d.next, { d with next := successor d.next }) := by
  have hfree : d.free? = some d.next := by
    rw [free?, firstFree, if_neg]
    exact Bool.eq_false_iff.1 h
  exact allocate_of_free? hfree

theorem exists_first (h : 1 ≤ d.next.toInt) (hid : 1 ≤ id.toInt) (hfree : d.contains id = false) :
    ∃ k, d.contains (successor^[k] d.next) = false ∧
      ∀ j < k, d.contains (successor^[j] d.next) := by
  obtain ⟨k, -, rfl⟩ := exists_iterate h hid
  refine ⟨_, Nat.find_spec (p := fun k => d.contains (successor^[k] d.next) = false) ⟨k, hfree⟩,
    fun j hj => ?_⟩
  simpa using Nat.find_min _ hj

theorem one_le_next_allocate (h : 1 ≤ d.next.toInt) : 1 ≤ d.allocate.2.next.toInt := by
  unfold allocate
  cases hf : d.free? with
  | none => exact h
  | some id =>
    obtain ⟨⟨k, rfl, -⟩, -⟩ := (free?_eq_some_iff h).1 hf
    exact one_le_successor (one_le_iterate h k)

theorem kind?_allocate (d : Directory) (id : EntityId) : d.allocate.2.kind? id = d.kind? id := by
  unfold allocate
  split <;> rfl

/-! ## Runs -/

inductive Request
  | allocate
  | register (id : EntityId) (kind : EntityKind)
  | unregister (id : EntityId)

/-- The directory after a request; one it refuses changes nothing. -/
def after (d : Directory) : Request → Directory
  | .allocate => d.allocate.2
  | .register id kind => ((d.register id kind).toOption).getD d
  | .unregister id => ((d.unregister id).toOption.map (·.2)).getD d

def run (d : Directory) (requests : List Request) : Directory := requests.foldl after d

theorem next_after_register (d : Directory) (id : EntityId) (kind : EntityKind) :
    (d.after (.register id kind)).next = d.next := by
  rw [after, register]
  split <;> rfl

theorem next_after_unregister (d : Directory) (id : EntityId) :
    (d.after (.unregister id)).next = d.next := by
  rw [after, unregister]
  split <;> rfl

theorem one_le_next_after (h : 1 ≤ d.next.toInt) (q : Request) : 1 ≤ (d.after q).next.toInt := by
  cases q with
  | allocate => exact one_le_next_allocate h
  | register id kind => rwa [next_after_register]
  | unregister id => rwa [next_after_unregister]

theorem one_le_next_run (h : 1 ≤ d.next.toInt) (requests : List Request) :
    1 ≤ (d.run requests).next.toInt := by
  induction requests generalizing d with
  | nil => exact h
  | cons q qs ih => exact ih (one_le_next_after h q)

theorem run_append (d : Directory) (qs rs : List Request) :
    d.run (qs ++ rs) = (d.run qs).run rs := List.foldl_append

theorem run_replicate_allocate {n : ℕ} (h : successor^[n] a = b) :
    run ⟨a, .empty⟩ (List.replicate n .allocate) = ⟨b, .empty⟩ := by
  induction n generalizing a with
  | zero => exact congrArg (Directory.mk · .empty) h
  | succ n ih =>
    have hstep : after ⟨a, .empty⟩ .allocate = ⟨successor a, .empty⟩ :=
      congrArg Prod.snd (allocate_of_free rfl)
    rw [List.replicate_succ, run, List.foldl_cons, hstep]
    exact ih h

def Meets (d : Directory) (requests : List Request) (id : EntityId) : Prop :=
  ∃ before after, requests = before ++ .allocate :: after ∧ (d.run before).Reaches id

theorem Meets.cons {q : Request} {qs : List Request} (h : (d.after q).Meets qs id) :
    d.Meets (q :: qs) id := by
  obtain ⟨before, after, rfl, hreach⟩ := h
  exact ⟨q :: before, after, rfl, hreach⟩

theorem Meets.append {qs : List Request} (h : d.Meets qs id) (rest : List Request) :
    d.Meets (qs ++ rest) id := by
  obtain ⟨before, after, rfl, hreach⟩ := h
  exact ⟨before, after ++ rest, by simp, hreach⟩

/-- One request moves the counter step by step, over ids that a search comes to. -/
theorem exists_walk_after (h : 1 ≤ d.next.toInt) (q : Request) (qs : List Request) :
    ∃ n, (d.after q).next = successor^[n] d.next ∧
      ∀ j < n, d.Meets (q :: qs) (successor^[j] d.next) := by
  cases q with
  | register id kind => exact ⟨0, next_after_register d id kind, by simp⟩
  | unregister id => exact ⟨0, next_after_unregister d id, by simp⟩
  | allocate =>
    cases hf : d.free? with
    | none => exact ⟨0, by simp [after, allocate, hf], by simp⟩
    | some id =>
      obtain ⟨⟨k, rfl, hbefore⟩, -⟩ := (free?_eq_some_iff h).1 hf
      refine ⟨k + 1, ?_, fun j hj => ⟨[], qs, rfl, j, rfl, fun i hi => hbefore i (by omega)⟩⟩
      rw [Function.iterate_succ_apply', after, allocate_of_free? hf]

theorem exists_walk_run (h : 1 ≤ d.next.toInt) (qs : List Request) :
    ∃ n, (d.run qs).next = successor^[n] d.next ∧ ∀ j < n, d.Meets qs (successor^[j] d.next) := by
  induction qs generalizing d with
  | nil => exact ⟨0, rfl, by simp⟩
  | cons q qs ih =>
    obtain ⟨m, hm, hfirst⟩ := exists_walk_after h q qs
    obtain ⟨n, hn, hrest⟩ := ih (one_le_next_after h q)
    refine ⟨n + m, hn.trans (by rw [hm, Function.iterate_add_apply]), fun j hj => ?_⟩
    rcases Nat.lt_or_ge j m with hjm | hjm
    · exact hfirst j hjm
    · have := (hrest (j - m) (by omega)).cons
      rwa [hm, ← Function.iterate_add_apply, Nat.sub_add_cancel hjm] at this

/-- Between a search that finds `r` and the next that does, the counter goes all the way round. -/
theorem meets_of_allocate_twice (h : 1 ≤ d.next.toInt) (hr : d.allocate.1 = some r)
    {between : List Request} (hagain : (d.allocate.2.run between).allocate.1 = some r)
    (hid : 1 ≤ id.toInt) : d.allocate.2.Meets (between ++ [.allocate]) id := by
  have hstart := one_le_next_allocate h
  rw [fst_allocate] at hr hagain
  obtain ⟨⟨k₀, hk₀, -⟩, -⟩ := (free?_eq_some_iff h).1 hr
  have hone : 1 ≤ r.toInt := hk₀ ▸ one_le_iterate h k₀
  have hnext : d.allocate.2.next = successor r := by rw [allocate_of_free? hr]
  obtain ⟨n, hn, hmet⟩ := exists_walk_run hstart between
  obtain ⟨⟨k, hk, hbefore⟩, -⟩ :=
    (free?_eq_some_iff (one_le_next_run hstart between)).1 hagain
  -- the walk leads from `r` back to `r`, so it has at least one step for each id
  have hturn : (k + n + 1) % 2147483647 = 0 := by
    refine (iterate_eq_iff (k := 0) hone).1 ?_
    rw [Function.iterate_succ_apply, ← hnext, Function.iterate_add_apply, ← hn, hk]
    rfl
  obtain ⟨j, hj, rfl⟩ := exists_iterate hstart hid
  rcases Nat.lt_or_ge j n with hjn | hjn
  · exact (hmet j hjn).append _
  · refine ⟨between, [], rfl, j - n, ?_, fun i hi => hbefore i (by omega)⟩
    rw [hn, ← Function.iterate_add_apply, Nat.sub_add_cancel hjn]

def Reached (d : Directory) : Prop := ∃ requests, empty.run requests = d

theorem Reached.one_le_next (h : d.Reached) : 1 ≤ d.next.toInt := by
  obtain ⟨requests, rfl⟩ := h
  exact one_le_next_run (by decide) requests

/-- Whatever a directory was asked for, the next id is the first free one on the way round from the
counter, found after at most one step for each live id; and an id comes up a second time only after
every other was found, or was live as the counter passed it. -/
theorem allocation_cyclic_and_fair (h : d.Reached) :
    (∀ free : EntityId, 1 ≤ free.toInt → d.contains free = false →
      ∃ k ≤ d.size, ∃ id, successor^[k] d.next = id ∧
        (∀ j < k, d.contains (successor^[j] d.next)) ∧ d.contains id = false ∧ 1 ≤ id.toInt ∧
        d.allocate = (some id, ⟨successor id, d.live⟩) ∧ 1 ≤ (successor id).toInt) ∧
    ∀ (between : List Request) (r : EntityId),
      d.allocate.1 = some r → (d.allocate.2.run between).allocate.1 = some r →
      ∀ id : EntityId, 1 ≤ id.toInt →
        ∃ before after, between ++ [.allocate] = before ++ .allocate :: after ∧
          ((d.allocate.2.run before).allocate.1 = some id ∨
            (d.allocate.2.run before).Reaches id ∧ (d.allocate.2.run before).contains id) := by
  have hnext := h.one_le_next
  refine ⟨fun free hone hfree => ?_, fun between r hr hagain id hid => ?_⟩
  · obtain ⟨k, hk, hbefore⟩ := exists_first hnext hone hfree
    have hid := one_le_iterate hnext k
    exact ⟨k, le_size_of_live hnext hk hbefore, _, rfl, hbefore, hk, hid,
      allocate_of_free? ((free?_eq_some_iff hnext).2 ⟨⟨k, rfl, hbefore⟩, hk⟩),
      one_le_successor hid⟩
  · obtain ⟨before, after, heq, hreach⟩ := meets_of_allocate_twice hnext hr hagain hid
    refine ⟨before, after, heq, ?_⟩
    have hone := one_le_next_run (one_le_next_allocate hnext) before
    cases hc : (d.allocate.2.run before).contains id with
    | false => exact .inl ((fst_allocate _).trans ((free?_eq_some_iff hone).2 ⟨hreach, hc⟩))
    | true => exact .inr ⟨hreach, rfl⟩

def climb : List Request := List.replicate 2147483646 .allocate

theorem run_climb (ha : 1 ≤ a.toInt)
    (h : (a.toInt - 1 + 2147483646) % 2147483647 + 1 = b.toInt) :
    run ⟨a, .empty⟩ climb = ⟨b, .empty⟩ := by
  refine run_replicate_allocate (Int32.toInt_inj.1 ?_)
  rw [toInt_iterate ha, ← h]
  rfl

/-- The counter at the last id, with this and the first live, and one that is never handed out. -/
def brink : Directory := run ⟨Int32.maxValue, .empty⟩
  [.register Int32.maxValue .item, .register 1 .player, .register (-3) .item]

theorem brink_reached : brink.Reached := by
  have hclimb : empty.run climb = ⟨Int32.maxValue, .empty⟩ := run_climb (by decide) (by decide)
  exact ⟨climb ++ _, by rw [run_append, hclimb, brink]⟩

theorem allocation_cyclic_and_fair_brink :
    (brink.Reached ∧ brink.contains 2 = false ∧ brink.allocate = (some 2, ⟨3, brink.live⟩)) ∧
    empty.Reached ∧ empty.allocate.1 = some 1 ∧
      (empty.allocate.2.run climb).allocate.1 = some 1 ∧
      ∃ before after, climb ++ [.allocate] = before ++ .allocate :: after ∧
        ((empty.allocate.2.run before).allocate.1 = some 7 ∨
          (empty.allocate.2.run before).Reaches 7 ∧
            (empty.allocate.2.run before).contains 7) := by
  have hagain : (empty.allocate.2.run climb).allocate.1 = some 1 := by
    have he : empty.allocate.2 = ⟨2, .empty⟩ := rfl
    rw [he, run_climb (b := 1) (by decide) (by decide)]
    decide
  refine ⟨⟨brink_reached, by decide, ?_⟩, ⟨[], rfl⟩, by decide, hagain,
    (allocation_cyclic_and_fair ⟨[], rfl⟩).2 climb 1 (by decide) hagain 7 (by decide)⟩
  obtain ⟨k, -, id, rfl, hbefore, hid, -, heq, -⟩ :=
    (allocation_cyclic_and_fair brink_reached).1 2 (by decide) (by decide)
  match k with
  | 0 => exact absurd hid (by decide)
  | 1 => exact absurd hid (by decide)
  | 2 => exact heq
  | k + 3 => exact absurd (hbefore 2 (by omega)) (by decide)

end Directory

end BlockWorld
