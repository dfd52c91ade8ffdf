import BlockWorld.Chunk.Service
import Mathlib.Data.Nat.Notation
import Mathlib.Logic.Function.Basic
import Mathlib.Logic.Relation

/-! # Serving a stack of tiers

Callers send their requests to the queue of a stack. One task takes them out: it starts a lookup for
each load, and the lookups run side by side, each asking one tier after the other through the queues
of the tiers. A shutdown closes the queue. What is still in it is turned away, and when the lookups
in flight have ended the tiers are shut down one after the other. Only then do the callers of
shutdowns return, and the queue goes with the task. Tiers may also be asked directly.

Every queue is bounded. Whoever sends a request to one first waits for room in it and puts the
request there later, when the queue may have been closed or gone. A step is what one party does by
itself, and nothing is assumed about who makes the next one: a caller, a lookup, the task or a tier.
A call that has to wait for room makes no step, and one that finds the queue closed returns at once.
Callers stay until they are answered, and the stack is not given up; `ServedSource` has both for one
service.
-/

namespace BlockWorld

/-- The service as it is, with the files as they are. -/
def ChunkService.frozen (s : ChunkService) (files : FileTree) : ChunkService :=
  { s with source := { s.source with load := fun _ => s.source.load files } }

inductive StackCall (τ : Type)
  | load (loc : ChunkLoc)
  | shutdown
  | tier (t : τ) (loc : ChunkLoc)

inductive StackReply
  | chunk (answer : ChunkAnswer)
  | done

/-- The call is made by way of the queue of the stack. -/
@[grind] def StackCall.ToStack {τ : Type} : StackCall τ → Prop
  | .load _ | .shutdown => True
  | .tier _ _ => False

theorem StackCall.ToStack.cases {τ : Type} {c : StackCall τ} (h : c.ToStack) :
    (∃ loc, c = .load loc) ∨ c = .shutdown := by
  cases c with
  | load loc => exact .inl ⟨loc, rfl⟩
  | shutdown => exact .inr rfl
  | tier => cases h

theorem StackCall.eq_tier {τ : Type} {c : StackCall τ} (h : ¬ c.ToStack) :
    ∃ t loc, c = .tier t loc := by
  cases c with
  | tier t loc => exact ⟨t, loc, rfl⟩
  | load | shutdown => exact absurd trivial h

@[grind] def StackCall.refusal {τ : Type} : StackCall τ → StackReply
  | .shutdown => .done
  | .load _ | .tier _ _ => .chunk (.error .serviceStopped)

/-- The tiers of a stack, the calls that are made, and the room in the queues. -/
structure StackSetup (ι τ : Type) where
  calls : ι → StackCall τ
  /-- The tiers in the order in which they are asked. -/
  order : List τ
  services : τ → ChunkService
  running : ∀ t, (services t).stopped = false
  capacity : ℕ
  capacity_pos : 0 < capacity
  room : τ → ℕ
  room_pos : ∀ t, 0 < room t

namespace ServedStack

inductive Stage (τ : Type)
  /-- It has not been made, or waits for room in the queue of the stack. -/
  | calling
  /-- There is room for the request, which is not in the queue yet. -/
  | admitted
  /-- The request is in the queue of the stack, or is a shutdown that the task has taken. -/
  | queued
  /-- The lookup has these tiers left to ask. -/
  | asking (loc : ChunkLoc) (rest : List τ)
  /-- There is room for the request to a tier, which is not in its queue yet. -/
  | entering (loc : ChunkLoc) (t : τ) (rest : List τ)
  /-- The lookup waits for the answer of a tier. -/
  | waiting (loc : ChunkLoc) (t : τ) (rest : List τ)
  | decided (answer : ChunkAnswer)
  | returned

/-- Where a lookup goes on after the answer of a tier. -/
def Stage.after {τ : Type} (loc : ChunkLoc) (rest : List τ) : ChunkAnswer → Stage τ
  | .ok none => .asking loc rest
  | .ok (some c) => .decided (.ok (some c))
  | .error e => .decided (.error e)

theorem Stage.after_cases {τ : Type} (loc : ChunkLoc) (rest : List τ) (answer : ChunkAnswer) :
    (answer = .ok none ∧ Stage.after loc rest answer = .asking loc rest) ∨
      (answer ≠ .ok none ∧ Stage.after loc rest answer = .decided answer) := by
  obtain e | _ | c := answer <;> simp [Stage.after]

/-- The request may have been in the queue. -/
@[grind] def Stage.Sent {τ : Type} : Stage τ → Prop
  | .queued | .asking _ _ | .entering _ _ _ | .waiting _ _ _ | .decided _ | .returned => True
  | .calling | .admitted => False

@[grind] def Stage.Looking {τ : Type} : Stage τ → Prop
  | .asking _ _ | .entering _ _ _ | .waiting _ _ _ | .decided _ => True
  | .calling | .admitted | .queued | .returned => False

/-- The request that there is room for at a tier: its place and the tier. -/
@[grind] def Stage.entered? {τ : Type} : Stage τ → Option (ChunkLoc × τ)
  | .entering loc t _ => some (loc, t)
  | .calling | .admitted | .queued | .asking _ _ | .waiting _ _ _ | .decided _ | .returned => none

/-- The request that a lookup waits for the answer to. -/
@[grind] def Stage.request? {τ : Type} : Stage τ → Option (ChunkLoc × τ)
  | .waiting loc t _ => some (loc, t)
  | .calling | .admitted | .queued | .asking _ _ | .entering _ _ _ | .decided _ | .returned => none

theorem Stage.Looking.sent {τ : Type} {x : Stage τ} (h : x.Looking) : x.Sent := by
  cases x <;> trivial

@[grind ←] theorem Stage.looking_after {τ : Type} (loc : ChunkLoc) (rest : List τ)
    (answer : ChunkAnswer) : (Stage.after loc rest answer).Looking := by
  obtain ⟨-, h⟩ | ⟨-, h⟩ := Stage.after_cases loc rest answer <;> rw [h] <;> trivial

@[grind ←] theorem Stage.sent_after {τ : Type} (loc : ChunkLoc) (rest : List τ)
    (answer : ChunkAnswer) : (Stage.after loc rest answer).Sent :=
  (Stage.looking_after loc rest answer).sent

@[grind .] theorem Stage.after_ne {τ : Type} (loc : ChunkLoc) (rest : List τ)
    (answer : ChunkAnswer) :
    Stage.after loc rest answer ≠ .calling ∧ Stage.after loc rest answer ≠ .admitted ∧
      Stage.after loc rest answer ≠ .queued ∧ Stage.after loc rest answer ≠ .returned := by
  obtain ⟨-, h⟩ | ⟨-, h⟩ := Stage.after_cases loc rest answer <;> rw [h] <;> simp

@[grind =] theorem Stage.entered?_after {τ : Type} (loc : ChunkLoc) (rest : List τ)
    (answer : ChunkAnswer) : (Stage.after loc rest answer).entered? = none := by
  obtain ⟨-, h⟩ | ⟨-, h⟩ := Stage.after_cases loc rest answer <;> rw [h] <;> rfl

@[grind =] theorem Stage.request?_after {τ : Type} (loc : ChunkLoc) (rest : List τ)
    (answer : ChunkAnswer) : (Stage.after loc rest answer).request? = none := by
  obtain ⟨-, h⟩ | ⟨-, h⟩ := Stage.after_cases loc rest answer <;> rw [h] <;> rfl

/-- What the task of the stack is about. From the first shutdown on it remembers the callers that
are to be told of the end, the first one first. -/
inductive Phase (ι τ : Type)
  | serving
  /-- A shutdown was taken, and the queue is still open. -/
  | noticed (caller : ι)
  /-- The queue is closed, and the requests in it are turned away. -/
  | closing (callers : List ι)
  /-- The lookups in flight are waited for. -/
  | draining (callers : List ι)
  /-- These tiers are left to be shut down. -/
  | stopping (rest : List τ) (callers : List ι)
  /-- There is room for the shutdown of a tier, which is not in its queue yet. -/
  | entering (t : τ) (rest : List τ) (callers : List ι)
  /-- The shutdown of a tier is waited for. -/
  | awaiting (t : τ) (rest : List τ) (callers : List ι)
  | releasing (callers : List ι)
  | ended

namespace Phase

variable {ι τ : Type}

@[grind] def callers : Phase ι τ → List ι
  | .serving | .ended => []
  | .noticed caller => [caller]
  | .closing callers | .draining callers | .stopping _ callers | .entering _ _ callers
  | .awaiting _ _ callers | .releasing callers => callers

@[grind] def Open : Phase ι τ → Prop
  | .serving | .noticed _ => True
  | .closing _ | .draining _ | .stopping _ _ | .entering _ _ _ | .awaiting _ _ _ | .releasing _
  | .ended => False

/-- The lookups have ended, and the tiers are shut down. -/
@[grind] def Ending : Phase ι τ → Prop
  | .stopping _ _ | .entering _ _ _ | .awaiting _ _ _ | .releasing _ | .ended => True
  | .serving | .noticed _ | .closing _ | .draining _ => False

@[grind] def Over : Phase ι τ → Prop
  | .releasing _ | .ended => True
  | .serving | .noticed _ | .closing _ | .draining _ | .stopping _ _ | .entering _ _ _
  | .awaiting _ _ _ => False

@[grind] def left : Phase ι τ → List τ
  | .stopping rest _ => rest
  | .entering t rest _ | .awaiting t rest _ => t :: rest
  | .serving | .noticed _ | .closing _ | .draining _ | .releasing _ | .ended => []

/-- The tier that there is room for the shutdown of. -/
@[grind] def entered? : Phase ι τ → Option τ
  | .entering t _ _ => some t
  | .serving | .noticed _ | .closing _ | .draining _ | .stopping _ _ | .awaiting _ _ _
  | .releasing _ | .ended => none

@[grind] def awaited? : Phase ι τ → Option τ
  | .awaiting t _ _ => some t
  | .serving | .noticed _ | .closing _ | .draining _ | .stopping _ _ | .entering _ _ _
  | .releasing _ | .ended => none

@[grind →] theorem Ending.not_open {x : Phase ι τ} (h : x.Ending) : ¬ x.Open := by
  cases x <;> simp_all [Ending, Open]

@[grind →] theorem Over.ending {x : Phase ι τ} (h : x.Over) : x.Ending := by
  cases x <;> trivial

theorem Over.left_eq {x : Phase ι τ} (h : x.Over) : x.left = [] := by
  cases x <;> simp_all [Over, left]

theorem eq_of_entered? {x : Phase ι τ} {t : τ} (h : x.entered? = some t) :
    ∃ rest callers, x = .entering t rest callers := by
  cases x with
  | entering u rest callers =>
    cases h
    exact ⟨rest, callers, rfl⟩
  | _ => cases h

theorem eq_of_awaited? {x : Phase ι τ} {t : τ} (h : x.awaited? = some t) :
    ∃ rest callers, x = .awaiting t rest callers := by
  cases x with
  | awaiting u rest callers =>
    cases h
    exact ⟨rest, callers, rfl⟩
  | _ => cases h

@[grind →] theorem entered?_of_awaited? {x : Phase ι τ} {t : τ} (h : x.awaited? = some t) :
    x.entered? = none := by
  obtain ⟨rest, callers, rfl⟩ := eq_of_awaited? h
  rfl

@[grind →] theorem ending_of_awaited? {x : Phase ι τ} {t : τ} (h : x.awaited? = some t) :
    x.Ending := by
  obtain ⟨rest, callers, rfl⟩ := eq_of_awaited? h
  trivial

end Phase

inductive TierRequest (ι : Type)
  | load (k : ι) (loc : ChunkLoc)
  | shutdown
  deriving DecidableEq

structure Tier (ι : Type) where
  service : ChunkService
  /-- The requests that there is room for in the queue, without their being there. -/
  granted : List (TierRequest ι) := []
  queue : List (TierRequest ι) := []
  /-- Its task has ended, and the queue has gone with it. -/
  ended : Bool := false

namespace Tier

variable {ι : Type} (x : Tier ι)

@[grind] def HasRoom (n : ℕ) : Prop := x.queue.length + x.granted.length < n

instance (n : ℕ) : Decidable (x.HasRoom n) := inferInstanceAs (Decidable (_ < _))

@[grind] def grant (r : TierRequest ι) : Tier ι := { x with granted := x.granted ++ [r] }

variable [DecidableEq ι] (r : TierRequest ι)

@[grind] def push : Tier ι :=
  { x with granted := x.granted.erase r, queue := x.queue ++ [r] }

@[grind] def lose : Tier ι := { x with granted := x.granted.erase r }

end Tier

/-- A tier that runs is asked in the course of a lookup. -/
structure Visit (ι τ : Type) where
  caller : ι
  tier : τ
  loc : ChunkLoc
  service : ChunkService
  files : FileTree

namespace Visit

variable {ι τ : Type}

def answer (v : Visit ι τ) : ChunkAnswer := (v.service.load v.files v.loc).1

def moment (v : Visit ι τ) : ChunkService := v.service.frozen v.files

end Visit

def visitsBy {ι τ : Type} [DecidableEq ι] (log : List (Visit ι τ)) (k : ι) : List (Visit ι τ) :=
  log.filter (·.caller = k)

@[grind =] theorem visitsBy_concat {ι τ : Type} [DecidableEq ι] (log : List (Visit ι τ))
    (v : Visit ι τ) (k : ι) :
    visitsBy (log ++ [v]) k = if v.caller = k then visitsBy log k ++ [v] else visitsBy log k := by
  rw [visitsBy, List.filter_append]
  by_cases h : v.caller = k <;> simp [h, visitsBy]

end ServedStack

open ServedStack

/-- The calls on a stack, named by `ι`, and its tiers, named by `τ`, with a record of what has
happened. -/
structure ServedStack (ι τ : Type) where
  stage : ι → ServedStack.Stage τ
  /-- The callers that there is room for in the queue, without their requests being there. -/
  granted : List ι := []
  queue : List ι := []
  phase : ServedStack.Phase ι τ := .serving
  /-- The lookups that the task has not seen the end of. -/
  inFlight : List ι := []
  tiers : τ → Tier ι
  /-- The calls whose requests came into the queue, in order. -/
  accepted : List ι := []
  /-- The calls that found the queue closed. -/
  refused : List ι := []
  /-- The loads for which a lookup was started. -/
  started : List ι := []
  /-- What left the queue from the first shutdown on. -/
  late : List ι := []
  log : List (Visit ι τ) := []
  replies : List (ι × StackReply) := []

namespace ServedStack

variable {ι τ : Type} (s : ServedStack ι τ)

section Calls

variable [DecidableEq ι] (k j : ι) (t : τ)

@[grind] def setStage (x : Stage τ) : ServedStack ι τ :=
  { s with stage := Function.update s.stage k x }

@[grind] def reply (r : StackReply) : ServedStack ι τ :=
  { s.setStage k .returned with replies := s.replies ++ [(k, r)] }

@[grind] def visits : List (Visit ι τ) := visitsBy s.log k

@[grind =] theorem stage_setStage (x : Stage τ) :
    (s.setStage k x).stage j = if j = k then x else s.stage j :=
  Function.update_apply s.stage k x j

@[grind =] theorem tiers_setStage (x : Stage τ) : (s.setStage k x).tiers t = s.tiers t := rfl

@[grind =] theorem stage_reply (r : StackReply) :
    (s.reply k r).stage j = if j = k then .returned else s.stage j :=
  Function.update_apply s.stage k .returned j

@[grind =] theorem tiers_reply (r : StackReply) : (s.reply k r).tiers t = s.tiers t := rfl

end Calls

section Tiers

variable [DecidableEq τ] (k : ι) (t u : τ) (x : Tier ι)

@[grind] def setTier : ServedStack ι τ := { s with tiers := Function.update s.tiers t x }

@[grind =] theorem stage_setTier : (s.setTier t x).stage k = s.stage k := rfl

@[grind =] theorem tiers_setTier : (s.setTier t x).tiers u = if u = t then x else s.tiers u :=
  Function.update_apply s.tiers t x u

end Tiers

/-- What one party does. -/
inductive Step [DecidableEq ι] [DecidableEq τ] (p : StackSetup ι τ) (s : ServedStack ι τ) :
    ServedStack ι τ → Prop
  | grant {k : ι} : s.stage k = .calling → (p.calls k).ToStack → s.phase.Open →
      s.queue.length + s.granted.length < p.capacity →
      Step p s { s.setStage k .admitted with granted := s.granted ++ [k] }
  /-- The request comes into the queue, though this may have been closed. -/
  | push {k : ι} : s.stage k = .admitted → s.phase ≠ .ended →
      Step p s { s.setStage k .queued with
        granted := s.granted.erase k
        queue := s.queue ++ [k]
        accepted := s.accepted ++ [k] }
  | refuse {k : ι} : s.stage k = .calling → (p.calls k).ToStack → ¬ s.phase.Open →
      Step p s { s.reply k (p.calls k).refusal with refused := s.refused ++ [k] }
  /-- The queue has gone with the task, and so is the request lost. -/
  | lose {k : ι} : s.stage k = .admitted → s.phase = .ended →
      Step p s { s.reply k (p.calls k).refusal with granted := s.granted.erase k }
  | direct {k : ι} {t : τ} {loc : ChunkLoc} : s.stage k = .calling → p.calls k = .tier t loc →
      Step p s (s.setStage k (.asking loc [t]))
  /-- A lookup is started. -/
  | start {k : ι} {queue : List ι} {loc : ChunkLoc} : s.phase = .serving → s.queue = k :: queue →
      p.calls k = .load loc →
      Step p s { s.setStage k (.asking loc p.order) with
        queue
        inFlight := s.inFlight ++ [k]
        started := s.started ++ [k] }
  | notice {k : ι} {queue : List ι} : s.phase = .serving → s.queue = k :: queue →
      p.calls k = .shutdown →
      Step p s { s with queue, phase := .noticed k, late := s.late ++ [k] }
  | close {k : ι} : s.phase = .noticed k → Step p s { s with phase := .closing [k] }
  | turnAway {k : ι} {queue : List ι} {loc : ChunkLoc} {callers : List ι} :
      s.phase = .closing callers → s.queue = k :: queue → p.calls k = .load loc →
      Step p s { s.reply k (.chunk (.error .serviceStopped)) with queue, late := s.late ++ [k] }
  | gather {k : ι} {queue : List ι} {callers : List ι} :
      s.phase = .closing callers → s.queue = k :: queue → p.calls k = .shutdown →
      Step p s { s with queue, phase := .closing (callers ++ [k]), late := s.late ++ [k] }
  | drain {callers : List ι} : s.phase = .closing callers → s.queue = [] →
      Step p s { s with phase := .draining callers }
  /-- The task sees that a lookup has ended. -/
  | join {k : ι} {callers : List ι} : s.phase = .serving ∨ s.phase = .draining callers →
      k ∈ s.inFlight → s.stage k = .returned →
      Step p s { s with inFlight := s.inFlight.erase k }
  | stop {callers : List ι} : s.phase = .draining callers → s.inFlight = [] →
      Step p s { s with phase := .stopping p.order callers }
  /-- A tier that is named twice has been shut down before. -/
  | pass {t : τ} {rest : List τ} {callers : List ι} : s.phase = .stopping (t :: rest) callers →
      (s.tiers t).service.stopped = true → Step p s { s with phase := .stopping rest callers }
  | reserve {t : τ} {rest : List τ} {callers : List ι} : s.phase = .stopping (t :: rest) callers →
      (s.tiers t).service.stopped = false → (s.tiers t).HasRoom (p.room t) →
      Step p s { s.setTier t ((s.tiers t).grant .shutdown) with phase := .entering t rest callers }
  | halt {t : τ} {rest : List τ} {callers : List ι} : s.phase = .entering t rest callers →
      Step p s { s.setTier t ((s.tiers t).push .shutdown) with phase := .awaiting t rest callers }
  | halted {t : τ} {rest : List τ} {callers : List ι} : s.phase = .awaiting t rest callers →
      (s.tiers t).ended = true → Step p s { s with phase := .stopping rest callers }
  | stopped {callers : List ι} : s.phase = .stopping [] callers →
      Step p s { s with phase := .releasing callers }
  | release {k : ι} {callers : List ι} : s.phase = .releasing (k :: callers) →
      Step p s { s.reply k .done with phase := .releasing callers }
  /-- A request that came too late to be turned away is dropped. -/
  | drop {k : ι} {queue : List ι} : s.phase = .releasing [] → s.queue = k :: queue →
      Step p s { s.reply k (p.calls k).refusal with queue, late := s.late ++ [k] }
  | finish : s.phase = .releasing [] → s.queue = [] → Step p s { s with phase := .ended }
  | enter {k : ι} {t : τ} {loc : ChunkLoc} {rest : List τ} : s.stage k = .asking loc (t :: rest) →
      (s.tiers t).service.stopped = false → (s.tiers t).HasRoom (p.room t) →
      Step p s ((s.setTier t ((s.tiers t).grant (.load k loc))).setStage k (.entering loc t rest))
  /-- The request comes into the queue of a tier, though this may have been closed. -/
  | ask {k : ι} {t : τ} {loc : ChunkLoc} {rest : List τ} : s.stage k = .entering loc t rest →
      (s.tiers t).ended = false →
      Step p s ((s.setTier t ((s.tiers t).push (.load k loc))).setStage k (.waiting loc t rest))
  /-- The queue of the next tier is closed. -/
  | fail {k : ι} {t : τ} {loc : ChunkLoc} {rest : List τ} : s.stage k = .asking loc (t :: rest) →
      (s.tiers t).service.stopped = true →
      Step p s (s.setStage k (.decided (.error .serviceStopped)))
  /-- The queue of the tier has gone. -/
  | forfeit {k : ι} {t : τ} {loc : ChunkLoc} {rest : List τ} : s.stage k = .entering loc t rest →
      (s.tiers t).ended = true →
      Step p s ((s.setTier t ((s.tiers t).lose (.load k loc))).setStage k
        (.decided (.error .serviceStopped)))
  /-- Every tier has been asked. -/
  | exhaust {k : ι} {loc : ChunkLoc} : s.stage k = .asking loc [] →
      Step p s (s.reply k (.chunk (.ok none)))
  | tell {k : ι} {answer : ChunkAnswer} : s.stage k = .decided answer →
      Step p s (s.reply k (.chunk answer))
  /-- A tier answers, with the files as they are. -/
  | serve {k : ι} {t : τ} {loc : ChunkLoc} {rest : List τ} {queue : List (TierRequest ι)}
      (files : FileTree) : (s.tiers t).queue = .load k loc :: queue →
      (s.tiers t).service.stopped = false → s.stage k = .waiting loc t rest →
      Step p s
        { (s.setTier t { s.tiers t with
              service := ((s.tiers t).service.load files loc).2, queue }).setStage k
            (.after loc rest ((s.tiers t).service.load files loc).1) with
          log := s.log ++ [⟨k, t, loc, (s.tiers t).service, files⟩] }
  /-- A tier takes its shutdown, which closes its queue. -/
  | quit {t : τ} {queue : List (TierRequest ι)} : (s.tiers t).queue = .shutdown :: queue →
      Step p s (s.setTier t { s.tiers t with service := (s.tiers t).service.shutdown, queue })
  /-- A tier that was shut down turns away what is left in its queue. -/
  | deny {k : ι} {t : τ} {loc : ChunkLoc} {rest : List τ} {queue : List (TierRequest ι)} :
      (s.tiers t).queue = .load k loc :: queue → (s.tiers t).service.stopped = true →
      s.stage k = .waiting loc t rest →
      Step p s ((s.setTier t { s.tiers t with queue }).setStage k
        (.decided (.error .serviceStopped)))
  | leave {t : τ} : (s.tiers t).service.stopped = true → (s.tiers t).queue = [] →
      (s.tiers t).ended = false → Step p s (s.setTier t { s.tiers t with ended := true })

abbrev Leads [DecidableEq ι] [DecidableEq τ] (p : StackSetup ι τ) (s s' : ServedStack ι τ) : Prop :=
  Relation.ReflTransGen (Step p) s s'

end ServedStack

namespace StackSetup

variable {ι τ : Type} (p : StackSetup ι τ)

def initial : ServedStack ι τ where
  stage _ := .calling
  tiers t := { service := p.services t }

def Reachable [DecidableEq ι] [DecidableEq τ] (s : ServedStack ι τ) : Prop := p.initial.Leads p s

/-- The place and the tiers of the lookup that a call amounts to. -/
def lookup? (k : ι) : Option (ChunkLoc × List τ) :=
  match p.calls k with
  | .load loc => some (loc, p.order)
  | .tier t loc => some (loc, [t])
  | .shutdown => none

def serviceAfter [DecidableEq τ] (log : List (Visit ι τ)) (t : τ) : ChunkService :=
  { p.services t with
    asked := ((log.filter (·.tier = t)).map (·.loc)).reverse ++ (p.services t).asked }

end StackSetup

end BlockWorld
