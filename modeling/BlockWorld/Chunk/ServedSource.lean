import BlockWorld.Chunk.Service
import Mathlib.Data.Nat.Notation
import Mathlib.Logic.Function.Basic
import Mathlib.Logic.Relation

/-! # Serving a source

Callers send loads and shutdowns to the queue of one service. Its task takes them out one by one. It
asks the source for each load and answers it. At the first shutdown it closes the queue, turns away
what is left in there and tells everyone who asked for the end; the queue then goes with the task.
Without a shutdown the task ends when nobody can call any more and the queue is empty.

A caller first waits for room in the queue and puts its request there later, when the queue may have
been closed or gone. While it waits for room or for its answer it may also go away, which does not
take its request back. What callers and the task do by themselves is one relation (`Act`), what no
one has to do another one (`Whim`), and nothing is assumed about who makes the next step.
-/

namespace BlockWorld

inductive ServiceCall
  | load (loc : ChunkLoc)
  | shutdown

inductive ServiceReply
  | chunk (answer : ChunkAnswer)
  | done

def ServiceCall.isLoad : ServiceCall → Bool
  | .load _ => true
  | .shutdown => false

/-- What a call comes to if the service does not take its request. -/
@[grind] def ServiceCall.refusal : ServiceCall → ServiceReply
  | .load _ => .chunk (.error .serviceStopped)
  | .shutdown => .done

/-- The calls on a service, its source, and the room in its queue. The source may have a state. -/
structure SourceSetup (ι σ : Type) where
  calls : ι → ServiceCall
  /-- The source in each of its states. -/
  source : σ → ChunkSource
  /-- The state in which a request leaves the source. -/
  next : σ → FileTree → ChunkLoc → σ
  start : σ
  capacity : ℕ
  capacity_pos : 0 < capacity

namespace ServedSource

inductive Stage
  /-- It has not been made. -/
  | idle
  /-- The caller waits for room in the queue. -/
  | calling
  /-- There is room for the request, which is not in the queue yet. -/
  | admitted
  /-- The request is in the queue, or the task has taken it. -/
  | queued
  | returned
  /-- The caller has gone away. -/
  | gone
  deriving DecidableEq

@[grind] def Stage.Busy : Stage → Prop
  | .calling | .admitted | .queued => True
  | .idle | .returned | .gone => False

/-- The request may have been in the queue. -/
@[grind] def Stage.Sent : Stage → Prop
  | .queued | .returned | .gone => True
  | .idle | .calling | .admitted => False

inductive Phase (ι : Type)
  | serving
  /-- A load was taken, and the source is to be asked. -/
  | asking (caller : ι) (loc : ChunkLoc)
  /-- A shutdown was taken, and the queue is still open. -/
  | noticed (caller : ι)
  /-- The queue is closed, and the requests in it are turned away. These callers are to be told of
  the end, the first one first. -/
  | closing (callers : List ι)
  | releasing (callers : List ι)
  | ended

namespace Phase

variable {ι : Type}

/-- The callers whose requests the task has taken and not yet answered. -/
@[grind] def hand : Phase ι → List ι
  | .serving | .ended => []
  | .asking k _ | .noticed k => [k]
  | .closing callers | .releasing callers => callers

@[grind] def asked : Phase ι → List ι
  | .asking k _ => [k]
  | .serving | .noticed _ | .closing _ | .releasing _ | .ended => []

@[grind] def isOpen : Phase ι → Bool
  | .serving | .asking _ _ | .noticed _ => true
  | .closing _ | .releasing _ | .ended => false

/-- No shutdown was taken. -/
@[grind] def Serving : Phase ι → Prop
  | .serving | .asking _ _ => True
  | .noticed _ | .closing _ | .releasing _ | .ended => False

@[grind →] theorem Serving.isOpen {x : Phase ι} (h : x.Serving) : x.isOpen = true := by
  cases x <;> first | rfl | cases h

theorem asked_eq_nil {x : Phase ι} (h : ¬ x.Serving) : x.asked = [] := by
  cases x <;> first | rfl | exact absurd trivial h

theorem asked_subset_hand (x : Phase ι) : x.asked ⊆ x.hand := by
  cases x <;> simp [asked, hand]

end Phase

structure Visit (ι : Type) where
  caller : ι
  loc : ChunkLoc
  files : FileTree

end ServedSource

/-- The calls on a service, named by `ι`, and its source, with a record of what has happened. -/
structure ServedSource (ι σ : Type) where
  stage : ι → ServedSource.Stage
  /-- The callers that there is room for in the queue, without their requests being there. -/
  granted : List ι := []
  queue : List ι := []
  phase : ServedSource.Phase ι := .serving
  /-- Whether anyone can still call. -/
  handles : Bool := true
  /-- The state of the source. -/
  state : σ
  service : ChunkService
  /-- The requests that came into the queue, in order. -/
  accepted : List ι := []
  /-- What left the queue from the first shutdown on. -/
  late : List ι := []
  log : List (ServedSource.Visit ι) := []
  replies : List (ι × ServiceReply) := []

namespace ServedSource

variable {ι σ : Type} [DecidableEq ι] (s : ServedSource ι σ) (k j : ι)

@[grind] def setStage (x : Stage) : ServedSource ι σ :=
  { s with stage := Function.update s.stage k x }

@[grind] def reply (r : ServiceReply) : ServedSource ι σ :=
  { s.setStage k .returned with replies := s.replies ++ [(k, r)] }

/-- A request is answered. The call returns unless the caller has gone away. -/
def tell (r : ServiceReply) : ServedSource ι σ :=
  { s with
    stage := if s.stage k = .queued then Function.update s.stage k .returned else s.stage
    replies := if s.stage k = .queued then s.replies ++ [(k, r)] else s.replies }

@[grind =] theorem stage_setStage (x : Stage) :
    (s.setStage k x).stage j = if j = k then x else s.stage j :=
  Function.update_apply s.stage k x j

@[grind =] theorem stage_reply (r : ServiceReply) :
    (s.reply k r).stage j = if j = k then .returned else s.stage j :=
  Function.update_apply s.stage k .returned j

@[grind =] theorem stage_tell (r : ServiceReply) :
    (s.tell k r).stage j = if j = k ∧ s.stage k = .queued then .returned else s.stage j := by
  unfold tell
  by_cases h : s.stage k = .queued <;> simp [h, Function.update_apply]

@[simp, grind =] theorem queue_tell (r : ServiceReply) : (s.tell k r).queue = s.queue := rfl

@[simp, grind =] theorem granted_tell (r : ServiceReply) : (s.tell k r).granted = s.granted := rfl

@[simp, grind =] theorem accepted_tell (r : ServiceReply) : (s.tell k r).accepted = s.accepted := rfl

@[simp, grind =] theorem late_tell (r : ServiceReply) : (s.tell k r).late = s.late := rfl

@[simp, grind =] theorem log_tell (r : ServiceReply) : (s.tell k r).log = s.log := rfl

@[simp, grind =] theorem phase_tell (r : ServiceReply) : (s.tell k r).phase = s.phase := rfl

@[simp, grind =] theorem handles_tell (r : ServiceReply) : (s.tell k r).handles = s.handles := rfl

theorem tell_of_queued {s : ServedSource ι σ} {k : ι} (h : s.stage k = .queued)
    (r : ServiceReply) : s.tell k r = s.reply k r := by
  simp [tell, reply, setStage, h]

theorem tell_of_ne {s : ServedSource ι σ} {k : ι} (h : s.stage k ≠ .queued) (r : ServiceReply) :
    s.tell k r = s := by
  simp [tell, h]

/-- What the callers that wait and the task do. -/
inductive Act (p : SourceSetup ι σ) (s : ServedSource ι σ) : ServedSource ι σ → Prop
  | grant {k : ι} : s.stage k = .calling → s.phase.isOpen = true →
      s.queue.length + s.granted.length < p.capacity →
      Act p s { s.setStage k .admitted with granted := s.granted ++ [k] }
  /-- The request comes into the queue, though this may have been closed. -/
  | push {k : ι} : s.stage k = .admitted → s.phase ≠ .ended →
      Act p s { s.setStage k .queued with
        granted := s.granted.erase k
        queue := s.queue ++ [k]
        accepted := s.accepted ++ [k] }
  | refuse {k : ι} : s.stage k = .calling → s.phase.isOpen = false →
      Act p s (s.reply k (p.calls k).refusal)
  /-- The queue has gone with the task, and so is the request lost. -/
  | lose {k : ι} : s.stage k = .admitted → s.phase = .ended →
      Act p s { s.reply k (p.calls k).refusal with granted := s.granted.erase k }
  | take {k : ι} {queue : List ι} {loc : ChunkLoc} : s.phase = .serving → s.queue = k :: queue →
      p.calls k = .load loc → Act p s { s with queue, phase := .asking k loc }
  /-- The source is asked, with the files as they are. -/
  | answer {k : ι} {loc : ChunkLoc} (files : FileTree) : s.phase = .asking k loc →
      Act p s { s.tell k (.chunk (s.service.load files loc).1) with
        phase := .serving
        state := p.next s.state files loc
        service :=
          { (s.service.load files loc).2 with source := p.source (p.next s.state files loc) }
        log := s.log ++ [⟨k, loc, files⟩] }
  | notice {k : ι} {queue : List ι} : s.phase = .serving → s.queue = k :: queue →
      p.calls k = .shutdown →
      Act p s { s with queue, phase := .noticed k, late := s.late ++ [k] }
  | close {k : ι} : s.phase = .noticed k →
      Act p s { s with phase := .closing [k], service := s.service.shutdown }
  | turnAway {k : ι} {queue : List ι} {loc : ChunkLoc} {callers : List ι} (files : FileTree) :
      s.phase = .closing callers → s.queue = k :: queue → p.calls k = .load loc →
      Act p s { s.tell k (.chunk (s.service.load files loc).1) with
        queue
        late := s.late ++ [k] }
  | gather {k : ι} {queue : List ι} {callers : List ι} :
      s.phase = .closing callers → s.queue = k :: queue → p.calls k = .shutdown →
      Act p s { s with queue, phase := .closing (callers ++ [k]), late := s.late ++ [k] }
  | drained {callers : List ι} : s.phase = .closing callers → s.queue = [] →
      Act p s { s with phase := .releasing callers }
  | release {k : ι} {callers : List ι} : s.phase = .releasing (k :: callers) →
      Act p s { s.tell k .done with phase := .releasing callers }
  /-- A request that came too late to be turned away is dropped. -/
  | drop {k : ι} {queue : List ι} : s.phase = .releasing [] → s.queue = k :: queue →
      Act p s { s.tell k (p.calls k).refusal with queue, late := s.late ++ [k] }
  | finish : s.phase = .releasing [] → s.queue = [] → Act p s { s with phase := .ended }
  /-- Nobody can call any more. -/
  | quit : s.phase = .serving → s.queue = [] → s.handles = false →
      Act p s { s with phase := .ended, service := s.service.shutdown }

/-- What no one has to do. -/
inductive Whim (s : ServedSource ι σ) : ServedSource ι σ → Prop
  | call {k : ι} : s.stage k = .idle → s.handles = true → Whim s (s.setStage k .calling)
  | abandon {k : ι} : s.stage k = .calling ∨ s.stage k = .queued → Whim s (s.setStage k .gone)
  /-- The handles are given up. Whoever waits has one. -/
  | letGo : s.handles = true → (∀ k, ¬ (s.stage k).Busy) → Whim s { s with handles := false }

def Step (p : SourceSetup ι σ) (s s' : ServedSource ι σ) : Prop := s.Act p s' ∨ s.Whim s'

abbrev Leads (p : SourceSetup ι σ) (s s' : ServedSource ι σ) : Prop :=
  Relation.ReflTransGen (Step p) s s'

end ServedSource

namespace SourceSetup

open ServedSource

variable {ι σ : Type} (p : SourceSetup ι σ)

def initial : ServedSource ι σ where
  stage _ := .idle
  state := p.start
  service := { source := p.source p.start }

def Reachable [DecidableEq ι] (s : ServedSource ι σ) : Prop := p.initial.Leads p s

def stateAfter (log : List (Visit ι)) : σ :=
  log.foldl (fun x v => p.next x v.files v.loc) p.start

/-- What the source comes to at a visit, after these visits before it. If it breaks down, the place
that it was asked for is named. -/
def result (before : List (Visit ι)) (v : Visit ι) : ChunkAnswer :=
  ((p.source (p.stateAfter before)).load v.files (before.map (·.loc)).reverse v.loc).getD
    (.error (.sourceFailed v.loc))

theorem stateAfter_concat (log : List (Visit ι)) (v : Visit ι) :
    p.stateAfter (log ++ [v]) = p.next (p.stateAfter log) v.files v.loc := by
  rw [stateAfter, List.foldl_append]
  rfl

end SourceSetup

end BlockWorld
