import BlockWorld.Chunk.Service

/-! # Searching tiers

One tier at a time: a tier without the chunk passes the search on, and any other answer ends it. So
a search comes to the first of the tiers' answers that is not a miss.
-/

namespace BlockWorld

namespace ChunkService

variable {s : ChunkService} {files : FileTree} {loc : ChunkLoc}

theorem load_of_running {answer : ChunkAnswer} (h : s.stopped = false)
    (hanswer : s.source.load files s.asked loc = some answer) :
    s.load files loc = (answer, { s with asked := loc :: s.asked }) := by
  simp [load, h, hanswer]

theorem after_load (h : s.stopped = false) :
    (s.load files loc).2 = { s with asked := loc :: s.asked } := by
  simp [load, h]

end ChunkService

namespace ChunkStack

variable {s : ChunkService} {rest : List ChunkService} {files : FileTree} {loc : ChunkLoc}

theorem search_of_miss (h : (s.load files loc).1 = .ok none) :
    search files loc (s :: rest) =
      ((search files loc rest).1, (s.load files loc).2 :: (search files loc rest).2) := by
  rw [search]
  split
  · rename_i heq
    rw [heq]
  · rename_i answer after hanswer heq
    rw [heq] at h
    exact absurd h hanswer

theorem search_of_answer (h : (s.load files loc).1 ≠ .ok none) :
    search files loc (s :: rest) = ((s.load files loc).1, (s.load files loc).2 :: rest) := by
  rw [search]
  split
  · rename_i heq
    exact absurd (congrArg Prod.fst heq) h
  · rename_i heq
    rw [heq]

theorem search_of_stopped {tiers : List ChunkService} (h : ∀ s ∈ tiers, s.stopped = true)
    (files : FileTree) (loc : ChunkLoc) :
    (search files loc tiers).1 = if tiers.isEmpty then .ok none else .error .serviceStopped := by
  cases tiers with
  | nil => rfl
  | cons s rest =>
    have hload : (s.load files loc).1 = .error .serviceStopped := by
      rw [ChunkService.load, if_pos (h s List.mem_cons_self)]
    rw [search_of_answer (by simp [hload]), hload]
    rfl

theorem load_of_serving {k : ChunkStack} (h : k.stopped = false) :
    k.load files loc =
      ((search files loc k.tiers).1, { k with tiers := (search files loc k.tiers).2 }) := by
  simp only [load, h, Bool.false_eq_true, if_false, resolve]

def firstAnswer : List ChunkAnswer → ChunkAnswer
  | [] => .ok none
  | .ok none :: rest => firstAnswer rest
  | .ok (some c) :: _ => .ok (some c)
  | .error e :: _ => .error e

theorem firstAnswer_cons {a : ChunkAnswer} (h : a ≠ .ok none) (as : List ChunkAnswer) :
    firstAnswer (a :: as) = a := by
  obtain e | _ | c := a
  · rfl
  · exact absurd rfl h
  · rfl

theorem firstAnswer_of_missed {as : List ChunkAnswer} (h : ∀ a ∈ as, a = .ok none)
    (bs : List ChunkAnswer) : firstAnswer (as ++ bs) = firstAnswer bs := by
  induction as with
  | nil => rfl
  | cons a as ih =>
    obtain rfl := h a List.mem_cons_self
    exact ih fun a ha => h a (List.mem_cons_of_mem _ ha)

theorem firstAnswer_append {as : List ChunkAnswer} (h : ∃ a ∈ as, a ≠ .ok none)
    (bs : List ChunkAnswer) : firstAnswer (as ++ bs) = firstAnswer as := by
  induction as with
  | nil => simp at h
  | cons a as ih =>
    by_cases ha : a = .ok none
    · subst ha
      exact ih (by simpa using h)
    · rw [List.cons_append, firstAnswer_cons ha, firstAnswer_cons ha]

theorem search_eq_firstAnswer (files : FileTree) (loc : ChunkLoc) (tiers : List ChunkService) :
    (search files loc tiers).1 = firstAnswer (tiers.map fun s => (s.load files loc).1) := by
  induction tiers with
  | nil => rfl
  | cons s rest ih =>
    by_cases h : (s.load files loc).1 = .ok none
    · rw [search_of_miss h, List.map_cons, h]
      exact ih
    · rw [search_of_answer h, List.map_cons, firstAnswer_cons h]

end ChunkStack

end BlockWorld
