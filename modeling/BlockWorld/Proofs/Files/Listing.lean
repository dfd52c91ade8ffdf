import BlockWorld.Proofs.Files.Tree

/-! # The names in a directory

Putting a node at a place adds its name to one directory, in place of the same name, and leaves the
names in every other directory alone. Directories and files are made in no other way, so what
putting keeps is kept when they are made.
-/

namespace BlockWorld

namespace FileTree

variable {t u : FileTree} {dir place : List String} {name path : String} {node : FileNode}

def nameIn (dir : List String) (e : List String × FileNode) : Option String :=
  match e.1.getLast? with
  | some name => if e.1.dropLast = dir then some name else none
  | none => none

def namesIn (t : FileTree) (dir : List String) : List String := t.nodes.filterMap (nameIn dir)

theorem list_of_directory (h : t.find path = .ok .directory) :
    t.list path = .ok (t.namesIn (Path.names path)) := by
  simp only [list, h]
  rfl

theorem list_of_error {e : FileError} (h : t.find path = .error e) : t.list path = .error e := by
  simp only [list, h]

theorem nameIn_concat : nameIn dir (place ++ [name], node) =
    if place = dir then some name else none := by
  simp [nameIn]

theorem nameIn_eq_some {e : List String × FileNode} :
    nameIn dir e = some name ↔ e.1 = dir ++ [name] := by
  obtain ⟨place, node⟩ := e
  rcases List.eq_nil_or_concat' place with rfl | ⟨outer, last, rfl⟩
  · simp [nameIn]
  · rw [nameIn_concat, Option.ite_none_right_eq_some, Option.some_inj, List.append_singleton_inj]

theorem mem_namesIn : name ∈ t.namesIn dir ↔ t.at? (dir ++ [name]) ≠ none := by
  have hat : t.at? (dir ++ [name]) = (t.nodes.find? (·.1 = dir ++ [name])).map (·.2) :=
    if_neg (by simp)
  rw [hat, namesIn, List.mem_filterMap, ne_eq, Option.map_eq_none_iff, List.find?_eq_none]
  simp only [nameIn_eq_some, decide_eq_true_eq, not_forall, not_not, exists_prop]

theorem namesIn_put (t : FileTree) (place : List String) (name : String) (node : FileNode)
    (dir : List String) : (t.put (place ++ [name]) node).namesIn dir =
      if place = dir then name :: (t.namesIn dir).filter (· ≠ name) else t.namesIn dir := by
  rw [namesIn, put, List.filterMap_cons, nameIn_concat, List.filterMap_filter, namesIn]
  by_cases hplace : place = dir
  · subst hplace
    simp only [if_true, List.filter_filterMap]
    refine congrArg (name :: ·) (List.filterMap_congr fun e _ => ?_)
    cases he : nameIn place e with
    | none => simp
    | some other => simp [nameIn_eq_some.1 he, Option.filter]
  · simp only [if_neg hplace]
    refine List.filterMap_congr fun e _ => ?_
    cases he : nameIn dir e with
    | none => simp
    | some other => simp [nameIn_eq_some.1 he, List.append_singleton_inj, Ne.symm hplace]

/-- No name is twice in a directory below `base`. -/
def Tidy (t : FileTree) (base : List String) : Prop := ∀ dir, (t.namesIn (base ++ dir)).Nodup

theorem tidy_of_empty {base : List String}
    (h : ∀ place ≠ [], t.at? (base ++ place) = none) : t.Tidy base := fun dir => by
  have hnames : t.namesIn (base ++ dir) = [] := List.eq_nil_iff_forall_not_mem.2 fun name hname =>
    mem_namesIn.1 hname (by rw [List.append_assoc]; exact h _ (by simp))
  rw [hnames]
  exact List.nodup_nil

theorem Tidy.put {base : List String} (h : t.Tidy base) (hplace : place ≠ []) (node : FileNode) :
    (t.put place node).Tidy base := fun dir => by
  obtain ⟨outer, name, rfl⟩ := (List.eq_nil_or_concat' place).resolve_left hplace
  rw [namesIn_put]
  split
  · exact List.nodup_cons.2 ⟨by simp, (h dir).filter _⟩
  · exact h dir

section Making

variable {holds : FileTree → Prop}
  (hput : ∀ t place node, place ≠ [] → holds t → holds (t.put place node))

include hput

theorem makeDirectories_keeps (h : holds t) (reversed : List String) :
    holds (t.makeDirectories reversed).2 := by
  induction reversed with
  | nil => exact h
  | cons name outer ih =>
    rw [makeDirectories]
    split
    · exact h
    · exact h
    · split
      · rename_i u hu
        rw [hu] at ih
        split
        · exact ih
        · exact hput _ _ _ (by simp) ih
      · exact ih
    · exact h

theorem createDirectories_keeps (h : holds t) (path : String) :
    holds (t.createDirectories path).2 := by
  rw [createDirectories]
  split
  · exact h
  · exact makeDirectories_keeps hput h _

theorem writeFile_keeps (h : holds t) {content : Bytes}
    (hwrite : t.writeFile path content = .ok u) : holds u := by
  rw [writeFile] at hwrite
  split at hwrite
  · rename_i hfind
    cases hwrite
    refine hput _ _ _ (fun hnames => ?_) h
    -- The top is no file.
    rw [find, hnames] at hfind
    split at hfind <;> cases hfind
  · cases hwrite
  · split at hwrite
    · rename_i hparent
      cases hwrite
      refine hput _ _ _ (fun hnames => ?_) h
      simp [hnames, hasParent, follow] at hparent
    · cases hwrite
  · cases hwrite

end Making

end FileTree

end BlockWorld
