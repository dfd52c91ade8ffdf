import BlockWorld.Files.Tree
import Mathlib.Data.List.Infix
import Mathlib.Data.Nat.Notation
import Mathlib.Order.Basic

/-! # Directories and the files in them

Below a directory a tree is a map from places to nodes, if whatever stands there stands in a
directory: following the names of a place then leads to what is at it. Making directories and
writing a file change the map at the places they name, and nowhere else.
-/

namespace BlockWorld

namespace Path

theorem names_single {name : String} (hslash : '/' ∉ name.toList)
    (hlength : 2 ≤ name.toList.length) : names name = [name] := by
  have hempty : name.toList ≠ [] := fun h => by simp [h] at hlength
  have hdot : name.toList ≠ ['.'] := fun h => by simp [h] at hlength
  rw [names, Text.split_of_not_mem hslash, List.filter_cons_of_pos (by simp [hempty, hdot])]
  simp

theorem length_join_le (base name : String) :
    (utf8 (join base name)).length ≤ (utf8 base).length + 1 + (utf8 name).length := by
  have hslash : "/".utf8ByteSize = 1 := rfl
  simp only [length_utf8]
  unfold join
  split
  · omega
  split
  · rw [String.utf8ByteSize_append]
    omega
  · rw [String.utf8ByteSize_append, String.utf8ByteSize_append, hslash]

end Path

namespace FileTree

variable {t u : FileTree} {base place dir : List String} {name path : String} {node : FileNode}

theorem follow_append (t : FileTree) (place : List String) (node : FileNode) (a b : List String) :
    t.follow place node (a ++ b) =
      (t.follow place node a).bind fun next => t.follow (place ++ a) next b := by
  induction a generalizing place node with
  | nil => rw [List.append_nil]; rfl
  | cons name a ih =>
    cases node with
    | file content => rfl
    | directory =>
      rw [List.cons_append, follow, follow]
      split
      · rfl
      cases t.at? (place ++ [name]) with
      | none => rfl
      | some next =>
        dsimp only
        rw [ih, List.append_assoc, List.singleton_append]

/-- Following names asks only for what stands at the places on the way. -/
theorem follow_congr {names : List String}
    (h : ∀ p, p ≠ [] → p <+: names → t.at? (place ++ p) = u.at? (place ++ p)) :
    t.follow place node names = u.follow place node names := by
  induction names generalizing place node with
  | nil => rfl
  | cons name rest ih =>
    have hname := h [name] (List.cons_ne_nil _ _) (List.prefix_append [name] rest)
    have hrest : ∀ next, t.follow (place ++ [name]) next rest =
        u.follow (place ++ [name]) next rest := fun next => ih fun p hp hpre => by
      have hp' := h (name :: p) (List.cons_ne_nil _ _) ((List.prefix_cons_inj name).2 hpre)
      rwa [List.append_cons] at hp'
    cases node with
    | file content => rfl
    | directory => simp only [follow, hname, hrest]

theorem follow_concat (h : t.follow [] .directory place = .ok .directory)
    (hname : (utf8 name).length ≤ maxName) :
    t.follow [] .directory (place ++ [name]) =
      (t.at? (place ++ [name])).elim (.error .notFound) .ok := by
  rw [follow_append, h]
  show follow t ([] ++ place) .directory [name] = _
  rw [List.nil_append, follow, if_neg (Nat.not_lt_of_le hname)]
  cases t.at? (place ++ [name]) <;> rfl

theorem at?_of_follow {names : List String} {last : FileNode} (h : t.at? place = some node)
    (hfollow : t.follow place node names = .ok last) : t.at? (place ++ names) = some last := by
  induction names generalizing place node with
  | nil =>
    cases hfollow
    rwa [List.append_nil]
  | cons name rest ih =>
    cases node with
    | file content => cases hfollow
    | directory =>
      rw [follow] at hfollow
      split at hfollow
      · cases hfollow
      split at hfollow
      · cases hfollow
      · rename_i next hnext
        rw [List.append_cons]
        exact ih hnext hfollow

theorem find_eq_follow {names : List String} (hpath : (utf8 path).length ≤ maxPath)
    (hnames : Path.names path = names) : t.find path = t.follow [] .directory names := by
  rw [find, if_neg (Nat.not_lt_of_le hpath), hnames]

theorem follow_of_find (h : t.find path = .ok node) :
    t.follow [] .directory (Path.names path) = .ok node := by
  rw [find] at h
  split at h
  · cases h
  · exact h

theorem find_of_notFound (h : t.readFile path = .error .notFound) :
    t.find path = .error .notFound := by
  rw [readFile] at h
  split at h
  · cases h
  · cases h
  · cases h
    assumption

theorem find_of_readFile {content : Bytes} (h : t.readFile path = .ok content) :
    t.find path = .ok (.file content) := by
  rw [readFile] at h
  split at h
  · cases h
    assumption
  · cases h
  · cases h

theorem exists?_of_notFound (h : t.readFile path = .error .notFound) : t.exists? path = false := by
  rw [exists?, find_of_notFound h]
  rfl

/-- `base` leads to a directory, and what is below it stands in a directory. -/
structure Rooted (t : FileTree) (base : List String) : Prop where
  reached : t.follow [] .directory base = .ok .directory
  parent : ∀ place name node, t.at? (base ++ (place ++ [name])) = some node →
    t.at? (base ++ place) = some .directory

def Short (place : List String) : Prop := ∀ name ∈ place, (utf8 name).length ≤ maxName

theorem Short.of_concat (h : Short (place ++ [name])) :
    Short place ∧ (utf8 name).length ≤ maxName :=
  ⟨fun n hn => h n (List.mem_append_left _ hn), h name (List.mem_append_right _ (by simp))⟩

/-- No file stands at a place or on the way to it. -/
def Open (t : FileTree) (base place : List String) : Prop :=
  ∀ p, p <+: place → ∀ content, t.at? (base ++ p) ≠ some (.file content)

theorem Open.of_concat (h : t.Open base (place ++ [name])) : t.Open base place :=
  fun p hp => h p (hp.trans (List.prefix_append _ _))

namespace Rooted

/-- What a path finds is what stands where it leads, if it leads through no file. -/
theorem follow_eq (h : t.Rooted base) (hshort : Short (place ++ [name]))
    (hopen : t.Open base place) : t.follow [] .directory (base ++ (place ++ [name])) =
      (t.at? (base ++ (place ++ [name]))).elim (.error .notFound) .ok := by
  induction place using List.reverseRecOn generalizing name with
  | nil => exact follow_concat h.reached hshort.of_concat.2
  | append_singleton place last ih =>
    have hlast := ih hshort.of_concat.1 hopen.of_concat
    rw [← List.append_assoc base]
    cases hat : t.at? (base ++ (place ++ [last])) with
    | none =>
      -- Nothing stands below a place where nothing is.
      have hnone : t.at? (base ++ (place ++ [last]) ++ [name]) = none := by
        refine Option.eq_none_iff_forall_ne_some.2 fun node hnode => ?_
        rw [List.append_assoc] at hnode
        exact absurd (h.parent _ _ _ hnode) (by simp [hat])
      rw [follow_append, hlast, hat, hnone]
      rfl
    | some node =>
      rw [hat] at hlast
      cases node with
      | file content => exact absurd hat (hopen _ (List.prefix_refl _) content)
      | directory => exact follow_concat hlast hshort.of_concat.2

theorem at_base (h : t.Rooted base) : t.at? base = some .directory :=
  have htop : t.at? [] = some .directory := if_pos rfl
  at?_of_follow htop h.reached

theorem at_prefix (h : t.Rooted base) (hdir : t.at? (base ++ place) = some .directory)
    {p : List String} (hp : p <+: place) : t.at? (base ++ p) = some .directory := by
  induction place using List.reverseRecOn with
  | nil => rwa [List.prefix_nil.1 hp]
  | append_singleton place last ih =>
    rcases List.prefix_concat_iff.1 hp with rfl | hp
    · exact hdir
    · exact ih (h.parent _ _ _ hdir) hp

theorem open_of_directory (h : t.Rooted base) (hdir : t.at? (base ++ place) = some .directory) :
    t.Open base place := fun p hp content => by
  rw [h.at_prefix hdir hp]
  simp

theorem follow_directory (h : t.Rooted base) (hshort : Short place)
    (hdir : t.at? (base ++ place) = some .directory) :
    t.follow [] .directory (base ++ place) = .ok .directory := by
  rcases List.eq_nil_or_concat' place with rfl | ⟨outer, name, rfl⟩
  · rw [List.append_nil, h.reached]
  · rw [h.follow_eq hshort (h.open_of_directory hdir).of_concat, hdir]
    rfl

theorem put (h : t.Rooted base) (hdir : t.at? (base ++ place) = some .directory)
    (hnode : node = .directory ∨ t.at? (base ++ (place ++ [name])) ≠ some .directory) :
    (t.put (base ++ (place ++ [name])) node).Rooted base where
  reached := by
    rw [← h.reached]
    refine follow_congr fun p _ hp => ?_
    rw [List.nil_append, at?_put t (by simp), if_neg]
    rintro rfl
    have hlength := hp.length_le
    simp only [List.length_append, List.length_singleton] at hlength
    omega
  parent q last next hnext := by
    rw [at?_put t (by simp)] at hnext ⊢
    have hq : t.at? (base ++ q) = some .directory := by
      split at hnext
      · rename_i heq
        obtain rfl := (List.append_inj_left' (List.append_cancel_left heq) rfl)
        exact hdir
      · exact h.parent q last next hnext
    split
    · rename_i heq
      rw [← heq] at hq
      rw [hnode.resolve_right (absurd hq ·)]
    · exact hq

end Rooted

theorem makeDirectories_of_directory (h : t.follow [] .directory place = .ok .directory) :
    t.makeDirectories place.reverse = (.ok (), t) := by
  cases hp : place.reverse with
  | nil => rfl
  | cons name outer =>
    have hplace : (name :: outer).reverse = place := by rw [← hp, List.reverse_reverse]
    simp only [makeDirectories, hplace, h]

theorem makeDirectories_of_missing
    (h : t.follow [] .directory (place ++ [name]) = .error .notFound)
    (hname : (utf8 name).length ≤ maxName)
    (houter : t.makeDirectories place.reverse = (.ok (), u)) :
    t.makeDirectories (place ++ [name]).reverse =
      (.ok (), u.put (place ++ [name]) .directory) := by
  simp only [List.reverse_concat, makeDirectories, List.reverse_cons, List.reverse_reverse, h,
    houter, if_neg (Nat.not_lt_of_le hname)]

theorem Rooted.makeDirectories (h : t.Rooted base) (hshort : Short place)
    (hopen : t.Open base place) :
    ∃ made, t.makeDirectories (base ++ place).reverse = (.ok (), made) ∧ made.Rooted base ∧
      ∀ p, made.at? (base ++ p) = if p <+: place then some .directory else t.at? (base ++ p) := by
  induction place using List.reverseRecOn with
  | nil =>
    rw [List.append_nil]
    refine ⟨t, makeDirectories_of_directory h.reached, h, fun p => ?_⟩
    split
    · rename_i hp
      rw [List.prefix_nil.1 hp, List.append_nil, h.at_base]
    · rfl
  | append_singleton place name ih =>
    have hfollow := h.follow_eq hshort hopen.of_concat
    cases hat : t.at? (base ++ (place ++ [name])) with
    | some node =>
      rw [hat] at hfollow
      cases node with
      | file content => exact absurd hat (hopen _ (List.prefix_refl _) content)
      | directory =>
        refine ⟨t, makeDirectories_of_directory hfollow, h, fun p => ?_⟩
        split
        · exact h.at_prefix hat ‹_›
        · rfl
    | none =>
      -- The outer directories come first; the last one is then put into the innermost of them.
      rw [hat, ← List.append_assoc] at hfollow
      obtain ⟨made, hmade, hrooted, hat'⟩ := ih hshort.of_concat.1 hopen.of_concat
      have hdir : made.at? (base ++ place) = some .directory := by
        rw [hat', if_pos (List.prefix_refl _)]
      refine ⟨made.put (base ++ (place ++ [name])) .directory, ?_,
        hrooted.put hdir (.inl rfl), fun p => ?_⟩
      · rw [← List.append_assoc]
        exact makeDirectories_of_missing hfollow hshort.of_concat.2 hmade
      · rw [at?_put made (by simp), hat']
        by_cases hp : place ++ [name] = p
        · rw [if_pos (congrArg (base ++ ·) hp), if_pos (hp ▸ List.prefix_refl _)]
        · have hprefix : p <+: place ++ [name] ↔ p <+: place := by
            rw [List.prefix_concat_iff, or_iff_right (Ne.symm hp)]
          rw [if_neg (mt List.append_cancel_left hp), if_congr hprefix rfl rfl]

theorem Rooted.readFile_eq (h : t.Rooted base) (hpath : (utf8 path).length ≤ maxPath)
    (hnames : Path.names path = base ++ (dir ++ [name])) (hshort : Short (dir ++ [name]))
    (hopen : t.Open base dir) {content : Option Bytes}
    (hat : t.at? (base ++ (dir ++ [name])) = content.map .file) :
    t.readFile path = content.elim (.error .notFound) .ok := by
  rw [readFile, find_eq_follow hpath hnames, h.follow_eq hshort hopen, hat]
  cases content <;> rfl

theorem Rooted.writeFile_eq (h : t.Rooted base) (hpath : (utf8 path).length ≤ maxPath)
    (hnames : Path.names path = base ++ (dir ++ [name])) (hshort : Short (dir ++ [name]))
    (hdir : t.at? (base ++ dir) = some .directory)
    (hfree : t.at? (base ++ (dir ++ [name])) ≠ some .directory) (content : Bytes) :
    t.writeFile path content = .ok (t.put (base ++ (dir ++ [name])) (.file content)) := by
  have hfind : t.find path = (t.at? (base ++ (dir ++ [name]))).elim (.error .notFound) .ok := by
    rw [find_eq_follow hpath hnames, h.follow_eq hshort (h.open_of_directory hdir)]
  have hparent : t.hasParent (base ++ (dir ++ [name])) := by
    rw [hasParent, ← List.append_assoc, List.dropLast_concat,
      h.follow_directory hshort.of_concat.1 hdir]
    simp
  rw [writeFile, hfind, hnames]
  cases hat : t.at? (base ++ (dir ++ [name])) with
  | none => exact if_pos hparent
  | some node =>
    cases node with
    | file old => rfl
    | directory => exact absurd hat hfree

/-- The whole of what writing a file does, its directories included: the file stands at its place,
directories on the way to it, and everything else is as it was. -/
theorem Rooted.write {dirPath : String} (h : t.Rooted base)
    (hdirPath : (utf8 dirPath).length ≤ maxPath) (hpath : (utf8 path).length ≤ maxPath)
    (hdirNames : Path.names dirPath = base ++ dir)
    (hnames : Path.names path = base ++ (dir ++ [name])) (hshort : Short (dir ++ [name]))
    (hopen : t.Open base dir) (hfree : t.at? (base ++ (dir ++ [name])) ≠ some .directory)
    (content : Bytes) :
    ∃ made after, t.createDirectories dirPath = (.ok (), made) ∧
      made.writeFile path content = .ok after ∧ after.Rooted base ∧
      ∀ p, after.at? (base ++ p) = if p = dir ++ [name] then some (.file content)
        else if p <+: dir then some .directory else t.at? (base ++ p) := by
  obtain ⟨made, hmade, hrooted, hat⟩ := h.makeDirectories hshort.of_concat.1 hopen
  have hself : ¬ dir ++ [name] <+: dir := fun hp => by
    have hlength := hp.length_le
    simp only [List.length_append, List.length_singleton] at hlength
    omega
  have hdir : made.at? (base ++ dir) = some .directory := by
    rw [hat, if_pos (List.prefix_refl _)]
  have hfree' : made.at? (base ++ (dir ++ [name])) ≠ some .directory := by
    rwa [hat, if_neg hself]
  refine ⟨made, made.put (base ++ (dir ++ [name])) (.file content), ?_,
    hrooted.writeFile_eq hpath hnames hshort hdir hfree' content,
    hrooted.put hdir (.inr hfree'), fun p => ?_⟩
  · rw [createDirectories, if_neg (Nat.not_lt_of_le hdirPath), hdirNames, hmade]
  · have hplace : base ++ (dir ++ [name]) = base ++ p ↔ p = dir ++ [name] := by
      rw [List.append_cancel_left_eq, eq_comm]
    rw [at?_put made (by simp), hat, if_congr hplace rfl rfl]

end FileTree

end BlockWorld
