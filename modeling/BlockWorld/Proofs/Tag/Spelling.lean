import BlockWorld.Proofs.Tag.Paths
import Mathlib.Logic.Relation

/-! # How paths are spelled and put together

A path spells the names between its slashes, and of the slashes only those between two names count:
paths that differ in other slashes lead to the same place in every tree, and no other paths do. A
path that goes on after a slash leads on from where it was. What is put into a compound is found
behind its name, and everything behind other names stays where it is.
-/

namespace BlockWorld.Tag

variable {t v : Tag} {p q path name key : String} {names : List String}

structure IsName (s : String) : Prop where
  ne_empty : s ≠ ""
  no_slash : '/' ∉ s.toList

inductive Spells : String → List String → Prop
  | nothing : Spells "" []
  | last {name : String} (hname : IsName name) : Spells name [name]
  | slash {path : String} {names : List String} (h : Spells path names) :
      Spells ("/" ++ path) names
  | name {name path : String} {names : List String} (hname : IsName name) (h : Spells path names) :
      Spells (name ++ "/" ++ path) (name :: names)

/-! ## The names on a path -/

theorem pathNames_empty : pathNames "" = [] := by
  simp [pathNames, Text.split]

theorem pathNames_append (p q : String) :
    pathNames (p ++ "/" ++ q) = pathNames p ++ pathNames q := by
  have htext : (p ++ "/" ++ q).toList = p.toList ++ '/' :: q.toList := by simp
  rw [pathNames, htext, Text.split_append, List.filter_append, List.map_append]
  rfl

theorem pathNames_slash (p : String) : pathNames ("/" ++ p) = pathNames p := by
  simpa only [String.empty_append, pathNames_empty, List.nil_append] using pathNames_append "" p

theorem IsName.pathNames_eq (h : IsName name) : pathNames name = [name] := by
  have hne : name.toList ≠ [] := fun hnil => h.ne_empty (String.toList_eq_nil_iff.1 hnil)
  rw [pathNames, Text.split_of_not_mem h.no_slash, List.filter_cons_of_pos (by simp [hne])]
  simp

theorem Spells.pathNames_eq (h : Spells path names) : pathNames path = names := by
  induction h with
  | nothing => exact pathNames_empty
  | last hname => exact hname.pathNames_eq
  | slash _ ih => rw [pathNames_slash, ih]
  | name hname _ ih => rw [pathNames_append, hname.pathNames_eq, ih, List.singleton_append]

theorem exists_eq_append_of_slash (h : '/' ∈ path.toList) :
    ∃ first rest, path = first ++ "/" ++ rest ∧ '/' ∉ first.toList := by
  obtain ⟨first, rest, hpath, hfirst⟩ := List.eq_append_cons_of_mem h
  refine ⟨String.ofList first, String.ofList rest, ?_, ?_⟩
  · apply String.ext
    simp [hpath]
  · rwa [String.toList_ofList]

theorem spells_pathNames (path : String) : Spells path (pathNames path) := by
  by_cases hslash : '/' ∈ path.toList
  · obtain ⟨first, rest, hpath, hfirst⟩ := exists_eq_append_of_slash hslash
    -- The recursion is on the path after the first slash.
    have hlength : rest.length < path.length := by
      have hone : "/".length = 1 := rfl
      rw [hpath, String.length_append, String.length_append]
      omega
    have hrest := spells_pathNames rest
    rw [hpath, pathNames_append]
    by_cases hempty : first = ""
    · rw [hempty, String.empty_append, pathNames_empty, List.nil_append]
      exact .slash hrest
    · have hname : IsName first := ⟨hempty, hfirst⟩
      rw [hname.pathNames_eq]
      exact .name hname hrest
  · by_cases hempty : path = ""
    · rw [hempty, pathNames_empty]
      exact .nothing
    · have hname : IsName path := ⟨hempty, hslash⟩
      rw [hname.pathNames_eq]
      exact .last hname
termination_by path.length

theorem spells_iff : Spells path names ↔ pathNames path = names :=
  ⟨Spells.pathNames_eq, fun h => h ▸ spells_pathNames path⟩

/-- What is found at a path is what its names lead to. -/
theorem lookup_eq_some_iff_spells :
    t.lookup path = some v ↔ ∃ names, Spells path names ∧ t.Leads names v := by
  constructor
  · intro h
    exact ⟨pathNames path, spells_pathNames path, (lookup_eq_some_iff rfl).1 h⟩
  · rintro ⟨names, hnames, hv⟩
    exact (lookup_eq_some_iff hnames.pathNames_eq).2 hv

theorem lookup_append (t : Tag) (p q : String) :
    t.lookup (p ++ "/" ++ q) = (t.lookup p).bind (·.lookup q) := by
  rw [lookup, pathNames_append, descend_append]
  rfl

/-! ## Slashes that do not count -/

theorem pathNames_intercalate (parts : List String) :
    pathNames ("/".intercalate parts) = parts.flatMap pathNames := by
  induction parts with
  | nil => exact pathNames_empty
  | cons part parts ih =>
    cases parts with
    | nil => simp
    | cons next parts =>
      rw [String.intercalate_cons_cons, pathNames_append, ih]
      rfl

theorem pathNames_intercalate_filter (parts : List String) :
    pathNames ("/".intercalate (parts.filter (· ≠ ""))) = pathNames ("/".intercalate parts) := by
  rw [pathNames_intercalate, pathNames_intercalate]
  induction parts with
  | nil => rfl
  | cons part parts ih =>
    by_cases hempty : part = ""
    · rw [List.filter_cons_of_neg (by simp [hempty]), ih, hempty, List.flatMap_cons,
        pathNames_empty, List.nil_append]
    · rw [List.filter_cons_of_pos (by simp [hempty]), List.flatMap_cons, ih, List.flatMap_cons]

/-- The second path is the first without a slash that does not count. -/
inductive Trims : String → String → Prop
  | leading (p : String) : Trims ("/" ++ p) p
  | trailing (p : String) : Trims (p ++ "/") p
  | doubled (p q : String) : Trims (p ++ "//" ++ q) (p ++ "/" ++ q)

/-- One path becomes the other as slashes that do not count are added and removed. -/
def Respelled : String → String → Prop := Relation.EqvGen Trims

theorem append_two_slashes (p q : String) : p ++ "//" ++ q = p ++ "/" ++ ("/" ++ q) := by
  have htwo : "//" = "/" ++ "/" := by decide
  rw [htwo]
  simp only [String.append_assoc]

theorem Trims.pathNames_eq (h : Trims p q) : pathNames p = pathNames q := by
  cases h with
  | leading => exact pathNames_slash q
  | trailing =>
    have hq := pathNames_append q ""
    rwa [String.append_empty, pathNames_empty, List.append_nil] at hq
  | doubled p q =>
    rw [append_two_slashes, pathNames_append, pathNames_slash, pathNames_append]

theorem Respelled.pathNames_eq (h : Respelled p q) : pathNames p = pathNames q := by
  induction h with
  | rel _ _ h => exact h.pathNames_eq
  | refl => rfl
  | symm _ _ _ ih => exact ih.symm
  | trans _ _ _ _ _ ih ih' => exact ih.trans ih'

theorem Trims.behind (first : String) (h : Trims p q) :
    Trims (first ++ "/" ++ p) (first ++ "/" ++ q) := by
  cases h with
  | leading =>
    have h := Trims.doubled first q
    rwa [append_two_slashes] at h
  | trailing =>
    have h := Trims.trailing (first ++ "/" ++ q)
    rwa [String.append_assoc] at h
  | doubled p q =>
    have h := Trims.doubled (first ++ "/" ++ p) q
    simpa only [String.append_assoc] using h

theorem Respelled.behind (first : String) (h : Respelled p q) :
    Respelled (first ++ "/" ++ p) (first ++ "/" ++ q) := by
  induction h with
  | rel _ _ h => exact .rel _ _ (h.behind first)
  | refl => exact .refl _
  | symm _ _ _ ih => exact .symm _ _ ih
  | trans _ _ _ _ _ ih ih' => exact .trans _ _ _ ih ih'

/-- Trimmed as far as it can be, a path has one slash between two names and no others. -/
theorem Spells.respelled (h : Spells path names) : Respelled path ("/".intercalate names) := by
  induction h with
  | nothing => exact .refl _
  | last =>
    rw [String.intercalate_singleton]
    exact .refl _
  | slash _ ih => exact .trans _ _ _ (.rel _ _ (.leading _)) ih
  | @name name path names hname _ ih =>
    refine .trans _ _ _ (ih.behind name) ?_
    cases names with
    | nil =>
      rw [String.intercalate_nil, String.append_empty, String.intercalate_singleton]
      exact .rel _ _ (.trailing name)
    | cons next names =>
      rw [String.intercalate_cons_cons]
      exact .refl _

theorem respelled_iff_pathNames : Respelled p q ↔ pathNames p = pathNames q := by
  constructor
  · exact Respelled.pathNames_eq
  · intro h
    exact .trans _ _ _ (spells_pathNames p).respelled (h ▸ .symm _ _ (spells_pathNames q).respelled)

/-- A tree of nothing but these names, each in the one before, and a value behind the last. -/
def stem (v : Tag) : List String → Tag
  | [] => v
  | name :: names => .compound [(name, stem v names)]

theorem leads_stem_iff {names' : List String} :
    (stem (.byte 0) names).Leads names' (.byte 0) ↔ names' = names := by
  induction names generalizing names' with
  | nil =>
    constructor
    · rintro ⟨⟩
      rfl
    · rintro rfl
      exact .here _
  | cons name names ih =>
    constructor
    · intro h
      cases h with
      | field hkey h =>
        obtain ⟨rfl, ⟨⟩⟩ : name = _ ∧ _ := by simpa [field?] using hkey
        rw [ih.1 h]
    · rintro rfl
      exact .field (if_pos rfl) (ih.2 rfl)

/-- The slashes that do not count are all that paths to the same places may differ in. -/
theorem respelled_iff_lookup : Respelled p q ↔ ∀ t : Tag, t.lookup p = t.lookup q := by
  constructor
  · intro h t
    rw [lookup, lookup, h.pathNames_eq]
  · intro h
    have hp : (stem (.byte 0) (pathNames p)).lookup p = some (.byte 0) :=
      (lookup_eq_some_iff rfl).2 (leads_stem_iff.2 rfl)
    have hq := (lookup_eq_some_iff rfl).1 ((h _).symm.trans hp)
    exact respelled_iff_pathNames.2 (leads_stem_iff.1 hq).symm

/-! ## Values put into a compound -/

theorem child?_insert_self (fields : List (String × Tag)) (key : String) (v : Tag) :
    ((compound fields).insert key v).child? key = some v := by
  rw [insert, child?, field?_insertField, if_pos rfl]

theorem child?_insert_of_ne (t v : Tag) (h : name ≠ key) :
    (t.insert key v).child? name = t.child? name := by
  cases t with
  | compound fields => rw [insert, child?, field?_insertField, if_neg h.symm, child?]
  | _ => rfl

theorem lookup_insert_self (hkey : IsName key) (fields : List (String × Tag)) (v : Tag)
    (rest : String) :
    ((compound fields).insert key v).lookup (key ++ "/" ++ rest) = v.lookup rest := by
  have hv : ((compound fields).insert key v).lookup key = some v := by
    rw [lookup, hkey.pathNames_eq, descend, child?_insert_self]
    rfl
  rw [lookup_append, hv, Option.bind_some]

theorem lookup_insert_of_ne (t v : Tag) (hpath : Spells path (name :: names))
    (hne : name ≠ key) : (t.insert key v).lookup path = t.lookup path := by
  rw [lookup, lookup, hpath.pathNames_eq, descend, descend, child?_insert_of_ne t v hne]

/-- A path leads where its names lead. So a path that goes on after a slash leads on from where it
was, and neither empty parts nor slashes that do not count make a difference. Behind its name a
value that was put into a compound is found as it is, and a path that starts with another name leads
where it led before. -/
theorem lookup_composes (t : Tag) :
    (∀ path v, t.lookup path = some v ↔ ∃ names, Spells path names ∧ t.Leads names v) ∧
    (∀ p q, t.lookup (p ++ "/" ++ q) = (t.lookup p).bind (·.lookup q)) ∧
    (∀ parts : List String,
      t.lookup ("/".intercalate (parts.filter (· ≠ ""))) = t.lookup ("/".intercalate parts)) ∧
    (∀ p q, Respelled p q → t.lookup p = t.lookup q) ∧
    (∀ fields, t = .compound fields → ∀ key, IsName key → ∀ v rest,
      (t.insert key v).lookup (key ++ "/" ++ rest) = v.lookup rest) ∧
    ∀ key v path first names, Spells path (first :: names) → first ≠ key →
      (t.insert key v).lookup path = t.lookup path := by
  refine ⟨fun path v => lookup_eq_some_iff_spells, lookup_append t, fun parts => ?_,
    fun p q h => respelled_iff_lookup.1 h t, ?_, ?_⟩
  · rw [lookup, lookup, pathNames_intercalate_filter]
  · rintro fields rfl key hkey v rest
    exact lookup_insert_self hkey fields v rest
  · intro key v path first names hpath hne
    exact lookup_insert_of_ne t v hpath hne

/-- In a compound with a name that is empty and one with a slash, which no path reaches. -/
theorem lookup_composes_unreachable_names :
    let t : Tag := .compound [("", .byte 1), ("Data", .compound [("SpawnX", .int 12)]),
      ("Data/SpawnX", .byte 2)]
    let v : Tag := .compound [("SpawnX", .list [.double 1.5])]
    (Respelled "//Data//SpawnX/" "Data/SpawnX" ∧ t.lookup "//Data//SpawnX/" = some (.int 12)) ∧
    (IsName "Data" ∧
      (t.insert "Data" v).lookup ("Data" ++ "/" ++ "SpawnX") = some (.list [.double 1.5])) ∧
    (Spells "/Data/SpawnX" ["Data", "SpawnX"] ∧ "Data" ≠ "Data/SpawnX" ∧
      (t.insert "Data/SpawnX" v).lookup "/Data/SpawnX" = some (.int 12)) := by
  intro t v
  obtain ⟨hleads, -, -, hrespelled, hself, hne⟩ := lookup_composes t
  have hslashes : Respelled "//Data//SpawnX/" "Data/SpawnX" :=
    respelled_iff_pathNames.2 (by decide +kernel)
  have hname : IsName "Data" := ⟨by decide, by decide⟩
  have hspells (path : String) (h : pathNames path = ["Data", "SpawnX"]) :
      t.lookup path = some (.int 12) :=
    (hleads path _).2 ⟨_, spells_iff.2 h, leads_iff.2 rfl⟩
  have hpath : Spells "/Data/SpawnX" ["Data", "SpawnX"] := spells_iff.2 (by decide +kernel)
  refine ⟨⟨hslashes, ?_⟩, ⟨hname, ?_⟩, hpath, by decide, ?_⟩
  · rw [hrespelled _ _ hslashes]
    exact hspells _ (by decide +kernel)
  · rw [hself _ rfl "Data" hname]
    exact (lookup_eq_some_iff (show pathNames "SpawnX" = ["SpawnX"] by decide +kernel)).2
      (leads_iff.2 rfl)
  · rw [hne "Data/SpawnX" v _ _ _ hpath (by decide)]
    exact hspells _ hpath.pathNames_eq

end BlockWorld.Tag
