import BlockWorld.Proofs.Files.Listing
import BlockWorld.Proofs.World.Store

/-! # What there is in a world's directory

A directory that was empty holds the files that were written and the directories that they needed,
and nothing else. So the files of a dimension can be counted by looking at their names only.
-/

namespace BlockWorld

def Dimension.directory : Dimension → List String
  | .normal => ["region"]
  | .nether => ["DIM-1", "region"]

theorem RecordKey.directory_chunk (d : Dimension) (loc : ChunkLoc) :
    (RecordKey.chunk d loc).directory = d.directory := by
  cases d <;> rfl

theorem RecordKey.place_chunk (d : Dimension) (loc : ChunkLoc) :
    (RecordKey.chunk d loc).place = d.directory ++ [Region.fileName loc] := by
  rw [place, directory_chunk, fileName]

theorem RecordKey.chunk_of_place {k : RecordKey} {d : Dimension} {name : String}
    (h : k.place = d.directory ++ [name]) :
    ∃ loc, k = .chunk d loc ∧ name = Region.fileName loc := by
  obtain ⟨hdirectory, hname⟩ := List.append_singleton_inj.1 h
  obtain _ | other | ⟨_ | _, loc⟩ := k <;> cases d <;>
    simp [RecordKey.directory, Dimension.directory] at hdirectory
  all_goals exact ⟨loc, rfl, hname.symm⟩

theorem RecordKey.not_concat_prefix (k : RecordKey) (d : Dimension) (name : String) :
    ¬ d.directory ++ [name] <+: k.directory := by
  obtain _ | other | ⟨_ | _, loc⟩ := k <;> cases d <;>
    simp [RecordKey.directory, Dimension.directory]

theorem Region.names_directory (world : String) (d : Dimension) :
    Path.names (directory world d) = Path.names world ++ d.directory := by
  rw [← RecordKey.directory_chunk d ⟨0, 0⟩, ← RecordKey.names_directoryPath,
    RecordKey.directoryPath]

theorem Region.endsWith_fileName (loc : ChunkLoc) : (fileName loc).endsWith suffix := by
  rw [← String.endsWith_toSlice, String.Slice.endsWith_string_iff, String.copy_toSlice, fileName,
    String.toList_append]
  exact List.suffix_append _ _

namespace FileTree

/-- There are the files of these contents and the directories on the way to them, and nothing else.
No directory has a name twice. -/
structure StoresOnly (t : FileTree) (world : String) (content : RecordKey → Option Bytes) : Prop
    extends t.Stores world content where
  directory : ∀ place, t.at? (Path.names world ++ place) = some .directory →
    place = [] ∨ ∃ k, content k ≠ none ∧ place <+: k.directory
  tidy : t.Tidy (Path.names world)

namespace StoresOnly

variable {t : FileTree} {world : String} {content : RecordKey → Option Bytes} {d : Dimension}
  {name : String}

theorem of_empty (hworld : t.find world = .ok .directory)
    (hempty : ∀ place ≠ [], t.at? (Path.names world ++ place) = none) :
    t.StoresOnly world (contentAfter []) where
  toStores := .of_empty hworld hempty
  directory place hplace := by
    by_contra hne
    rw [hempty place fun h => hne (.inl h)] at hplace
    cases hplace
  tidy := tidy_of_empty hempty

section Room

variable (hroom : (utf8 world).length + 264 ≤ maxPath)

include hroom

theorem write (h : t.StoresOnly world content) (k : RecordKey) (b : Bytes) :
    ∃ made after, t.createDirectories (k.directoryPath world) = (.ok (), made) ∧
      made.writeFile (k.path world) b = .ok after ∧
      after.StoresOnly world fun l => if l = k then some b else content l := by
  obtain ⟨made, after, hmade, hafter, hstores, hat⟩ := h.toStores.write hroom k b
  have hput : ∀ u place node, place ≠ [] → Tidy u (Path.names world) →
      Tidy (u.put place node) (Path.names world) := fun u place node hplace hu => hu.put hplace node
  have hmadeTidy := createDirectories_keeps hput h.tidy (k.directoryPath world)
  rw [hmade] at hmadeTidy
  refine ⟨made, after, hmade, hafter, hstores, fun place hplace => ?_,
    writeFile_keeps hput hmadeTidy hafter⟩
  rw [hat] at hplace
  split at hplace
  · cases hplace
  split at hplace
  · exact .inr ⟨k, by simp, ‹_›⟩
  · obtain hnil | ⟨l, hl, hprefix⟩ := h.directory place hplace
    · exact .inl hnil
    · refine .inr ⟨l, ?_, hprefix⟩
      split
      · simp
      · exact hl

end Room

theorem open_directory (h : t.StoresOnly world content) (d : Dimension) :
    t.Open (Path.names world) d.directory := by
  rw [← RecordKey.directory_chunk d ⟨0, 0⟩]
  exact h.isOpen _

theorem at_directory (h : t.StoresOnly world content) {loc : ChunkLoc}
    (hloc : content (.chunk d loc) ≠ none) :
    t.at? (Path.names world ++ d.directory) = some .directory := by
  obtain ⟨b, hb⟩ := Option.ne_none_iff_exists'.1 hloc
  refine h.rooted.parent d.directory (Region.fileName loc) (.file b) ?_
  rw [← RecordKey.place_chunk, h.file, hb]
  rfl

theorem mem_namesIn_iff (h : t.StoresOnly world content) :
    name ∈ t.namesIn (Path.names world ++ d.directory) ↔
      ∃ loc, content (.chunk d loc) ≠ none ∧ name = Region.fileName loc := by
  rw [mem_namesIn, List.append_assoc]
  constructor
  · intro hat
    obtain ⟨node, hnode⟩ := Option.ne_none_iff_exists'.1 hat
    cases node with
    | file b =>
      obtain ⟨k, hk⟩ := h.elsewhere _ _ hnode
      obtain ⟨loc, rfl, rfl⟩ := RecordKey.chunk_of_place hk.symm
      refine ⟨loc, fun hnone => ?_, rfl⟩
      rw [hk, h.file, hnone] at hnode
      cases hnode
    | directory =>
      obtain hnil | ⟨k, -, hprefix⟩ := h.directory _ hnode
      · simp at hnil
      · exact absurd hprefix (k.not_concat_prefix d name)
  · rintro ⟨loc, hloc, rfl⟩
    rw [← RecordKey.place_chunk, h.file]
    simpa using hloc

/-- The names in the directory of a dimension are those of its chunks. -/
theorem namesIn_perm (h : t.StoresOnly world content) {locs : List ChunkLoc} (hnodup : locs.Nodup)
    (hlocs : ∀ loc, loc ∈ locs ↔ content (.chunk d loc) ≠ none) :
    (t.namesIn (Path.names world ++ d.directory)).Perm (locs.map Region.fileName) := by
  have hnames : (locs.map Region.fileName).Nodup :=
    hnodup.map fun _ _ => Region.fileName_injective
  refine (List.perm_ext_iff_of_nodup (h.tidy d.directory) hnames).2 fun name => ?_
  simp only [h.mem_namesIn_iff, List.mem_map, hlocs, eq_comm]

section Room

variable (hroom : (utf8 world).length + 264 ≤ maxPath)

include hroom

theorem find_directory (h : t.StoresOnly world content) (d : Dimension) :
    t.find (Region.directory world d) =
      (t.at? (Path.names world ++ d.directory)).elim (.error .notFound) .ok := by
  have hlength : (utf8 (Region.directory world d)).length ≤ maxPath :=
    ((RecordKey.chunk d ⟨0, 0⟩).length_path_le world).1.trans hroom
  have hopen := h.open_directory d
  have hshort := (RecordKey.chunk d ⟨0, 0⟩).short_place
  rw [RecordKey.place_chunk] at hshort
  rw [find_eq_follow hlength (Region.names_directory world d)]
  obtain ⟨outer, last, hdirectory⟩ :=
    (List.eq_nil_or_concat' d.directory).resolve_left (by cases d <;> simp [Dimension.directory])
  rw [hdirectory] at hopen hshort ⊢
  exact h.rooted.follow_eq hshort.of_concat.1 hopen.of_concat

theorem list_eq (h : t.StoresOnly world content) {loc : ChunkLoc}
    (hloc : content (.chunk d loc) ≠ none) : t.list (Region.directory world d) =
      .ok (t.namesIn (Path.names world ++ d.directory)) := by
  have hfind := h.find_directory hroom d
  rw [h.at_directory hloc] at hfind
  rw [list_of_directory hfind, Region.names_directory]

theorem count_eq (h : t.StoresOnly world content) {locs : List ChunkLoc} (hnodup : locs.Nodup)
    (hlocs : ∀ loc, loc ∈ locs ↔ content (.chunk d loc) ≠ none) :
    Region.count t world d = .ok locs.length := by
  have hperm := h.namesIn_perm hnodup hlocs
  have hfind := h.find_directory hroom d
  rw [Region.count]
  cases hat : t.at? (Path.names world ++ d.directory) with
  | none =>
    -- Nothing can be stored before the directory is made.
    have hnil : locs = [] := List.eq_nil_iff_forall_not_mem.2 fun loc hloc => by
      cases hat.symm.trans (h.at_directory ((hlocs loc).1 hloc))
    rw [hat] at hfind
    simp only [list_of_error hfind, hnil]
    rfl
  | some node =>
    cases node with
    | file b => exact absurd hat (h.open_directory d _ (List.prefix_refl _) b)
    | directory =>
      rw [hat] at hfind
      have hsuffix : ∀ name ∈ locs.map Region.fileName, name.endsWith Region.suffix := by
        simp [Region.endsWith_fileName]
      simp only [list_of_directory hfind, Region.names_directory, hperm.countP_eq,
        List.countP_eq_length.2 hsuffix, List.length_map]

end Room

end StoresOnly

end FileTree

end BlockWorld
