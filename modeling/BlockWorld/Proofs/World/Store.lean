import BlockWorld.Failure
import BlockWorld.Proofs.World.Layout
import BlockWorld.Proofs.World.Record
import BlockWorld.World.Basic

/-! # A world directory as a store

Metadata, player records and chunks are written into an empty directory in any order and as often as
one likes. Each is then read as it was last written, and what was never written is not found.
-/

namespace BlockWorld

inductive WorldWrite
  | level (l : Level)
  | player (name : PlayerName) (p : Position)
  | chunk (dimension : Dimension) (c : Chunk)

namespace WorldWrite

def key : WorldWrite → RecordKey
  | .level _ => .level
  | .player name _ => .player name
  | .chunk dimension c => .chunk dimension c.loc

def content : WorldWrite → Bytes
  | .level l => pack l.toTag.encode
  | .player _ p => pack (Tag.ofFields [("Pos", p.toTag)]).encode
  | .chunk _ c => pack (ChunkRecord.ofChunk c).encode

def perform (files : FileTree) (world : String) : WorldWrite → Except Cause Unit × FileTree
  | .level l =>
    let (r, files) := l.save files world
    (r.mapError .file, files)
  | .player name p =>
    let (r, files) := PlayerRecord.save files world name.text p
    (r.mapError .player, files)
  | .chunk dimension c =>
    let (r, files) := Region.save files world dimension c
    (r.mapError .chunk, files)

/-- Performs one write after the other, whatever comes of those before. -/
def performAll (world : String) : FileTree → List WorldWrite → List (Except Cause Unit) × FileTree
  | files, [] => ([], files)
  | files, w :: rest =>
    let (r, files) := w.perform files world
    let (results, files) := performAll world files rest
    (r :: results, files)

def level? : WorldWrite → Option Level
  | .level l => some l
  | _ => none

def position? (name : PlayerName) : WorldWrite → Option Position
  | .player n p => if n = name then some p else none
  | _ => none

def chunk? (dimension : Dimension) (loc : ChunkLoc) : WorldWrite → Option Chunk
  | .chunk d c => if d = dimension ∧ c.loc = loc then some c else none
  | _ => none

end WorldWrite

def lastWritten {α : Type} (pick : WorldWrite → Option α) (writes : List WorldWrite) : Option α :=
  (writes.filterMap pick).getLast?

theorem lastWritten_concat {α : Type} (pick : WorldWrite → Option α) (writes : List WorldWrite)
    (w : WorldWrite) :
    lastWritten pick (writes ++ [w]) = (pick w).or (lastWritten pick writes) := by
  rw [lastWritten, List.filterMap_append]
  cases h : pick w <;> simp [lastWritten, h]

theorem lastWritten_chunk_loc {dimension : Dimension} {loc : ChunkLoc} {writes : List WorldWrite}
    {c : Chunk} (h : lastWritten (WorldWrite.chunk? dimension loc) writes = some c) :
    c.loc = loc := by
  obtain ⟨w, -, hw⟩ := List.mem_filterMap.1 (List.mem_of_getLast? h)
  cases w with
  | level l => cases hw
  | player n p => cases hw
  | chunk d c' =>
    rw [WorldWrite.chunk?] at hw
    split at hw
    · rename_i hloc
      cases hw
      exact hloc.2
    · cases hw

/-- The content of the file of a key, once these writes are done. -/
def contentAfter (writes : List WorldWrite) : RecordKey → Option Bytes
  | .level => (lastWritten WorldWrite.level? writes).map fun l => pack l.toTag.encode
  | .player name => (lastWritten (WorldWrite.position? name) writes).map fun p =>
      pack (Tag.ofFields [("Pos", p.toTag)]).encode
  | .chunk dimension loc => (lastWritten (WorldWrite.chunk? dimension loc) writes).map fun c =>
      pack (ChunkRecord.ofChunk c).encode

theorem contentAfter_concat (writes : List WorldWrite) (w : WorldWrite) (k : RecordKey) :
    contentAfter (writes ++ [w]) k =
      if k = w.key then some w.content else contentAfter writes k := by
  cases k with
  | level =>
    cases w <;> simp [contentAfter, lastWritten_concat, WorldWrite.level?, WorldWrite.key,
      WorldWrite.content]
  | player name =>
    cases w with
    | player n p =>
      by_cases hn : n = name
      · subst hn
        simp [contentAfter, lastWritten_concat, WorldWrite.position?, WorldWrite.key,
          WorldWrite.content]
      · simp [contentAfter, lastWritten_concat, WorldWrite.position?, WorldWrite.key, hn,
          Ne.symm hn]
    | _ => simp [contentAfter, lastWritten_concat, WorldWrite.position?, WorldWrite.key]
  | chunk dimension loc =>
    cases w with
    | chunk d c =>
      by_cases hd : d = dimension ∧ c.loc = loc
      · obtain ⟨rfl, rfl⟩ := hd
        simp [contentAfter, lastWritten_concat, WorldWrite.chunk?, WorldWrite.key,
          WorldWrite.content]
      · have hd' : ¬ (dimension = d ∧ loc = c.loc) := fun h => hd ⟨h.1.symm, h.2.symm⟩
        simp [contentAfter, lastWritten_concat, WorldWrite.chunk?, WorldWrite.key, hd, hd']
    | _ => simp [contentAfter, lastWritten_concat, WorldWrite.chunk?, WorldWrite.key]

theorem TagFile.write_eq {files made after : FileTree} {directory name : String} {t : Tag}
    (hmade : files.createDirectories directory = (.ok (), made))
    (hafter : made.writeFile (Path.join directory name) (pack t.encode) = .ok after) :
    write files directory name t = (.ok (), after) := by
  simp only [write, hmade, hafter]

theorem Region.save_eq {files made after : FileTree} {world : String} {d : Dimension} {c : Chunk}
    (hmade : files.createDirectories (directory world d) = (.ok (), made))
    (hafter : made.writeFile (path world d c.loc) (pack (ChunkRecord.ofChunk c).encode) =
      .ok after) :
    save files world d c = (.ok (), after) := by
  simp only [save, hmade, hafter]

/-- Below the world's directory there are the files of these contents, and directories. -/
structure FileTree.Stores (t : FileTree) (world : String) (content : RecordKey → Option Bytes) :
    Prop where
  rooted : t.Rooted (Path.names world)
  file : ∀ k, t.at? (Path.names world ++ k.place) = (content k).map .file
  elsewhere : ∀ place b, t.at? (Path.names world ++ place) = some (.file b) →
    ∃ k : RecordKey, place = k.place

namespace FileTree.Stores

variable {t : FileTree} {world : String} {content : RecordKey → Option Bytes}

theorem isOpen (h : t.Stores world content) (k : RecordKey) :
    t.Open (Path.names world) k.directory := by
  intro p hp b hat
  obtain ⟨l, rfl⟩ := h.elsewhere p b hat
  exact RecordKey.not_place_prefix l k hp

theorem of_empty (hworld : t.find world = .ok .directory)
    (hempty : ∀ place ≠ [], t.at? (Path.names world ++ place) = none) :
    t.Stores world (contentAfter []) := by
  rw [find] at hworld
  split at hworld
  · cases hworld
  have hrooted : t.Rooted (Path.names world) :=
    ⟨hworld, fun place name node hnode => by
      rw [hempty _ (by simp)] at hnode
      cases hnode⟩
  refine ⟨hrooted, fun k => ?_, fun place b hplace => ?_⟩
  · rw [hempty _ (by simp [RecordKey.place])]
    cases k <;> rfl
  · by_cases hp : place = []
    · subst hp
      rw [List.append_nil, hrooted.at_base] at hplace
      cases hplace
    · rw [hempty place hp] at hplace
      cases hplace

section Room

variable {writes : List WorldWrite} (hroom : (utf8 world).length + 264 ≤ maxPath)

include hroom

theorem readFile_eq (h : t.Stores world content) (k : RecordKey) :
    t.readFile (k.path world) = (content k).elim (.error .notFound) .ok :=
  h.rooted.readFile_eq ((k.length_path_le world).2.trans hroom) (k.names_path world) k.short_place
    (h.isOpen k) (h.file k)

/-- Writing the file of a key changes the content of that key only. -/
theorem write (h : t.Stores world content) (k : RecordKey) (b : Bytes) :
    ∃ made after, t.createDirectories (k.directoryPath world) = (.ok (), made) ∧
      made.writeFile (k.path world) b = .ok after ∧
      (after.Stores world fun l => if l = k then some b else content l) ∧
      ∀ p, after.at? (Path.names world ++ p) = if p = k.place then some (.file b)
        else if p <+: k.directory then some .directory else t.at? (Path.names world ++ p) := by
  have hlength := k.length_path_le world
  have hfree : t.at? (Path.names world ++ k.place) ≠ some .directory := by
    rw [h.file k]
    cases content k <;> simp
  obtain ⟨made, after, hmade, hafter, hrooted, hat⟩ :=
    h.rooted.write (hlength.1.trans hroom) (hlength.2.trans hroom) (k.names_directoryPath world)
      (k.names_path world) k.short_place (h.isOpen k) hfree b
  refine ⟨made, after, hmade, hafter, ⟨hrooted, fun l => ?_, fun place b' hplace => ?_⟩, hat⟩
  · -- Another file is not among the directories that were made.
    have hkey : l.place = k.place ↔ l = k := ⟨RecordKey.place_injective, congrArg _⟩
    rw [hat, ← RecordKey.place, if_congr hkey rfl rfl, if_neg (l.not_place_prefix k), h.file l]
    split <;> rfl
  · rw [hat] at hplace
    split at hplace
    · exact ⟨k, ‹_›⟩
    split at hplace
    · cases hplace
    · exact h.elsewhere place b' hplace

theorem perform (h : t.Stores world (contentAfter writes)) (w : WorldWrite) :
    (w.perform t world).1 = .ok () ∧
      (w.perform t world).2.Stores world (contentAfter (writes ++ [w])) := by
  obtain ⟨made, after, hmade, hafter, hstores, -⟩ := h.write hroom w.key w.content
  have hcontent : contentAfter (writes ++ [w]) =
      fun k => if k = w.key then some w.content else contentAfter writes k :=
    funext (contentAfter_concat writes w)
  have hperform : w.perform t world = (.ok (), after) := by
    cases w with
    | level l =>
      have hsave : l.save t world = (.ok (), after) := TagFile.write_eq hmade hafter
      rw [WorldWrite.perform, hsave]
      rfl
    | player name p =>
      have hwrite : TagFile.write t (PlayerRecord.directory world)
          (PlayerRecord.fileName name.text) (Tag.ofFields [("Pos", p.toTag)]) = (.ok (), after) :=
        TagFile.write_eq hmade hafter
      have hsave : PlayerRecord.save t world name.text p = (.ok (), after) := by
        rw [PlayerRecord.save, if_pos name.valid, hwrite]
        rfl
      rw [WorldWrite.perform, hsave]
      rfl
    | chunk dimension c =>
      have hsave : Region.save t world dimension c = (.ok (), after) := Region.save_eq hmade hafter
      rw [WorldWrite.perform, hsave]
      rfl
  rw [hperform, hcontent]
  exact ⟨rfl, hstores⟩

theorem performAll {done : List WorldWrite} (h : t.Stores world (contentAfter done))
    (writes : List WorldWrite) :
    (WorldWrite.performAll world t writes).1 = writes.map (fun _ => .ok ()) ∧
      (WorldWrite.performAll world t writes).2.Stores world (contentAfter (done ++ writes)) := by
  induction writes generalizing t done with
  | nil =>
    rw [List.append_nil]
    exact ⟨rfl, h⟩
  | cons w writes ih =>
    obtain ⟨hresult, hstores⟩ := h.perform hroom w
    obtain ⟨hresults, hstores'⟩ := ih hstores
    rw [List.append_cons]
    exact ⟨congrArg₂ List.cons hresult hresults, hstores'⟩

/-! ## Reading -/

theorem read_tag {α : Type} {value : Option α} {form : α → Tag} {k : RecordKey}
    (h : t.Stores world content) (hfits : ∀ a, (form a).Fits Tag.maxDepth)
    (hcontent : content k = value.map fun a => pack (form a).encode) :
    TagFile.read t (k.path world) =
      value.elim (.error (.file .notFound)) fun a => .ok (form a) := by
  rw [TagFile.read, h.readFile_eq hroom k, hcontent]
  cases value with
  | none => rfl
  | some a => exact congrArg (Except.mapError _) (hfits a).unpack_encode

theorem load_level (h : t.Stores world (contentAfter writes)) :
    Level.load t world = (lastWritten WorldWrite.level? writes).elim
      (.error (.notFound (Path.join world Level.fileName))) .ok := by
  have hread : TagFile.read t (Path.join world Level.fileName) =
      (lastWritten WorldWrite.level? writes).elim (.error (.file .notFound)) fun l => .ok l.toTag :=
    h.read_tag hroom (k := .level) (fun l => l.fits_toTag.mono (by decide)) rfl
  simp only [Level.load, hread]
  cases lastWritten WorldWrite.level? writes with
  | none => rfl
  | some l => exact congrArg (Except.mapError _) l.ofTag_toTag

theorem load_player (h : t.Stores world (contentAfter writes)) (name : PlayerName) :
    (PlayerRecord.load t world name.text).map (·.position) =
      (lastWritten (WorldWrite.position? name) writes).elim
        (.error (.notFound ((RecordKey.player name).path world))) .ok := by
  have hpath : PlayerRecord.path world name.text = .ok ((RecordKey.player name).path world) :=
    if_pos name.valid
  have hread := h.read_tag hroom (k := .player name)
    (fun p => (Position.fits_pos p).mono (by decide)) rfl
  simp only [PlayerRecord.load, hpath, hread, bind, Except.bind]
  cases lastWritten (WorldWrite.position? name) writes with
  | none => rfl
  | some p =>
    simp only [Option.elim_some, p.lookup_pos]
    rfl

theorem load_chunk (h : t.Stores world (contentAfter writes)) (dimension : Dimension)
    (loc : ChunkLoc) :
    Region.load t world dimension loc =
      .ok (lastWritten (WorldWrite.chunk? dimension loc) writes) := by
  have hread : t.readFile (Region.path world dimension loc) =
      ((lastWritten (WorldWrite.chunk? dimension loc) writes).map fun c =>
        pack (ChunkRecord.ofChunk c).encode).elim (.error .notFound) .ok :=
    h.readFile_eq hroom (.chunk dimension loc)
  rw [Region.load, hread]
  cases hc : lastWritten (WorldWrite.chunk? dimension loc) writes with
  | none => rfl
  | some c =>
    obtain rfl := lastWritten_chunk_loc hc
    exact congrArg (some <$> ·) (Region.decode_pack c)

end Room

end FileTree.Stores

namespace WorldWrite

/-- Into an empty directory everything can be written, in any order. Each value is then read as it
was last written; what was never written is not found, or is no stored chunk. The path of the world
leaves room for the paths in it, the longest of which adds 264 octets. -/
theorem last_written_is_read {files : FileTree} {world : String}
    (hworld : files.find world = .ok .directory)
    (hempty : ∀ place ≠ [], files.at? (Path.names world ++ place) = none)
    (hroom : (utf8 world).length + 264 ≤ FileTree.maxPath) (writes : List WorldWrite) :
    let outcome := performAll world files writes
    outcome.1 = writes.map (fun _ => .ok ()) ∧
    Level.load outcome.2 world = (lastWritten level? writes).elim
      (.error (.notFound (Path.join world Level.fileName))) .ok ∧
    (∀ (w : World) (name : PlayerName), w.path = world →
      (w.player outcome.2 name.text).map (·.position) = (lastWritten (position? name) writes).elim
        (.error (.notFound (Path.join (PlayerRecord.directory world)
          (PlayerRecord.fileName name.text)))) .ok) ∧
    ∀ dimension loc asked, (Region.source world dimension).load outcome.2 asked loc =
      some (.ok (lastWritten (chunk? dimension loc) writes)) := by
  obtain ⟨hresults, hstores⟩ :=
    (FileTree.Stores.of_empty hworld hempty).performAll hroom writes
  refine ⟨hresults, hstores.load_level hroom, fun w name hw => ?_, fun dimension loc asked => ?_⟩
  · rw [World.player, hw]
    exact hstores.load_player hroom name
  · exact congrArg some (hstores.load_chunk hroom dimension loc)

/-- The metadata written twice, a player, and a chunk of the nether. -/
theorem last_written_is_read_mixed :
    let files : FileTree := ⟨[(["w"], .directory)]⟩
    let ann : PlayerName := ⟨"ann", by decide, by decide⟩
    let last : Level := ⟨⟨0.5, 64, -0⟩, -1, some 7, some ⟨1, 2, 3⟩⟩
    let c := Chunk.empty ⟨-5, 7⟩
    let writes : List WorldWrite :=
      [.level ⟨⟨0, 0, 0⟩, 0, none, none⟩, .player ann ⟨4, 5, 6⟩, .chunk .nether c, .level last]
    let after := (performAll "w" files writes).2
    let w : World := ⟨"w", 7, -1, ⟨0.5, 64, -0⟩, ⟨1, 2, 3⟩, ⟨[], false⟩⟩
    Level.load after "w" = .ok last ∧ (w.player after "ann").map (·.position) = .ok ⟨4, 5, 6⟩ ∧
      (w.player after "ben").map (·.position) = .error (.notFound "w/players/ben.dat") ∧
      (Region.source "w" .nether).load after [] ⟨-5, 7⟩ = some (.ok (some c)) ∧
      (Region.source "w" .normal).load after [] ⟨-5, 7⟩ = some (.ok none) := by
  intro files ann last c writes after w
  have hempty : ∀ place ≠ [], files.at? (Path.names "w" ++ place) = none := by
    have hnames : Path.names "w" = ["w"] := by decide +kernel
    intro place hplace
    simp [FileTree.at?, files, hnames, Ne.symm hplace]
  have hroom : (utf8 "w").length + 264 ≤ FileTree.maxPath := by decide
  obtain ⟨-, hlevel, hplayer, hchunk⟩ := last_written_is_read
    (show files.find "w" = .ok .directory by decide +kernel) hempty hroom writes
  have hben := hplayer w ⟨"ben", by decide, by decide⟩ rfl
  have hpath : Path.join (PlayerRecord.directory "w") (PlayerRecord.fileName "ben") =
      "w/players/ben.dat" := by decide +kernel
  rw [hpath] at hben
  exact ⟨hlevel, hplayer w ann rfl, hben, hchunk .nether _ [], hchunk .normal _ []⟩

end WorldWrite

end BlockWorld
