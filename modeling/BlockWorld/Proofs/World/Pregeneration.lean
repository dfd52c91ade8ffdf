import BlockWorld.Proofs.World.Contents
import BlockWorld.Proofs.World.Precedence
import BlockWorld.World.Creation
import BlockWorld.World.Summary

/-! # Terrain stored beforehand

Making a world stores terrain around its spawn point, which any later request would get all the
same. A world is made in a directory once: another attempt leaves the directory as it is.
-/

namespace BlockWorld

namespace ChunkLoc

/-- All integers within `radius` of a coordinate are coordinates. -/
def Inner (radius : ℕ) (v : Int32) : Prop :=
  -2 ^ 31 ≤ v.toInt - radius ∧ v.toInt + radius < 2 ^ 31

def Surrounded (radius : ℕ) (center : ChunkLoc) : Prop :=
  Inner radius center.x ∧ Inner radius center.z

instance (radius : ℕ) (center : ChunkLoc) : Decidable (center.Surrounded radius) :=
  inferInstanceAs (Decidable ((_ ∧ _) ∧ (_ ∧ _)))

variable {radius : ℕ} {v : Int32}

theorem Inner.toInt_radius (h : Inner radius v) : (Int32.ofNat radius).toInt = radius := by
  have hle := v.le_toInt
  have hlt := v.toInt_lt
  obtain ⟨hlo, hhi⟩ := h
  exact Int32.toInt_ofNat_of_lt (by omega)

theorem Inner.toInt_sub (h : Inner radius v) :
    (v - Int32.ofNat radius).toInt = v.toInt - radius := by
  obtain ⟨hlo, hhi⟩ := id h
  rw [Int32.toInt_sub, h.toInt_radius]
  exact Int.bmod_eq_of_le (by omega) (by omega)

theorem Inner.toInt_add (h : Inner radius v) :
    (v + Int32.ofNat radius).toInt = v.toInt + radius := by
  obtain ⟨hlo, hhi⟩ := id h
  rw [Int32.toInt_add, h.toInt_radius]
  exact Int.bmod_eq_of_le (by omega) (by omega)

end ChunkLoc

theorem TagFile.write_of_long {files : FileTree} {directory name : String}
    (hlong : FileTree.maxPath < (utf8 (Path.join directory name)).length)
    (hdirectory : files.follow [] .directory (Path.names directory) = .ok .directory) (t : Tag) :
    ∃ e, write files directory name t = (.error e, files) := by
  have hwrite : files.writeFile (Path.join directory name) (pack t.encode) =
      .error .nameTooLong := by
    simp only [FileTree.writeFile, FileTree.find, if_pos hlong]
  have hmade : files.createDirectories directory = (.error .nameTooLong, files) ∨
      files.createDirectories directory = (.ok (), files) := by
    rw [FileTree.createDirectories]
    split
    · exact .inl rfl
    · exact .inr (FileTree.makeDirectories_of_directory hdirectory)
  refine ⟨.nameTooLong, ?_⟩
  obtain hmade | hmade := hmade
  · simp only [write, hmade]
  · simp only [write, hmade, hwrite]

namespace World

/-! ## The square -/

section Square

variable {center : ChunkLoc} {radius : ℕ} {v : Int32}

theorem mem_interval {lo hi k : ℤ} : k ∈ interval lo hi ↔ lo ≤ k ∧ k ≤ hi := by
  simp only [interval, List.mem_map, List.mem_range]
  constructor
  · rintro ⟨n, hn, rfl⟩
    omega
  · intro hk
    exact ⟨(k - lo).toNat, by omega, by omega⟩

theorem nodup_interval (lo hi : ℤ) : (interval lo hi).Nodup :=
  List.nodup_range.map fun a b hab => by simpa using hab

theorem length_interval (lo hi : ℤ) : (interval lo hi).length = (hi - lo + 1).toNat := by
  rw [interval, List.length_map, List.length_range]

def side (radius : ℕ) (v : Int32) : List ℤ := interval (v.toInt - radius) (v.toInt + radius)

theorem mem_side {k : ℤ} : k ∈ side radius v ↔ (k - v.toInt).natAbs ≤ radius := by
  rw [side, mem_interval]
  omega

theorem toInt_of_mem_side (h : ChunkLoc.Inner radius v) {k : ℤ} (hk : k ∈ side radius v) :
    (Int32.ofInt k).toInt = k := by
  obtain ⟨hlo, hhi⟩ := h
  rw [mem_side] at hk
  exact Int32.toInt_ofInt_of_le (by omega) (by omega)

theorem square_eq (h : center.Surrounded radius) : square center (Int32.ofNat radius) =
    (side radius center.x ×ˢ side radius center.z).map fun p =>
      ⟨Int32.ofInt p.1, Int32.ofInt p.2⟩ := by
  rw [square, h.1.toInt_sub, h.1.toInt_add, h.2.toInt_sub, h.2.toInt_add, ← side, ← side,
    SProd.sprod, List.instSProd]
  simp only [List.product, List.map_flatMap, List.map_map, Function.comp_def]

theorem mem_square (h : center.Surrounded radius) {loc : ChunkLoc} :
    loc ∈ square center (Int32.ofNat radius) ↔
      ChunkLoc.Near (Int32.ofNat radius) center loc := by
  simp only [square_eq h, List.mem_map, Prod.exists, List.mem_product, ChunkLoc.Near,
    h.1.toInt_radius, Int.ofNat_le]
  constructor
  · rintro ⟨x, z, ⟨hx, hz⟩, rfl⟩
    rw [toInt_of_mem_side h.1 hx, toInt_of_mem_side h.2 hz]
    exact ⟨mem_side.1 hx, mem_side.1 hz⟩
  · rintro ⟨hx, hz⟩
    refine ⟨loc.x.toInt, loc.z.toInt, ⟨mem_side.2 hx, mem_side.2 hz⟩, ?_⟩
    rw [Int32.ofInt_toInt, Int32.ofInt_toInt]

theorem nodup_square (h : center.Surrounded radius) :
    (square center (Int32.ofNat radius)).Nodup := by
  rw [square_eq h]
  refine List.Nodup.map_on ?_ ((nodup_interval _ _).product (nodup_interval _ _))
  rintro ⟨x, z⟩ hp ⟨x', z'⟩ hp' heq
  obtain ⟨hx, hz⟩ := List.mem_product.1 hp
  obtain ⟨hx', hz'⟩ := List.mem_product.1 hp'
  obtain ⟨heqx, heqz⟩ := ChunkLoc.mk.inj heq
  rw [Prod.mk.injEq, ← toInt_of_mem_side h.1 hx, ← toInt_of_mem_side h.2 hz, heqx, heqz,
    toInt_of_mem_side h.1 hx', toInt_of_mem_side h.2 hz']
  exact ⟨rfl, rfl⟩

theorem length_square (h : center.Surrounded radius) :
    (square center (Int32.ofNat radius)).length = (2 * radius + 1) ^ 2 := by
  have hside : ∀ v, (side radius v).length = 2 * radius + 1 := fun v => by
    rw [side, length_interval]
    omega
  rw [square_eq h, List.length_map, List.length_product, hside, hside, sq]

end Square

/-! ## Making the world -/

variable {files : FileTree} {world : String} {seed : Int64} {spawn : Position}
  {locs : List ChunkLoc}

/-- What is written into a new world that has the terrain at these places. -/
def firstWrites (seed : Int64) (spawn : Position) (locs : List ChunkLoc) : List WorldWrite :=
  .level ⟨spawn, 0, some seed, none⟩ ::
    locs.map fun loc => .chunk .normal (Terrain.generate seed loc)

theorem firstWrites_concat (seed : Int64) (spawn : Position) (locs : List ChunkLoc)
    (loc : ChunkLoc) : firstWrites seed spawn (locs ++ [loc]) =
      firstWrites seed spawn locs ++ [.chunk .normal (Terrain.generate seed loc)] := by
  simp [firstWrites]

theorem lastWritten_level (seed : Int64) (spawn : Position) (locs : List ChunkLoc) :
    lastWritten WorldWrite.level? (firstWrites seed spawn locs) =
      some ⟨spawn, 0, some seed, none⟩ := by
  induction locs using List.reverseRecOn with
  | nil => rfl
  | append_singleton locs loc ih =>
    rw [firstWrites_concat, lastWritten_concat, ih]
    rfl

theorem lastWritten_chunk (seed : Int64) (spawn : Position) (locs : List ChunkLoc)
    (d : Dimension) (loc : ChunkLoc) :
    lastWritten (WorldWrite.chunk? d loc) (firstWrites seed spawn locs) =
      if d = .normal ∧ loc ∈ locs then some (Terrain.generate seed loc) else none := by
  induction locs using List.reverseRecOn with
  | nil => simp [firstWrites, lastWritten, WorldWrite.chunk?]
  | append_singleton locs other ih =>
    have hpick : WorldWrite.chunk? d loc (.chunk .normal (Terrain.generate seed other)) =
        if d = .normal ∧ loc = other then some (Terrain.generate seed loc) else none := by
      rw [WorldWrite.chunk?]
      by_cases h : d = .normal ∧ loc = other
      · rw [if_pos h, if_pos ⟨h.1.symm, h.2.symm⟩, h.2]
      · rw [if_neg h, if_neg fun h' => h ⟨h'.1.symm, h'.2.symm⟩]
    rw [firstWrites_concat, lastWritten_concat, ih, hpick]
    by_cases hd : d = .normal <;> by_cases hother : loc = other <;> simp [hd, hother]

section Room

variable (hroom : (utf8 world).length + 264 ≤ FileTree.maxPath)

include hroom

theorem pregenerate_eq {done : List ChunkLoc}
    (h : files.StoresOnly world (contentAfter (firstWrites seed spawn done)))
    (locs : List ChunkLoc) : ∃ after, pregenerate world seed locs files = (.ok (), after) ∧
      after.StoresOnly world (contentAfter (firstWrites seed spawn (done ++ locs))) := by
  induction locs generalizing files done with
  | nil => exact ⟨files, rfl, by rwa [List.append_nil]⟩
  | cons loc locs ih =>
    let w : WorldWrite := .chunk .normal (Terrain.generate seed loc)
    obtain ⟨made, after, hmade, hafter, hstores⟩ := h.write hroom w.key w.content
    rw [← funext (contentAfter_concat _ w), ← firstWrites_concat] at hstores
    have hsave : Region.save files world .normal (Terrain.generate seed loc) = (.ok (), after) :=
      Region.save_eq hmade hafter
    rw [pregenerate, hsave, List.append_cons]
    exact ih hstores

/-- An empty directory becomes a world. -/
theorem create_eq (hworld : files.find world = .ok .directory)
    (hempty : ∀ place ≠ [], files.at? (Path.names world ++ place) = none) (seed : Int64)
    (spawn : Position) (radius : UInt16) :
    ∃ after, create files world seed spawn radius = (.ok (), after) ∧
      after.StoresOnly world (contentAfter (firstWrites seed spawn
        (square spawn.chunk (Int32.ofNat radius.toNat)))) := by
  have hstores := FileTree.StoresOnly.of_empty hworld hempty
  let w : WorldWrite := .level ⟨spawn, 0, some seed, none⟩
  obtain ⟨made, after, hmade, hafter, hlevel⟩ := hstores.write hroom w.key w.content
  rw [← funext (contentAfter_concat _ w)] at hlevel
  have hfirst : after.StoresOnly world (contentAfter (firstWrites seed spawn [])) := hlevel
  have hsave : Level.save ⟨spawn, 0, some seed, none⟩ files world = (.ok (), after) :=
    TagFile.write_eq hmade hafter
  have hfree : files.exists? (Path.join world Level.fileName) = false :=
    FileTree.exists?_of_notFound (hstores.readFile_eq hroom .level)
  obtain ⟨last, hlast, hall⟩ := pregenerate_eq hroom hfirst
    (square spawn.chunk (Int32.ofNat radius.toNat))
  refine ⟨last, ?_, hall⟩
  simp only [create, hfree, hsave]
  exact hlast

theorem summary_eq (h : files.StoresOnly world (contentAfter (firstWrites seed spawn locs)))
    (hnodup : locs.Nodup) : Summary.ofWorld files world =
      .ok ⟨world, spawn, 0, some seed, none, locs.length, 0⟩ := by
  let level : Level := ⟨spawn, 0, some seed, none⟩
  have hcontent : contentAfter (firstWrites seed spawn locs) .level =
      (some level).map fun l => pack l.toTag.encode := by
    rw [contentAfter, lastWritten_level]
  have hread : TagFile.read files (Path.join world Level.fileName) = .ok level.toTag :=
    h.read_tag hroom (fun l => l.fits_toTag.mono (by decide)) hcontent
  have hstored : Region.count files world .normal = .ok locs.length :=
    h.count_eq hroom hnodup fun loc => by
      simp [contentAfter, lastWritten_chunk]
  have hnether : Region.count files world .nether = .ok ([] : List ChunkLoc).length :=
    h.count_eq hroom List.nodup_nil fun loc => by
      simp [contentAfter, lastWritten_chunk]
  rw [Summary.ofWorld, hread, Summary.count, Summary.count, hstored, hnether]
  simp only [Except.mapError, bind, Except.bind, level.ofTag_toTag]
  rfl

/-- Whatever is stored, the open world answers with the terrain of its seed. -/
theorem chunkAll_terrain
    (h : files.StoresOnly world (contentAfter (firstWrites seed spawn locs))) (fresh : Int64) :
    ∃ w, load files world fresh = .ok w ∧ ∀ asked : List ChunkLoc,
      (w.chunkAll (asked.map (files, ·))).1 =
        asked.map fun loc => .ok (some (Terrain.generate seed loc)) := by
  have hlevel := h.load_level hroom
  rw [lastWritten_level] at hlevel
  obtain ⟨w, hload, -, hchunks⟩ := load_eq hlevel (show _ = some seed from rfl) fresh
  refine ⟨w, hload, fun asked => ?_⟩
  rw [(chunkAll_eq hchunks _).1, List.map_map]
  refine List.map_congr_left fun loc _ => ?_
  rw [Function.comp_apply, answerTo, h.load_chunk hroom, lastWritten_chunk]
  split
  · exact overTerrain_of_ne (by simp)
  · exact overTerrain_none seed loc

/-- A directory with metadata is left alone, by whatever path one gets there. -/
theorem create_again (h : files.StoresOnly world (contentAfter (firstWrites seed spawn locs)))
    {path : String} (hpath : Path.names path = Path.names world) (seed' : Int64)
    (spawn' : Position) (radius : UInt16) :
    ∃ e, create files path seed' spawn' radius = (.error e, files) := by
  have hread := h.readFile_eq hroom .level
  rw [contentAfter, lastWritten_level] at hread
  have hfollow := FileTree.follow_of_find (FileTree.find_of_readFile hread)
  rw [RecordKey.names_path, ← hpath, ← RecordKey.names_path, RecordKey.path,
    RecordKey.directoryPath, RecordKey.fileName] at hfollow
  rw [create]
  by_cases hlong : FileTree.maxPath < (utf8 (Path.join path Level.fileName)).length
  · -- Such a path finds nothing, but neither can anything be written to it.
    have hreached : files.follow [] .directory (Path.names path) = .ok .directory :=
      hpath ▸ h.rooted.reached
    obtain ⟨e, he⟩ := TagFile.write_of_long hlong hreached
      (Level.toTag ⟨spawn', 0, some seed', none⟩)
    have hmissing : files.exists? (Path.join path Level.fileName) = false := by
      rw [FileTree.exists?, FileTree.find, if_pos hlong]
      rfl
    have hsave : Level.save ⟨spawn', 0, some seed', none⟩ files path = (.error e, files) := he
    refine ⟨.level (Path.join path Level.fileName) e, ?_⟩
    simp only [hmissing, hsave]
    rfl
  · have hthere : files.exists? (Path.join path Level.fileName) := by
      rw [FileTree.exists?, FileTree.find, if_neg hlong, hfollow]
      rfl
    exact ⟨.alreadyExists (Path.join path Level.fileName), if_pos hthere⟩

end Room

/-- A world can be made in any empty directory, with any amount of terrain around the spawn point
that fits on the grid. Its summary counts that terrain; it is stored for the places of the square,
one file each, and for no others. The open world does not show it: there is terrain everywhere, the
same as without any stored beforehand. In that directory no other world can be made. -/
theorem pregeneration_unobservable (hworld : files.find world = .ok .directory)
    (hempty : ∀ place ≠ [], files.at? (Path.names world ++ place) = none)
    (hroom : (utf8 world).length + 264 ≤ FileTree.maxPath) (seed : Int64) (spawn : Position)
    (radius : UInt16) (hspawn : spawn.chunk.Surrounded radius.toNat) :
    let made := create files world seed spawn radius
    let bare := create files world seed spawn 0
    let Stored (loc : ChunkLoc) := ChunkLoc.Near (Int32.ofNat radius.toNat) spawn.chunk loc
    made.1 = .ok () ∧
    Summary.ofWorld made.2 world =
      .ok ⟨world, spawn, 0, some seed, none, (2 * radius.toNat + 1) ^ 2, 0⟩ ∧
    (∃ names, made.2.list (Region.directory world .normal) = .ok names ∧ names.Nodup ∧
      ∀ name, name ∈ names ↔ ∃ loc, Stored loc ∧ name = Region.fileName loc) ∧
    (∀ d loc, Region.load made.2 world d loc =
      .ok (if d = .normal ∧ Stored loc then some (Terrain.generate seed loc) else none)) ∧
    (∀ fresh, ∃ w w₀, load made.2 world fresh = .ok w ∧ load bare.2 world fresh = .ok w₀ ∧
      ∀ asked : List ChunkLoc,
        (w.chunkAll (asked.map (made.2, ·))).1 =
          asked.map (fun loc => .ok (some (Terrain.generate seed loc))) ∧
        (w.chunkAll (asked.map (made.2, ·))).1 = (w₀.chunkAll (asked.map (bare.2, ·))).1) ∧
    ∀ path, Path.names path = Path.names world → ∀ seed' spawn' radius', ∃ e,
      create made.2 path seed' spawn' radius' = (.error e, made.2) := by
  intro made bare Stored
  obtain ⟨after, hmade, hstores⟩ := create_eq hroom hworld hempty seed spawn radius
  obtain ⟨after₀, hbare, hstores₀⟩ := create_eq hroom hworld hempty seed spawn 0
  have hmade' : made = (.ok (), after) := hmade
  have hbare' : bare = (.ok (), after₀) := hbare
  rw [hmade', hbare']
  refine ⟨rfl, ?_, ?_, fun d loc => ?_, fun fresh => ?_, fun path hpath seed' spawn' radius' => ?_⟩
  · rw [← length_square hspawn]
    exact summary_eq hroom hstores (nodup_square hspawn)
  · have hcenter : Stored spawn.chunk := ChunkLoc.near_self_iff.2 (by
      rw [hspawn.1.toInt_radius]
      exact Int.natCast_nonneg _)
    have hstored : ∀ loc, contentAfter (firstWrites seed spawn (square spawn.chunk
        (Int32.ofNat radius.toNat))) (.chunk .normal loc) ≠ none ↔ Stored loc := fun loc => by
      simp [contentAfter, lastWritten_chunk, mem_square hspawn, Stored]
    refine ⟨_, hstores.list_eq hroom ((hstored _).2 hcenter), hstores.tidy _, fun name => ?_⟩
    simp only [hstores.mem_namesIn_iff, hstored]
  · simp only [hstores.load_chunk hroom, lastWritten_chunk, mem_square hspawn, Stored]
  · obtain ⟨w, hw, hanswers⟩ := chunkAll_terrain hroom hstores fresh
    obtain ⟨w₀, hw₀, hanswers₀⟩ := chunkAll_terrain hroom hstores₀ fresh
    exact ⟨w, w₀, hw, hw₀, fun asked => ⟨hanswers asked, by rw [hanswers, hanswers₀]⟩⟩
  · exact create_again hroom hstores hpath seed' spawn' radius'

/-- A world with terrain three chunks around its spawn point: the seven by seven chunks are stored,
and terrain is shown where it is stored and where it is not. -/
theorem pregeneration_unobservable_three :
    let files : FileTree := ⟨[(["w"], .directory)]⟩
    let spawn : Position := ⟨0.5, 64, -100⟩
    let made := create files "w" 7 spawn 3
    made.1 = .ok () ∧
    Summary.ofWorld made.2 "w" = .ok ⟨"w", spawn, 0, some 7, none, 49, 0⟩ ∧
    Region.load made.2 "w" .normal ⟨3, -10⟩ = .ok (some (Terrain.generate 7 ⟨3, -10⟩)) ∧
    Region.load made.2 "w" .normal ⟨4, -10⟩ = .ok none ∧
    (∃ w, load made.2 "w" 99 = .ok w ∧
      (w.chunkAll [(made.2, ⟨3, -10⟩), (made.2, ⟨4, -10⟩)]).1 =
        [.ok (some (Terrain.generate 7 ⟨3, -10⟩)), .ok (some (Terrain.generate 7 ⟨4, -10⟩))]) ∧
    ∃ e, create made.2 "./w" 8 ⟨0, 0, 0⟩ 65535 = (.error e, made.2) := by
  intro files spawn
  have hnames : Path.names "w" = ["w"] ∧ Path.names "./w" = ["w"] := by decide +kernel
  have hempty : ∀ place ≠ [], files.at? (Path.names "w" ++ place) = none := by
    intro place hplace
    simp [FileTree.at?, files, hnames.1, Ne.symm hplace]
  have hchunk : spawn.chunk = ⟨0, -7⟩ := by decide +kernel
  have hspawn : spawn.chunk.Surrounded 3 := by
    rw [hchunk]
    decide
  have hin : ChunkLoc.Near (Int32.ofNat (3 : UInt16).toNat) spawn.chunk ⟨3, -10⟩ := by
    rw [hchunk]
    decide
  have hout : ¬ ChunkLoc.Near (Int32.ofNat (3 : UInt16).toNat) spawn.chunk ⟨4, -10⟩ := by
    rw [hchunk]
    decide
  have h := pregeneration_unobservable
    (show files.find "w" = .ok .directory by decide +kernel) hempty (by decide) 7 spawn 3 hspawn
  dsimp only at h ⊢
  -- what was made has to be opaque, or the kernel makes it again
  generalize create files "w" 7 spawn 3 = made at h ⊢
  obtain ⟨hmade, hsummary, -, hstored, hanswers, hagain⟩ := h
  obtain ⟨w, _, hload, -, hall⟩ := hanswers 99
  refine ⟨hmade, hsummary, ?_, ?_, ⟨w, hload, (hall [⟨3, -10⟩, ⟨4, -10⟩]).1⟩,
    hagain "./w" (hnames.2.trans hnames.1.symm) 8 ⟨0, 0, 0⟩ 65535⟩
  · rw [hstored, if_pos ⟨rfl, hin⟩]
  · rw [hstored, if_neg fun h => hout h.2]

end World

end BlockWorld
