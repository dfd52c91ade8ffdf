import BlockWorld.Proofs.Chunk.Search
import BlockWorld.Proofs.World.Record
import BlockWorld.Proofs.World.Region
import BlockWorld.World.Basic

/-! # Stored terrain comes first

What an open world answers for a place is decided by the chunk file of that place, as it is at that
moment: terrain is generated where there is no file, a sound record is given as it is stored, and
any other file is an error. No other request has a part in it.
-/

namespace BlockWorld

theorem Level.load_pack {files : FileTree} {world : String} {l : Level}
    (h : files.readFile (Path.join world fileName) = .ok (pack l.toTag.encode)) :
    load files world = .ok l := by
  have hfits := l.fits_toTag.mono (show 9 ≤ Tag.maxDepth by decide)
  have hread : TagFile.read files (Path.join world fileName) = .ok l.toTag := by
    rw [TagFile.read, h]
    exact congrArg (Except.mapError _) hfits.unpack_encode
  simp only [load, hread]
  exact congrArg (Except.mapError _) l.ofTag_toTag

namespace World

/-- A request for the chunk at a place, with the files as they are when it is answered. -/
abbrev Request := FileTree × ChunkLoc

def chunkAll : World → List Request → List ChunkAnswer × World
  | w, [] => ([], w)
  | w, (files, loc) :: rest =>
    let (answer, w) := w.chunk files loc
    let (answers, w) := w.chunkAll rest
    (answer :: answers, w)

/-- The stored chunks of a world above the terrain of its seed. `stored` and `generated` are the
places that either was asked for, latest first. -/
def tiers (path : String) (seed : Int64) (stored generated : List ChunkLoc) : ChunkStack where
  tiers := [{ source := Region.source path .normal, asked := stored },
    { source := Terrain.source seed, asked := generated }]

/-- What becomes of the answer of the stored chunks. -/
def overTerrain (seed : Int64) (loc : ChunkLoc) : ChunkAnswer → ChunkAnswer
  | .ok none => .ok (some (Terrain.generate seed loc))
  | answer => answer

theorem overTerrain_none (seed : Int64) (loc : ChunkLoc) :
    overTerrain seed loc (.ok none) = .ok (some (Terrain.generate seed loc)) := rfl

theorem overTerrain_of_ne {seed : Int64} {loc : ChunkLoc} {answer : ChunkAnswer}
    (h : answer ≠ .ok none) : overTerrain seed loc answer = answer := by
  rw [overTerrain]
  exact h

def Missing (path : String) (q : Request) : Prop :=
  q.1.readFile (Region.path path .normal q.2) = .error .notFound

instance (path : String) : DecidablePred (Missing path) :=
  fun _ => inferInstanceAs (Decidable (_ = _))

def answerTo (path : String) (seed : Int64) (q : Request) : ChunkAnswer :=
  overTerrain seed q.2 (Region.load q.1 path .normal q.2)

variable {path : String} {seed : Int64} {stored generated : List ChunkLoc} {w : World}

/-- Asking the stack is asking for the stored chunk, and for terrain where there is none. -/
theorem load_tiers (q : Request) :
    (tiers path seed stored generated).load q.1 q.2 =
      (answerTo path seed q, tiers path seed (q.2 :: stored)
        (if Missing path q then q.2 :: generated else generated)) := by
  let disk : ChunkService := { source := Region.source path .normal, asked := stored }
  let terrain : ChunkService := { source := Terrain.source seed, asked := generated }
  have hdisk : disk.load q.1 q.2 =
      (Region.load q.1 path .normal q.2, { disk with asked := q.2 :: stored }) :=
    ChunkService.load_of_running rfl rfl
  have hterrain : terrain.load q.1 q.2 =
      (.ok (some (Terrain.generate seed q.2)), { terrain with asked := q.2 :: generated }) :=
    ChunkService.load_of_running rfl rfl
  have htiers : (tiers path seed stored generated).tiers = [disk, terrain] := rfl
  rw [ChunkStack.load_of_serving rfl, htiers]
  by_cases hq : Missing path q
  · have hnone := Region.load_of_missing hq
    rw [hnone] at hdisk
    rw [ChunkStack.search_of_miss (by rw [hdisk]), ChunkStack.search_of_answer (by simp [hterrain]),
      hdisk, hterrain, if_pos hq, answerTo, hnone, overTerrain_none]
    rfl
  · have hsome := mt Region.load_eq_none_iff.1 hq
    rw [ChunkStack.search_of_answer (by rwa [hdisk]), hdisk, if_neg hq, answerTo,
      overTerrain_of_ne hsome]
    rfl

theorem chunk_eq (h : w.chunks = tiers path seed stored generated) (q : Request) :
    (w.chunk q.1 q.2).1 = answerTo path seed q ∧
      (w.chunk q.1 q.2).2.chunks = tiers path seed (q.2 :: stored)
        (if Missing path q then q.2 :: generated else generated) := by
  simp only [chunk, h, load_tiers, and_self]

theorem chunkAll_eq (h : w.chunks = tiers path seed stored generated) (requests : List Request) :
    (w.chunkAll requests).1 = requests.map (answerTo path seed) ∧
      (w.chunkAll requests).2.chunks = tiers path seed
        ((requests.map (·.2)).reverse ++ stored)
        (((requests.filter (Missing path)).map (·.2)).reverse ++ generated) := by
  induction requests generalizing w stored generated with
  | nil => exact ⟨rfl, h⟩
  | cons q rest ih =>
    obtain ⟨hanswer, hchunks⟩ := chunk_eq h q
    obtain ⟨hanswers, hafter⟩ := ih hchunks
    refine ⟨congrArg₂ List.cons hanswer hanswers, hafter.trans ?_⟩
    by_cases hq : Missing path q <;> simp [hq]

/-- What a request is answered, by what its file holds. -/
structure Answered (path : String) (seed : Int64) (q : Request) (answer : ChunkAnswer) : Prop where
  missing : Missing path q → answer = .ok (some (Terrain.generate seed q.2))
  stored : ∀ r, Region.Holds q.1 path .normal q.2 r → r.Sound q.2 →
    ∃ c, answer = .ok (some c) ∧ c.loc = q.2 ∧ c.toBytes = r.blocks
  otherwise : ¬ Missing path q → (∀ r, Region.Holds q.1 path .normal q.2 r → ¬ r.Sound q.2) →
    ∃ e, answer = .error e ∧ Region.Unusable q.1 path .normal q.2 e ∧
      (Region.source path .normal).load q.1 [] q.2 = some (.error e)

theorem answered (path : String) (seed : Int64) (q : Request) :
    Answered path seed q (answerTo path seed q) where
  missing h := by rw [answerTo, Region.load_of_missing h, overTerrain_none]
  stored r hr hsound := by
    obtain ⟨c, hc, hplace, hbytes⟩ := Region.load_of_sound hr hsound
    exact ⟨c, by rw [answerTo, hc, overTerrain_of_ne (by simp)], hplace, hbytes⟩
  otherwise hmissing hunsound := by
    obtain h | ⟨r, hr, hsound⟩ | ⟨e, he⟩ :=
      Region.missing_or_sound_or_unusable q.1 path .normal q.2
    · exact absurd h hmissing
    · exact absurd hsound (hunsound r hr)
    · exact ⟨e, by rw [answerTo, he.load_eq, overTerrain_of_ne (by simp)], he,
        congrArg some he.load_eq⟩

theorem load_eq {files : FileTree} {level : Level} (hlevel : Level.load files path = .ok level)
    (hseed : level.seed = some seed) (fresh : Int64) :
    ∃ w, load files path fresh = .ok w ∧ w.seed = seed ∧ w.chunks = tiers path seed [] [] := by
  have hgetD : level.seed.getD fresh = seed := by rw [hseed, Option.getD_some]
  refine ⟨⟨path, seed, level.time, level.spawn, level.start, tiers path seed [] []⟩, ?_, rfl, rfl⟩
  rw [load, hlevel, ← hgetD]
  rfl

/-- In a world with a recorded seed, every request is answered by the file of its place alone: with
the terrain of the seed if there is none, with the stored chunk if its record is sound, and in every
other case with the error of the stored chunks. The terrain is asked for the places without a file
and for no others, and without any one of the requests the others are answered the same. -/
theorem stored_takes_precedence {files : FileTree} {level : Level}
    (hlevel : Level.load files path = .ok level) (hseed : level.seed = some seed) (fresh : Int64)
    (requests : List Request) :
    ∃ w, load files path fresh = .ok w ∧ w.seed = seed ∧
      List.Forall₂ (Answered path seed) requests (w.chunkAll requests).1 ∧
      (w.chunkAll requests).2.chunks = tiers path seed (requests.map (·.2)).reverse
        ((requests.filter (Missing path)).map (·.2)).reverse ∧
      ∀ k, (w.chunkAll (requests.eraseIdx k)).1 = (w.chunkAll requests).1.eraseIdx k := by
  obtain ⟨w, hload, hw, hchunks⟩ := load_eq hlevel hseed fresh
  obtain ⟨hanswers, hafter⟩ := chunkAll_eq hchunks requests
  rw [List.append_nil, List.append_nil] at hafter
  refine ⟨w, hload, hw, ?_, hafter, fun k => ?_⟩
  · rw [hanswers, List.forall₂_map_right_iff]
    exact List.forall₂_same.2 fun q _ => answered path seed q
  · rw [hanswers, (chunkAll_eq hchunks _).1, List.eraseIdx_map]

/-- One place without a file, one with a stored chunk and one with a damaged file. -/
theorem stored_takes_precedence_mixed :
    let level : Level := ⟨⟨0.5, 64, -0⟩, -1, some 7, none⟩
    let c := Chunk.empty ⟨-5, 7⟩
    let files : FileTree := ⟨[(["w"], .directory), (["w", "region"], .directory),
      (["w", "level.dat"], .file (pack level.toTag.encode)),
      (["w", "region", "c.-5.7.cbor.zst"], .file (pack (ChunkRecord.ofChunk c).encode)),
      (["w", "region", "c.1.1.cbor.zst"], .file [0])]⟩
    let requests : List Request := [(files, ⟨1, 1⟩), (files, ⟨-5, 7⟩), (files, ⟨0, 0⟩)]
    Level.load files "w" = .ok level ∧ level.seed = some 7 ∧ ∃ w, load files "w" 99 = .ok w ∧
      (w.chunkAll requests).1 = [.error (.undecodable ⟨1, 1⟩ (.packed .frame)), .ok (some c),
        .ok (some (Terrain.generate 7 ⟨0, 0⟩))] ∧
      (w.chunkAll requests).2.chunks = tiers "w" 7 [⟨0, 0⟩, ⟨-5, 7⟩, ⟨1, 1⟩] [⟨0, 0⟩] ∧
      (w.chunkAll requests.tail).1 = (w.chunkAll requests).1.tail := by
  intro level c files requests
  -- The paths and the names on them.
  have hpaths : Path.join "w" Level.fileName = "w/level.dat" ∧
      Region.path "w" .normal ⟨1, 1⟩ = "w/region/c.1.1.cbor.zst" ∧
      Region.path "w" .normal ⟨-5, 7⟩ = "w/region/c.-5.7.cbor.zst" ∧
      Region.path "w" .normal ⟨0, 0⟩ = "w/region/c.0.0.cbor.zst" := by decide +kernel
  have hnames : Path.names "w/level.dat" = ["w", "level.dat"] ∧
      Path.names "w/region/c.1.1.cbor.zst" = ["w", "region", "c.1.1.cbor.zst"] ∧
      Path.names "w/region/c.-5.7.cbor.zst" = ["w", "region", "c.-5.7.cbor.zst"] ∧
      Path.names "w/region/c.0.0.cbor.zst" = ["w", "region", "c.0.0.cbor.zst"] := by decide +kernel
  obtain ⟨hlevelPath, hbadPath, hgoodPath, hfreePath⟩ := hpaths
  obtain ⟨hlevelNames, hbadNames, hgoodNames, hfreeNames⟩ := hnames
  have hlevelFile : files.readFile (Path.join "w" Level.fileName) =
      .ok (pack level.toTag.encode) := by
    rw [hlevelPath, FileTree.readFile, FileTree.find, if_neg (by decide), hlevelNames]
    simp +decide [FileTree.follow, FileTree.at?, files]
  have hbad : files.readFile (Region.path "w" .normal ⟨1, 1⟩) = .ok [0] := by
    rw [hbadPath, FileTree.readFile, FileTree.find, if_neg (by decide), hbadNames]
    simp +decide [FileTree.follow, FileTree.at?, files]
  have hgood : files.readFile (Region.path "w" .normal ⟨-5, 7⟩) =
      .ok (pack (ChunkRecord.ofChunk c).encode) := by
    rw [hgoodPath, FileTree.readFile, FileTree.find, if_neg (by decide), hgoodNames]
    simp +decide [FileTree.follow, FileTree.at?, files]
  have hfree : files.readFile (Region.path "w" .normal ⟨0, 0⟩) = .error .notFound := by
    rw [hfreePath, FileTree.readFile, FileTree.find, if_neg (by decide), hfreeNames]
    simp +decide [FileTree.follow, FileTree.at?, files]
  have hlevel : Level.load files "w" = .ok level := Level.load_pack hlevelFile
  obtain ⟨w, hload, -, hanswers, hafter, herase⟩ :=
    stored_takes_precedence hlevel (show level.seed = some 7 from rfl) 99 requests
  have hbadPack : unpack (ChunkRecord.read Tag.maxDepth) [0] = .error .frame := by rfl
  have hunsound : ∀ r, Region.Holds files "w" .normal ⟨1, 1⟩ r → ¬ r.Sound ⟨1, 1⟩ := by
    rintro r ⟨content, hread, hr⟩
    cases hbad.symm.trans hread
    cases hbadPack.symm.trans hr
  have hfilter : requests.filter (Missing "w") = [(files, ⟨0, 0⟩)] := by
    simp [requests, Missing, hbad, hgood, hfree]
  rw [hfilter] at hafter
  refine ⟨hlevel, rfl, w, hload, ?_⟩
  generalize (w.chunkAll requests).1 = answers at hanswers herase ⊢
  dsimp only [requests] at hanswers
  obtain _ | ⟨hbadAnswer, _ | ⟨hgoodAnswer, _ | ⟨hfreeAnswer, ⟨⟩⟩⟩⟩ := hanswers
  obtain ⟨e, rfl, he, -⟩ := hbadAnswer.otherwise (by simp [Missing, hbad]) hunsound
  have hpacked := (Region.Unusable.packed hbad hbadPack).load_eq
  obtain rfl := Except.error.inj (he.load_eq.symm.trans hpacked)
  obtain ⟨stored, rfl, hloc, hbytes⟩ := hgoodAnswer.stored (ChunkRecord.ofChunk c)
    ⟨_, hgood, ChunkRecord.unpack_ofChunk c⟩ (ChunkRecord.sound_ofChunk c)
  obtain rfl := hfreeAnswer.missing hfree
  obtain rfl : stored = c := Chunk.eq_of_toBytes hloc hbytes
  exact ⟨rfl, hafter, herase 0⟩

end World

end BlockWorld
