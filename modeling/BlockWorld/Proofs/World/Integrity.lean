import BlockWorld.Proofs.Files.Tree
import BlockWorld.Proofs.World.Record
import BlockWorld.Proofs.World.Region

/-! # Only sound chunks are given

Whatever a chunk file consists of, a chunk comes out of it only if its record is for the place asked
for, claims the digest that its blocks have, and holds one whole column. A file that was moved to
the place of another is told by the place in its record, and blocks that were altered by their
digest, unless somebody has found a collision.
-/

namespace BlockWorld

namespace Hex

theorem digit_inj {m n : ℕ} (hm : m < 16) (hn : n < 16) (h : digit m = digit n) : m = n := by
  have hvalue := value?_digit m hm
  rw [h, value?_digit n hn] at hvalue
  exact (Option.some.inj hvalue).symm

theorem octet_injective : Function.Injective octet := by
  intro v w h
  obtain ⟨hhigh, hlow⟩ : digit (v.toNat / 16) = digit (w.toNat / 16) ∧
      digit (v.toNat % 16) = digit (w.toNat % 16) := by simpa [octet] using h
  have hv := v.toNat_lt
  have hw := w.toNat_lt
  have hhigh := digit_inj (by omega) (by omega) hhigh
  have hlow := digit_inj (by omega) (by omega) hlow
  exact UInt8.toNat_inj.1 (by omega)

end Hex

namespace Bytes

theorem hex_injective : Function.Injective hex := by
  intro a b h
  replace h : a.flatMap Hex.octet = b.flatMap Hex.octet := String.ofList_injective h
  induction a generalizing b with
  | nil =>
    cases b with
    | nil => rfl
    | cons w b => cases h
  | cons v a ih =>
    cases b with
    | nil => cases h
    | cons w b =>
      rw [List.flatMap_cons, List.flatMap_cons] at h
      obtain ⟨hfirst, hrest⟩ := List.append_inj h rfl
      rw [Hex.octet_injective hfirst, ih hrest]

end Bytes

namespace Sha256

def Collides (a b : Bytes) : Prop := a ≠ b ∧ digest a = digest b

end Sha256

theorem Bytes.sha256_eq_iff {a b : Bytes} :
    a.sha256 = b.sha256 ↔ a = b ∨ Sha256.Collides a b := by
  rw [sha256, sha256, hex_injective.eq_iff, Sha256.Collides]
  by_cases h : a = b <;> simp [h]

section Unpack

variable {α : Type} {r : Cbor.Read α} {content : Bytes}

theorem unpack_eq_ok_iff {a : α} : unpack r content = .ok a ↔
    ∃ item rest, Zstd.decompress content = some item ∧ r item = .ok (a, rest) := by
  cases h : Zstd.decompress content with
  | none => simp [unpack, h]
  | some item => cases hr : r item <;> simp [unpack, h, Cbor.Read.first, hr, Prod.ext_iff]

theorem unpack_eq_frame_iff :
    unpack r content = .error .frame ↔ Zstd.decompress content = none := by
  cases h : Zstd.decompress content with
  | none => simp [unpack, h]
  | some item => cases hr : r item <;> simp [unpack, h, Cbor.Read.first, hr]

theorem unpack_eq_item_iff {e : Cbor.Error} : unpack r content = .error (.item e) ↔
    ∃ item, Zstd.decompress content = some item ∧ r item = .error e := by
  cases h : Zstd.decompress content with
  | none => simp [unpack, h]
  | some item => cases hr : r item <;> simp [unpack, h, Cbor.Read.first, hr]

end Unpack

namespace Region

variable {files : FileTree} {world : String} {d : Dimension} {loc : ChunkLoc}

theorem load_eq_some_iff {c : Chunk} : load files world d loc = .ok (some c) ↔
    ∃ r, Holds files world d loc r ∧ r.Sound loc ∧ c.loc = loc ∧ c.toBytes = r.blocks := by
  constructor
  · intro h
    obtain hmissing | ⟨r, hr, hsound⟩ | ⟨e, he⟩ := missing_or_sound_or_unusable files world d loc
    · cases h.symm.trans (load_of_missing hmissing)
    · obtain ⟨c', hc, hplace, hbytes⟩ := load_of_sound hr hsound
      cases h.symm.trans hc
      exact ⟨r, hr, hsound, hplace, hbytes⟩
    · cases h.symm.trans he.load_eq
  · rintro ⟨r, hr, hsound, hplace, hbytes⟩
    obtain ⟨c', hc, hplace', hbytes'⟩ := load_of_sound hr hsound
    rw [hc, Chunk.eq_of_toBytes (hplace.trans hplace'.symm) (hbytes.trans hbytes'.symm)]

theorem load_eq_error_iff {e : ChunkError} :
    load files world d loc = .error e ↔ Unusable files world d loc e := by
  refine ⟨fun h => ?_, Unusable.load_eq⟩
  obtain hmissing | ⟨r, hr, hsound⟩ | ⟨e', he⟩ := missing_or_sound_or_unusable files world d loc
  · cases h.symm.trans (load_of_missing hmissing)
  · obtain ⟨c, hc, -⟩ := load_of_sound hr hsound
    cases h.symm.trans hc
  · cases h.symm.trans he.load_eq
    exact he

/-- A content that is not unpacked is the error of the layer that fails. -/
theorem load_eq_packed_iff {content : Bytes} {e : UnpackError}
    (hread : files.readFile (path world d loc) = .ok content) :
    load files world d loc = .error (.undecodable loc (.packed e)) ↔
      unpack (ChunkRecord.read Tag.maxDepth) content = .error e := by
  rw [load_eq_error_iff]
  constructor
  · rintro (⟨h, -⟩ | ⟨h, hunpack⟩)
    cases hread.symm.trans h
    exact hunpack
  · exact .packed hread

theorem load_of_moved {files₀ : FileTree} {world₀ : String} {d₀ : Dimension} {loc₀ : ChunkLoc}
    {content : Bytes} {c : Chunk} (hread₀ : files₀.readFile (path world₀ d₀ loc₀) = .ok content)
    (hload : load files₀ world₀ d₀ loc₀ = .ok (some c))
    (hread : files.readFile (path world d loc) = .ok content) (hne : loc ≠ loc₀) :
    load files world d loc = .error (.misplaced loc loc₀) := by
  obtain ⟨r, ⟨content', hread', hunpack⟩, hsound, -⟩ := load_eq_some_iff.1 hload
  cases hread₀.symm.trans hread'
  have hmisplaced := Unusable.misplaced ⟨content, hread, hunpack⟩ (hsound.place ▸ hne.symm)
  rw [hmisplaced.load_eq, hsound.place]

theorem load_of_altered {r : ChunkRecord} {blocks : List Block} (hr : Holds files world d loc r)
    (hdigest : r.sha256 = Bytes.sha256 blocks) (hne : r.blocks ≠ blocks)
    (hcollides : ¬ Sha256.Collides r.blocks blocks) :
    load files world d loc = .error (if ⟨r.x, r.z⟩ = loc
      then .integrity loc r.sha256 (Bytes.sha256 r.blocks) else .misplaced loc ⟨r.x, r.z⟩) := by
  have hclaim : Bytes.sha256 r.blocks ≠ r.sha256 := by
    rw [hdigest, ne_eq, Bytes.sha256_eq_iff]
    exact not_or.2 ⟨hne, hcollides⟩
  split
  · exact (Unusable.integrity hr ‹_› hclaim).load_eq
  · exact (Unusable.misplaced hr ‹_›).load_eq

/-- For every tree of files, the stored chunk of a place is missing exactly if its file is not
found, a chunk exactly if the file holds a sound record of it, and otherwise the error of the first
thing that is wrong. A sound file at the place of another chunk is always misplaced, and altered
blocks are never given under the digest of the original blocks unless the two collide. -/
theorem load_only_sound (files : FileTree) (world : String) (d : Dimension) (loc : ChunkLoc) :
    (∀ asked, (source world d).load files asked loc = some (load files world d loc)) ∧
    (load files world d loc = .ok none ↔ files.readFile (path world d loc) = .error .notFound) ∧
    (∀ c, load files world d loc = .ok (some c) ↔
      ∃ r, Holds files world d loc r ∧ r.Sound loc ∧ c.loc = loc ∧ c.toBytes = r.blocks) ∧
    (∀ e, load files world d loc = .error e ↔ Unusable files world d loc e) ∧
    (∀ content, files.readFile (path world d loc) = .ok content →
      (∀ r, Holds files world d loc r ↔ ∃ item rest, Zstd.decompress content = some item ∧
        ChunkRecord.read Tag.maxDepth item = .ok (r, rest)) ∧
      (load files world d loc = .error (.undecodable loc (.packed .frame)) ↔
        Zstd.decompress content = none) ∧
      (∀ e, load files world d loc = .error (.undecodable loc (.packed (.item e))) ↔
        ∃ item, Zstd.decompress content = some item ∧
          ChunkRecord.read Tag.maxDepth item = .error e) ∧
      ∀ files₀ world₀ d₀ loc₀ c, files₀.readFile (path world₀ d₀ loc₀) = .ok content →
        load files₀ world₀ d₀ loc₀ = .ok (some c) → loc ≠ loc₀ →
          load files world d loc = .error (.misplaced loc loc₀)) ∧
    ∀ r blocks, Holds files world d loc r → r.sha256 = Bytes.sha256 blocks → r.blocks ≠ blocks →
      ¬ Sha256.Collides r.blocks blocks →
        load files world d loc = .error (if ⟨r.x, r.z⟩ = loc
          then .integrity loc r.sha256 (Bytes.sha256 r.blocks) else .misplaced loc ⟨r.x, r.z⟩) := by
  refine ⟨fun _ => rfl, load_eq_none_iff, fun c => load_eq_some_iff, fun e => load_eq_error_iff,
    fun content hread => ⟨fun r => ?_, ?_, fun e => ?_, ?_⟩, ?_⟩
  · rw [← unpack_eq_ok_iff]
    constructor
    · rintro ⟨content', hread', hunpack⟩
      cases hread.symm.trans hread'
      exact hunpack
    · exact fun hunpack => ⟨content, hread, hunpack⟩
  · rw [load_eq_packed_iff hread, unpack_eq_frame_iff]
  · rw [load_eq_packed_iff hread, unpack_eq_item_iff]
  · exact fun files₀ world₀ d₀ loc₀ c hread₀ hload => load_of_moved hread₀ hload hread
  · exact fun r blocks => load_of_altered

/-- A chunk, a copy of its file in the place of another chunk, and a record that claims the digest
of other blocks. -/
theorem load_only_sound_moved :
    let c := Chunk.empty ⟨-5, 7⟩
    let content := pack (ChunkRecord.ofChunk c).encode
    let altered : ChunkRecord := ⟨2, 3, Bytes.sha256 [0], [1]⟩
    let files : FileTree := ⟨[(["w"], .directory), (["w", "region"], .directory),
      (["w", "region", "c.-5.7.cbor.zst"], .file content),
      (["w", "region", "c.1.1.cbor.zst"], .file content),
      (["w", "region", "c.2.3.cbor.zst"], .file (pack altered.encode))]⟩
    load files "w" .normal ⟨0, 0⟩ = .ok none ∧ load files "w" .normal ⟨-5, 7⟩ = .ok (some c) ∧
      load files "w" .normal ⟨1, 1⟩ = .error (.misplaced ⟨1, 1⟩ ⟨-5, 7⟩) ∧
      load files "w" .normal ⟨2, 3⟩ =
        .error (.integrity ⟨2, 3⟩ (Bytes.sha256 [0]) (Bytes.sha256 [1])) := by
  intro c content altered files
  have hnames : Path.names (path "w" .normal ⟨0, 0⟩) = ["w", "region", "c.0.0.cbor.zst"] ∧
      Path.names (path "w" .normal ⟨-5, 7⟩) = ["w", "region", "c.-5.7.cbor.zst"] ∧
      Path.names (path "w" .normal ⟨1, 1⟩) = ["w", "region", "c.1.1.cbor.zst"] ∧
      Path.names (path "w" .normal ⟨2, 3⟩) = ["w", "region", "c.2.3.cbor.zst"] := by decide +kernel
  obtain ⟨hfreeNames, hstoredNames, hcopiedNames, halteredNames⟩ := hnames
  have hfree : files.readFile (path "w" .normal ⟨0, 0⟩) = .error .notFound := by
    rw [FileTree.readFile, FileTree.find_eq_follow (by decide +kernel) hfreeNames]
    simp +decide [FileTree.follow, FileTree.at?, files]
  have hstored : files.readFile (path "w" .normal ⟨-5, 7⟩) = .ok content := by
    rw [FileTree.readFile, FileTree.find_eq_follow (by decide +kernel) hstoredNames]
    simp +decide [FileTree.follow, FileTree.at?, files]
  have hcopied : files.readFile (path "w" .normal ⟨1, 1⟩) = .ok content := by
    rw [FileTree.readFile, FileTree.find_eq_follow (by decide +kernel) hcopiedNames]
    simp +decide [FileTree.follow, FileTree.at?, files]
  have haltered : files.readFile (path "w" .normal ⟨2, 3⟩) = .ok (pack altered.encode) := by
    rw [FileTree.readFile, FileTree.find_eq_follow (by decide +kernel) halteredNames]
    simp +decide [FileTree.follow, FileTree.at?, files]
  obtain ⟨-, hmissing, -⟩ := load_only_sound files "w" .normal ⟨0, 0⟩
  obtain ⟨-, -, hsound, -⟩ := load_only_sound files "w" .normal ⟨-5, 7⟩
  obtain ⟨-, -, -, -, hmoved, -⟩ := load_only_sound files "w" .normal ⟨1, 1⟩
  obtain ⟨-, -, -, -, -, hintegrity⟩ := load_only_sound files "w" .normal ⟨2, 3⟩
  have hload : load files "w" .normal ⟨-5, 7⟩ = .ok (some c) :=
    (hsound c).2 ⟨_, ⟨content, hstored, ChunkRecord.unpack_ofChunk c⟩,
      ChunkRecord.sound_ofChunk c, rfl, rfl⟩
  have hholds : Holds files "w" .normal ⟨2, 3⟩ altered := by
    have hsha : (utf8 (Bytes.sha256 [0])).length < Cbor.argumentLimit :=
      Nat.lt_of_le_of_lt (ChunkRecord.length_sha256_le [0]) (by decide)
    exact ⟨_, haltered, altered.unpack_encode hsha (by decide)⟩
  have hdigests : Sha256.digest [1] ≠ Sha256.digest [0] := by decide +kernel
  exact ⟨hmissing.2 hfree, hload,
    (hmoved content hcopied).2.2.2 files "w" .normal ⟨-5, 7⟩ c hstored hload (by decide),
    hintegrity altered [0] hholds rfl (by decide) fun h => hdigests h.2⟩

end Region

end BlockWorld
