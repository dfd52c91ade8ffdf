import BlockWorld.Proofs.Chunk.Cells
import BlockWorld.World.Region

/-! # What a chunk file answers

A chunk file is missing, or it holds a sound record of the chunk asked for, or it cannot be used.
Each of the three is told apart from the others, and nothing but a missing file counts as a chunk
that is not stored.
-/

namespace BlockWorld

namespace ChunkRecord

/-- A record of one whole column at `loc`, with the digest of its blocks. -/
structure Sound (r : ChunkRecord) (loc : ChunkLoc) : Prop where
  place : ⟨r.x, r.z⟩ = loc
  digest : Bytes.sha256 r.blocks = r.sha256
  count : r.blocks.length = 32768

theorem sound_ofChunk (c : Chunk) : (ofChunk c).Sound c.loc :=
  ⟨rfl, rfl, Vector.length_toList⟩

theorem Sound.toChunk {r : ChunkRecord} {loc : ChunkLoc} (h : r.Sound loc) :
    ∃ c, r.toChunk loc = .ok c ∧ c.loc = loc ∧ c.toBytes = r.blocks := by
  obtain ⟨c, hc, hloc, hbytes⟩ := Chunk.ofBlocks?_of_length loc h.count
  refine ⟨c, ?_, hloc, hbytes⟩
  simp only [ChunkRecord.toChunk, h.place, h.digest, hc, ne_eq, not_true_eq_false, if_false]

end ChunkRecord

namespace Region

variable {files : FileTree} {world : String} {d : Dimension} {loc : ChunkLoc}

/-- The file of `loc` holds a record, sound or not. -/
def Holds (files : FileTree) (world : String) (d : Dimension) (loc : ChunkLoc) (r : ChunkRecord) :
    Prop :=
  ∃ content, files.readFile (path world d loc) = .ok content ∧
    unpack (ChunkRecord.read Tag.maxDepth) content = .ok r

theorem Holds.load_eq {r : ChunkRecord} (h : Holds files world d loc r) :
    load files world d loc = some <$> r.toChunk loc := by
  obtain ⟨content, hread, hr⟩ := h
  simp only [load, hread, decode, hr]

/-- Why the file of `loc` cannot be used. The place of a record is looked at before its digest, and
the digest before the number of its blocks. -/
inductive Unusable (files : FileTree) (world : String) (d : Dimension) (loc : ChunkLoc) :
    ChunkError → Prop
  | file {e : FileError} : files.readFile (path world d loc) = .error e → e ≠ .notFound →
      Unusable files world d loc (.file e)
  | packed {content : Bytes} {e : UnpackError} :
      files.readFile (path world d loc) = .ok content →
      unpack (ChunkRecord.read Tag.maxDepth) content = .error e →
      Unusable files world d loc (.undecodable loc (.packed e))
  | misplaced {r : ChunkRecord} : Holds files world d loc r → ⟨r.x, r.z⟩ ≠ loc →
      Unusable files world d loc (.misplaced loc ⟨r.x, r.z⟩)
  | integrity {r : ChunkRecord} : Holds files world d loc r → ⟨r.x, r.z⟩ = loc →
      Bytes.sha256 r.blocks ≠ r.sha256 →
      Unusable files world d loc (.integrity loc r.sha256 (Bytes.sha256 r.blocks))
  | blockCount {r : ChunkRecord} : Holds files world d loc r → ⟨r.x, r.z⟩ = loc →
      Bytes.sha256 r.blocks = r.sha256 → r.blocks.length ≠ 32768 →
      Unusable files world d loc (.undecodable loc .blockCount)

theorem load_of_missing (h : files.readFile (path world d loc) = .error .notFound) :
    load files world d loc = .ok none := by
  simp only [load, h]

theorem load_of_sound {r : ChunkRecord} (h : Holds files world d loc r) (hr : r.Sound loc) :
    ∃ c, load files world d loc = .ok (some c) ∧ c.loc = loc ∧ c.toBytes = r.blocks := by
  obtain ⟨c, hc, hplace, hbytes⟩ := hr.toChunk
  refine ⟨c, ?_, hplace, hbytes⟩
  rw [h.load_eq, hc]
  rfl

theorem Unusable.load_eq {e : ChunkError} (h : Unusable files world d loc e) :
    load files world d loc = .error e := by
  cases h with
  | file hread hne =>
    rw [load, hread]
    split
    · rename_i heq
      cases heq
      exact absurd rfl hne
    · rename_i heq
      cases heq
      rfl
    · rename_i heq
      cases heq
  | packed hread hunpack =>
    simp only [load, hread, decode, hunpack]
    rfl
  | misplaced hr hplace =>
    rw [hr.load_eq, ChunkRecord.toChunk, if_pos hplace]
    rfl
  | integrity hr hplace hdigest =>
    rw [hr.load_eq, ChunkRecord.toChunk, if_neg (not_not_intro hplace), if_pos hdigest]
    rfl
  | blockCount hr hplace hdigest hcount =>
    simp only [hr.load_eq, ChunkRecord.toChunk, hplace, hdigest, Chunk.ofBlocks?_eq_none hcount,
      ne_eq, not_true_eq_false, if_false]
    rfl

theorem missing_or_sound_or_unusable (files : FileTree) (world : String) (d : Dimension)
    (loc : ChunkLoc) :
    files.readFile (path world d loc) = .error .notFound ∨
      (∃ r, Holds files world d loc r ∧ r.Sound loc) ∨ ∃ e, Unusable files world d loc e := by
  cases hread : files.readFile (path world d loc) with
  | error e =>
    by_cases he : e = .notFound
    · exact .inl (he ▸ rfl)
    · exact .inr (.inr ⟨_, .file hread he⟩)
  | ok content =>
    refine .inr ?_
    cases hr : unpack (ChunkRecord.read Tag.maxDepth) content with
    | error e => exact .inr ⟨_, .packed hread hr⟩
    | ok r =>
      have hholds : Holds files world d loc r := ⟨content, hread, hr⟩
      by_cases hplace : ⟨r.x, r.z⟩ = loc
      · by_cases hdigest : Bytes.sha256 r.blocks = r.sha256
        · by_cases hcount : r.blocks.length = 32768
          · exact .inl ⟨r, hholds, hplace, hdigest, hcount⟩
          · exact .inr ⟨_, .blockCount hholds hplace hdigest hcount⟩
        · exact .inr ⟨_, .integrity hholds hplace hdigest⟩
      · exact .inr ⟨_, .misplaced hholds hplace⟩

theorem load_eq_none_iff :
    load files world d loc = .ok none ↔ files.readFile (path world d loc) = .error .notFound := by
  refine ⟨fun h => ?_, load_of_missing⟩
  obtain hmissing | ⟨r, hr, hsound⟩ | ⟨e, he⟩ := missing_or_sound_or_unusable files world d loc
  · exact hmissing
  · obtain ⟨c, hc, -⟩ := load_of_sound hr hsound
    cases hc.symm.trans h
  · cases he.load_eq.symm.trans h

end Region

end BlockWorld
