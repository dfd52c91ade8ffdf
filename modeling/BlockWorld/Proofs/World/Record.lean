import BlockWorld.Proofs.Tag.Fields
import BlockWorld.World.PlayerRecord
import BlockWorld.World.Region

/-! # Records are read back

Metadata, player records and chunks are what is read from the files that they are packed into: the
names that a tree is written with are the paths it is asked for, and a chunk has the digest that was
recorded with it.
-/

namespace BlockWorld

theorem Position.fits_toTag (p : Position) : p.toTag.Fits 3 where
  proper := ⟨show 3 < Cbor.argumentLimit by decide, trivial, trivial, trivial, trivial⟩
  cost_le := Nat.le_refl 3

theorem Position.fits_pos (p : Position) : (Tag.ofFields [("Pos", p.toTag)]).Fits 5 :=
  Tag.fits_ofField (by decide) p.fits_toTag

theorem Position.lookup_pos (p : Position) :
    ((Tag.ofFields [("Pos", p.toTag)]).lookup "/Pos").bind ofTag? = some p := by
  have hnames : Tag.pathNames "/Pos" = ["Pos"] := by decide +kernel
  rw [Tag.lookup, hnames, Tag.descend, Tag.child?_ofFields]
  exact p.ofTag?_toTag

namespace Level

def dataFields (l : Level) : List (String × Tag) :=
  [("SpawnX", .double l.spawn.x), ("SpawnY", .double l.spawn.y), ("SpawnZ", .double l.spawn.z),
    ("Time", .long l.time)] ++ (l.seed.toList.map fun s => ("RandomSeed", Tag.long s)) ++
    l.playerPosition.toList.map fun p => ("Player", Tag.ofFields [("Pos", p.toTag)])

theorem toTag_eq (l : Level) : l.toTag = .ofFields [("Data", .ofFields l.dataFields)] := rfl

theorem lookup_toTag (l : Level) (path key : String) (keys : List String)
    (h : Tag.pathNames path = "Data" :: key :: keys) :
    l.toTag.lookup path = (Tag.field? key l.dataFields.reverse).bind (·.descend keys) := by
  rw [Tag.lookup, h, toTag_eq, Tag.descend, Tag.child?_ofFields]
  show (Tag.ofFields l.dataFields).descend (key :: keys) = _
  rw [Tag.descend, Tag.child?_ofFields]

theorem field?_dataFields (l : Level) :
    let value := fun key => Tag.field? key l.dataFields.reverse
    value "SpawnX" = some (.double l.spawn.x) ∧ value "SpawnY" = some (.double l.spawn.y) ∧
      value "SpawnZ" = some (.double l.spawn.z) ∧ value "Time" = some (.long l.time) ∧
      value "RandomSeed" = l.seed.map .long ∧
      value "Player" = l.playerPosition.map fun p => .ofFields [("Pos", p.toTag)] := by
  obtain ⟨spawn, time, seed, player⟩ := l
  cases seed <;> cases player <;> simp [dataFields, Tag.field?]

theorem ofTag_toTag (l : Level) : ofTag l.toTag = .ok l := by
  obtain ⟨hx, hy, hz, htime, hseed, hplayer⟩ := l.field?_dataFields
  have hx' := l.lookup_toTag "/Data/SpawnX" "SpawnX" [] (by decide +kernel)
  have hy' := l.lookup_toTag "/Data/SpawnY" "SpawnY" [] (by decide +kernel)
  have hz' := l.lookup_toTag "/Data/SpawnZ" "SpawnZ" [] (by decide +kernel)
  have htime' := l.lookup_toTag "/Data/Time" "Time" [] (by decide +kernel)
  have hseed' := l.lookup_toTag "/Data/RandomSeed" "RandomSeed" [] (by decide +kernel)
  have hplayer' := l.lookup_toTag "/Data/Player/Pos" "Player" ["Pos"] (by decide +kernel)
  dsimp only at hx hy hz htime hseed hplayer
  rw [ofTag, coordinate, coordinate, coordinate, hx', hy', hz', htime', hseed', hplayer', hx, hy,
    hz, htime, hseed, hplayer]
  obtain ⟨spawn, time, seed, player⟩ := l
  cases seed <;> cases player <;> rfl

theorem fits_toTag (l : Level) : l.toTag.Fits 9 := by
  have hdouble (x : Float) : (Tag.double x).Fits 5 := ⟨trivial, show 1 ≤ 5 by decide⟩
  have hlong (v : Int64) : (Tag.long v).Fits 5 := ⟨trivial, show 1 ≤ 5 by decide⟩
  have hlength : l.dataFields.length ≤ 6 := by
    obtain ⟨spawn, time, seed, player⟩ := l
    cases seed <;> cases player <;> simp [dataFields]
  have hlimit : l.dataFields.length < Cbor.argumentLimit :=
    Nat.lt_of_le_of_lt hlength (by decide)
  have hfields : ∀ f ∈ l.dataFields, (utf8 f.1).length < Cbor.argumentLimit ∧ f.2.Fits 5 := by
    obtain ⟨spawn, time, seed, player⟩ := l
    cases seed <;> cases player <;>
      simp +decide [dataFields, hdouble, hlong, Position.fits_pos]
  rw [toTag_eq]
  exact Tag.fits_ofField (by decide) (Tag.fits_ofFields hlimit hfields)

end Level

namespace ChunkRecord

open Cbor

section Entry

variable {f : Fields} {v : Int32} {depth : ℕ}

theorem reads_coordinate (v : Int32) : Reads coordinate (encodeInt v.toInt) v := by
  have hlo := v.le_toInt
  have hhi : v.toInt ≤ 2147483647 := v.toInt_le
  have hv : v.toInt.natAbs < argumentLimit := by
    rw [argumentLimit]
    omega
  have h := (Read.reads_integerIn hlo hhi hv).map Int32.ofInt
  rwa [Int32.ofInt_toInt] at h

theorem reads_block (b : Block) : Reads block (encodeInt b.toNat) b := by
  have hhi := b.toNat_lt
  have hv : (b.toNat : ℤ).natAbs < argumentLimit := by
    rw [argumentLimit]
    omega
  have hr : Reads (Read.integerIn 0 255) (encodeInt b.toNat) b.toNat :=
    Read.reads_integerIn (by omega) (by omega) hv
  have h := hr.map fun n => UInt8.ofNat n.toNat
  rwa [Int.toNat_natCast, UInt8.ofNat_toNat] at h

theorem reads_x (hf : f.x = none) :
    Reads (entry depth f) (encodeText "x" ++ encodeInt v.toInt) { f with x := some v } := by
  refine (Read.reads_name (by decide)).bind ?_
  rw [if_pos rfl, hf]
  exact ((reads_coordinate v).map some).bind_pure fun x => { f with x }

theorem reads_z (hf : f.z = none) :
    Reads (entry depth f) (encodeText "z" ++ encodeInt v.toInt) { f with z := some v } := by
  refine (Read.reads_name (by decide)).bind ?_
  rw [if_neg (by decide), if_pos rfl, hf]
  exact ((reads_coordinate v).map some).bind_pure fun z => { f with z }

theorem reads_sha256 {s : String} (hf : f.sha256 = none) (hs : (utf8 s).length < argumentLimit) :
    Reads (entry depth f) (encodeText "sha256" ++ encodeText s) { f with sha256 := some s } := by
  refine (Read.reads_name (by decide)).bind ?_
  rw [if_neg (by decide), if_neg (by decide), if_pos rfl, hf]
  exact ((Read.reads_text hs).map some).bind_pure fun sha256 => { f with sha256 }

theorem reads_blocks {blocks : List Block} (hf : f.blocks = none)
    (hlen : blocks.length < argumentLimit) :
    Reads (entry (depth + 1) f) (encodeText "blocks" ++ (Header.encode (.array blocks.length) ++
      blocks.flatMap fun b => encodeInt b.toNat)) { f with blocks := some blocks } := by
  have hitems := Read.reads_repeatFor_flatMap (fun b (_ : b ∈ blocks) => reads_block b) []
  rw [List.append_nil] at hitems
  refine (Read.reads_name (by decide)).bind ?_
  rw [if_neg (by decide), if_neg (by decide), if_neg (by decide), if_pos rfl, hf]
  exact ((Read.reads_sequence hlen hitems).map some).bind_pure fun blocks => { f with blocks }

end Entry

theorem reads_encode (r : ChunkRecord) (depth : ℕ) (hsha : (utf8 r.sha256).length < argumentLimit)
    (hblocks : r.blocks.length < argumentLimit) : Reads (read (depth + 2)) r.encode r := by
  have hentries : Reads (Read.repeatFor (entry (depth + 1)) 4 {})
      ((encodeText "x" ++ encodeInt r.x.toInt) ++ ((encodeText "z" ++ encodeInt r.z.toInt) ++
        ((encodeText "sha256" ++ encodeText r.sha256) ++ ((encodeText "blocks" ++
          (Header.encode (.array r.blocks.length) ++
            r.blocks.flatMap fun b => encodeInt b.toNat)) ++ []))))
      ⟨some r.x, some r.z, some r.sha256, some r.blocks⟩ :=
    (reads_x rfl).bind ((reads_z rfl).bind ((reads_sha256 rfl hsha).bind
      ((reads_blocks rfl hblocks).bind (.pure _))))
  have h : Reads (read (depth + 2)) _ r :=
    (Read.reads_foldMapping (depth + 1) (by decide) hentries).bind_nil (.pure r)
  simpa only [encode, List.append_assoc, List.append_nil] using h

theorem length_sha256_le (b : Bytes) : (utf8 b.sha256).length ≤ 256 := by
  have hdigits : ((Sha256.digest b).flatMap Hex.octet).length = 64 := by
    rw [List.length_flatMap]
    simp [Hex.octet]
  have h := length_utf8_ofList_le ((Sha256.digest b).flatMap Hex.octet)
  rwa [hdigits] at h

theorem toChunk_ofChunk (c : Chunk) : (ofChunk c).toChunk c.loc = .ok c := by
  simp [toChunk, ofChunk, Chunk.ofBlocks?_toBytes]

end ChunkRecord

theorem ChunkRecord.unpack_encode (r : ChunkRecord)
    (hsha : (utf8 r.sha256).length < Cbor.argumentLimit)
    (hblocks : r.blocks.length < Cbor.argumentLimit) :
    unpack (read Tag.maxDepth) (pack r.encode) = .ok r := by
  have h := (reads_encode r 254 hsha hblocks).unpacked []
  rwa [List.append_nil] at h

theorem ChunkRecord.unpack_ofChunk (c : Chunk) :
    unpack (read Tag.maxDepth) (pack (ofChunk c).encode) = .ok (ofChunk c) := by
  have hsha : (utf8 (Bytes.sha256 c.toBytes)).length < Cbor.argumentLimit :=
    Nat.lt_of_le_of_lt (length_sha256_le c.toBytes) (by decide)
  have hblocks : c.toBytes.length < Cbor.argumentLimit := by
    rw [Chunk.toBytes, Vector.length_toList]
    decide
  exact (ofChunk c).unpack_encode hsha hblocks

/-- A chunk is what is read from the file it is packed into. -/
theorem Region.decode_pack (c : Chunk) :
    decode c.loc (pack (ChunkRecord.ofChunk c).encode) = .ok c := by
  rw [decode, ChunkRecord.unpack_ofChunk]
  exact ChunkRecord.toChunk_ofChunk c

end BlockWorld
