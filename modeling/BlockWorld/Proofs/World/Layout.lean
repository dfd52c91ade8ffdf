import BlockWorld.Proofs.Files.Tree
import BlockWorld.World.PlayerRecord
import BlockWorld.World.Region
import Mathlib

/-! # Where a world keeps its records

The metadata, the record of each player and each chunk of each dimension have a file of their own:
from the file one can tell whose it is, and no file stands where another needs a directory.
-/

namespace BlockWorld

theorem toList_toString (v : ℤ) :
    (toString v).toList = (if 0 ≤ v then [] else ['-']) ++ Nat.toDigits 10 v.natAbs := by
  rw [Int.toString_eq_repr, Int.repr_eq_if]
  split
  · have habs : v.toNat = v.natAbs := by omega
    rw [Nat.repr_eq_ofList_toDigits, String.toList_ofList, habs, List.nil_append]
  · have habs : (-v).toNat = v.natAbs := by omega
    simp only [String.toList_append, Nat.repr_eq_ofList_toDigits, String.toList_ofList, habs]
    rfl

theorem not_mem_toString {c : Char} (v : ℤ) (hdigit : c.isDigit = false) (hsign : c ≠ '-') :
    c ∉ (toString v).toList := by
  rw [toList_toString, List.mem_append, not_or]
  constructor
  · split
    · exact List.not_mem_nil
    · simpa using hsign
  · intro hc
    have := Nat.isDigit_of_mem_toDigits (by decide) (by decide) hc
    rw [hdigit] at this
    cases this

theorem length_toString_le (v : Int32) : (toString v.toInt).toList.length ≤ 11 := by
  have hlo := v.le_toInt
  have hhi : v.toInt ≤ 2147483647 := v.toInt_le
  have hdigits : (Nat.toDigits 10 v.toInt.natAbs).length ≤ 10 :=
    (Nat.length_toDigits_le_iff (by decide) (by decide)).2 (by omega)
  rw [toList_toString, List.length_append]
  split <;> simp only [List.length_nil, List.length_singleton] <;> omega

/-- What stands in front of the first separator, and what behind it, can be told. -/
theorem Text.append_cons_inj {separator : Char} {a b r s : List Char} (ha : separator ∉ a)
    (hb : separator ∉ b) (h : a ++ separator :: r = b ++ separator :: s) : a = b ∧ r = s := by
  have hsplit := congrArg (split separator) h
  rw [split_append, split_append, split_of_not_mem ha, split_of_not_mem hb] at hsplit
  obtain rfl := (List.cons.inj hsplit).1
  exact ⟨rfl, (List.cons.inj (List.append_cancel_left h)).2⟩

namespace Region

theorem toList_fileName (loc : ChunkLoc) : (fileName loc).toList =
    'c' :: '.' :: ((toString loc.x.toInt).toList ++
      '.' :: ((toString loc.z.toInt).toList ++ suffix.toList)) := by
  simp [fileName]

theorem fileName_injective {a b : ChunkLoc} (h : fileName a = fileName b) : a = b := by
  have hlist := congrArg String.toList h
  rw [toList_fileName, toList_fileName, List.cons_inj_right, List.cons_inj_right] at hlist
  have hdot : ∀ v : ℤ, '.' ∉ (toString v).toList := fun v => not_mem_toString v rfl (by decide)
  obtain ⟨hx, hz⟩ := Text.append_cons_inj (hdot _) (hdot _) hlist
  have hx' : a.x = b.x := Int32.toInt_inj.1 (Int.repr_inj.1 (String.toList_inj.1 hx))
  have hz' : a.z = b.z :=
    Int32.toInt_inj.1 (Int.repr_inj.1 (String.toList_inj.1 (List.append_cancel_right hz)))
  cases a
  cases b
  exact congrArg₂ ChunkLoc.mk hx' hz'

theorem not_mem_fileName (loc : ChunkLoc) : '/' ∉ (fileName loc).toList := by
  have hslash : ∀ v : ℤ, '/' ∉ (toString v).toList := fun v => not_mem_toString v rfl (by decide)
  have hsuffix : '/' ∉ suffix.toList := by decide
  simp only [toList_fileName, List.mem_cons, List.mem_append, hslash, hsuffix, or_false]
  decide

theorem length_fileName_le (loc : ChunkLoc) : (utf8 (fileName loc)).length ≤ 136 := by
  have hx := length_toString_le loc.x
  have hz := length_toString_le loc.z
  have hsuffix : suffix.toList.length = 9 := by decide
  have h := length_utf8_ofList_le (fileName loc).toList
  rw [String.ofList_toList, toList_fileName] at h
  simp only [List.length_cons, List.length_append, hsuffix] at h
  omega

end Region

namespace PlayerRecord

variable {name : String}

theorem fileName_injective : Function.Injective fileName := by
  intro a b h
  have hlist := congrArg String.toList h
  rw [fileName, fileName, String.toList_append, String.toList_append] at hlist
  exact String.toList_inj.1 (List.append_cancel_right hlist)

theorem not_mem_fileName (h : isValidName name) : '/' ∉ (fileName name).toList := by
  have hplain := List.all_eq_true.1 (Bool.and_eq_true_iff.1 h).2
  have htext : '/' ∉ name.toList := fun hc => absurd (hplain '/' hc) (by decide)
  simp [fileName, htext]

theorem names_fileName (h : isValidName name) : Path.names (fileName name) = [fileName name] :=
  Path.names_single (not_mem_fileName h) (by simp [fileName])

theorem names_directory (world : String) :
    Path.names (directory world) = Path.names world ++ ["players"] := by
  have hplayers : Path.names "players" = ["players"] := by decide +kernel
  rw [directory, Path.names_join, hplayers]

end PlayerRecord

/-- A name that has a record of its own: a valid one, short enough for a file. -/
structure PlayerName where
  text : String
  valid : PlayerRecord.isValidName text
  short : (utf8 text).length ≤ 251
  deriving DecidableEq

theorem PlayerName.fileName_injective {a b : PlayerName}
    (h : PlayerRecord.fileName a.text = PlayerRecord.fileName b.text) : a = b := by
  have htext : a.text = b.text := PlayerRecord.fileName_injective h
  cases a
  cases b
  cases htext
  rfl

/-- What a world keeps a file for. -/
inductive RecordKey
  | level
  | player (name : PlayerName)
  | chunk (dimension : Dimension) (loc : ChunkLoc)
  deriving DecidableEq

namespace RecordKey

def directory : RecordKey → List String
  | .level => []
  | .player _ => ["players"]
  | .chunk .normal _ => ["region"]
  | .chunk .nether _ => ["DIM-1", "region"]

def fileName : RecordKey → String
  | .level => Level.fileName
  | .player name => PlayerRecord.fileName name.text
  | .chunk _ loc => Region.fileName loc

def place (k : RecordKey) : List String := k.directory ++ [k.fileName]

def directoryPath (world : String) : RecordKey → String
  | .level => world
  | .player _ => PlayerRecord.directory world
  | .chunk dimension _ => Region.directory world dimension

def path (world : String) (k : RecordKey) : String := Path.join (k.directoryPath world) k.fileName

theorem place_injective {k l : RecordKey} (h : k.place = l.place) : k = l := by
  obtain ⟨hdirectory, hname⟩ := List.append_inj' h rfl
  replace hname := List.singleton_inj.1 hname
  -- Only the keys of one family share a directory.
  obtain _ | a | ⟨_ | _, a⟩ := k <;> obtain _ | b | ⟨_ | _, b⟩ := l <;>
    simp [directory] at hdirectory
  · rfl
  · rw [PlayerName.fileName_injective hname]
  · rw [Region.fileName_injective hname]
  · rw [Region.fileName_injective hname]

/-- No file stands in the way of another. -/
theorem not_place_prefix (k l : RecordKey) : ¬ k.place <+: l.directory := by
  have hlevel : Level.fileName ≠ "players" ∧ Level.fileName ≠ "region" ∧
      Level.fileName ≠ "DIM-1" := by decide
  obtain _ | name | ⟨_ | _, loc⟩ := k <;> obtain _ | other | ⟨_ | _, loc'⟩ := l <;>
    simp [place, directory, fileName, hlevel]

/-! ## Paths -/

theorem names_directoryPath (world : String) (k : RecordKey) :
    Path.names (k.directoryPath world) = Path.names world ++ k.directory := by
  have hregion : Path.names "region" = ["region"] := by decide +kernel
  have hnether : Path.names "DIM-1" = ["DIM-1"] := by decide +kernel
  obtain _ | name | ⟨_ | _, loc⟩ := k
  · exact (List.append_nil _).symm
  · exact PlayerRecord.names_directory world
  · rw [directoryPath, Region.directory, Path.names_join, hregion, directory]
  · rw [directoryPath, Region.directory, Path.names_join, Path.names_join, hregion, hnether,
      List.append_assoc, directory]
    rfl

theorem names_fileName (k : RecordKey) : Path.names k.fileName = [k.fileName] := by
  obtain _ | name | ⟨d, loc⟩ := k
  · decide +kernel
  · exact PlayerRecord.names_fileName name.valid
  · refine Path.names_single (Region.not_mem_fileName loc) ?_
    simp [fileName, Region.toList_fileName]

theorem names_path (world : String) (k : RecordKey) :
    Path.names (k.path world) = Path.names world ++ k.place := by
  rw [path, Path.names_join, names_directoryPath, names_fileName, List.append_assoc, place]

theorem length_fileName_le (k : RecordKey) : (utf8 k.fileName).length ≤ 255 := by
  obtain _ | name | ⟨d, loc⟩ := k
  · decide
  · have hshort := name.short
    have hsuffix : ".dat".utf8ByteSize = 4 := rfl
    rw [length_utf8] at hshort
    rw [length_utf8, fileName, PlayerRecord.fileName, String.utf8ByteSize_append, hsuffix]
    omega
  · exact (Region.length_fileName_le loc).trans (by decide)

theorem short_place (k : RecordKey) : FileTree.Short k.place := by
  have hshort : ∀ name ∈ ["players", "region", "DIM-1"], (utf8 name).length ≤ 255 := by decide
  have hdirectory : k.directory ⊆ ["players", "region", "DIM-1"] := by
    obtain _ | name | ⟨_ | _, loc⟩ := k <;> simp [directory]
  intro name hname
  rcases List.mem_append.1 hname with hname | hname
  · exact hshort name (hdirectory hname)
  · rw [List.mem_singleton.1 hname]
    exact k.length_fileName_le

/-- The longest path is that of a player's record. -/
theorem length_path_le (world : String) (k : RecordKey) :
    (utf8 (k.directoryPath world)).length ≤ (utf8 world).length + 264 ∧
      (utf8 (k.path world)).length ≤ (utf8 world).length + 264 := by
  have hpath := Path.length_join_le (k.directoryPath world) k.fileName
  have hname := k.length_fileName_le
  have hplayers : (utf8 "players").length = 7 := by decide
  have hregion : (utf8 "region").length = 6 := by decide
  have hnether : (utf8 "DIM-1").length = 5 := by decide
  rw [← path] at hpath
  obtain _ | name | ⟨_ | _, loc⟩ := k
  · rw [directoryPath] at hpath ⊢
    have hlevel : (utf8 (fileName .level)).length = 9 := by decide
    omega
  · have hdirectory := Path.length_join_le world "players"
    rw [directoryPath, PlayerRecord.directory] at hpath ⊢
    omega
  · have hdirectory := Path.length_join_le world "region"
    have hchunk : (utf8 (chunk .normal loc).fileName).length ≤ 136 := Region.length_fileName_le loc
    rw [directoryPath, Region.directory] at hpath ⊢
    omega
  · have houter := Path.length_join_le world "DIM-1"
    have hdirectory := Path.length_join_le (Path.join world "DIM-1") "region"
    have hchunk : (utf8 (chunk .nether loc).fileName).length ≤ 136 := Region.length_fileName_le loc
    rw [directoryPath, Region.directory] at hpath ⊢
    omega

end RecordKey

end BlockWorld
