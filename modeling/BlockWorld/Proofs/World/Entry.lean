import BlockWorld.Proofs.World.Layout
import BlockWorld.Proofs.World.Precedence

/-! # Where a user enters

A user enters at the position in the record under its name, and at the start of the world if there
is no record or none that can be used. Only a name that is not plain is refused, and then no file is
looked at. For a plain name it is one file below the world's directory and no other, a different one
for each name.
-/

namespace BlockWorld

namespace Position

/-- The file holds a tree in which a list of exactly the three coordinates stands at a path. -/
def StoredIn (p : Position) (files : FileTree) (file tagPath : String) : Prop :=
  ∃ content tag, files.readFile file = .ok content ∧ unpack Tag.readFirst content = .ok tag ∧
    tag.lookup tagPath = some (.list [.double p.x, .double p.y, .double p.z])

theorem ofTag?_eq_some_iff {t : Tag} {p : Position} :
    ofTag? t = some p ↔ t = .list [.double p.x, .double p.y, .double p.z] := by
  constructor
  · intro h
    unfold ofTag? at h
    split at h
    · cases h
      rfl
    · cases h
  · rintro rfl
    rfl

end Position

namespace TagFile

variable {files : FileTree} {file tagPath : String} {t : Tag} {p : Position}

theorem read_eq_ok_iff : read files file = .ok t ↔
    ∃ content, files.readFile file = .ok content ∧ unpack Tag.readFirst content = .ok t := by
  rw [read]
  cases files.readFile file with
  | error e => simp
  | ok content => cases h : unpack Tag.readFirst content <;> simp [Except.mapError, h]

def position? (files : FileTree) (file tagPath : String) : Option Position :=
  match read files file with
  | .ok t => (t.lookup tagPath).bind Position.ofTag?
  | .error _ => none

theorem position?_eq_some_iff :
    position? files file tagPath = some p ↔ p.StoredIn files file tagPath := by
  rw [position?]
  constructor
  · intro h
    split at h
    · rename_i t hread
      obtain ⟨content, hfile, hunpack⟩ := read_eq_ok_iff.1 hread
      obtain ⟨v, hv, hp⟩ := Option.bind_eq_some_iff.1 h
      exact ⟨content, t, hfile, hunpack, Position.ofTag?_eq_some_iff.1 hp ▸ hv⟩
    · cases h
  · rintro ⟨content, t, hfile, hunpack, hv⟩
    rw [read_eq_ok_iff.2 ⟨content, hfile, hunpack⟩]
    exact Option.bind_eq_some_iff.2 ⟨_, hv, rfl⟩

theorem position?_eq_none_iff :
    position? files file tagPath = none ↔ ∀ p : Position, ¬ p.StoredIn files file tagPath := by
  simp only [← position?_eq_some_iff, Option.eq_none_iff_forall_ne_some, ne_eq]

theorem position?_congr {files' : FileTree} (h : files.readFile file = files'.readFile file) :
    position? files file tagPath = position? files' file tagPath := by
  rw [position?, position?, read, read, h]

end TagFile

namespace Level

theorem playerPosition_of_ofTag {t : Tag} {l : Level} (h : ofTag t = .ok l) :
    l.playerPosition = (t.lookup "/Data/Player/Pos").bind Position.ofTag? := by
  obtain ⟨x, -, h⟩ := bind_eq_ok h
  obtain ⟨y, -, h⟩ := bind_eq_ok h
  obtain ⟨z, -, ⟨⟩⟩ := bind_eq_ok h
  rfl

theorem playerPosition_of_load {files : FileTree} {world : String} {l : Level}
    (h : load files world = .ok l) :
    l.playerPosition = TagFile.position? files (Path.join world fileName) "/Data/Player/Pos" := by
  simp only [load] at h
  simp only [TagFile.position?]
  cases hread : TagFile.read files (Path.join world fileName) with
  | error e =>
    rw [hread] at h
    rcases e with (_ | _) | _ <;> cases h
  | ok t =>
    cases htag : ofTag t with
    | error e => simp [hread, htag, Except.mapError] at h
    | ok l' =>
      obtain rfl : l' = l := by simpa [hread, htag, Except.mapError] using h
      exact playerPosition_of_ofTag htag

end Level

namespace PlayerRecord

variable {name : String}

/-- A name of letters, digits, underscores and hyphens of ASCII, at least one of them. -/
def Plain (name : String) : Prop :=
  name ≠ "" ∧ ∀ c ∈ name.toList, ('a' ≤ c ∧ c ≤ 'z') ∨ ('A' ≤ c ∧ c ≤ 'Z') ∨
    ('0' ≤ c ∧ c ≤ '9') ∨ c = '_' ∨ c = '-'

theorem isPlain_iff {c : Char} : isPlain c = true ↔ ('a' ≤ c ∧ c ≤ 'z') ∨ ('A' ≤ c ∧ c ≤ 'Z') ∨
    ('0' ≤ c ∧ c ≤ '9') ∨ c = '_' ∨ c = '-' := by
  simp only [isPlain, Char.isAlphanum, Char.isAlpha, Char.isUpper, Char.isLower, Char.isDigit,
    Bool.or_eq_true, Bool.and_eq_true, decide_eq_true_eq, beq_iff_eq, Char.le_def]
  tauto

theorem isValidName_iff : isValidName name = true ↔ Plain name := by
  simp only [isValidName, Plain, Bool.and_eq_true, Bool.not_eq_true', List.all_eq_true, isPlain_iff,
    String.isEmpty_eq_false_iff, ne_eq]

abbrev file (world name : String) : String := Path.join (directory world) (fileName name)

theorem path_of_plain (world : String) (h : Plain name) : path world name = .ok (file world name) :=
  if_pos (isValidName_iff.2 h)

theorem path_of_not_plain (world : String) (h : ¬ Plain name) :
    path world name = .error (.invalidName name) :=
  if_neg (mt isValidName_iff.1 h)

theorem names_file (world : String) (h : Plain name) :
    Path.names (file world name) = Path.names world ++ ["players", name ++ ".dat"] := by
  rw [Path.names_join, names_directory, names_fileName (isValidName_iff.2 h), List.append_assoc]
  rfl

theorem names_file_ne (world : String) {other : String} (h : Plain name) (ho : Plain other)
    (hne : name ≠ other) : Path.names (file world name) ≠ Path.names (file world other) := by
  rw [names_file world h, names_file world ho]
  intro heq
  have hfiles := (List.cons.inj (List.cons.inj (List.append_cancel_left heq)).2).1
  exact hne (fileName_injective hfiles)

end PlayerRecord

namespace World

variable {files : FileTree} {path : String} {w : World} {name : String}

open PlayerRecord (Plain file)

/-- The start of a world is where its single player stood, if that is recorded, or its spawn. -/
theorem path_start_of_load {fresh : Int64} (h : load files path fresh = .ok w) :
    w.path = path ∧
      w.start = (TagFile.position? files (Path.join path Level.fileName)
        "/Data/Player/Pos").getD w.spawn := by
  obtain ⟨level, hlevel, ⟨⟩⟩ := bind_eq_ok h
  exact ⟨rfl, by rw [← Level.playerPosition_of_load hlevel]; rfl⟩

theorem entryPosition_of_not_plain (h : ¬ Plain name) :
    w.entryPosition files name = .error (.invalidName name) := by
  rw [entryPosition, player, PlayerRecord.load, PlayerRecord.path_of_not_plain w.path h]
  rfl

theorem entryPosition_of_plain (h : Plain name) : w.entryPosition files name =
    .ok ((TagFile.position? files (file w.path name) "/Pos").getD w.start) := by
  simp only [entryPosition, player, PlayerRecord.load, PlayerRecord.path_of_plain w.path h,
    TagFile.position?, bind, Except.bind]
  cases TagFile.read files (file w.path name) with
  | error e => rcases e with (_ | _) | _ <;> rfl
  | ok t => cases hp : (t.lookup "/Pos").bind Position.ofTag? <;> simp only [hp] <;> rfl

/-- Whatever the files hold when a user comes into a loaded world: a name that is not plain is
refused; a plain one is given the position that the one file of its own holds, or else the start of
the world, and nothing but that file has a part in it. The start is the position of the single
player that the metadata holds, or else the spawn. -/
theorem entry_contained {files₀ : FileTree} {path : String} {fresh : Int64} {w : World}
    (hload : load files₀ path fresh = .ok w) :
    let level := Path.join path "level.dat"
    let file := fun name => Path.join (Path.join path "players") (name ++ ".dat")
    (∀ p : Position, p.StoredIn files₀ level "/Data/Player/Pos" → w.start = p) ∧
    ((∀ p : Position, ¬ p.StoredIn files₀ level "/Data/Player/Pos") → w.start = w.spawn) ∧
    (∀ name, ¬ Plain name → ∀ files, w.entryPosition files name = .error (.invalidName name)) ∧
    (∀ name, Plain name →
      Path.names (file name) = Path.names path ++ ["players", name ++ ".dat"] ∧
      (∀ other, Plain other → name ≠ other → Path.names (file name) ≠ Path.names (file other)) ∧
      (∀ files, (∃ p : Position, p.StoredIn files (file name) "/Pos" ∧
          w.entryPosition files name = .ok p) ∨
        (∀ p : Position, ¬ p.StoredIn files (file name) "/Pos") ∧
          w.entryPosition files name = .ok w.start) ∧
      ∀ files files', files.readFile (file name) = files'.readFile (file name) →
        w.entryPosition files name = w.entryPosition files' name) := by
  intro level file
  obtain ⟨hpath, hstart⟩ := path_start_of_load hload
  replace hstart : w.start = (TagFile.position? files₀ level "/Data/Player/Pos").getD w.spawn :=
    hstart
  have hentry : ∀ name, Plain name → ∀ files, w.entryPosition files name =
      .ok ((TagFile.position? files (file name) "/Pos").getD w.start) := fun name hname files => by
    rw [entryPosition_of_plain hname, hpath]
    rfl
  refine ⟨fun p hp => ?_, fun hnone => ?_, fun name hname files => entryPosition_of_not_plain hname,
    fun name hname => ⟨PlayerRecord.names_file path hname,
      fun other => PlayerRecord.names_file_ne path hname, fun files => ?_,
      fun files files' h => ?_⟩⟩
  · rw [hstart, TagFile.position?_eq_some_iff.2 hp, Option.getD_some]
  · rw [hstart, TagFile.position?_eq_none_iff.2 hnone, Option.getD_none]
  · rw [hentry name hname]
    cases hp : TagFile.position? files (file name) "/Pos" with
    | some p => exact .inl ⟨p, TagFile.position?_eq_some_iff.1 hp, rfl⟩
    | none => exact .inr ⟨TagFile.position?_eq_none_iff.1 hp, rfl⟩
  · rw [hentry name hname, hentry name hname, TagFile.position?_congr h]

/-- One user with a record, one with a directory in its place, one with a damaged record, one whose
name is too long for a file, and one that asks for another file. -/
theorem entry_contained_five :
    let level : Level := ⟨⟨0.5, 64, -0⟩, -1, some 7, some ⟨8, 70, -8⟩⟩
    let home : Position := ⟨1, 65, 2⟩
    let files : FileTree := ⟨[(["w"], .directory), (["w", "players"], .directory),
      (["w", "level.dat"], .file (pack level.toTag.encode)),
      (["w", "players", "ada.dat"], .file (pack (Tag.ofFields [("Pos", home.toTag)]).encode)),
      (["w", "players", "bob.dat"], .directory), (["w", "players", "eve.dat"], .file [0])]⟩
    let long := String.ofList (List.replicate 252 'x')
    ∃ w, load files "w" 99 = .ok w ∧ w.entryPosition files "ada" = .ok home ∧
      w.entryPosition files "bob" = .ok ⟨8, 70, -8⟩ ∧
      w.entryPosition files "eve" = .ok ⟨8, 70, -8⟩ ∧
      w.entryPosition files long = .ok ⟨8, 70, -8⟩ ∧
      w.entryPosition files "../level" = .error (.invalidName "../level") := by
  intro level home files long
  have hfind {name : String} (hname : Plain name)
      (hlength : (utf8 (file "w" name)).length ≤ FileTree.maxPath) :
      files.find (file "w" name) = files.follow [] .directory ["w", "players", name ++ ".dat"] := by
    have hworld : Path.names "w" = ["w"] := by decide +kernel
    have hnames := PlayerRecord.names_file "w" hname
    rw [hworld] at hnames
    exact FileTree.find_eq_follow hlength hnames
  have hlevelFile : files.readFile (Path.join "w" Level.fileName) =
      .ok (pack level.toTag.encode) := by
    have hnames : Path.names (Path.join "w" Level.fileName) = ["w", "level.dat"] := by
      decide +kernel
    rw [FileTree.readFile, FileTree.find_eq_follow (by decide +kernel) hnames]
    simp +decide [FileTree.follow, FileTree.at?, files]
  have hplain : ∀ name, PlayerRecord.isValidName name → Plain name := fun _ =>
    PlayerRecord.isValidName_iff.1
  have hlongName : Plain long := by
    refine ⟨by decide +kernel, fun c hc => ?_⟩
    rw [String.toList_ofList] at hc
    rw [List.eq_of_mem_replicate hc]
    decide
  have hada : files.readFile (file "w" "ada") =
      .ok (pack (Tag.ofFields [("Pos", home.toTag)]).encode) := by
    rw [FileTree.readFile, hfind (hplain "ada" (by decide +kernel)) (by decide +kernel)]
    simp +decide [FileTree.follow, FileTree.at?, files]
  have hbob : files.readFile (file "w" "bob") = .error .isDirectory := by
    rw [FileTree.readFile, hfind (hplain "bob" (by decide +kernel)) (by decide +kernel)]
    simp +decide [FileTree.follow, FileTree.at?, files]
  have heve : files.readFile (file "w" "eve") = .ok [0] := by
    rw [FileTree.readFile, hfind (hplain "eve" (by decide +kernel)) (by decide +kernel)]
    simp +decide [FileTree.follow, FileTree.at?, files]
  have hlong : files.readFile (file "w" long) = .error .nameTooLong := by
    have hname : FileTree.maxName < (utf8 (long ++ ".dat")).length := by decide +kernel
    rw [FileTree.readFile, hfind hlongName (by decide +kernel)]
    simp +decide [FileTree.follow, FileTree.at?, files, hname]
  have hlevel : Level.load files "w" = .ok level := Level.load_pack hlevelFile
  obtain ⟨w, hload, -⟩ := load_eq hlevel (show level.seed = some 7 from rfl) 99
  obtain ⟨hstart, -, hrefused, hentry⟩ := entry_contained hload
  have hstood : w.start = ⟨8, 70, -8⟩ := hstart _
    (TagFile.position?_eq_some_iff.1 (Level.playerPosition_of_load hlevel).symm)
  have hstored : home.StoredIn files (file "w" "ada") "/Pos" := by
    obtain ⟨v, hv, hp⟩ := Option.bind_eq_some_iff.1 home.lookup_pos
    have hfits := home.fits_pos.mono (show 5 ≤ Tag.maxDepth by decide)
    exact ⟨_, _, hada, hfits.unpack_encode, Position.ofTag?_eq_some_iff.1 hp ▸ hv⟩
  have hunreadable {name : String} (hname : Plain name)
      (hfile : ∀ content tag, files.readFile (file "w" name) = .ok content →
        unpack Tag.readFirst content ≠ .ok tag) :
      w.entryPosition files name = .ok ⟨8, 70, -8⟩ := by
    obtain ⟨-, -, hposition, -⟩ := hentry name hname
    obtain ⟨p, ⟨content, tag, hread, hunpack, -⟩, -⟩ | ⟨-, hposition⟩ := hposition files
    · exact absurd hunpack (hfile content tag hread)
    · rw [hposition, hstood]
  refine ⟨w, hload, ?_, hunreadable (hplain "bob" (by decide +kernel)) fun _ _ h => ?_,
    hunreadable (hplain "eve" (by decide +kernel)) fun _ _ h => ?_,
    hunreadable hlongName fun _ _ h => ?_,
    hrefused "../level" (mt PlayerRecord.isValidName_iff.2 (by decide +kernel)) files⟩
  · obtain ⟨-, -, hposition, -⟩ := hentry "ada" (hplain "ada" (by decide +kernel))
    obtain ⟨p, hp, hposition⟩ | ⟨hnone, -⟩ := hposition files
    · rw [hposition, Option.some.inj ((TagFile.position?_eq_some_iff.2 hp).symm.trans
        (TagFile.position?_eq_some_iff.2 hstored))]
    · exact absurd hstored (hnone home)
  · cases hbob.symm.trans h
  · cases heve.symm.trans h
    have hdamaged : unpack Tag.readFirst [0] = .error .frame := by rfl
    simp [hdamaged]
  · cases hlong.symm.trans h

end World

end BlockWorld
