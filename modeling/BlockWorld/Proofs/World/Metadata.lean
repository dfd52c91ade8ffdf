import BlockWorld.Proofs.Tag.Paths
import BlockWorld.Proofs.World.Entry
import BlockWorld.World.Opening

/-! # Which metadata opens a world

Of the tree in the metadata file six paths count. The three spawn coordinates have to be numbers,
and the first that is not says why the world cannot be opened; the time, the seed and the place of a
single player are taken if they are of the right kind. Nothing is started before all is judged.
-/

namespace BlockWorld

def TagFile.Holds (files : FileTree) (file : String) (t : Tag) : Prop :=
  ∃ content, files.readFile file = .ok content ∧ unpack Tag.readFirst content = .ok t

namespace Level

def axes : List String := ["SpawnX", "SpawnY", "SpawnZ"]

def paths : List (List String) :=
  axes.map (["Data", ·]) ++ [["Data", "Time"], ["Data", "RandomSeed"], ["Data", "Player", "Pos"]]

/-- The coordinate that a tree gives the spawn on an axis. -/
def Places (t : Tag) (axis : String) (x : Float) : Prop :=
  ∃ v, t.Leads ["Data", axis] v ∧ v.IsNumber x

/-- What is wrong with the first of the axes for which a tree gives no coordinate. -/
inductive Flaw (t : Tag) : List String → LevelError → Prop
  | missing {axis : String} {axes : List String} (h : ∀ v, ¬ t.Leads ["Data", axis] v) :
      Flaw t (axis :: axes) (.missing ("/Data/" ++ axis))
  | notNumber {axis : String} {axes : List String} {v : Tag} (hv : t.Leads ["Data", axis] v)
      (h : ∀ x, ¬ v.IsNumber x) : Flaw t (axis :: axes) (.notNumber ("/Data/" ++ axis))
  | later {axis : String} {axes : List String} {x : Float} {e : LevelError} (hx : Places t axis x)
      (h : Flaw t axes e) : Flaw t (axis :: axes) e

structure ReadOff (t : Tag) (l : Level) : Prop where
  spawn_x : Places t "SpawnX" l.spawn.x
  spawn_y : Places t "SpawnY" l.spawn.y
  spawn_z : Places t "SpawnZ" l.spawn.z
  time : ∀ v n, t.Leads ["Data", "Time"] v → v.IsInteger n → l.time = n
  no_time : (∀ v n, t.Leads ["Data", "Time"] v → ¬ v.IsInteger n) → l.time = 0
  seed : ∀ n, l.seed = some n ↔ ∃ v, t.Leads ["Data", "RandomSeed"] v ∧ v.IsInteger n
  playerPosition : ∀ p : Position, l.playerPosition = some p ↔
    t.Leads ["Data", "Player", "Pos"] (.list [.double p.x, .double p.y, .double p.z])

/-! ## What is read off a tree -/

section

variable {t : Tag} {axis : String} {rest : List String} {x : Float} {e : LevelError} {l : Level}

theorem pathNames_axis (h : axis ∈ axes) : Tag.pathNames ("/Data/" ++ axis) = ["Data", axis] := by
  have hall : ∀ axis ∈ axes, Tag.pathNames ("/Data/" ++ axis) = ["Data", axis] := by decide +kernel
  exact hall axis h

theorem coordinate_of_missing (h : axis ∈ axes) (hnone : ∀ v, ¬ t.Leads ["Data", axis] v) :
    coordinate t ("/Data/" ++ axis) = .error (.missing ("/Data/" ++ axis)) := by
  rw [coordinate, (Tag.lookup_eq_none_iff (pathNames_axis h)).2 hnone]

theorem coordinate_of_not_number (h : axis ∈ axes) {v : Tag} (hv : t.Leads ["Data", axis] v)
    (hnone : ∀ x, ¬ v.IsNumber x) :
    coordinate t ("/Data/" ++ axis) = .error (.notNumber ("/Data/" ++ axis)) := by
  have hfloat : v.asFloat = none := by
    simpa only [Option.eq_none_iff_forall_ne_some, ne_eq, ← Tag.isNumber_iff] using hnone
  rw [coordinate, (Tag.lookup_eq_some_iff (pathNames_axis h)).2 hv]
  simp only [hfloat]

theorem coordinate_eq_ok_iff (h : axis ∈ axes) :
    coordinate t ("/Data/" ++ axis) = .ok x ↔ Places t axis x := by
  constructor
  · intro hx
    unfold coordinate at hx
    split at hx
    · cases hx
    · rename_i v hv
      split at hx
      · cases hx
      · rename_i y hy
        obtain rfl : y = x := Except.ok.inj hx
        exact ⟨v, (Tag.lookup_eq_some_iff (pathNames_axis h)).1 hv, Tag.isNumber_iff.2 hy⟩
  · rintro ⟨v, hv, hx⟩
    rw [coordinate, (Tag.lookup_eq_some_iff (pathNames_axis h)).2 hv]
    simp only [Tag.isNumber_iff.1 hx]

theorem flaw_cons_iff (h : axis ∈ axes) : Flaw t (axis :: rest) e ↔
    coordinate t ("/Data/" ++ axis) = .error e ∨
      (∃ x, coordinate t ("/Data/" ++ axis) = .ok x) ∧ Flaw t rest e := by
  constructor
  · intro hflaw
    cases hflaw with
    | missing hnone => exact .inl (coordinate_of_missing h hnone)
    | notNumber hv hnone => exact .inl (coordinate_of_not_number h hv hnone)
    | later hx hrest => exact .inr ⟨⟨_, (coordinate_eq_ok_iff h).2 hx⟩, hrest⟩
  · rintro (herror | ⟨⟨x, hx⟩, hrest⟩)
    · by_cases hleads : ∃ v, t.Leads ["Data", axis] v
      · obtain ⟨v, hv⟩ := hleads
        by_cases hnumber : ∃ x, v.IsNumber x
        · obtain ⟨x, hx⟩ := hnumber
          rw [(coordinate_eq_ok_iff h).2 ⟨v, hv, hx⟩] at herror
          cases herror
        · have hnone := not_exists.1 hnumber
          rw [coordinate_of_not_number h hv hnone] at herror
          exact Except.error.inj herror ▸ .notNumber hv hnone
      · have hnone := not_exists.1 hleads
        rw [coordinate_of_missing h hnone] at herror
        exact Except.error.inj herror ▸ .missing hnone
    · exact .later ((coordinate_eq_ok_iff h).1 hx) hrest

theorem ofTag_eq (t : Tag) : ofTag t =
    coordinate t ("/Data/" ++ "SpawnX") >>= fun x => coordinate t ("/Data/" ++ "SpawnY") >>=
      fun y => coordinate t ("/Data/" ++ "SpawnZ") >>= fun z => pure {
        spawn := ⟨x, y, z⟩
        time := ((t.lookup "/Data/Time").bind Tag.asInt).getD 0
        seed := (t.lookup "/Data/RandomSeed").bind Tag.asInt
        playerPosition := (t.lookup "/Data/Player/Pos").bind Position.ofTag? } := rfl

theorem ofTag_eq_error_iff : ofTag t = .error e ↔ Flaw t axes e := by
  have hnil : ¬ Flaw t [] e := nofun
  rw [axes, flaw_cons_iff (by decide), flaw_cons_iff (by decide), flaw_cons_iff (by decide),
    iff_false_intro hnil, ofTag_eq]
  cases coordinate t ("/Data/" ++ "SpawnX") <;> cases coordinate t ("/Data/" ++ "SpawnY") <;>
    cases coordinate t ("/Data/" ++ "SpawnZ") <;>
    simp [bind, Except.bind, pure, Except.pure]

theorem readOff_of_ofTag (h : ofTag t = .ok l) : l.ReadOff t := by
  rw [ofTag_eq] at h
  obtain ⟨x, hx, h⟩ := bind_eq_ok h
  obtain ⟨y, hy, h⟩ := bind_eq_ok h
  obtain ⟨z, hz, ⟨⟩⟩ := bind_eq_ok h
  have htime (n : Int64) := Tag.lookup_asInt_eq_some_iff (t := t) (n := n)
    (show Tag.pathNames "/Data/Time" = ["Data", "Time"] by decide +kernel)
  have hseed (n : Int64) := Tag.lookup_asInt_eq_some_iff (t := t) (n := n)
    (show Tag.pathNames "/Data/RandomSeed" = ["Data", "RandomSeed"] by decide +kernel)
  have hplace (v : Tag) := Tag.lookup_eq_some_iff (t := t) (v := v)
    (show Tag.pathNames "/Data/Player/Pos" = ["Data", "Player", "Pos"] by decide +kernel)
  refine ⟨(coordinate_eq_ok_iff (by decide)).1 hx, (coordinate_eq_ok_iff (by decide)).1 hy,
    (coordinate_eq_ok_iff (by decide)).1 hz, fun v n hv hn => ?_, fun hnone => ?_, hseed,
    fun p => ?_⟩
  · show ((t.lookup "/Data/Time").bind Tag.asInt).getD 0 = n
    rw [(htime n).2 ⟨v, hv, hn⟩, Option.getD_some]
  · have habsent : (t.lookup "/Data/Time").bind Tag.asInt = none := by
      refine Option.eq_none_iff_forall_ne_some.2 fun n hn => ?_
      obtain ⟨v, hv, hinteger⟩ := (htime n).1 hn
      exact hnone v n hv hinteger
    show ((t.lookup "/Data/Time").bind Tag.asInt).getD 0 = 0
    rw [habsent, Option.getD_none]
  · show (t.lookup "/Data/Player/Pos").bind Position.ofTag? = some p ↔ _
    simp only [Option.bind_eq_some_iff, hplace, Position.ofTag?_eq_some_iff, exists_eq_right]

theorem exists_ofTag_iff : (∃ l, ofTag t = .ok l) ↔ ∀ axis ∈ axes, ∃ x, Places t axis x := by
  constructor
  · rintro ⟨l, hl⟩
    have hread := readOff_of_ofTag hl
    simp only [axes, List.forall_mem_cons]
    exact ⟨⟨_, hread.spawn_x⟩, ⟨_, hread.spawn_y⟩, ⟨_, hread.spawn_z⟩, nofun⟩
  · intro h
    obtain ⟨x, hx⟩ := h "SpawnX" (by decide)
    obtain ⟨y, hy⟩ := h "SpawnY" (by decide)
    obtain ⟨z, hz⟩ := h "SpawnZ" (by decide)
    rw [ofTag_eq, (coordinate_eq_ok_iff (by decide)).2 hx, (coordinate_eq_ok_iff (by decide)).2 hy,
      (coordinate_eq_ok_iff (by decide)).2 hz]
    exact ⟨_, rfl⟩

theorem ofTag_congr {t' : Tag} (h : ∀ names ∈ paths, ∀ v, t.Leads names v ↔ t'.Leads names v) :
    ofTag t = ofTag t' := by
  have hlookup (path : String) (hpath : Tag.pathNames path ∈ paths) :
      t.lookup path = t'.lookup path := by
    refine Option.ext fun v => ?_
    rw [Tag.lookup_eq_some_iff rfl, Tag.lookup_eq_some_iff rfl]
    exact h _ hpath v
  simp only [ofTag, coordinate, hlookup "/Data/SpawnX" (by decide +kernel),
    hlookup "/Data/SpawnY" (by decide +kernel), hlookup "/Data/SpawnZ" (by decide +kernel),
    hlookup "/Data/Time" (by decide +kernel), hlookup "/Data/RandomSeed" (by decide +kernel),
    hlookup "/Data/Player/Pos" (by decide +kernel)]

end

/-! ## Reading the file -/

/-- Why a world cannot be opened, by what is found where its metadata should be. -/
inductive Refused (files : FileTree) (file : String) : LoadError → Prop
  | notFound (h : files.readFile file = .error .notFound) : Refused files file (.notFound file)
  | file {e : FileError} (h : files.readFile file = .error e) (he : e ≠ .notFound) :
      Refused files file (.file e)
  | content {content : Bytes} {e : UnpackError} (hfile : files.readFile file = .ok content)
      (h : unpack Tag.readFirst content = .error e) : Refused files file (.content e)
  | level {t : Tag} {e : LevelError} (ht : TagFile.Holds files file t) (h : Flaw t axes e) :
      Refused files file (.level e)

section

variable {files : FileTree} {world : String} {t : Tag} {l : Level} {e : LoadError}

theorem load_of_holds (h : TagFile.Holds files (Path.join world fileName) t) :
    load files world = (ofTag t).mapError .level := by
  simp only [load, TagFile.read_eq_ok_iff.2 h]

theorem Refused.load_eq (h : Refused files (Path.join world fileName) e) :
    load files world = .error e := by
  cases h with
  | notFound h => simp only [load, TagFile.read, h]
  | @file e h he =>
    cases e with
    | notFound => exact absurd rfl he
    | _ => simp only [load, TagFile.read, h]
  | content hfile h => simp only [load, TagFile.read, hfile, h, Except.mapError]
  | level ht h => rw [load_of_holds ht, ofTag_eq_error_iff.2 h, Except.mapError]

theorem holds_or_refused (files : FileTree) (file : String) :
    (∃ t, TagFile.Holds files file t) ∨ ∃ e, Refused files file e := by
  cases hfile : files.readFile file with
  | error e =>
    by_cases he : e = .notFound
    · exact .inr ⟨_, .notFound (he ▸ hfile)⟩
    · exact .inr ⟨_, .file hfile he⟩
  | ok content =>
    cases hunpack : unpack Tag.readFirst content with
    | error e => exact .inr ⟨_, .content hfile hunpack⟩
    | ok t => exact .inl ⟨t, content, hfile, hunpack⟩

theorem load_eq_error_iff :
    load files world = .error e ↔ Refused files (Path.join world fileName) e := by
  refine ⟨fun h => ?_, Refused.load_eq⟩
  obtain ⟨t, ht⟩ | ⟨e', he'⟩ := holds_or_refused files (Path.join world fileName)
  · rw [load_of_holds ht] at h
    cases htag : ofTag t with
    | ok l =>
      rw [htag] at h
      cases h
    | error e' =>
      rw [htag] at h
      exact Except.error.inj h ▸ .level ht (ofTag_eq_error_iff.1 htag)
  · exact Except.error.inj (he'.load_eq.symm.trans h) ▸ he'

theorem load_eq_ok_iff : load files world = .ok l ↔
    ∃ t, TagFile.Holds files (Path.join world fileName) t ∧ ofTag t = .ok l := by
  constructor
  · intro h
    obtain ⟨t, ht⟩ | ⟨e, he⟩ := holds_or_refused files (Path.join world fileName)
    · rw [load_of_holds ht] at h
      refine ⟨t, ht, ?_⟩
      cases htag : ofTag t with
      | ok l' =>
        rw [htag] at h
        exact congrArg _ (Except.ok.inj h)
      | error e =>
        rw [htag] at h
        cases h
    · cases he.load_eq.symm.trans h
  · rintro ⟨t, ht, htag⟩
    rw [load_of_holds ht, htag, Except.mapError]

end

end Level

namespace World

/-! ## Starting the services -/

variable {files : FileTree} {path : String} {fresh : Int64} {w : World} {e : Level.LoadError}

/-- The world that has been loaded is all there is, with three services if it could be loaded and
with none if it could not. -/
theorem run_opening (files : FileTree) (path : String) (fresh : Int64) (before : List Started) :
    (opening files path fresh).run.run before =
      (load files path fresh, before ++ match load files path fresh with
        | .ok w => [.tier (Region.source path .normal), .tier (Terrain.source w.seed),
            .stack w.chunks.tiers]
        | .error _ => []) := by
  unfold load opening
  cases Level.load files path with
  | error e => exact Prod.ext rfl (List.append_nil before).symm
  | ok level =>
    refine Prod.ext rfl ?_
    show before ++ [_] ++ [_] ++ [_] = _
    rw [List.append_assoc, List.append_assoc]
    rfl

theorem load_eq_error_iff : load files path fresh = .error e ↔
    Level.Refused files (Path.join path Level.fileName) e := by
  rw [← Level.load_eq_error_iff, load]
  cases Level.load files path <;> simp [bind, Except.bind, pure, Except.pure]

/-- A world is opened if the tree in its metadata file gives the three spawn coordinates, whatever
else it holds, and then all its services are started. In every other case none is, and the error
tells what is wrong first. The time, the seed and the place of a single player are taken if they are
of the right kind, and else are those of a world without them. -/
theorem metadata_judged_by_six_paths (files : FileTree) (path : String) (fresh : Int64) :
    let file := Path.join path Level.fileName
    (∀ before, (opening files path fresh).run.run before =
      (load files path fresh, before ++ match load files path fresh with
        | .ok w => [.tier (Region.source path .normal), .tier (Terrain.source w.seed),
            .stack w.chunks.tiers]
        | .error _ => [])) ∧
    ((∃ w, load files path fresh = .ok w) ↔
      ∃ t, TagFile.Holds files file t ∧ ∀ axis ∈ Level.axes, ∃ x, Level.Places t axis x) ∧
    (∀ e, load files path fresh = .error e ↔ Level.Refused files file e) ∧
    (∀ w, load files path fresh = .ok w → ∃ (t : Tag) (l : Level), TagFile.Holds files file t ∧
      l.ReadOff t ∧ w.spawn = l.spawn ∧ w.time = l.time ∧ w.seed = l.seed.getD fresh ∧
      w.start = l.playerPosition.getD l.spawn) ∧
    (∀ files' t t', TagFile.Holds files file t → TagFile.Holds files' file t' →
      (∀ names ∈ Level.paths, ∀ v, Tag.Leads t names v ↔ Tag.Leads t' names v) →
      load files path fresh = load files' path fresh) := by
  intro file
  have hok {w : World} (h : load files path fresh = .ok w) :
      ∃ (t : Tag) (l : Level), TagFile.Holds files file t ∧ Level.ofTag t = .ok l ∧
        w.spawn = l.spawn ∧ w.time = l.time ∧ w.seed = l.seed.getD fresh ∧
        w.start = l.playerPosition.getD l.spawn := by
    obtain ⟨l, hl, ⟨⟩⟩ := bind_eq_ok h
    obtain ⟨t, ht, htag⟩ := Level.load_eq_ok_iff.1 hl
    exact ⟨t, l, ht, htag, rfl, rfl, rfl, rfl⟩
  refine ⟨run_opening files path fresh, ⟨?_, ?_⟩, fun e => load_eq_error_iff, ?_, ?_⟩
  · rintro ⟨w, hw⟩
    obtain ⟨t, l, ht, htag, -⟩ := hok hw
    exact ⟨t, ht, Level.exists_ofTag_iff.1 ⟨l, htag⟩⟩
  · rintro ⟨t, ht, hplaces⟩
    obtain ⟨l, htag⟩ := Level.exists_ofTag_iff.2 hplaces
    rw [load, Level.load_eq_ok_iff.2 ⟨t, ht, htag⟩]
    exact ⟨_, rfl⟩
  · intro w hw
    obtain ⟨t, l, ht, htag, hrest⟩ := hok hw
    exact ⟨t, l, ht, Level.readOff_of_ofTag htag, hrest⟩
  · intro files' t t' ht ht' hagree
    rw [load, load, Level.load_of_holds ht, Level.load_of_holds ht', Level.ofTag_congr hagree]

/-- A tree whose time, seed and place are of the wrong kind, which opens a world all the same, and
one that lacks one coordinate and has a text for the next. -/
theorem metadata_judged_by_six_paths_odd_and_flawed :
    let files (t : Tag) : FileTree :=
      ⟨[(["w"], .directory), (["w", "level.dat"], .file (pack t.encode))]⟩
    let odd : Tag := .compound [("Data", .compound [
      ("Player", .compound [("Pos", .list [.double 0, .double 0])]), ("RandomSeed", .double 7),
      ("SpawnX", .byte 1), ("SpawnY", .float 64), ("SpawnZ", .double 2.5),
      ("Time", .string "noon")]), ("Version", .int 1)]
    let flawed : Tag := .compound [("Data", .compound [("SpawnX", .int 1),
      ("SpawnZ", .string "0")])]
    (∃ w, load (files odd) "w" 99 = .ok w ∧ w.time = 0 ∧ w.seed = 99 ∧ w.start = w.spawn) ∧
    load (files flawed) "w" 99 = .error (.level (.missing "/Data/SpawnY")) := by
  intro files odd flawed
  have hholds {t : Tag} (h : t.Fits 9) :
      TagFile.Holds (files t) (Path.join "w" Level.fileName) t := by
    have hnames : Path.names (Path.join "w" Level.fileName) = ["w", "level.dat"] := by
      decide +kernel
    have hfits := h.mono (show 9 ≤ Tag.maxDepth by decide)
    refine ⟨pack t.encode, ?_, hfits.unpack_encode⟩
    rw [FileTree.readFile, FileTree.find_eq_follow (by decide +kernel) hnames]
    simp +decide [FileTree.follow, FileTree.at?, files]
  have hodd : TagFile.Holds (files odd) (Path.join "w" Level.fileName) odd := by
    refine hholds ⟨?_, ?_⟩
    · simp +decide [odd, Tag.Proper, Tag.ProperFields, Tag.ProperItems]
    · simp +decide [odd, Tag.cost, Tag.costFields, Tag.costItems]
  have hflawed : TagFile.Holds (files flawed) (Path.join "w" Level.fileName) flawed := by
    refine hholds ⟨?_, ?_⟩
    · simp +decide [flawed, Tag.Proper, Tag.ProperFields]
    · simp +decide [flawed, Tag.cost, Tag.costFields]
  constructor
  · obtain ⟨-, hloads, -, hread, -⟩ := metadata_judged_by_six_paths (files odd) "w" 99
    have hx : Level.Places odd "SpawnX" _ := ⟨.byte 1, Tag.leads_iff.2 rfl, .integer (.byte 1)⟩
    have hy : Level.Places odd "SpawnY" _ := ⟨.float 64, Tag.leads_iff.2 rfl, .float 64⟩
    have hz : Level.Places odd "SpawnZ" _ := ⟨.double 2.5, Tag.leads_iff.2 rfl, .double 2.5⟩
    obtain ⟨w, hw⟩ := hloads.2 ⟨odd, hodd, by
      simp only [Level.axes, List.forall_mem_cons]
      exact ⟨⟨_, hx⟩, ⟨_, hy⟩, ⟨_, hz⟩, List.forall_mem_nil _⟩⟩
    obtain ⟨t, l, ht, hl, hspawn, htime, hseed, hstart⟩ := hread w hw
    obtain rfl : odd = t :=
      Except.ok.inj ((TagFile.read_eq_ok_iff.2 hodd).symm.trans (TagFile.read_eq_ok_iff.2 ht))
    have hnoTime : l.time = 0 := hl.no_time fun v n hv hn => by
      obtain rfl : .string "noon" = v := Option.some.inj (Tag.leads_iff.1 hv)
      cases hn
    have hnoSeed : l.seed = none := Option.eq_none_iff_forall_ne_some.2 fun n hn => by
      obtain ⟨v, hv, hinteger⟩ := (hl.seed n).1 hn
      obtain rfl : .double 7 = v := Option.some.inj (Tag.leads_iff.1 hv)
      cases hinteger
    have hnoPlace : l.playerPosition = none := Option.eq_none_iff_forall_ne_some.2 fun p hp => by
      have hpair := Option.some.inj (Tag.leads_iff.1 ((hl.playerPosition p).1 hp))
      have hlength := congrArg List.length (Tag.list.inj hpair)
      cases hlength
    refine ⟨w, hw, htime.trans hnoTime, ?_, ?_⟩
    · rw [hseed, hnoSeed, Option.getD_none]
    · rw [hstart, hnoPlace, Option.getD_none, hspawn]
  · obtain ⟨-, -, herror, -⟩ := metadata_judged_by_six_paths (files flawed) "w" 99
    have hx : Level.Places flawed "SpawnX" _ := ⟨.int 1, Tag.leads_iff.2 rfl, .integer (.int 1)⟩
    have hflaw : Level.Flaw flawed Level.axes (.missing "/Data/SpawnY") :=
      .later hx (.missing fun v hv => Option.some_ne_none v (Tag.leads_iff.1 hv).symm)
    exact (herror _).2 (.level hflawed hflaw)

end World

end BlockWorld
