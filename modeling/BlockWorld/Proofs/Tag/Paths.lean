import BlockWorld.Tag.Basic

/-! # What a path leads to

A path leads from compound to compound by the names on it, and nowhere once something else than a
compound is in its way. A tag at its end may be integral, or any number.
-/

namespace BlockWorld.Tag

variable {t v : Tag} {names : List String} {n : Int64} {x : Float}

/-- From a tag, the names lead to a value. -/
inductive Leads : Tag → List String → Tag → Prop
  | here (t : Tag) : Leads t [] t
  | field {fields : List (String × Tag)} {key : String} {child v : Tag} {names : List String}
      (hkey : field? key fields = some child) (h : Leads child names v) :
      Leads (.compound fields) (key :: names) v

theorem leads_iff : t.Leads names v ↔ t.descend names = some v := by
  constructor
  · intro h
    induction h with
    | here => rfl
    | field hkey _ ih =>
      rw [descend, child?, hkey]
      exact ih
  · intro h
    induction names generalizing t with
    | nil =>
      obtain rfl := Option.some.inj h
      exact .here t
    | cons key names ih =>
      obtain ⟨child, hkey, hchild⟩ := Option.bind_eq_some_iff.1 h
      cases t with
      | compound fields => exact .field hkey (ih hchild)
      | _ => cases hkey

theorem lookup_eq_some_iff {path : String} (hpath : pathNames path = names) :
    t.lookup path = some v ↔ t.Leads names v := by
  rw [leads_iff, lookup, hpath]

theorem lookup_eq_none_iff {path : String} (hpath : pathNames path = names) :
    t.lookup path = none ↔ ∀ v, ¬ t.Leads names v := by
  simp only [Option.eq_none_iff_forall_ne_some, ne_eq, lookup_eq_some_iff hpath]

inductive IsInteger : Tag → Int64 → Prop
  | byte (v : Int8) : IsInteger (.byte v) v.toInt64
  | short (v : Int16) : IsInteger (.short v) v.toInt64
  | int (v : Int32) : IsInteger (.int v) v.toInt64
  | long (v : Int64) : IsInteger (.long v) v

theorem isInteger_iff : t.IsInteger n ↔ t.asInt = some n := by
  constructor
  · rintro ⟨⟩ <;> rfl
  · intro h
    cases t with
    | byte v => exact Option.some.inj h ▸ .byte v
    | short v => exact Option.some.inj h ▸ .short v
    | int v => exact Option.some.inj h ▸ .int v
    | long v => exact Option.some.inj h ▸ .long v
    | _ => cases h

theorem lookup_asInt_eq_some_iff {path : String} (hpath : pathNames path = names) :
    (t.lookup path).bind asInt = some n ↔ ∃ v, t.Leads names v ∧ v.IsInteger n := by
  simp only [Option.bind_eq_some_iff, lookup_eq_some_iff hpath, isInteger_iff]

inductive IsNumber : Tag → Float → Prop
  | float (v : Float32) : IsNumber (.float v) (Float.ofBits (Ieee.doubleOfSingle v.toBits))
  | double (v : Float) : IsNumber (.double v) v
  | integer {t : Tag} {n : Int64} (h : t.IsInteger n) : IsNumber t n.toFloat

theorem isNumber_iff : t.IsNumber x ↔ t.asFloat = some x := by
  constructor
  · rintro (v | v | h)
    · rfl
    · rfl
    · cases h <;> rfl
  · intro h
    have hinteger : t.asInt.map Int64.toFloat = some x → t.IsNumber x := fun h => by
      obtain ⟨n, hn, rfl⟩ := Option.map_eq_some_iff.1 h
      exact .integer (isInteger_iff.2 hn)
    cases t with
    | float v => exact Option.some.inj h ▸ .float v
    | double v => exact Option.some.inj h ▸ .double v
    | _ => exact hinteger h

end BlockWorld.Tag
