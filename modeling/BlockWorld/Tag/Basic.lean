import BlockWorld.Ieee
import BlockWorld.Text.Split

/-! # Tag trees

World files hold trees of typed values. The fields of a compound are kept in ascending order of
name, one value for each; a path of names between slashes leads through nested compounds, and empty
names in it do not count.
-/

namespace BlockWorld

inductive Tag
  | byte (v : Int8)
  | short (v : Int16)
  | int (v : Int32)
  | long (v : Int64)
  | float (v : Float32)
  | double (v : Float)
  | string (s : String)
  | list (items : List Tag)
  | compound (fields : List (String × Tag))

namespace Tag

def insertField (key : String) (value : Tag) : List (String × Tag) → List (String × Tag)
  | [] => [(key, value)]
  | f :: r =>
    if key = f.1 then (key, value) :: r
    else if key < f.1 then (key, value) :: f :: r
    else f :: insertField key value r

def field? (key : String) : List (String × Tag) → Option Tag
  | [] => none
  | f :: r => if f.1 = key then some f.2 else field? key r

theorem field?_insertField (key k : String) (value : Tag) (l : List (String × Tag)) :
    field? k (insertField key value l) = if key = k then some value else field? k l := by
  induction l with
  | nil => simp [insertField, field?]
  | cons f r ih => grind [insertField, field?]

/-- The compound of these fields; of two under one name the later counts. -/
def ofFields (fields : List (String × Tag)) : Tag :=
  .compound (fields.foldl (fun l f => insertField f.1 f.2 l) [])

/-- Puts a value into a compound. Other trees stay as they are. -/
def insert (t : Tag) (key : String) (value : Tag) : Tag :=
  match t with
  | .compound fields => .compound (insertField key value fields)
  | t => t

def pathNames (path : String) : List String :=
  ((Text.split '/' path.toList).filter (· ≠ [])).map String.ofList

def child? (key : String) : Tag → Option Tag
  | .compound fields => field? key fields
  | _ => none

def descend (t : Tag) : List String → Option Tag
  | [] => some t
  | key :: keys => (t.child? key).bind fun c => c.descend keys

def lookup (t : Tag) (path : String) : Option Tag := t.descend (pathNames path)

theorem descend_append (t : Tag) (a b : List String) :
    t.descend (a ++ b) = (t.descend a).bind (·.descend b) := by
  induction a generalizing t with
  | nil => rfl
  | cons k a ih => cases h : t.child? k <;> simp [descend, h, ih]

/-- The value of an integral tag. -/
def asInt : Tag → Option Int64
  | .byte v => some v.toInt64
  | .short v => some v.toInt64
  | .int v => some v.toInt64
  | .long v => some v
  | _ => none

def asFloat : Tag → Option Float
  | .float v => some (Float.ofBits (Ieee.doubleOfSingle v.toBits))
  | .double v => some v
  | t => t.asInt.map Int64.toFloat

def asList : Tag → Option (List Tag)
  | .list items => some items
  | _ => none

mutual

/-- Equality of values: a float that is no number differs from itself. -/
def equal : Tag → Tag → Bool
  | .byte a, .byte b => a == b
  | .short a, .short b => a == b
  | .int a, .int b => a == b
  | .long a, .long b => a == b
  | .float a, .float b => a == b
  | .double a, .double b => a == b
  | .string a, .string b => a == b
  | .list a, .list b => equalItems a b
  | .compound a, .compound b => equalFields a b
  | _, _ => false

def equalItems : List Tag → List Tag → Bool
  | [], [] => true
  | a :: r, b :: s => equal a b && equalItems r s
  | _, _ => false

def equalFields : List (String × Tag) → List (String × Tag) → Bool
  | [], [] => true
  | (k, a) :: r, (l, b) :: s => k == l && equal a b && equalFields r s
  | _, _ => false

end

end Tag

end BlockWorld
