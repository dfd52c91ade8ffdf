import BlockWorld.Cbor.Header

/-! # Reading CBOR items

Readers for the kinds of item that files are made of. Where a value is expected, tags in front of it
are passed over. Arrays and maps count against a depth; so do variants, which are written as a map
of one entry from the name of the variant to its value.
-/

namespace BlockWorld

namespace Cbor

abbrev Read := StateT Bytes (Except Error)

namespace Read

def header : Read Header := Header.read

/-- The header of the value that comes next, which is no tag. -/
def valueHeader (b : Bytes) : Except Error (Header × Bytes) :=
  match _h : Header.read b with
  | .ok (.tag _, rest) => valueHeader rest
  | found => found
termination_by b.length
decreasing_by exact Header.length_rest_lt_of_read _h

def take (n : Nat) : Read Bytes := fun b =>
  match Bytes.splitAt? n b with
  | some found => .ok found
  | none => .error .ended

def utf8Text (b : Bytes) : Read String :=
  match b.text? with
  | some s => pure s
  | none => throw .malformed

def repeatFor {σ : Type} (step : σ → Read σ) : (n : Nat) → σ → Read σ
  | 0, s => pure s
  | n + 1, s => do repeatFor step n (← step s)

def repeatToStop {σ : Type} (step : σ → Read σ) : (n : Nat) → σ → Read σ
  | 0, _ => throw .ended
  | n + 1, s => do
    let before ← get
    match ← header with
    | .stop => pure s
    | _ =>
      set before
      repeatToStop step n (← step s)

/-- Runs `step` over the elements of a collection of the given length, which may be open. An element
takes an octet at least. -/
def foldElements {σ : Type} (length : Option Nat) (step : σ → Read σ) (s : σ) : Read σ := do
  match length with
  | some n => repeatFor step n s
  | none => repeatToStop step ((← get).length + 1) s

def elements {α : Type} (length : Option Nat) (r : Read α) : Read (List α) :=
  List.reverse <$> foldElements length (fun done => (· :: done) <$> r) []

/-- The pieces of a string of open length. They are strings of the kind that `pick` knows, with
their lengths; an open one among them is nested, and `opened` counts those not yet stopped. -/
def pieces {α : Type} (pick : Header → Option (Option Nat)) (piece : Bytes → Read α) :
    (n : Nat) → (opened : Nat) → (done : List α) → Read (List α)
  | 0, _, _ => throw .ended
  | n + 1, opened, done => do
    match ← header with
    | .stop => if opened ≤ 1 then pure done.reverse else pieces pick piece n (opened - 1) done
    | h =>
      match pick h with
      | none => throw .malformed
      | some none => pieces pick piece n (opened + 1) done
      | some (some w) => do
        let a ← piece (← take w)
        pieces pick piece n opened (a :: done)

def textOf (length : Option Nat) : Read String := do
  match length with
  | some w => utf8Text (← take w)
  | none =>
    let pick : Header → Option (Option Nat)
      | .text w => some w
      | _ => none
    return String.join (← pieces pick utf8Text ((← get).length + 1) 1 [])

def octetsOf (length : Option Nat) : Read Bytes := do
  match length with
  | some w => take w
  | none =>
    let pick : Header → Option (Option Nat)
      | .octets w => some w
      | _ => none
    return (← pieces pick pure ((← get).length + 1) 1 []).flatten

def text : Read String := do
  match ← valueHeader with
  | .text length => textOf length
  | _ => throw .unexpected

/-- A name of at most 4096 octets, written as a text or as octets. -/
def name : Read Bytes := do
  match ← valueHeader with
  | .text (some w) =>
    if w ≤ 4096 then
      let b ← take w
      let _ ← utf8Text b
      pure b
    else throw .unexpected
  | .octets (some w) => if w ≤ 4096 then take w else throw .unexpected
  | _ => throw .unexpected

/-- The magnitude of a big number: its octets without leading zeros, at most sixteen. -/
def magnitude : Read Nat := do
  match ← header with
  | .octets length =>
    let digits := (← octetsOf length).dropWhile (· == 0)
    if digits.length ≤ 16 then pure (Bytes.toNat digits) else throw .unexpected
  | _ => throw .unexpected

/-- An integer of any form: tags 2 and 3 announce big numbers, other tags are passed over. -/
def integer (b : Bytes) : Except Error (Int × Bytes) :=
  match h : Header.read b with
  | .ok (.positive v, rest) => .ok (v, rest)
  | .ok (.negative v, rest) => .ok (-1 - v, rest)
  | .ok (.tag 2, rest) => (magnitude rest).map fun (v, rest) => (v, rest)
  | .ok (.tag 3, rest) => (magnitude rest).map fun (v, rest) => (-1 - v, rest)
  | .ok (.tag _, rest) => integer rest
  | .ok _ => .error .unexpected
  | .error e => .error e
termination_by b.length
decreasing_by exact Header.length_rest_lt_of_read h

def integerIn (lo hi : Int) : Read Int := do
  let v ← integer
  if lo ≤ v ∧ v ≤ hi then pure v else throw .unexpected

def float : Read UInt64 := do
  match ← valueHeader with
  | .float bits => pure bits
  | _ => throw .unexpected

/-- An array whose elements `r` reads, given the depth that is left. A string of octets stands for
the array of their values, which `ofOctet` takes. -/
def sequence {α : Type} (depth : Nat) (r : Read α) (ofOctet : UInt8 → Read α) :
    Read (List α) := do
  match ← valueHeader with
  | .array length => if depth = 0 then throw .tooDeep else elements length r
  | .octets length => (← octetsOf length).mapM ofOctet
  | _ => throw .unexpected

def foldMapping {σ : Type} (depth : Nat) (step : σ → Read σ) (s : σ) : Read σ := do
  match ← valueHeader with
  | .map length => if depth = 0 then throw .tooDeep else foldElements length step s
  | _ => throw .unexpected

def mapping {α : Type} (depth : Nat) (r : Read α) : Read (List α) :=
  List.reverse <$> foldMapping depth (fun done => (· :: done) <$> r) []

/-- The name of the variant that comes next: the only key of a map, or a text by itself. -/
def variant (depth : Nat) : Read Bytes := do
  let before ← get
  match ← valueHeader with
  | .map (some 1) => pure ()
  | .text _ => set before
  | _ => throw .unexpected
  if depth = 0 then throw .tooDeep else name

/-- Passes over one item of any kind; `inner` passes over an item inside it, if that is not too deep. -/
def skipItem (inner : Option (Read Unit)) : Read Unit := do
  let before ← get
  let within (f : Read Unit → Read Unit) : Read Unit := inner.elim (throw .tooDeep) f
  match ← header with
  | .positive _ | .negative _ | .float _ => pure ()
  | .octets length => discard (octetsOf length)
  | .text length => discard (textOf length)
  | .array length => within fun item => discard (elements length item)
  | .map length => within fun item => discard (elements length do item; item)
  | .tag n =>
    if n = 2 ∨ n = 3 then
      set before
      discard integer
    else within id
  | .simple n => if 20 ≤ n ∧ n ≤ 23 then pure () else throw .unexpected
  | .stop => throw .unexpected

def skip : (depth : Nat) → Read Unit
  | 0 => skipItem none
  | d + 1 => skipItem (some (skip d))

end Read

end Cbor

end BlockWorld
