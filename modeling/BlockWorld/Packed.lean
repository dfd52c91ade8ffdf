import BlockWorld.Cbor.Read
import BlockWorld.Zstd.Frame

/-! # Packed items

Every file of a world is one CBOR item inside a compressed frame. What follows the item in the frame
is not looked at.
-/

namespace BlockWorld

/-- Which layer of a packed item cannot be read. -/
inductive UnpackError
  | frame
  | item (e : Cbor.Error)
  deriving DecidableEq

def UnpackError.message : UnpackError → String
  | .frame => "damaged frame"
  | .item .ended => "item ends early"
  | .item .malformed => "malformed item"
  | .item .unexpected => "unexpected item"
  | .item .tooDeep => "item nested too deeply"

def Cbor.Read.first {α : Type} (r : Cbor.Read α) (b : Bytes) : Except UnpackError α :=
  match r b with
  | .ok (a, _) => .ok a
  | .error e => .error (.item e)

def pack (item : Bytes) : Bytes := Zstd.compress item

def unpack {α : Type} (r : Cbor.Read α) (b : Bytes) : Except UnpackError α :=
  match Zstd.decompress b with
  | some item => r.first item
  | none => .error .frame

end BlockWorld
