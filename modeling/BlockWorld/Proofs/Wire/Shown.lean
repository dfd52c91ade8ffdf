import BlockWorld.Wire.ServerPacket
import BlockWorld.Proofs.Wire.Field

/-! # What a client reads

A client cannot tell a packet from another with the same kind and the same encoded fields: of
coordinates it learns the quantised values, of angles fractions of a turn. `Read.shown` reads one
packet so, and `seen` reads a buffer packet by packet.
-/

namespace BlockWorld.Wire

/-- A packet as its client knows it. -/
inductive Shown
  | handshake (hash : String)
  | loginResponse (id : EntityId) (seed : Int64) (dimension : Int8)
  | chat (text : String)
  | timeUpdate (time : Int64)
  | spawnPosition (x y z : Int32)
  | positionLook (x stance y z yaw pitch : ℕ) (onGround : Bool)
  | namedSpawn (id : EntityId) (name : String) (x y z : Int32) (yaw pitch : UInt8) (item : Int16)
  | pickupSpawn (id : EntityId) (item : Int16) (count : Int8) (x y z : Int32)
  | destroyEntity (id : EntityId)
  | disconnect (reason : String)
  deriving DecidableEq

/-- What is shown of a packet. Coordinates that are not quantised are known by their bits. -/
def ServerPacket.shown : ServerPacket → Shown
  | .handshake hash => .handshake hash
  | .loginResponse id seed dimension => .loginResponse id seed (dimensionCode dimension)
  | .chat text => .chat text
  | .timeUpdate time => .timeUpdate time
  | .spawnPosition p =>
    .spawnPosition (Ieee.floorToInt32 p.x) (Ieee.floorToInt32 p.y) (Ieee.floorToInt32 p.z)
  | .positionLook p o onGround =>
    .positionLook p.x.toBits.toNat (p.y + 1.62).toBits.toNat p.y.toBits.toNat p.z.toBits.toNat
      o.yaw.toBits.toNat o.pitch.toBits.toNat onGround
  | .namedSpawn id name p o item =>
    .namedSpawn id name (fixedPoint p.x) (fixedPoint p.y) (fixedPoint p.z) (packedAngle o.yaw)
      (packedAngle o.pitch) item
  | .pickupSpawn id item count p =>
    .pickupSpawn id item count (fixedPoint p.x) (fixedPoint p.y) (fixedPoint p.z)
  | .destroyEntity id => .destroyEntity id
  | .disconnect reason => .disconnect reason

namespace Read

def int16 : Read Int16 := (fun n => (UInt16.ofNat n).toInt16) <$> nat 2

theorem reads_int16 (v : Int16) : Reads int16 (putInt16 v) v := by
  have h := (reads_nat (w := 2) v.toUInt16.toNat_lt).map fun n => (UInt16.ofNat n).toInt16
  rwa [UInt16.ofNat_toNat] at h

def fixed : Read (Int32 × Int32 × Int32) := do
  let x ← int32
  let y ← int32
  let z ← int32
  return (x, y, z)

theorem reads_fixed (x y z : Int32) :
    Reads fixed (putInt32 x ++ putInt32 y ++ putInt32 z) (x, y, z) := by
  rw [List.append_assoc]
  exact (reads_int32 x).bind ((reads_int32 y).bind ((reads_int32 z).bind_pure _))

theorem reads_float (v : Float) : Reads (nat 8) (putFloat v) v.toBits.toNat :=
  reads_nat v.toBits.toNat_lt

theorem reads_float32 (v : Float32) : Reads (nat 4) (putFloat32 v) v.toBits.toNat :=
  reads_nat v.toBits.toNat_lt

def shown : Read Shown := do
  match ← octet with
  | 0x02 => return .handshake (← string)
  | 0x01 =>
    let id ← int32
    let _ ← string
    let _ ← string
    return .loginResponse id (← int64) (← int8)
  | 0x03 => return .chat (← string)
  | 0x04 => return .timeUpdate (← int64)
  | 0x06 =>
    let (x, y, z) ← fixed
    return .spawnPosition x y z
  | 0x0d =>
    return .positionLook (← nat 8) (← nat 8) (← nat 8) (← nat 8) (← nat 4) (← nat 4) (← bool)
  | 0x14 =>
    let id ← int32
    let name ← string
    let (x, y, z) ← fixed
    return .namedSpawn id name x y z (← octet) (← octet) (← int16)
  | 0x15 =>
    let id ← int32
    let item ← int16
    let count ← int8
    let (x, y, z) ← fixed
    let _ ← octets 3
    return .pickupSpawn id item count x y z
  | 0x1d => return .destroyEntity (← int32)
  | 0xff => return .disconnect (← string)
  | id => throw (.unexpectedPacket id)

/-- A packet that has a form is read back from it, as far as it is shown. -/
theorem reads_shown {p : ServerPacket} {b : Bytes} (h : p.encode = .ok b) :
    Reads shown b p.shown := by
  cases p with
  | handshake hash =>
    obtain ⟨s, hs, ⟨⟩⟩ := bind_eq_ok h
    exact (reads_octet 0x02).bind ((reads_string hs).bind_pure _)
  | loginResponse id seed dimension =>
    have he : Reads string [0, 0] "" := reads_string rfl
    cases h
    have hassoc : 0x01 :: putInt32 id ++ [0, 0] ++ [0, 0] ++ putInt64 seed ++
        putInt8 (dimensionCode dimension) = [0x01] ++ (putInt32 id ++ ([0, 0] ++ ([0, 0] ++
          (putInt64 seed ++ putInt8 (dimensionCode dimension))))) := by
      simp
    refine hassoc ▸ (reads_octet 0x01).bind ((reads_int32 id).bind (he.bind (he.bind
      ((reads_int64 seed).bind ((reads_int8 _).bind_pure _)))))
  | chat text =>
    obtain ⟨s, hs, ⟨⟩⟩ := bind_eq_ok h
    exact (reads_octet 0x03).bind ((reads_string hs).bind_pure _)
  | timeUpdate time =>
    cases h
    exact (reads_octet 0x04).bind ((reads_int64 time).bind_pure _)
  | spawnPosition p =>
    cases h
    exact (reads_octet 0x06).bind ((reads_fixed _ _ _).bind_pure _)
  | positionLook p o onGround =>
    cases h
    have hassoc : 0x0d :: putFloat p.x ++ putFloat (p.y + 1.62) ++ putFloat p.y ++ putFloat p.z ++
        putFloat32 o.yaw ++ putFloat32 o.pitch ++ putBool onGround =
        [0x0d] ++ (putFloat p.x ++ (putFloat (p.y + 1.62) ++ (putFloat p.y ++ (putFloat p.z ++
          (putFloat32 o.yaw ++ (putFloat32 o.pitch ++ putBool onGround)))))) := by
      simp
    rw [hassoc]
    exact (reads_octet 0x0d).bind ((reads_float _).bind ((reads_float _).bind ((reads_float _).bind
      ((reads_float _).bind ((reads_float32 _).bind ((reads_float32 _).bind
        ((reads_bool onGround).bind_pure _)))))))
  | namedSpawn id name p o item =>
    obtain ⟨s, hs, ⟨⟩⟩ := bind_eq_ok h
    have hassoc : 0x14 :: putInt32 id ++ s ++ putFixed p ++
        [packedAngle o.yaw, packedAngle o.pitch] ++ putInt16 item =
        [0x14] ++ (putInt32 id ++ (s ++ (putFixed p ++ ([packedAngle o.yaw] ++
          ([packedAngle o.pitch] ++ putInt16 item))))) := by
      simp
    rw [hassoc]
    exact (reads_octet 0x14).bind ((reads_int32 id).bind ((reads_string hs).bind
      ((reads_fixed _ _ _).bind ((reads_octet _).bind ((reads_octet _).bind
        ((reads_int16 item).bind_pure _))))))
  | pickupSpawn id item count p =>
    rw [ServerPacket.encode] at h
    split at h
    · cases h
      have hassoc : 0x15 :: putInt32 id ++ putInt16 item ++ putInt8 count ++ putFixed p ++
          [0, 0, 0] = [0x15] ++ (putInt32 id ++ (putInt16 item ++ (putInt8 count ++ (putFixed p ++
            [0, 0, 0])))) := by
        simp
      rw [hassoc]
      exact (reads_octet 0x15).bind ((reads_int32 id).bind ((reads_int16 item).bind
        ((reads_int8 count).bind ((reads_fixed _ _ _).bind
          ((reads_octets [0, 0, 0]).bind_pure _)))))
    · cases h
  | destroyEntity id =>
    cases h
    exact (reads_octet 0x1d).bind ((reads_int32 id).bind_pure _)
  | disconnect reason =>
    obtain ⟨s, hs, ⟨⟩⟩ := bind_eq_ok h
    exact (reads_octet 0xff).bind ((reads_string hs).bind_pure _)

end Read

/-- The packets in a buffer, up to the first that cannot be read. -/
def seen (b : Bytes) : List Shown :=
  match Read.shown b with
  | .ok (s, rest) => if rest.length < b.length then s :: seen rest else []
  | .error _ => []
termination_by b.length

@[simp] theorem seen_nil : seen [] = [] := by
  rw [seen]
  rfl

theorem ServerPacket.encode_ne_nil {p : ServerPacket} : p.encode ≠ .ok [] := by
  intro h
  have := Read.reads_shown h []
  cases this

theorem seen_append {p : ServerPacket} {b : Bytes} (h : p.encode = .ok b) (rest : Bytes) :
    seen (b ++ rest) = p.shown :: seen rest := by
  have hb : 0 < b.length := List.length_pos_iff.2 fun hn => ServerPacket.encode_ne_nil (hn ▸ h)
  have hlt : rest.length < (b ++ rest).length := by
    rw [List.length_append]
    omega
  rw [seen, Read.reads_shown h rest]
  simp only [hlt, if_true]

end BlockWorld.Wire
