import BlockWorld.Game.Command
import BlockWorld.Proofs.Wire.Shown
import Mathlib.Data.List.Forall2

/-! # Streams of packets

Packets follow one another without any framing. Each form is nevertheless delimited by what it says
itself, so a stream is taken apart in one way only: equal streams show the same packets. What a form
consists of is its layout, plain octets and texts, where a text is preceded by its length.
-/

namespace BlockWorld

namespace Wire

/-- A stretch of the form of a packet. -/
inductive Part
  | plain (b : Bytes)
  | text (s : String)

namespace Part

def form : Part → Bytes
  | .plain b => b
  | .text s => Bytes.ofNat 2 (utf8 s).length ++ utf8 s

def Fits : Part → Prop
  | .plain _ => True
  | .text s => s.utf8ByteSize ≤ maxStringLength

theorem form_eq_of_putString {s : String} {b : Bytes} (h : putString s = .ok b) :
    (text s).form = b ∧ (text s).Fits := by
  obtain ⟨hle, rfl⟩ := Read.putString_eq_ok_iff.1 h
  exact ⟨rfl, hle⟩

end Part

namespace ServerPacket

/-- What the form of a packet consists of, in order. -/
def layout : ServerPacket → List Part
  | .handshake hash => [.plain [0x02], .text hash]
  | .loginResponse id seed dimension =>
    [.plain (0x01 :: putInt32 id), .text "", .text "",
      .plain (putInt64 seed ++ putInt8 (dimensionCode dimension))]
  | .chat line => [.plain [0x03], .text line]
  | .timeUpdate time => [.plain (0x04 :: putInt64 time)]
  | .spawnPosition p =>
    [.plain (0x06 :: (putInt32 (Ieee.floorToInt32 p.x) ++ putInt32 (Ieee.floorToInt32 p.y) ++
      putInt32 (Ieee.floorToInt32 p.z)))]
  | .positionLook p o onGround =>
    [.plain (0x0d :: (putFloat p.x ++ putFloat (p.y + 1.62) ++ putFloat p.y ++ putFloat p.z ++
      putFloat32 o.yaw ++ putFloat32 o.pitch ++ putBool onGround))]
  | .namedSpawn id name p o item =>
    [.plain (0x14 :: putInt32 id), .text name,
      .plain (putFixed p ++ [packedAngle o.yaw, packedAngle o.pitch] ++ putInt16 item)]
  | .pickupSpawn id item count p =>
    [.plain (0x15 :: (putInt32 id ++ putInt16 item ++ putInt8 count ++ putFixed p ++ [0, 0, 0]))]
  | .destroyEntity id => [.plain (0x1d :: putInt32 id)]
  | .disconnect reason => [.plain [0xff], .text reason]

/-- A packet that has a form has the form of its layout, and its texts keep to the limit. -/
theorem eq_of_encode {p : ServerPacket} {b : Bytes} (h : p.encode = .ok b) :
    b = p.layout.flatMap Part.form ∧ ∀ part ∈ p.layout, part.Fits := by
  cases p with
  | handshake s | chat s | disconnect s =>
    obtain ⟨t, ht, ⟨⟩⟩ := bind_eq_ok h
    obtain ⟨rfl, hfits⟩ := Part.form_eq_of_putString ht
    rw [Part.Fits] at hfits
    simp [layout, Part.form, Part.Fits, hfits]
  | loginResponse id seed dimension =>
    cases h
    simp [layout, Part.form, Part.Fits]
  | namedSpawn id name p o item =>
    obtain ⟨t, ht, ⟨⟩⟩ := bind_eq_ok h
    obtain ⟨rfl, hfits⟩ := Part.form_eq_of_putString ht
    rw [Part.Fits] at hfits
    simp [layout, Part.form, Part.Fits, hfits]
  | pickupSpawn id item count p =>
    rw [encode] at h
    split at h
    · cases h
      simp [layout, Part.form, Part.Fits]
    · cases h
  | timeUpdate _ | spawnPosition _ | positionLook _ _ _ | destroyEntity _ =>
    cases h
    simp [layout, Part.form, Part.Fits]

/-- In front of each text of a packet's form stands the number of its octets. -/
theorem length_before_text {p : ServerPacket} {b : Bytes} (h : p.encode = .ok b)
    {front back : List Part} {s : String} (hp : p.layout = front ++ .text s :: back) :
    ∃ length, b = front.flatMap Part.form ++ (length ++ utf8 s) ++ back.flatMap Part.form ∧
      length.length = 2 ∧ length.toNat = (utf8 s).length := by
  obtain ⟨rfl, hfits⟩ := eq_of_encode h
  have hs : (Part.text s).Fits := hfits _ (by simp [hp])
  rw [Part.Fits, ← length_utf8] at hs
  have hlt : (utf8 s).length < Nat.pow 256 2 := Nat.lt_of_le_of_lt hs (by decide)
  refine ⟨Bytes.ofNat 2 (utf8 s).length, ?_, Bytes.length_ofNat .., Bytes.toNat_ofNat hlt⟩
  simp [hp, Part.form]

end ServerPacket

abbrev Forms : List ServerPacket → List Bytes → Prop :=
  List.Forall₂ fun p b => p.encode = .ok b

theorem seen_flatten {ps : List ServerPacket} {bs : List Bytes} (h : Forms ps bs) :
    seen bs.flatten = ps.map (·.shown) := by
  induction h with
  | nil => exact seen_nil
  | cons hp _ ih => rw [List.flatten_cons, seen_append hp, ih, List.map_cons]

/-- The spawns of these players in one buffer, to which a name over the limit adds nothing. -/
def spawnBuffer (l : List Player) : Bytes :=
  l.flatMap fun q =>
    match q.spawnPacket.encode with
    | .ok b => b
    | .error _ => []

theorem forms_spawnBuffer (l : List Player) :
    ∃ bs, spawnBuffer l = bs.flatten ∧
      Forms ((l.filter (·.name.utf8ByteSize ≤ maxStringLength)).map (·.spawnPacket)) bs := by
  induction l with
  | nil => exact ⟨[], rfl, .nil⟩
  | cons q l ih =>
    obtain ⟨bs, hbs, hforms⟩ := ih
    by_cases hq : q.name.utf8ByteSize ≤ maxStringLength
    · obtain ⟨b, hb⟩ : ∃ b, q.spawnPacket.encode = .ok b := by
        rw [Player.spawnPacket, ServerPacket.encode, Read.putString_eq_ok_iff.2 ⟨hq, rfl⟩]
        exact ⟨_, rfl⟩
      refine ⟨b :: bs, ?_, ?_⟩
      · rw [spawnBuffer, List.flatMap_cons, hb, List.flatten_cons, ← hbs]
        rfl
      · rw [List.filter_cons_of_pos (by simpa using hq), List.map_cons]
        exact .cons hb hforms
    · have hb : q.spawnPacket.encode = .error (.stringTooLong (utf8 q.name).length) := by
        rw [Player.spawnPacket, ServerPacket.encode, putString, length_utf8, if_neg hq]
        rfl
      refine ⟨bs, ?_, ?_⟩
      · rw [spawnBuffer, List.flatMap_cons, hb, ← hbs]
        rfl
      · rwa [List.filter_cons_of_neg (by simpa using hq)]

/-- Equal streams of packets are streams of packets that show the same, one by one. In particular a
buffer of spawns is taken apart into the spawns that were put into it, and in front of every text
there is its length. -/
theorem uniquely_decodable :
    (∀ ps qs bs cs, Forms ps bs → Forms qs cs → bs.flatten = cs.flatten →
      ps.map (·.shown) = qs.map (·.shown)) ∧
    (∀ l, seen (spawnBuffer l) =
      (l.filter (·.name.utf8ByteSize ≤ maxStringLength)).map (·.spawnPacket.shown)) ∧
    (∀ (g : Game) (p : Player), g.surroundings p =
      spawnBuffer (g.players.values.filter (g.isNeighbour p))) ∧
    ∀ (p : ServerPacket) b, p.encode = .ok b →
      ∀ front s back, p.layout = front ++ .text s :: back →
        ∃ length, b = front.flatMap Part.form ++ (length ++ utf8 s) ++ back.flatMap Part.form ∧
          length.length = 2 ∧ length.toNat = (utf8 s).length := by
  refine ⟨fun ps qs bs cs hp hq h => ?_, fun l => ?_, fun g p => rfl, ?_⟩
  · rw [← seen_flatten hp, h, seen_flatten hq]
  · obtain ⟨bs, hbs, hforms⟩ := forms_spawnBuffer l
    rw [hbs, seen_flatten hforms, List.map_map]
    rfl
  · exact fun p b h front s back => ServerPacket.length_before_text h

/-- Two streams of a line, a player and its end that differ in where the player stands and whither
it looks, but not by as much as a thirty-second of a block or by part of a turn. -/
theorem uniquely_decodable_quantised :
    let stream (p : Position) (o : Orientation) : List ServerPacket :=
      [.chat "guest has joined", .namedSpawn 7 "guest" p o 1, .destroyEntity 7]
    let ps := stream ⟨0.5, 64, -3.25⟩ ⟨90, 0⟩
    let qs := stream ⟨0.51, 64.01, -3.25⟩ ⟨450, 0⟩
    ∃ bs, Forms ps bs ∧ Forms qs bs ∧ ps.map (·.shown) = qs.map (·.shown) := by
  intro stream ps qs
  have hspawn : (ServerPacket.namedSpawn 7 "guest" ⟨0.51, 64.01, -3.25⟩ ⟨450, 0⟩ 1).encode =
      (ServerPacket.namedSpawn 7 "guest" ⟨0.5, 64, -3.25⟩ ⟨90, 0⟩ 1).encode := by decide +kernel
  obtain ⟨b, hb⟩ : ∃ b, (ServerPacket.namedSpawn 7 "guest" ⟨0.5, 64, -3.25⟩ ⟨90, 0⟩ 1).encode =
      .ok b := ⟨_, rfl⟩
  have hps : Forms ps [_, b, _] := .cons rfl (.cons hb (.cons rfl .nil))
  have hqs : Forms qs [_, b, _] := .cons rfl (.cons (hspawn.trans hb) (.cons rfl .nil))
  exact ⟨_, hps, hqs, uniquely_decodable.1 ps qs _ _ hps hqs rfl⟩

end Wire

end BlockWorld
