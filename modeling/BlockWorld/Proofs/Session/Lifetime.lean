import BlockWorld.Proofs.Session.Moment

/-! # The life of a player

A session is led by what its client sends: it adds one player to the game, passes on what the
packets ask for up to the first that ends it, and removes that player. Others act on the game in
between, and octets come in any pieces; neither changes what the session says to the game. The
invariant `OnCourse` ties what was said to what is left of the input.
-/

namespace BlockWorld

theorem GameTask.submit_of_running {t : GameTask} (h : t.running) (c : Command) :
    t.submit c = (.ok (t.host.game.apply c).reply, { t with host := (t.host.submit c).1 }) := by
  simp [submit, h, Host.submit]

namespace Talk

/-- Whatever others do, the game goes on running. -/
def Harmless (others : ℕ → GameTask → GameTask) : Prop :=
  ∀ k task, task.running → (others k task).running

variable {others : ℕ → GameTask → GameTask} {t : Talk}

theorem submit_eq (ho : Harmless others) (ht : t.task.running) (c : Command) :
    ∃ task, task.running ∧
      submit others t c = (.ok ((others t.said.length t.task).host.game.apply c).reply,
        ⟨task, t.said ++ [(c, .ok ((others t.said.length t.task).host.game.apply c).reply)]⟩) := by
  have hrun := ho t.said.length t.task ht
  have hs := GameTask.submit_of_running hrun c
  refine ⟨((others t.said.length t.task).submit c).2, ?_, ?_⟩
  · rw [hs]
    exact hrun
  · rw [submit, hs]

theorem submit_of_silent (ho : Harmless others) (ht : t.task.running) {c : Command}
    (hc : ∀ g : Game, (g.apply c).reply = .none) :
    ∃ task, task.running ∧
      submit others t c = (.ok .none, ⟨task, t.said ++ [(c, .ok .none)]⟩) := by
  obtain ⟨task, hrun, hs⟩ := submit_eq ho ht c
  rw [hc] at hs
  exact ⟨task, hrun, hs⟩

theorem submit_allocateId (ho : Harmless others) (ht : t.task.running) {id : EntityId}
    (hid : (others t.said.length t.task).host.game.directory.free? = some id) :
    ∃ task, task.running ∧
      submit others t .allocateId =
        (.ok (.id id), ⟨task, t.said ++ [(.allocateId, .ok (.id id))]⟩) := by
  obtain ⟨task, hrun, hs⟩ := submit_eq ho ht .allocateId
  have hreply : ((others t.said.length t.task).host.game.apply .allocateId).reply = .id id := by
    show ((others t.said.length t.task).host.game.directory.allocate.1).elim Reply.none .id = _
    rw [Directory.allocate, hid]
    rfl
  rw [hreply] at hs
  exact ⟨task, hrun, hs⟩

theorem submit_time (ho : Harmless others) (ht : t.task.running) :
    ∃ task time, task.running ∧ submit others t (.query .time) =
      (.ok (.time time), ⟨task, t.said ++ [(.query .time, .ok (.time time))]⟩) := by
  obtain ⟨task, hrun, hs⟩ := submit_eq ho ht (.query .time)
  exact ⟨task, _, hrun, hs⟩

end Talk

namespace World

/-- Where a user starts: at the recorded position if there is one that can be read. -/
def homeOf (w : World) (files : FileTree) (username : String) : Position :=
  match w.player files username with
  | .ok record => record.position
  | .error _ => w.start

theorem entryPosition_of_isValidName {w : World} {files : FileTree} {username : String}
    (h : PlayerRecord.isValidName username) :
    w.entryPosition files username = .ok (w.homeOf files username) := by
  have hne : ∀ name, w.player files username ≠ .error (.invalidName name) := by
    intro name
    simp only [player, PlayerRecord.load, PlayerRecord.path, if_pos h, bind, Except.bind]
    repeat' split
    all_goals exact nofun
  unfold entryPosition homeOf
  split
  · rename_i hr
    simp [hr]
  · rename_i name hr
    exact absurd hr (hne name)
  · rename_i hr
    simp [hr]

end World

namespace Session

def newcomer (connection : ℕ) (username : String) (id : EntityId) (position : Position) :
    Player where
  id := id
  name := username
  position := position
  connection := connection
  inbox := .new (some outboundCapacity)

def keeps : Wire.ClientPacket → Bool
  | .disconnect _ => false
  | .position x y _ z _ => isPlace x y z
  | .positionLook x y _ z _ _ _ => isPlace x y z
  | _ => true

def order (username : String) (id : EntityId) : Wire.ClientPacket → Option Command
  | .chat text => some (.say ("<" ++ username ++ "> " ++ text))
  | .position x y _ z _ => some (.movePlayer id (some ⟨x, y, z⟩) none)
  | .look yaw pitch _ => some (.movePlayer id none (some ⟨yaw, pitch⟩))
  | .positionLook x y _ z yaw pitch _ => some (.movePlayer id (some ⟨x, y, z⟩) (some ⟨yaw, pitch⟩))
  | _ => none

/-- The commands that are passed on from an input: those of its packets before the first that cannot
be read or ends the session. -/
def relayed (username : String) (id : EntityId) (b : Bytes) : List Command :=
  ((Wire.packets b).takeWhile keeps).filterMap (order username id)

def entrance (connection : ℕ) (username : String) (id : EntityId) (position : Position)
    (time : Int64) : List (Command × Except GameError Reply) :=
  [(.allocateId, .ok (.id id)), (.query .time, .ok (.time time)),
    (.addPlayer (newcomer connection username id position), .ok .none)]

def done (cs : List Command) : List (Command × Except GameError Reply) :=
  cs.map fun c => (c, .ok .none)

theorem done_append (cs ds : List Command) : done (cs ++ ds) = done cs ++ done ds := List.map_append

theorem request_eq (username : String) (id : EntityId) (p : Wire.ClientPacket) :
    request username id p =
      if keeps p then (order username id p).elim .nothing .command else .leave := by
  cases p <;> rfl

theorem reply_order {username : String} {id : EntityId} {p : Wire.ClientPacket} {c : Command}
    (h : order username id p = some c) (g : Game) : (g.apply c).reply = .none := by
  cases p <;> cases h <;> rfl

section Relayed

variable {username : String} {id : EntityId} {b rest : Bytes} {p : Wire.ClientPacket}

theorem relayed_of_keeps (h : Wire.Read.clientPacket b = .ok (p, rest)) (hk : keeps p) :
    relayed username id b = (order username id p).toList ++ relayed username id rest := by
  rw [relayed, Wire.packets_of_ok h, List.takeWhile_cons_of_pos hk, List.filterMap_cons, relayed]
  cases order username id p <;> rfl

theorem relayed_of_not_keeps (h : Wire.Read.clientPacket b = .ok (p, rest)) (hk : ¬ keeps p) :
    relayed username id b = [] := by
  rw [relayed, Wire.packets_of_ok h, List.takeWhile_cons_of_neg hk, List.filterMap_nil]

theorem relayed_of_error {e : WireError} (h : Wire.Read.clientPacket b = .error e) :
    relayed username id b = [] := by
  rw [relayed, Wire.packets_of_error h, List.takeWhile_nil, List.filterMap_nil]

theorem removePlayer_notMem_relayed (i : EntityId) : .removePlayer i ∉ relayed username id b := by
  intro h
  obtain ⟨p, -, ho⟩ := List.mem_filterMap.1 h
  cases p <;> cases ho

/-- What was sent ends the session, whatever follows. -/
inductive Over : Bytes → Prop
  | unreadable {b : Bytes} {e : WireError} :
      Wire.Read.clientPacket b = .error e → e ≠ .truncated → Over b
  | left {b rest : Bytes} {p : Wire.ClientPacket} :
      Wire.Read.clientPacket b = .ok (p, rest) → ¬ keeps p → Over b
  | later {b rest : Bytes} {p : Wire.ClientPacket} :
      Wire.Read.clientPacket b = .ok (p, rest) → keeps p → Over rest → Over b

theorem relayed_append (h : Over b) (more : Bytes) :
    relayed username id (b ++ more) = relayed username id b := by
  induction h with
  | unreadable hr he =>
    rw [relayed_of_error hr,
      relayed_of_error (Wire.Read.steady_clientPacket.refuses hr he more)]
  | left hr hk =>
    obtain ⟨c, rfl, hc⟩ := Wire.Read.steady_clientPacket.reads hr
    rw [relayed_of_not_keeps hr hk, List.append_assoc, relayed_of_not_keeps (hc _) hk]
  | later hr hk _ ih =>
    obtain ⟨c, rfl, hc⟩ := Wire.Read.steady_clientPacket.reads hr
    rw [relayed_of_keeps hr hk, List.append_assoc, relayed_of_keeps (hc _) hk, ih]

theorem finite_of_mem_relayed {id' : EntityId} {x y z : Float} {o : Option Orientation}
    (h : .movePlayer id' (some ⟨x, y, z⟩) o ∈ relayed username id b) :
    x.isFinite ∧ y.isFinite ∧ z.isFinite := by
  obtain ⟨p, hp, ho⟩ := List.mem_filterMap.1 h
  have hk : keeps p := List.all_eq_true.1 (List.all_takeWhile (l := Wire.packets b)) p hp
  have hplace : isPlace x y z := by cases p <;> cases ho <;> exact hk
  simpa [isPlace, and_assoc] using hplace

end Relayed

section Course

variable {w : World} {files : FileTree} {others : ℕ → GameTask → GameTask} {task : GameTask}
  {username : String} {request : Wire.Login} {id : EntityId} {connection : ℕ}
  {position : Position} {hello login rest : Bytes} {ms : List Moment} {s : Session} {t : Talk}

/-- What a session has said fits how far it has come, if `b` is the input it has yet to act on and
its client opens with `hello` and `login`, has `rest` to send after them, and plays under `id`. -/
def OnCourse (task : GameTask) (username : String) (id : EntityId) (position : Position)
    (connection : ℕ) (hello login rest : Bytes) (s : Session) (t : Talk) (b : Bytes) : Prop :=
  s.connection = connection ∧
  match s.phase with
  | .handshake => b = hello ++ (login ++ rest) ∧ t = ⟨task, []⟩
  | .login u => b = login ++ rest ∧ u = username ∧ t = ⟨task, []⟩
  | .play u i => u = username ∧ i = id ∧ t.task.running ∧ ∃ time cs,
      t.said = entrance connection username id position time ++ done cs ∧
        cs ++ relayed username id b = relayed username id rest
  | .ended o => o = .ok () ∧ ∃ time,
      t.said = entrance connection username id position time ++
        done (relayed username id rest ++ [.removePlayer id])

theorem enter_eq (w : World) (files : FileTree) (s : Session) (ho : Talk.Harmless others)
    (hname : PlayerRecord.isValidName username) (hrun : task.running)
    (hid : (others 0 task).host.game.directory.free? = some id) :
    ∃ task' time written, task'.running ∧
      enter (Talk.submit others) w files username s ⟨task, []⟩ =
        ({ s with phase := .play username id, written },
          ⟨task', entrance s.connection username id (w.homeOf files username) time⟩) := by
  obtain ⟨task₁, hrun₁, hs₁⟩ := Talk.submit_allocateId (t := ⟨task, []⟩) ho hrun hid
  obtain ⟨task₂, time, hrun₂, hs₂⟩ :=
    Talk.submit_time (t := ⟨task₁, [(.allocateId, .ok (.id id))]⟩) ho hrun₁
  obtain ⟨task₃, hrun₃, hs₃⟩ := Talk.submit_of_silent
    (t := ⟨task₂, [(.allocateId, .ok (.id id)), (.query .time, .ok (.time time))]⟩) ho hrun₂
    (c := .addPlayer (newcomer s.connection username id (w.homeOf files username))) fun _ => rfl
  have henroll : enroll (Talk.submit others) ⟨task, []⟩ = (.ok (id, time),
      ⟨task₂, [(.allocateId, .ok (.id id)), (.query .time, .ok (.time time))]⟩) := by
    simp only [enroll, hs₁, List.nil_append, hs₂, List.singleton_append]
  refine ⟨task₃, time, (s.write (greeting w id time (w.homeOf files username))).written, hrun₃, ?_⟩
  simp only [newcomer] at hs₃
  simp only [enter, World.entryPosition_of_isValidName hname, henroll, write, hs₃]
  rfl

theorem onCourse_handshake (hhello : Wire.handshakeForm username = .ok hello)
    (hp : s.phase = .handshake)
    (hc : OnCourse task username id position connection hello login rest s t (s.input ms))
    {y : Session × Talk} (hy : s.step (Talk.submit others) w files t = some y) :
    OnCourse task username id position connection hello login rest y.1 y.2 (y.1.input ms) := by
  obtain ⟨hconn, hc⟩ := hc
  rw [hp] at hc
  obtain ⟨hb, rfl⟩ := hc
  have hread : Wire.Read.handshake (s.input ms) = .ok (username, login ++ rest) := by
    rw [hb]
    exact Wire.Read.reads_handshake hhello _
  obtain hf | ⟨left, hf, hleft⟩ := find_of_ok Wire.Read.steady_handshake hread
  · simp [step, hp, hf] at hy
  · simp only [step, hp, hf, Option.some.injEq] at hy
    subst hy
    exact ⟨hconn, hleft.symm, rfl, rfl⟩

theorem onCourse_login (ho : Talk.Harmless others) (hname : PlayerRecord.isValidName username)
    (hrun : task.running) (hid : (others 0 task).host.game.directory.free? = some id)
    (hlogin : request.form = .ok login) (hversion : request.version = Wire.version) {u : String}
    (hp : s.phase = .login u)
    (hc : OnCourse task username id (w.homeOf files username) connection hello login rest s t
      (s.input ms))
    {y : Session × Talk} (hy : s.step (Talk.submit others) w files t = some y) :
    OnCourse task username id (w.homeOf files username) connection hello login rest y.1 y.2
      (y.1.input ms) := by
  obtain ⟨hconn, hc⟩ := hc
  rw [hp] at hc
  obtain ⟨hb, rfl, rfl⟩ := hc
  have hread : Wire.Read.login (s.input ms) = .ok (request, rest) := by
    rw [hb]
    exact Wire.Read.reads_login hlogin hversion _
  obtain hf | ⟨left, hf, hleft⟩ := find_of_ok Wire.Read.steady_login hread
  · simp [step, hp, hf] at hy
  · obtain ⟨task', time, written, hrun', henter⟩ :=
      enter_eq w files { s with phase := .login u, unread := left } ho hname hrun hid
    simp only [step, hp, hf, henter, Option.some.injEq] at hy
    subst hy
    refine ⟨hconn, rfl, rfl, hrun', time, [], ?_, ?_⟩
    · rw [← hconn]
      exact (List.append_nil _).symm
    · rw [hleft]
      rfl

/-- When a session ends, the player's removal is the last that it says. -/
theorem onCourse_leave (ho : Talk.Harmless others) (ht : t.task.running)
    (hconn : s.connection = connection) {time : Int64}
    (hsaid : t.said = entrance connection username id position time ++
      done (relayed username id rest)) (b : Bytes) :
    OnCourse task username id position connection hello login rest
      (leave (Talk.submit others) id s t).1 (leave (Talk.submit others) id s t).2 b := by
  obtain ⟨task', -, hs⟩ := Talk.submit_of_silent ho ht (c := .removePlayer id) fun _ => rfl
  refine ⟨hconn, rfl, time, ?_⟩
  rw [leave, hs, hsaid, done_append, List.append_assoc]
  rfl

theorem onCourse_play (ho : Talk.Harmless others) {u : String} {i : EntityId}
    (hp : s.phase = .play u i)
    (hc : OnCourse task username id position connection hello login rest s t (s.input ms))
    {y : Session × Talk} (hy : s.step (Talk.submit others) w files t = some y) :
    OnCourse task username id position connection hello login rest y.1 y.2 (y.1.input ms) := by
  obtain ⟨hconn, hc⟩ := hc
  rw [hp] at hc
  obtain ⟨rfl, rfl, hrun, time, cs, hsaid, hcs⟩ := hc
  cases hr : Wire.Read.clientPacket (s.input ms) with
  | error e =>
    rw [relayed_of_error hr, List.append_nil] at hcs
    obtain hf | hf := find_of_error Wire.Read.steady_clientPacket hr
    · simp [step, hp, hf] at hy
    · simp only [step, hp, hf, Option.some.injEq] at hy
      subst hy
      exact onCourse_leave ho hrun hconn (hcs ▸ hsaid) _
  | ok x =>
    obtain ⟨p, rest'⟩ := x
    obtain hf | ⟨left, hf, hleft⟩ := find_of_ok Wire.Read.steady_clientPacket hr
    · simp [step, hp, hf] at hy
    · by_cases hk : keeps p
      · rw [relayed_of_keeps hr hk, hleft, ← List.append_assoc] at hcs
        cases hord : order u i p with
        | none =>
          simp only [step, hp, hf, request_eq, if_pos hk, hord, Option.elim_none,
            Option.some.injEq] at hy
          subst hy
          rw [hord, Option.toList_none, List.append_nil] at hcs
          exact ⟨hconn, rfl, rfl, hrun, time, cs, hsaid, hcs⟩
        | some c =>
          obtain ⟨task', hrun', hs⟩ := Talk.submit_of_silent ho hrun (reply_order hord)
          simp only [step, hp, hf, request_eq, if_pos hk, hord, Option.elim_some, hs,
            Option.some.injEq] at hy
          subst hy
          rw [hord, Option.toList_some] at hcs
          refine ⟨hconn, rfl, rfl, hrun', time, cs ++ [c], ?_, hcs⟩
          rw [hsaid, done_append, List.append_assoc]
          rfl
      · rw [relayed_of_not_keeps hr hk, List.append_nil] at hcs
        simp only [step, hp, hf, request_eq, if_neg hk, Option.some.injEq] at hy
        subst hy
        exact onCourse_leave (s := { s with unread := left }) ho hrun hconn (hcs ▸ hsaid) _

theorem OnCourse.congr {s' : Session} {b : Bytes}
    (hc : OnCourse task username id position connection hello login rest s t b)
    (hconn : s'.connection = s.connection) (hphase : s'.phase = s.phase) :
    OnCourse task username id position connection hello login rest s' t b := by
  rw [OnCourse, hconn, hphase]
  exact hc

section Run

variable (hname : PlayerRecord.isValidName username)
  (hhello : Wire.handshakeForm username = .ok hello) (hlogin : request.form = .ok login)
  (hversion : request.version = Wire.version) (ho : Talk.Harmless others) (hrun : task.running)
  (hid : (others 0 task).host.game.directory.free? = some id)

include hname hhello hlogin hversion ho hrun hid

theorem onCourse_moment (x : Session × Talk) (m : Moment)
    (hc : OnCourse task username id (w.homeOf files username) connection hello login rest x.1 x.2
      (x.1.input (m :: ms))) :
    OnCourse task username id (w.homeOf files username) connection hello login rest
      (moment (Talk.submit others) w files x m).1 (moment (Talk.submit others) w files x m).2
      ((moment (Talk.submit others) w files x m).1.input ms) := by
  cases m with
  | receive b =>
    rw [← input_receive] at hc
    refine hc.congr ?_ ?_ <;> · rw [moment, receive]; split <;> rfl
  | finish =>
    rw [← input_finish] at hc
    exact hc.congr rfl rfl
  | act =>
    rw [moment]
    cases hs : x.1.step (Talk.submit others) w files x.2 with
    | none => exact hc
    | some y =>
      cases hp : x.1.phase with
      | handshake => exact onCourse_handshake hhello hp hc hs
      | login u => exact onCourse_login ho hname hrun hid hlogin hversion hp hc hs
      | play u i => exact onCourse_play ho hp hc hs
      | ended o => simp [step, hp] at hs

theorem onCourse_live (x : Session × Talk) (before : List Moment)
    (hc : OnCourse task username id (w.homeOf files username) connection hello login rest x.1 x.2
      (x.1.input (before ++ ms))) :
    OnCourse task username id (w.homeOf files username) connection hello login rest
      (live (Talk.submit others) w files x before).1 (live (Talk.submit others) w files x before).2
      ((live (Talk.submit others) w files x before).1.input ms) := by
  induction before generalizing x with
  | nil => exact hc
  | cons m before ih =>
    exact ih (moment (Talk.submit others) w files x m)
      (onCourse_moment hname hhello hlogin hversion ho hrun hid x m hc)

/-- A client that opens with a valid name and a login of the version spoken, sends any octets and
ends its stream has one player's life in a running game: it is added under the id that the game
gives, its packets are passed on up to the first that ends the session, and it is removed. -/
theorem lifetime (before after : List Moment)
    (hsent : arriving before = hello ++ (login ++ rest))
    (hturns : (arriving before).length < after.count .act) :
    let x := live (Talk.submit others) w files ({ connection }, ⟨task, []⟩)
      (before ++ .finish :: after)
    x.1.phase = .ended (.ok ()) ∧
      (∃ time, x.2.said = entrance connection username id (w.homeOf files username) time ++
        done (relayed username id rest ++ [.removePlayer id])) ∧
      (∀ i, .removePlayer i ∉ relayed username id rest) ∧
      (∀ i x y z o, .movePlayer i (some ⟨x, y, z⟩) o ∈ relayed username id rest →
        x.isFinite ∧ y.isFinite ∧ z.isFinite) ∧
      ∀ b more, rest = b ++ more → Over b → relayed username id rest = relayed username id b := by
  intro x
  have hstart : OnCourse task username id (w.homeOf files username) connection hello login rest
      { connection } ⟨task, []⟩
      (({ connection } : Session).input ((before ++ .finish :: after) ++ [])) := by
    refine ⟨rfl, ?_, rfl⟩
    rw [List.append_nil, ← hsent]
    exact arriving_append_finish before after
  obtain ⟨-, hc⟩ := onCourse_live hname hhello hlogin hversion ho hrun hid
    ({ connection }, ⟨task, []⟩) (before ++ .finish :: after) hstart
  obtain ⟨outcome, hended⟩ : ∃ outcome, x.1.phase = .ended outcome := live_ends rfl hturns
  rw [hended] at hc
  obtain ⟨rfl, hsaid⟩ := hc
  refine ⟨hended, hsaid, removePlayer_notMem_relayed, fun i x y z o => finite_of_mem_relayed, ?_⟩
  rintro b more rfl hover
  exact relayed_append hover more

end Run

end Course

/-- A user writes a line, in pieces, and then walks to where no place is. What follows is ignored,
while others keep the clock going. -/
theorem lifetime_interrupted :
    let request : Wire.Login := ⟨8, "", "", 0, 0⟩
    let hello : Bytes := [0x02, 0, 3, 97, 100, 97]
    let login : Bytes := [0x01, 0, 0, 0, 8, 0, 0, 0, 0, 0, 0, 0, 0, 0, 0, 0, 0, 0]
    let line : Bytes := [0x03, 0, 2, 104, 105]
    let rest : Bytes := line ++ 0x0b :: 0x7f :: 0xf0 :: List.replicate 31 0 ++ [0x00, 0x00]
    let w : World := ⟨"w", 0, 0, ⟨0, 64, 0⟩, ⟨0, 64, 0⟩, { tiers := [] }⟩
    let others (_ : ℕ) (task : GameTask) : GameTask := (task.submit .tick).2
    let task : GameTask := { host := .new {} 0 }
    let before : List Moment :=
      [.receive (hello ++ login ++ [0x03, 0]), .act, .act, .act, .receive (rest.drop 2)]
    let after := List.replicate 100 Moment.act
    (PlayerRecord.isValidName "ada" ∧ Wire.handshakeForm "ada" = .ok hello ∧
      request.form = .ok login ∧ request.version = Wire.version ∧ Talk.Harmless others ∧
      task.running ∧ (others 0 task).host.game.directory.free? = some 1 ∧
      arriving before = hello ++ (login ++ rest) ∧
      (arriving before).length < after.count .act) ∧
    let x := live (Talk.submit others) w .empty ({ connection := 0 }, ⟨task, []⟩)
      (before ++ .finish :: after)
    x.1.phase = .ended (.ok ()) ∧
      (∃ time, x.2.said = entrance 0 "ada" 1 (w.homeOf .empty "ada") time ++
        done (relayed "ada" 1 rest ++ [.removePlayer 1])) ∧
      (∀ i, .removePlayer i ∉ relayed "ada" 1 rest) ∧
      (∀ i x y z o, .movePlayer i (some ⟨x, y, z⟩) o ∈ relayed "ada" 1 rest →
        x.isFinite ∧ y.isFinite ∧ z.isFinite) ∧
      ∀ b more, rest = b ++ more → Over b → relayed "ada" 1 rest = relayed "ada" 1 b := by
  intro request hello login line rest w others task before after
  have hname : PlayerRecord.isValidName "ada" := by decide
  have hhello : Wire.handshakeForm "ada" = .ok hello := by rfl
  have hlogin : request.form = .ok login := by
    simp only [request, login]
    rfl
  have ho : Talk.Harmless others := by
    intro k task hrun
    show (task.submit .tick).2.running
    rw [GameTask.submit_of_running hrun]
    exact hrun
  have hid : (others 0 task).host.game.directory.free? = some 1 := by rfl
  have hsent : arriving before = hello ++ (login ++ rest) := by rfl
  have hturns : (arriving before).length < after.count .act := by decide +kernel
  exact ⟨⟨hname, hhello, hlogin, rfl, ho, rfl, hid, hsent, hturns⟩,
    lifetime hname hhello hlogin rfl ho rfl hid before after hsent hturns⟩

end Session

end BlockWorld
