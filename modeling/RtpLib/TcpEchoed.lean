/-
This file says what `tcp_echo_socket` does with the data it receives. A buffer of lwIP
is a chain of fragments with a place in it; `netbuf_data` describes the fragment at that
place, `netbuf_next` moves on, and answers with a negative number at the last one. The
task does not look at data: that each fragment is given to `netconn_write` once, in
order, and on the connection that it came from, is the work of its two loops alone. Nor
does it look at what `netconn_write` answers, so that a fragment whose call fails is not
written again: what has been written back is all that was received only where every call
succeeded.

The world around the task performs the calls that the task makes, in the order of its
trace, and answers the next one. A session is a connection from its acceptance on; a
handle that lwIP gives out again starts a new session.
-/

import RtpLib.TcpEcho

namespace RtpLib

variable {Netconn Netbuf : Type}

/-! ### The data -/

/-- A fragment of a buffer; its length is a `u16_t`. -/
structure Fragment where
  bytes : List UInt8
  bounded : bytes.length < UInt16.size

/-- A connection since it was accepted: the fragments received, the bytes given to each call of
`netconn_write`, and what each call answered, oldest first. -/
structure EchoSession (Netconn : Type) where
  conn : Netconn
  received : List (List UInt8)
  offered : List (List UInt8)
  answers : List ErrT

namespace EchoSession

/-- The bytes that have been written: those of the calls that answered `ERR_OK`. -/
def written (session : EchoSession Netconn) : List (List UInt8) :=
  ((session.offered.zip session.answers).filter fun call => call.2 = .errOk).map Prod.fst

/-- Every fragment received has been given to a call, and every call has answered. -/
structure Settled (session : EchoSession Netconn) : Prop where
  calls : session.offered = session.received
  answered : session.answers.length = session.offered.length

/-- The fragments have all been written exactly when every call succeeded. -/
theorem Settled.written_eq_iff {session : EchoSession Netconn} (settled : session.Settled) :
    session.written = session.received ↔ ∀ answer ∈ session.answers, answer = .errOk := by
  have first : (session.offered.zip session.answers).map Prod.fst = session.offered :=
    List.map_fst_zip settled.answered.ge
  have second : (session.offered.zip session.answers).map Prod.snd = session.answers :=
    List.map_snd_zip settled.answered.le
  rw [← settled.calls]
  constructor
  · intro whole answer member
    have length := congrArg List.length whole
    rw [written, List.length_map, ← congrArg List.length first, List.length_map,
      List.length_filter_eq_length_iff] at length
    rw [← second] at member
    obtain ⟨call, listed, rfl⟩ := List.mem_map.mp member
    exact of_decide_eq_true (length call listed)
  · intro succeeded
    have kept : (session.offered.zip session.answers).filter (fun call => call.2 = .errOk) =
        session.offered.zip session.answers := by
      refine List.filter_eq_self.mpr fun call listed => decide_eq_true (succeeded _ ?_)
      rw [← second]
      exact List.mem_map_of_mem listed
    rw [written, kept, first]

end EchoSession

/-- What lwIP keeps for the task: the connections it waits to receive from and to write to, the
fragments of its buffer from the current one on, what `data` and `len` describe, and the sessions,
the newest one first. -/
structure EchoWorld (Netconn : Type) where
  receiving : Option Netconn
  writing : Option Netconn
  fragments : List Fragment
  data : List UInt8
  len : UInt16
  sessions : List (EchoSession Netconn)

namespace EchoWorld

/-- Nothing has been accepted; the variables hold anything. -/
def start (data : List UInt8) (len : UInt16) : EchoWorld Netconn :=
  ⟨none, none, [], data, len, []⟩

variable [DecidableEq Netconn]

/-- Change the newest session of a connection. -/
def onSession (conn : Netconn) (change : EchoSession Netconn → EchoSession Netconn) :
    List (EchoSession Netconn) → List (EchoSession Netconn)
  | [] => []
  | session :: rest =>
    if session.conn = conn then change session :: rest else session :: onSession conn change rest

/-- The effect of an action of the task. -/
def perform (world : EchoWorld Netconn) : NetAction Netconn Netbuf → EchoWorld Netconn
  | .accepted conn => { world with sessions := ⟨conn, [], [], []⟩ :: world.sessions }
  | .netconnRecv conn => { world with receiving := some conn }
  | .netbufData _ =>
    match world.fragments with
    | [] => world
    | fragment :: _ =>
      { world with data := fragment.bytes, len := UInt16.ofNat fragment.bytes.length }
  | .netconnWrite conn _ =>
    { world with
      writing := some conn
      sessions := onSession conn (fun session =>
        { session with offered := session.offered ++ [world.data.take world.len.toNat] })
        world.sessions }
  | .netbufDelete _ => { world with fragments := [] }
  | _ => world

/-- What `netbuf_next` answers: negative at the last fragment, and one when it has moved to it. -/
def nextResult : List Fragment → Int
  | _ :: _ :: _ :: _ => 0
  | [_, _] => 1
  | _ => -1

/-- Where `netbuf_next` moves to. -/
def advance : List Fragment → List Fragment
  | _ :: fragment :: rest => fragment :: rest
  | fragments => fragments

/-- A result arrives: a buffer that is received has a fragment at least, and is data of the
connection; `netconn_write` answers for the call it was; `netbuf_next` moves on. -/
def arrive (world : EchoWorld Netconn) (chain : List Fragment) :
    TcpResult Netconn Netbuf → Option (EchoWorld Netconn)
  | .netconnRecv err _ =>
    if err = .errOk then
      match world.receiving, chain with
      | some conn, first :: rest =>
        some { world with
          fragments := first :: rest
          sessions := onSession conn (fun session =>
            { session with received := session.received ++ (first :: rest).map Fragment.bytes })
            world.sessions }
      | _, _ => none
    else some world
  | .netconnWrite err =>
    world.writing.map fun conn =>
      { world with
        sessions := onSession conn (fun session =>
          { session with answers := session.answers ++ [err] }) world.sessions }
  | .netbufNext result =>
    if result = nextResult world.fragments then
      some { world with fragments := advance world.fragments }
    else none
  | _ => some world

end EchoWorld

/-! ### The task in its world -/

/-- The task and its world. -/
structure EchoSystem (Netconn Netbuf : Type) where
  task : TcpEcho Netconn Netbuf
  world : EchoWorld Netconn

namespace EchoSystem

/-- The task in its first call, with anything in its variables. -/
def start (conn newconn : Netconn) (buf data : Netbuf) (bytes : List UInt8) (len : UInt16) :
    EchoSystem Netconn Netbuf :=
  ⟨.start conn newconn buf data, .start bytes len⟩

variable [DecidableEq Netconn]

/-- A result of the call that the task waits in, with the fragments of a buffer that is received;
the world performs the actions that the task then takes. -/
def step [DecidableEq Netbuf] (system : EchoSystem Netconn Netbuf)
    (event : TcpResult Netconn Netbuf × List Fragment) : Option (EchoSystem Netconn Netbuf) :=
  (system.task.step event.1).bind fun task =>
    (system.world.arrive event.2 event.1).map fun world =>
      ⟨task, (task.actions.drop system.task.actions.length).foldl EchoWorld.perform world⟩

/-- Whether the task is in the loop over the fragments of a buffer. -/
def Writing (system : EchoSystem Netconn Netbuf) : Prop :=
  system.task.pending = .netconnWrite ∨ system.task.pending = .netbufNext

/-- Every session but the newest is settled, and that one is as well unless the task is in the
loop over the fragments of a buffer: then the fragments after the current one are still to be
given to a call. Where a session is settled, all of it has been written exactly when every call
succeeded. -/
structure Echoes (system : EchoSystem Netconn Netbuf) : Prop where
  settled : ¬ system.Writing → ∀ session ∈ system.world.sessions, session.Settled
  earlier : ∀ session ∈ system.world.sessions.tail, session.Settled
  newest : system.Writing → ∀ session ∈ system.world.sessions.head?,
    session.offered ++ system.world.fragments.tail.map Fragment.bytes = session.received
  written : ∀ session ∈ system.world.sessions, session.Settled →
    (session.written = session.received ↔ ∀ answer ∈ session.answers, answer = .errOk)

/-! ### What one result does -/

variable {system next : EchoSystem Netconn Netbuf}

/-- Where the task serves a connection, its session is the newest one. -/
structure Serves (system : EchoSystem Netconn Netbuf) (session : EchoSession Netconn)
    (rest : List (EchoSession Netconn)) : Prop where
  sessions : system.world.sessions = session :: rest
  conn : session.conn = system.task.newconn
  settled : ∀ session ∈ rest, session.Settled

/-- In the loop over the fragments, the calls for those after the current one are missing from the
session that is served, and `unanswered` calls have not answered. -/
def Underway (system : EchoSystem Netconn Netbuf) (unanswered : Nat) : Prop :=
  ∃ session rest first more, system.Serves session rest ∧
    system.world.fragments = first :: more ∧
    session.offered ++ more.map Fragment.bytes = session.received ∧
    session.answers.length + unanswered = session.offered.length

/-- What has been given to the calls where the task waits. -/
def Tends (system : EchoSystem Netconn Netbuf) : Prop :=
  match system.task.pending with
  | .netconnRecv => system.world.receiving = some system.task.newconn ∧
      ∃ session rest, system.Serves session rest ∧ session.Settled
  | .netconnWrite => system.world.writing = some system.task.newconn ∧ system.Underway 1
  | .netbufNext => system.Underway 0
  | _ => ∀ session ∈ system.world.sessions, session.Settled

omit [DecidableEq Netconn] in
/-- In the loop over the fragments, those after the current one are missing from the newest
session alone. -/
theorem Underway.echoes {unanswered : Nat} (underway : system.Underway unanswered)
    (writing : system.Writing) : system.Echoes := by
  obtain ⟨session, rest, first, more, serves, fragments, missing, -⟩ := underway
  refine ⟨fun idle => absurd writing idle, ?_, fun _ other newest => ?_,
    fun _ _ settled => settled.written_eq_iff⟩
  · rw [serves.sessions]
    exact serves.settled
  · rw [serves.sessions] at newest
    cases newest
    rw [fragments]
    exact missing

omit [DecidableEq Netconn] in
/-- What has been given to the calls is what has to be. -/
theorem Tends.echoes (tends : system.Tends) : system.Echoes := by
  rw [Tends] at tends
  split at tends
  · rename_i waits
    obtain ⟨_, session, rest, serves, settled⟩ := tends
    have idle : ¬ system.Writing := by
      rw [Writing, waits]
      decide
    refine ⟨fun _ other member => ?_, ?_, fun writing => absurd writing idle,
      fun _ _ settled => settled.written_eq_iff⟩
    · rw [serves.sessions] at member
      rcases List.mem_cons.mp member with rfl | member
      · exact settled
      · exact serves.settled other member
    · rw [serves.sessions]
      exact serves.settled
  · rename_i waits
    exact tends.2.echoes (.inl waits)
  · rename_i waits
    exact tends.echoes (.inr waits)
  · rename_i receives writes moves
    refine ⟨fun _ => tends, fun session member => tends session (List.mem_of_mem_tail member),
      fun writing => ?_, fun _ _ settled => settled.written_eq_iff⟩
    rcases writing with waits | waits
    · exact absurd waits writes
    · exact absurd waits moves

/-- The world has performed the actions that the task has added to its trace. -/
def Performs (system next : EchoSystem Netconn Netbuf) (world : EchoWorld Netconn) : Prop :=
  ∀ actions, next.task.actions = system.task.actions ++ actions →
    next.world = actions.foldl EchoWorld.perform world

theorem step_eq_some [DecidableEq Netbuf] {event : TcpResult Netconn Netbuf × List Fragment}
    (taken : system.step event = some next) :
    ∃ world, system.task.step event.1 = some next.task ∧
      system.world.arrive event.2 event.1 = some world ∧ system.Performs next world := by
  obtain ⟨task, stepped, rest⟩ := Option.bind_eq_some_iff.mp taken
  obtain ⟨world, arrived, rfl⟩ := Option.map_eq_some_iff.mp rest
  refine ⟨world, stepped, arrived, fun actions appended => ?_⟩
  have appended : task.actions = system.task.actions ++ actions := appended
  show (task.actions.drop _).foldl EchoWorld.perform world = _
  rw [appended, List.drop_left]

theorem onSession_head {conn : Netconn} {change : EchoSession Netconn → EchoSession Netconn}
    {session : EchoSession Netconn} {rest : List (EchoSession Netconn)}
    (same : session.conn = conn) :
    EchoWorld.onSession conn change (session :: rest) = change session :: rest :=
  if_pos same

/-- Before a connection is accepted, results do not touch the sessions. -/
theorem Tends.new {conn : Option Netconn} (tends : system.Tends)
    (waits : system.task.pending = .netconnNew) (taken : next.task = system.task.afterNew conn)
    (performs : system.Performs next system.world) : next.Tends := by
  rw [Tends, waits] at tends
  cases conn with
  | none =>
    have world := performs [.leave] (by rw [taken]; rfl)
    rw [Tends, taken, world]
    exact tends
  | some conn =>
    have world := performs [.created conn, .netconnBind conn] (by rw [taken]; rfl)
    rw [Tends, taken, world]
    exact tends

theorem Tends.bind {err : ErrT} (tends : system.Tends)
    (waits : system.task.pending = .netconnBind) (taken : next.task = system.task.afterBind err)
    (performs : system.Performs next system.world) : next.Tends := by
  rw [Tends, waits] at tends
  rw [TcpEcho.afterBind] at taken
  split at taken
  · have world := performs [.netconnListen system.task.conn, .netconnAccept system.task.conn]
      (by rw [taken])
    rw [Tends, taken, world]
    exact tends
  · have world := performs [.netconnDelete system.task.newconn, .leave] (by rw [taken])
    rw [Tends, taken, world]
    exact tends

/-- An accepted connection starts a session. -/
theorem Tends.accept {err : ErrT} {newconn : Netconn} (tends : system.Tends)
    (waits : system.task.pending = .netconnAccept)
    (taken : next.task = system.task.afterAccept err newconn)
    (performs : system.Performs next system.world) : next.Tends := by
  rw [Tends, waits] at tends
  rw [TcpEcho.afterAccept] at taken
  dsimp only at taken
  split at taken
  · have world := performs [.accepted newconn, .netconnRecv newconn] (by rw [taken])
    rw [Tends, taken]
    refine ⟨?_, ⟨newconn, [], [], []⟩, system.world.sessions, ⟨?_, ?_, tends⟩, rfl, rfl⟩
    · rw [world]
      rfl
    · rw [world]
      rfl
    · rw [taken]
  · have world := performs [.netconnAccept system.task.conn] (by rw [taken])
    rw [Tends, taken]
    show match system.task.pending with
      | .netconnRecv => _
      | .netconnWrite => _
      | .netbufNext => _
      | _ => _
    rw [waits, world]
    exact tends

/-- The current fragment is given, whole, to a call on the session that is served. -/
theorem perform_fragment {world : EchoWorld Netconn} {session : EchoSession Netconn}
    {rest : List (EchoSession Netconn)} {first : Fragment} {more : List Fragment} {conn : Netconn}
    (buf data : Netbuf) (sessions : world.sessions = session :: rest) (same : session.conn = conn)
    (fragments : world.fragments = first :: more) :
    let given : EchoWorld Netconn := List.foldl EchoWorld.perform world
      [.netbufData buf, .netconnWrite conn data]
    given.sessions = { session with offered := session.offered ++ [first.bytes] } :: rest ∧
      given.fragments = first :: more ∧ given.writing = some conn := by
  have len : (UInt16.ofNat first.bytes.length).toNat = first.bytes.length :=
    UInt16.toNat_ofNat_of_lt first.bounded
  simp only [List.foldl_cons, List.foldl_nil, EchoWorld.perform, fragments, sessions,
    onSession_head same, len, List.take_length]
  exact ⟨trivial, trivial, trivial⟩

/-- The first fragment of a buffer is given to a call; when there is no more data, the session
ends. -/
theorem Tends.recv {err : ErrT} {buf : Netbuf} {chain : List Fragment} {world : EchoWorld Netconn}
    (tends : system.Tends) (waits : system.task.pending = .netconnRecv)
    (taken : next.task = system.task.afterRecv err buf)
    (arrived : system.world.arrive chain (.netconnRecv err buf : TcpResult Netconn Netbuf) =
      some world)
    (performs : system.Performs next world) : next.Tends := by
  rw [Tends, waits] at tends
  obtain ⟨receiving, session, rest, serves, settled⟩ := tends
  rw [TcpEcho.afterRecv] at taken
  dsimp only at taken
  split at taken
  · rename_i accepted
    cases chain with
    | nil =>
      simp only [EchoWorld.arrive, if_pos accepted, receiving] at arrived
      cases arrived
    | cons first more =>
      simp only [EchoWorld.arrive, if_pos accepted, receiving] at arrived
      have arrived := Option.some.inj arrived
      let got : EchoSession Netconn :=
        { session with received := session.received ++ (first :: more).map Fragment.bytes }
      have sessions : world.sessions = got :: rest := by
        rw [← arrived, serves.sessions, onSession_head serves.conn]
      have current : world.fragments = first :: more := by rw [← arrived]
      obtain ⟨given, fragments, writing⟩ := perform_fragment buf buf sessions serves.conn current
      have world := performs
        [.received buf, .netbufData buf, .netconnWrite system.task.newconn buf] (by rw [taken])
      rw [Tends, taken]
      refine ⟨?_, { got with offered := got.offered ++ [first.bytes] }, rest, first, more,
        ⟨?_, ?_, serves.settled⟩, ?_, ?_, ?_⟩
      · rw [world]
        exact writing
      · rw [world]
        exact given
      · rw [taken]
        exact serves.conn
      · rw [world]
        exact fragments
      · show session.offered ++ [first.bytes] ++ _ = session.received ++ _
        rw [settled.calls, List.append_assoc]
        rfl
      · show session.answers.length + 1 = (session.offered ++ [first.bytes]).length
        rw [settled.answered, List.length_append]
        rfl
  · rename_i ended
    simp only [EchoWorld.arrive, if_neg ended] at arrived
    obtain rfl := Option.some.inj arrived
    have world := performs [.netconnClose system.task.newconn,
      .netconnDelete system.task.newconn, .netconnAccept system.task.conn] (by rw [taken])
    rw [Tends, taken, world]
    show ∀ session ∈ system.world.sessions, session.Settled
    rw [serves.sessions]
    exact List.forall_mem_cons.mpr ⟨settled, serves.settled⟩

/-- The call answers, and the task does not look at what it answers. -/
theorem Tends.write {err : ErrT} {chain : List Fragment} {world : EchoWorld Netconn}
    (tends : system.Tends) (waits : system.task.pending = .netconnWrite)
    (taken : next.task = system.task.afterWrite)
    (arrived : system.world.arrive chain (.netconnWrite err : TcpResult Netconn Netbuf) =
      some world)
    (performs : system.Performs next world) : next.Tends := by
  rw [Tends, waits] at tends
  obtain ⟨writing, session, rest, first, more, serves, fragments, missing, unanswered⟩ := tends
  rw [EchoWorld.arrive, writing] at arrived
  have arrived := Option.some.inj arrived
  have performed := performs [.netbufNext system.task.buf] (by rw [taken]; rfl)
  rw [Tends, taken]
  refine ⟨{ session with answers := session.answers ++ [err] }, rest, first, more,
    ⟨?_, ?_, serves.settled⟩, ?_, missing, ?_⟩
  · rw [performed, ← arrived]
    show EchoWorld.onSession _ _ system.world.sessions = _
    rw [serves.sessions, onSession_head serves.conn]
  · rw [taken]
    exact serves.conn
  · rw [performed, ← arrived]
    exact fragments
  · rw [List.length_append]
    exact unanswered

/-- The next fragment is given to a call; after the last one, all of the buffer has been. -/
theorem Tends.moved {result : Int} {chain : List Fragment} {world : EchoWorld Netconn}
    (tends : system.Tends) (waits : system.task.pending = .netbufNext)
    (taken : next.task = system.task.afterNext result)
    (arrived : system.world.arrive chain (.netbufNext result : TcpResult Netconn Netbuf) =
      some world)
    (performs : system.Performs next world) : next.Tends := by
  rw [Tends, waits] at tends
  obtain ⟨session, rest, first, more, serves, fragments, missing, counted⟩ := tends
  simp only [EchoWorld.arrive, fragments] at arrived
  split at arrived
  · rename_i answered
    have arrived := Option.some.inj arrived
    have sessions : world.sessions = session :: rest := by rw [← arrived, serves.sessions]
    cases more with
    | nil =>
      -- The last fragment: the buffer is deleted.
      have negative : ¬ result ≥ 0 := by
        rw [answered]
        exact (by decide : ¬ (-1 : Int) ≥ 0)
      rw [TcpEcho.afterNext, if_neg negative] at taken
      have performed := performs [.netbufDelete system.task.buf, .netconnRecv system.task.newconn]
        (by rw [taken])
      rw [Tends, taken]
      refine ⟨?_, session, rest, ⟨?_, ?_, serves.settled⟩, ?_, counted⟩
      · rw [performed]
        rfl
      · rw [performed]
        exact sessions
      · rw [taken]
        exact serves.conn
      · exact (List.append_nil _).symm.trans missing
    | cons second more =>
      have positive : result ≥ 0 := by
        rw [answered]
        cases more with
        | nil => exact (by decide : (1 : Int) ≥ 0)
        | cons third more => exact (by decide : (0 : Int) ≥ 0)
      have current : world.fragments = second :: more := by rw [← arrived, EchoWorld.advance]
      rw [TcpEcho.afterNext, if_pos positive] at taken
      obtain ⟨given, fragments, writing⟩ :=
        perform_fragment system.task.buf system.task.buf sessions serves.conn current
      have performed := performs [.netbufData system.task.buf,
        .netconnWrite system.task.newconn system.task.buf] (by rw [taken])
      rw [Tends, taken]
      refine ⟨?_, { session with offered := session.offered ++ [second.bytes] }, rest, second,
        more, ⟨?_, ?_, serves.settled⟩, ?_, ?_, ?_⟩
      · rw [performed]
        exact writing
      · rw [performed]
        exact given
      · rw [taken]
        exact serves.conn
      · rw [performed]
        exact fragments
      · show session.offered ++ [second.bytes] ++ _ = session.received
        rw [List.append_assoc]
        exact missing
      · rw [List.length_append]
        exact congrArg (· + 1) counted
  · cases arrived

/-- Every result keeps what has been given to the calls what has to be. -/
theorem Tends.step [DecidableEq Netbuf] {event : TcpResult Netconn Netbuf × List Fragment}
    (tends : system.Tends) (taken : system.step event = some next) : next.Tends := by
  obtain ⟨result, chain⟩ := event
  obtain ⟨world, stepped, arrived, performs⟩ := step_eq_some taken
  dsimp only at stepped arrived
  unfold TcpEcho.step at stepped
  split at stepped
  · rename_i waits
    cases arrived
    exact tends.new waits (Option.some.inj stepped).symm performs
  · rename_i waits
    cases arrived
    exact tends.bind waits (Option.some.inj stepped).symm performs
  · rename_i waits
    cases arrived
    split at stepped
    · cases stepped
    · exact tends.accept waits (Option.some.inj stepped).symm performs
  · rename_i waits
    exact tends.recv waits (Option.some.inj stepped).symm arrived performs
  · rename_i waits
    exact tends.write waits (Option.some.inj stepped).symm arrived performs
  · rename_i waits
    exact tends.moved waits (Option.some.inj stepped).symm arrived performs
  · cases stepped

/-- In every state of every run, the task has given to `netconn_write`, on each connection that it
has accepted, the fragments received on it, each to one call, in order, and none but these; the
only ones that may be missing are those of the buffer it is busy with. They have been written when
every call has succeeded, and only then. -/
theorem everyState_echoes [DecidableEq Netbuf] (conn newconn : Netconn) (buf data : Netbuf)
    (bytes : List UInt8) (len : UInt16) (events : List (TcpResult Netconn Netbuf × List Fragment)) :
    Runs.EveryState step Echoes (start conn newconn buf data bytes len) events := by
  have begun : (start conn newconn buf data bytes len).Tends := fun session member =>
    absurd member List.not_mem_nil
  exact Runs.everyState_of_step (fun _ tends => tends.echoes)
    (fun _ _ _ tends taken => tends.step taken) begun events

/-- A buffer of two fragments, given to two calls; the second one fails. -/
example :
    let first : Fragment := ⟨[1, 2], by decide⟩
    let second : Fragment := ⟨[3], by decide⟩
    (Runs.run step (start 0 0 0 0 [] 0) [(.netconnNew (some 1), []), (.netconnBind .errOk, []),
        (.netconnAccept .errOk 2, []), (.netconnRecv .errOk 5, [first, second]),
        (.netconnWrite .errOk, []), (.netbufNext 1, []), (.netconnWrite .errUse, []),
        (.netbufNext (-1), [])]).map (fun system => system.world.sessions.map fun session =>
          (session.offered, session.written)) =
      some [([[1, 2], [3]], [[1, 2]])] := by decide

end EchoSystem

end RtpLib
