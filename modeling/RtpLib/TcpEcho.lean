/-
This file models `tcp_echo_socket` and settles whether the task keeps the rules for
the handles of lwIP. What the task does is a trace of its calls and of the handles
that lwIP gives it. The rules are stated on such a trace by a ledger, which says for
every connection and every buffer what the task may still do with it.

Between two calls with a result the task runs straight on, so that a step is one
result together with the calls that follow it, up to the next call that waits. The
ledger is then known at every waiting call from the variables alone, with a single
exception: when the bind fails, the task deletes `newconn`, which it has not set yet,
and leaves `conn` behind.

The calls of lwIP are modelled by their documented effect. An address that lwIP gives
out is one that the task does not hold; the variables hold anything at the start.
-/

import Mathlib.Logic.Function.Basic
import RtpLib.EthDma
import RtpLib.Runs

namespace RtpLib

variable {Netconn Netbuf : Type}

/-! ### The rules for handles -/

/-- What the task does, and what it is given: the calls of the API, the return of the function, and
the connections and buffers that lwIP hands out. -/
inductive NetAction (Netconn Netbuf : Type)
  | netconnNew
  | netconnBind (conn : Netconn)
  | netconnListen (conn : Netconn)
  | netconnAccept (conn : Netconn)
  | netconnRecv (conn : Netconn)
  | netbufData (buf : Netbuf)
  | netconnWrite (conn : Netconn) (data : Netbuf)
  | netbufNext (buf : Netbuf)
  | netbufDelete (buf : Netbuf)
  | netconnClose (conn : Netconn)
  | netconnDelete (conn : Netconn)
  | leave
  | created (conn : Netconn)
  | accepted (conn : Netconn)
  | received (buf : Netbuf)

/-- What a connection is to the task. -/
inductive NetconnStatus
  | unheld
  | created
  | accepted
  | closed
  deriving DecidableEq

/-- The connections and the buffers that the task holds. -/
structure NetLedger (Netconn Netbuf : Type) where
  netconns : Netconn → NetconnStatus
  netbufs : Netbuf → Bool

namespace NetLedger

/-- The task holds nothing. -/
def empty : NetLedger Netconn Netbuf := ⟨fun _ => .unheld, fun _ => false⟩

/-- The connection has been handed out and not been deleted since. -/
def Held (ledger : NetLedger Netconn Netbuf) (conn : Netconn) : Prop :=
  ledger.netconns conn ≠ .unheld

/-- The rules: calls take connections and buffers that are held; an accepted connection is closed
once and then deleted before the next `netconn_accept`, a buffer is deleted before the next
`netconn_recv`, and nothing is held when the function returns. -/
def Allows (ledger : NetLedger Netconn Netbuf) : NetAction Netconn Netbuf → Prop
  | .netconnNew => True
  | .netconnBind conn => ledger.Held conn
  | .netconnListen conn => ledger.Held conn
  | .netconnAccept conn => ledger.Held conn ∧
      ∀ other, ledger.netconns other = .unheld ∨ ledger.netconns other = .created
  | .netconnRecv conn => ledger.Held conn ∧ ∀ buf, ledger.netbufs buf = false
  | .netbufData buf => ledger.netbufs buf = true
  | .netconnWrite conn data => ledger.Held conn ∧ ledger.netbufs data = true
  | .netbufNext buf => ledger.netbufs buf = true
  | .netbufDelete buf => ledger.netbufs buf = true
  | .netconnClose conn => ledger.netconns conn = .accepted
  | .netconnDelete conn => ledger.netconns conn = .created ∨ ledger.netconns conn = .closed
  | .leave => ledger = .empty
  | .created _ => True
  | .accepted _ => True
  | .received _ => True

variable [DecidableEq Netconn] [DecidableEq Netbuf]

/-- The ledger after an action. -/
def record (ledger : NetLedger Netconn Netbuf) :
    NetAction Netconn Netbuf → NetLedger Netconn Netbuf
  | .created conn => { ledger with netconns := Function.update ledger.netconns conn .created }
  | .accepted conn => { ledger with netconns := Function.update ledger.netconns conn .accepted }
  | .netconnClose conn => { ledger with netconns := Function.update ledger.netconns conn .closed }
  | .netconnDelete conn => { ledger with netconns := Function.update ledger.netconns conn .unheld }
  | .received buf => { ledger with netbufs := Function.update ledger.netbufs buf true }
  | .netbufDelete buf => { ledger with netbufs := Function.update ledger.netbufs buf false }
  | _ => ledger

/-- The ledger after a trace, oldest action first. -/
def recordAll (ledger : NetLedger Netconn Netbuf) (actions : List (NetAction Netconn Netbuf)) :
    NetLedger Netconn Netbuf :=
  actions.foldl record ledger

/-- Every action of a trace is allowed when it is taken. -/
def AllowsAll : NetLedger Netconn Netbuf → List (NetAction Netconn Netbuf) → Prop
  | _, [] => True
  | ledger, action :: rest => ledger.Allows action ∧ (ledger.record action).AllowsAll rest

theorem recordAll_append (ledger : NetLedger Netconn Netbuf)
    (first second : List (NetAction Netconn Netbuf)) :
    ledger.recordAll (first ++ second) = (ledger.recordAll first).recordAll second :=
  List.foldl_append

theorem allowsAll_append (ledger : NetLedger Netconn Netbuf)
    (first second : List (NetAction Netconn Netbuf)) :
    ledger.AllowsAll (first ++ second) ↔
      ledger.AllowsAll first ∧ (ledger.recordAll first).AllowsAll second := by
  induction first generalizing ledger with
  | nil => exact (and_iff_right trivial).symm
  | cons action rest inductionHypothesis =>
    rw [List.cons_append, AllowsAll, AllowsAll, inductionHypothesis, and_assoc]
    rfl

end NetLedger

/-! ### The task -/

/-- The calls that the task waits in for their results, and the end of the function. -/
inductive TcpPending
  | netconnNew
  | netconnBind
  | netconnAccept
  | netconnRecv
  | netconnWrite
  | netbufNext
  | returned
  deriving DecidableEq

/-- The results of these calls: `netconn_new` answers with a connection or a null pointer, and
`netconn_accept` and `netconn_recv` set their variables whether they succeed or not. -/
inductive TcpResult (Netconn Netbuf : Type)
  | netconnNew (conn : Option Netconn)
  | netconnBind (err : ErrT)
  | netconnAccept (err : ErrT) (newconn : Netconn)
  | netconnRecv (err : ErrT) (buf : Netbuf)
  | netconnWrite (err : ErrT)
  | netbufNext (result : Int)

/-- `tcp_echo_socket`: where it waits, its variables, and what it has done, oldest first. `data`
is the buffer that the pointer of this name points into. -/
structure TcpEcho (Netconn Netbuf : Type) where
  pending : TcpPending
  conn : Netconn
  newconn : Netconn
  buf : Netbuf
  data : Netbuf
  actions : List (NetAction Netconn Netbuf)

namespace TcpEcho

/-- The task in its first call, with anything in its variables. -/
def start (conn newconn : Netconn) (buf data : Netbuf) : TcpEcho Netconn Netbuf :=
  ⟨.netconnNew, conn, newconn, buf, data, [.netconnNew]⟩

variable [DecidableEq Netconn] [DecidableEq Netbuf]

/-- What the task holds, by its trace. -/
def ledger (task : TcpEcho Netconn Netbuf) : NetLedger Netconn Netbuf :=
  NetLedger.empty.recordAll task.actions

/-- After `netconn_new`. -/
def afterNew (task : TcpEcho Netconn Netbuf) : Option Netconn → TcpEcho Netconn Netbuf
  | none => { task with pending := .returned, actions := task.actions ++ [.leave] }
  | some conn =>
    { task with
      pending := .netconnBind
      conn := conn
      actions := task.actions ++ [.created conn, .netconnBind conn] }

/-- After `netconn_bind`. -/
def afterBind (task : TcpEcho Netconn Netbuf) (err : ErrT) : TcpEcho Netconn Netbuf :=
  if err = .errOk then
    { task with
      pending := .netconnAccept
      actions := task.actions ++ [.netconnListen task.conn, .netconnAccept task.conn] }
  else
    { task with
      pending := .returned
      actions := task.actions ++ [.netconnDelete task.newconn, .leave] }

/-- After `netconn_accept`, which has set `newconn`. -/
def afterAccept (task : TcpEcho Netconn Netbuf) (err : ErrT) (newconn : Netconn) :
    TcpEcho Netconn Netbuf :=
  let task := { task with newconn := newconn }
  if err = .errOk then
    { task with
      pending := .netconnRecv
      actions := task.actions ++ [.accepted task.newconn, .netconnRecv task.newconn] }
  else { task with actions := task.actions ++ [.netconnAccept task.conn] }

/-- After `netconn_recv`, which has set `buf`. -/
def afterRecv (task : TcpEcho Netconn Netbuf) (err : ErrT) (buf : Netbuf) :
    TcpEcho Netconn Netbuf :=
  let task := { task with buf := buf }
  if err = .errOk then
    let task := { task with data := task.buf }
    { task with
      pending := .netconnWrite
      actions := task.actions ++
        [.received task.buf, .netbufData task.buf, .netconnWrite task.newconn task.data] }
  else
    { task with
      pending := .netconnAccept
      actions := task.actions ++
        [.netconnClose task.newconn, .netconnDelete task.newconn, .netconnAccept task.conn] }

/-- After `netconn_write`, whose result is ignored. -/
def afterWrite (task : TcpEcho Netconn Netbuf) : TcpEcho Netconn Netbuf :=
  { task with pending := .netbufNext, actions := task.actions ++ [.netbufNext task.buf] }

/-- After `netbuf_next`. -/
def afterNext (task : TcpEcho Netconn Netbuf) (result : Int) : TcpEcho Netconn Netbuf :=
  if result ≥ 0 then
    let task := { task with data := task.buf }
    { task with
      pending := .netconnWrite
      actions := task.actions ++ [.netbufData task.buf, .netconnWrite task.newconn task.data] }
  else
    { task with
      pending := .netconnRecv
      actions := task.actions ++ [.netbufDelete task.buf, .netconnRecv task.newconn] }

/-- A result, and the calls of `tcp_echo_socket` up to the next one with a result. A connection
that `netconn_accept` hands out is none that the task holds. -/
def step (task : TcpEcho Netconn Netbuf) (result : TcpResult Netconn Netbuf) :
    Option (TcpEcho Netconn Netbuf) :=
  match task.pending, result with
  | .netconnNew, .netconnNew conn => some (task.afterNew conn)
  | .netconnBind, .netconnBind err => some (task.afterBind err)
  | .netconnAccept, .netconnAccept err newconn =>
    if err = .errOk ∧ task.ledger.netconns newconn ≠ .unheld then none
    else some (task.afterAccept err newconn)
  | .netconnRecv, .netconnRecv err buf => some (task.afterRecv err buf)
  | .netconnWrite, .netconnWrite _ => some task.afterWrite
  | .netbufNext, .netbufNext result => some (task.afterNext result)
  | _, _ => none

/-- The rules have been kept so far. -/
def Lawful (task : TcpEcho Netconn Netbuf) : Prop := NetLedger.empty.AllowsAll task.actions

/-- More actions that are allowed keep the rules, and are added to the ledger. -/
theorem Lawful.append {task next : TcpEcho Netconn Netbuf}
    {actions : List (NetAction Netconn Netbuf)} (lawful : task.Lawful)
    (appended : next.actions = task.actions ++ actions)
    (allowed : task.ledger.AllowsAll actions) :
    next.Lawful ∧ next.ledger = task.ledger.recordAll actions := by
  rw [Lawful, ledger, appended, NetLedger.allowsAll_append, NetLedger.recordAll_append]
  exact ⟨⟨lawful, allowed⟩, rfl⟩

end TcpEcho

/-! ### What the task holds -/

namespace NetLedger

variable [DecidableEq Netconn] [DecidableEq Netbuf] {conn newconn : Netconn} {buf : Netbuf}

/-- The task holds the connection that it has made. -/
def listening (conn : Netconn) : NetLedger Netconn Netbuf := empty.record (.created conn)

/-- It also holds a connection that it has accepted. -/
def serving (conn newconn : Netconn) : NetLedger Netconn Netbuf :=
  (listening conn).record (.accepted newconn)

/-- It also holds a buffer that it has received. -/
def echoing (conn newconn : Netconn) (buf : Netbuf) : NetLedger Netconn Netbuf :=
  (serving conn newconn).record (.received buf)

theorem listening_self : (listening conn : NetLedger Netconn Netbuf).netconns conn = .created :=
  Function.update_self _ _ _

theorem listening_other (apart : newconn ≠ conn) :
    (listening conn : NetLedger Netconn Netbuf).netconns newconn = .unheld :=
  Function.update_of_ne apart _ _

theorem serving_self :
    (serving conn newconn : NetLedger Netconn Netbuf).netconns newconn = .accepted :=
  Function.update_self _ _ _

theorem echoing_self : (echoing conn newconn buf).netbufs buf = true :=
  Function.update_self _ _ _

theorem held_listening : (listening conn : NetLedger Netconn Netbuf).Held conn := by
  rw [Held, listening_self]
  exact NetconnStatus.noConfusion

theorem held_serving : (serving conn newconn : NetLedger Netconn Netbuf).Held newconn := by
  rw [Held, serving_self]
  exact NetconnStatus.noConfusion

/-- While no connection is accepted, the next one can be waited for. -/
theorem listening_allows_accept :
    (listening conn : NetLedger Netconn Netbuf).Allows (.netconnAccept conn) := by
  refine ⟨held_listening, fun other => ?_⟩
  by_cases same : other = conn
  · rw [same]
    exact .inr listening_self
  · exact .inl (listening_other same)

/-- While no buffer is held, the next one can be waited for. -/
theorem serving_allows_recv :
    (serving conn newconn : NetLedger Netconn Netbuf).Allows (.netconnRecv newconn) :=
  ⟨held_serving, fun _ => rfl⟩

/-- The fragment of a buffer that is held can be written. -/
theorem echoing_allows_fragment :
    (echoing conn newconn buf).AllowsAll [.netbufData buf, .netconnWrite newconn buf] :=
  ⟨echoing_self, ⟨held_serving, echoing_self⟩, trivial⟩

theorem listening_delete :
    (listening conn : NetLedger Netconn Netbuf).record (.netconnDelete conn) = empty :=
  congrArg (NetLedger.mk · _) ((Function.update_idem _ _ _).trans (Function.update_eq_self _ _))

/-- A connection that has been closed and deleted leaves the ledger as it was before. -/
theorem serving_close_delete (apart : newconn ≠ conn) :
    ((serving conn newconn : NetLedger Netconn Netbuf).record (.netconnClose newconn)).record
      (.netconnDelete newconn) = listening conn := by
  refine congrArg (NetLedger.mk · _) ?_
  show Function.update (Function.update (Function.update _ newconn _) newconn _) newconn _ = _
  rw [Function.update_idem, Function.update_idem]
  exact Function.update_eq_self_iff.mpr (listening_other apart).symm

/-- So does a buffer that has been deleted. -/
theorem echoing_delete :
    (echoing conn newconn buf).record (.netbufDelete buf) = serving conn newconn :=
  congrArg (NetLedger.mk _) ((Function.update_idem _ _ _).trans (Function.update_eq_self _ _))

end NetLedger

/-! ### Every run -/

namespace TcpEcho

variable [DecidableEq Netconn] [DecidableEq Netbuf] {task next : TcpEcho Netconn Netbuf}

/-- What the task holds where it waits, by its variables. -/
def Holds (task : TcpEcho Netconn Netbuf) : Prop :=
  match task.pending with
  | .netconnNew => task.ledger = .empty
  | .netconnBind => task.ledger = .listening task.conn
  | .netconnAccept => task.ledger = .listening task.conn
  | .netconnRecv => task.newconn ≠ task.conn ∧ task.ledger = .serving task.conn task.newconn
  | .netconnWrite =>
    task.newconn ≠ task.conn ∧ task.ledger = .echoing task.conn task.newconn task.buf
  | .netbufNext =>
    task.newconn ≠ task.conn ∧ task.ledger = .echoing task.conn task.newconn task.buf
  | .returned => task.ledger = .empty

/-- The rules have been kept, and the task holds what its variables say. -/
structure Consistent (task : TcpEcho Netconn Netbuf) : Prop where
  lawful : task.Lawful
  holds : task.Holds

/-- The result is not a failure of the bind, or the variable that is deleted then is the one that
has been bound. -/
def BindSafe (task : TcpEcho Netconn Netbuf) : TcpResult Netconn Netbuf → Prop
  | .netconnBind err => err = .errOk ∨ task.newconn = task.conn
  | _ => True

theorem consistent_start (conn newconn : Netconn) (buf data : Netbuf) :
    (start conn newconn buf data).Consistent := ⟨⟨trivial, trivial⟩, rfl⟩

/-- Allowed actions that leave in the ledger what the variables say. -/
theorem Consistent.append {actions : List (NetAction Netconn Netbuf)}
    (consistent : task.Consistent) (appended : next.actions = task.actions ++ actions)
    (allowed : task.ledger.AllowsAll actions)
    (holds : next.ledger = task.ledger.recordAll actions → next.Holds) : next.Consistent := by
  obtain ⟨lawful, ledger⟩ := consistent.lawful.append appended allowed
  exact ⟨lawful, holds ledger⟩

theorem Consistent.afterNew (consistent : task.Consistent) (waits : task.pending = .netconnNew)
    (conn : Option Netconn) : (task.afterNew conn).Consistent := by
  have ledger := consistent.holds
  rw [Holds, waits] at ledger
  cases conn with
  | none => exact consistent.append rfl ⟨ledger, trivial⟩ fun kept => kept.trans ledger
  | some conn =>
    refine consistent.append rfl ⟨trivial, ?_, trivial⟩ fun kept => ?_
    · rw [ledger]
      exact NetLedger.held_listening
    · rw [ledger] at kept
      exact kept

theorem Consistent.afterBind (consistent : task.Consistent) (waits : task.pending = .netconnBind)
    {err : ErrT} (safe : err = .errOk ∨ task.newconn = task.conn) :
    (task.afterBind err).Consistent := by
  have ledger := consistent.holds
  rw [Holds, waits] at ledger
  rw [TcpEcho.afterBind]
  split
  · refine consistent.append rfl ?_ fun kept => kept.trans ledger
    rw [ledger]
    exact ⟨NetLedger.held_listening, NetLedger.listening_allows_accept, trivial⟩
  · rename_i failed
    have same : task.newconn = task.conn := safe.resolve_left failed
    have deleted : task.ledger.record (.netconnDelete task.newconn) = .empty := by
      rw [ledger, same]
      exact NetLedger.listening_delete
    refine consistent.append rfl ⟨?_, deleted, trivial⟩ fun kept => kept.trans deleted
    rw [ledger, same]
    exact .inl NetLedger.listening_self

theorem Consistent.afterAccept (consistent : task.Consistent)
    (waits : task.pending = .netconnAccept) {err : ErrT} {newconn : Netconn}
    (fresh : err = .errOk → task.ledger.netconns newconn = .unheld) :
    (task.afterAccept err newconn).Consistent := by
  have ledger := consistent.holds
  rw [Holds, waits] at ledger
  rw [TcpEcho.afterAccept]
  split
  · rename_i accepted
    have apart : newconn ≠ task.conn := by
      intro same
      have unheld := fresh accepted
      rw [ledger, same, NetLedger.listening_self] at unheld
      cases unheld
    refine consistent.append rfl ?_ fun kept => ⟨apart, ?_⟩
    · rw [ledger]
      exact ⟨trivial, NetLedger.serving_allows_recv, trivial⟩
    · rw [ledger] at kept
      exact kept
  · refine consistent.append rfl ?_ fun kept => ?_
    · rw [ledger]
      exact ⟨NetLedger.listening_allows_accept, trivial⟩
    · rw [Holds, waits]
      exact kept.trans ledger

theorem Consistent.afterRecv (consistent : task.Consistent) (waits : task.pending = .netconnRecv)
    (err : ErrT) (buf : Netbuf) : (task.afterRecv err buf).Consistent := by
  have holds := consistent.holds
  rw [Holds, waits] at holds
  obtain ⟨apart, ledger⟩ := holds
  rw [TcpEcho.afterRecv]
  split
  · refine consistent.append rfl ?_ fun kept => ⟨apart, ?_⟩
    · rw [ledger]
      exact ⟨trivial, NetLedger.echoing_allows_fragment⟩
    · rw [ledger] at kept
      exact kept
  · have deleted : (task.ledger.record (.netconnClose task.newconn)).record
        (.netconnDelete task.newconn) = .listening task.conn := by
      rw [ledger]
      exact NetLedger.serving_close_delete apart
    refine consistent.append rfl ⟨?_, .inr (Function.update_self _ _ _), ?_, trivial⟩
      fun kept => kept.trans deleted
    · rw [ledger]
      exact NetLedger.serving_self
    · rw [deleted]
      exact NetLedger.listening_allows_accept

theorem Consistent.afterWrite (consistent : task.Consistent)
    (waits : task.pending = .netconnWrite) : task.afterWrite.Consistent := by
  have holds := consistent.holds
  rw [Holds, waits] at holds
  obtain ⟨apart, ledger⟩ := holds
  refine consistent.append rfl ⟨?_, trivial⟩ fun kept => ⟨apart, kept.trans ledger⟩
  rw [ledger]
  exact NetLedger.echoing_self

theorem Consistent.afterNext (consistent : task.Consistent) (waits : task.pending = .netbufNext)
    (result : Int) : (task.afterNext result).Consistent := by
  have holds := consistent.holds
  rw [Holds, waits] at holds
  obtain ⟨apart, ledger⟩ := holds
  rw [TcpEcho.afterNext]
  split
  · refine consistent.append rfl ?_ fun kept => ⟨apart, kept.trans ledger⟩
    rw [ledger]
    exact NetLedger.echoing_allows_fragment
  · have deleted : task.ledger.record (.netbufDelete task.buf) =
        .serving task.conn task.newconn := by
      rw [ledger]
      exact NetLedger.echoing_delete
    refine consistent.append rfl ⟨?_, ?_, trivial⟩ fun kept => ⟨apart, kept.trans deleted⟩
    · rw [ledger]
      exact NetLedger.echoing_self
    · rw [deleted]
      exact NetLedger.serving_allows_recv

/-- Every result keeps what the task holds in agreement with its variables, except a failure of
the bind. -/
theorem Consistent.step {result : TcpResult Netconn Netbuf} (consistent : task.Consistent)
    (safe : task.BindSafe result) (taken : task.step result = some next) : next.Consistent := by
  unfold TcpEcho.step at taken
  split at taken
  · rename_i waits
    exact Option.some.inj taken ▸ consistent.afterNew waits _
  · rename_i waits
    exact Option.some.inj taken ▸ consistent.afterBind waits safe
  · rename_i waits
    split at taken
    · cases taken
    · rename_i possible
      refine Option.some.inj taken ▸ consistent.afterAccept waits fun accepted => ?_
      exact not_not.mp fun held => possible ⟨accepted, held⟩
  · rename_i waits
    exact Option.some.inj taken ▸ consistent.afterRecv waits _ _
  · rename_i waits
    exact Option.some.inj taken ▸ consistent.afterWrite waits
  · rename_i waits
    exact Option.some.inj taken ▸ consistent.afterNext waits _
  · cases taken

/-- After a failure of the bind the task deletes a connection that it does not hold. -/
theorem Consistent.not_lawful_afterBind (consistent : task.Consistent)
    (waits : task.pending = .netconnBind) {err : ErrT}
    (failed : ¬ (err = .errOk ∨ task.newconn = task.conn)) : ¬ (task.afterBind err).Lawful := by
  have ledger := consistent.holds
  rw [Holds, waits] at ledger
  obtain ⟨failed, apart⟩ := not_or.mp failed
  have unheld : task.ledger.netconns task.newconn = .unheld := by
    rw [ledger]
    exact NetLedger.listening_other apart
  rw [TcpEcho.afterBind, if_neg failed, Lawful, NetLedger.allowsAll_append]
  rintro ⟨_, created | closed, _⟩
  · cases unheld.symm.trans created
  · cases unheld.symm.trans closed

/-- A result that is not safe is such a failure. -/
theorem Consistent.not_lawful {result : TcpResult Netconn Netbuf} (consistent : task.Consistent)
    (failed : ¬ task.BindSafe result) (taken : task.step result = some next) :
    ¬ next.Lawful := by
  unfold TcpEcho.step at taken
  split at taken
  case h_2 waits => exact Option.some.inj taken ▸ consistent.not_lawful_afterBind waits failed
  case h_7 => cases taken
  all_goals exact absurd trivial failed

/-- Whatever the variables hold at the start and whatever the calls answer, the task keeps the
rules in every state of a run exactly when in none of its steps a bind fails, unless `newconn` has
happened to hold the address of the connection that is then deleted. -/
theorem lawful_everyState_iff (conn newconn : Netconn) (buf data : Netbuf)
    (results : List (TcpResult Netconn Netbuf)) :
    Runs.EveryState step Lawful (start conn newconn buf data) results ↔
      Runs.EveryStep step BindSafe (start conn newconn buf data) results :=
  Runs.everyState_iff_everyStep (fun _ => Consistent.lawful)
    (fun _ _ _ consistent safe taken => consistent.step safe taken)
    (fun _ _ _ consistent failed taken => consistent.not_lawful failed taken) results
    (consistent_start conn newconn buf data)

/-- The address is in use: the connection 1 is left behind, and what the variable holds is
deleted. -/
theorem not_lawful_everyState :
    ¬ ∀ (conn newconn buf data : Nat) (results : List (TcpResult Nat Nat)),
      Runs.EveryState step Lawful (start conn newconn buf data) results := by
  intro claimed
  have lawful := claimed 0 0 0 0 [.netconnNew (some 1), .netconnBind .errUse]
  have allowed : (NetLedger.empty : NetLedger Nat Nat).AllowsAll
      [.netconnNew, .created 1, .netconnBind 1, .netconnDelete 0, .leave] :=
    (lawful.2 _ rfl).2 _ rfl
  obtain ⟨_, _, _, created | closed, _⟩ := allowed
  · exact absurd created (by decide)
  · exact absurd closed (by decide)

end TcpEcho

end RtpLib
