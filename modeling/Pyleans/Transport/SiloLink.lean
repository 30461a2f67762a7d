import Pyleans.Library.Pool
import Pyleans.Transport.Backoff
import Pyleans.Transport.ConnectionManager
import Pyleans.Transport.SiloConnection

namespace Pyleans

open Library

/-- How an attempt to connect fails. A `torn` handshake does not come to its
end, a `rejected` one does and is found wanting. -/
inductive ConnectError
  | connection
  | torn
  | rejected
  | stopped
  | other
deriving DecidableEq

/-- How a task ends. -/
inductive LinkEnd
  | connected (conn : ℕ)
  | returned
  | raised (error : ConnectError)
  | cancelled
deriving DecidableEq

/-- Who calls `connect`. -/
inductive Caller
  | user
  | eager
  | loop (attempt : ℕ)
deriving DecidableEq

/-- Who installs a connection. -/
inductive Installer
  | dial
  | accept
deriving DecidableEq

/-- Where a task waits. -/
inductive LinkPhase
  | connecting (caller : Caller)
  | reconnecting
  | sleeping (attempt : ℕ)
  | awaiting (caller : Caller) (task : ℕ) (owner : Bool)
  | handshaking (who : Installer)
  | refusing (who : Installer) (error : ConnectError)
  | dropping (who : Installer) (existing : ℕ)
  | awaitingMonitor (who : Installer) (existing monitor : ℕ)
  | closingExisting (who : Installer) (existing : ℕ)
  | firingEstablished (who : Installer) (conn : ℕ)
  | monitoring (conn : ℕ)
  | firingLost (reason : CloseReason)
  | removing
  | adding
  | cancellingReconnect (task : ℕ)
  | disconnecting (conn : ℕ)
  | cancellingMonitor (task : ℕ)
  | stopping (tasks : List ℕ)
  | closingAll (conn : Option ℕ) (expired : Bool)
  | forcing (conn : ℕ)
  | finished (result : LinkEnd)
deriving DecidableEq

/-- What a connection manager holds for one remote silo: its entries of the
tables, every connection it ever made to it, and the tasks at work on them.
`thrown` are the tasks that resume with `CancelledError`, `asked` those whose
`cancel` was called; `rejected` says whether a complete handshake was, and
`stopReturned` whether a `stop` has returned. -/
structure SiloLink where
  localSilo : SiloAddress
  remote : SiloAddress
  options : ConnectionOptions
  connection : Option ℕ
  initiator : Option SiloAddress
  pendingConnect : Option ℕ
  reconnectTask : Option ℕ
  monitorTask : Option ℕ
  active : Bool
  stopped : Bool
  rejected : Bool
  stopReturned : Bool
  conns : List SiloConnection
  tasks : List LinkPhase
  thrown : List ℕ
  asked : List ℕ

/-- What may happen next: calls from outside, what the network and the clock do
to a task or a connection, and a task that resumes. -/
inductive LinkEvent
  | connect
  | acceptInbound
  | disconnect
  | updateActiveSilos (included : Bool)
  | stop
  | cancel (task : ℕ)
  | connection (conn : ℕ) (e : ConnectionEvent)
  | openFailed (task : ℕ)
  | handshakeFailed (task : ℕ) (error : ConnectError)
  | unexpected (task : ℕ)
  | timeout (task : ℕ)
  | resume (task : ℕ)

def LinkPhase.isFinished : LinkPhase → Bool
  | .finished _ => true
  | _ => false

def LinkPhase.waitsFor : LinkPhase → List ℕ
  | .awaiting _ task _ | .awaitingMonitor _ _ task | .cancellingReconnect task
    | .cancellingMonitor task => [task]
  | .stopping tasks => tasks
  | _ => []

/-- A wait that suppresses `CancelledError`. -/
def LinkPhase.suppresses : LinkPhase → Bool
  | .awaitingMonitor _ _ _ | .cancellingReconnect _ | .cancellingMonitor _ | .stopping _ => true
  | _ => false

/-- A task that only the manager can cancel. -/
def LinkPhase.isInner : LinkPhase → Bool
  | .connecting .eager | .reconnecting | .sleeping _ | .awaiting .eager _ _
  | .awaiting (.loop _) _ _ => true
  | .handshaking .dial | .refusing .dial _ | .dropping .dial _ | .awaitingMonitor .dial _ _
  | .closingExisting .dial _ | .firingEstablished .dial _ => true
  | .monitoring _ | .firingLost _ => true
  | _ => false

/-- A wait of `close` that `CancelledError` ends; the others suppress it. -/
def CloseStage.isInterruptible : CloseStage → Bool
  | .drain | .writer _ => true
  | .background _ | .readTask _ | .handlers _ => false

/-- What only the manager does to a connection. -/
def ConnectionEvent.isManagers : ConnectionEvent → Bool
  | .start | .close .normal | .closeCancelled => true
  | _ => false

namespace SiloLink

def new (localSilo remote : SiloAddress) (options : ConnectionOptions) : SiloLink where
  localSilo := localSilo
  remote := remote
  options := options
  connection := none
  initiator := none
  pendingConnect := none
  reconnectTask := none
  monitorTask := none
  active := false
  stopped := false
  rejected := false
  stopReturned := false
  conns := []
  tasks := []
  thrown := []
  asked := []

def isDone (s : SiloLink) (task : ℕ) : Bool := (s.tasks[task]?).all LinkPhase.isFinished

def unfinished (s : SiloLink) (task : Option ℕ) : Option ℕ := task.filter fun t ↦ !s.isDone t

def isClosed (s : SiloLink) (conn : ℕ) : Bool := (s.conns[conn]?).any fun c ↦ c.state = .closed

def isClosing (s : SiloLink) (conn : ℕ) : Bool :=
  (s.conns[conn]?).any fun c ↦ c.state = .closing ∨ c.state = .closed

def isInterruptible (s : SiloLink) (conn : ℕ) : Bool :=
  ((s.conns[conn]?).bind SiloConnection.stage).any CloseStage.isInterruptible

def getConnection (s : SiloLink) : Option ℕ := s.connection.filter fun conn ↦ !s.isClosed conn

def goto (s : SiloLink) (task : ℕ) (phase : LinkPhase) : SiloLink :=
  { s with tasks := s.tasks.set task phase }

def spawn (s : SiloLink) (phase : LinkPhase) : SiloLink := { s with tasks := s.tasks ++ [phase] }

def move (s : SiloLink) (conn : ℕ) (e : ConnectionEvent) : SiloLink :=
  match (s.conns[conn]?).bind fun c ↦ c.step e with
  | some c => { s with conns := s.conns.set conn c }
  | none => s

/-- `Task.cancel`, which goes on to the task that is awaited. The bound is never reached. -/
def cancelTask : ℕ → SiloLink → ℕ → SiloLink
  | 0, s, _ => s
  | bound + 1, s, task =>
    if s.isDone task then s
    else
      let s := { s with asked := task :: s.asked }
      match s.tasks[task]? with
      | none => s
      | some phase =>
        match phase.waitsFor.find? fun t ↦ !s.isDone t with
        | some awaited => cancelTask bound s awaited
        | none => if phase.suppresses then s else { s with thrown := task :: s.thrown }

def cancel (s : SiloLink) (task : ℕ) : SiloLink := cancelTask (s.tasks.length + 1) s task

def initiatorOf (s : SiloLink) : Installer → SiloAddress
  | .dial => s.localSilo
  | .accept => s.remote

def scheduleReconnect (s : SiloLink) : SiloLink :=
  match s.unfinished s.reconnectTask with
  | some _ => s
  | none => { s with reconnectTask := some s.tasks.length }.spawn .reconnecting

/-- The end of the reconnect loop with its `finally`. -/
def endLoop (s : SiloLink) (task : ℕ) (result : LinkEnd) : SiloLink :=
  { s with reconnectTask := if s.reconnectTask = some task then none else s.reconnectTask }.goto
    task (.finished result)

/-- The head of the reconnect loop, which raises when the power of two is no float. -/
def reconnectLoop (s : SiloLink) (task attempt : ℕ) : SiloLink :=
  if s.active ∧ ¬ s.stopped then
    if attempt < Backoff.MAX_EXPONENT then s.goto task (.sleeping attempt)
    else s.endLoop task (.raised .other)
  else s.endLoop task .returned

def connected (s : SiloLink) (task : ℕ) (result : LinkEnd) : Caller → SiloLink
  | .user => s.goto task (.finished result)
  | .eager =>
    match result with
    | .raised .other => s.goto task (.finished result)
    | .raised _ =>
      (if s.active ∧ ¬ s.stopped then s.scheduleReconnect else s).goto task (.finished .returned)
    | .cancelled => s.goto task (.finished .cancelled)
    | _ => s.goto task (.finished .returned)
  | .loop attempt =>
    match result with
    | .raised .connection | .raised .stopped => s.reconnectLoop task (attempt + 1)
    | .raised .other => s.endLoop task result
    | .cancelled => s.endLoop task .cancelled
    | _ => s.endLoop task .returned

def connect (s : SiloLink) (task : ℕ) (caller : Caller) : SiloLink :=
  if s.stopped then s.connected task (.raised .stopped) caller
  else
    match s.getConnection with
    | some existing => s.connected task (.connected existing) caller
    | none =>
      match s.pendingConnect with
      | some pending => s.goto task (.awaiting caller pending false)
      | none =>
        ({ s with pendingConnect := some s.tasks.length }.spawn (.handshaking .dial)).goto task
          (.awaiting caller s.tasks.length true)

def awaited (s : SiloLink) (task : ℕ) (caller : Caller) (pending : ℕ) (owner : Bool)
    (result : LinkEnd) : SiloLink :=
  { s with
    pendingConnect :=
      if owner ∧ s.pendingConnect = some pending then none else s.pendingConnect }.connected
    task result caller

/-- From the duplicate check on. -/
def register (s : SiloLink) (task : ℕ) (who : Installer) : SiloLink :=
  let conn := s.conns.length
  ({ s with
    connection := some conn
    initiator := some (s.initiatorOf who)
    monitorTask := some s.tasks.length
    conns := s.conns ++ [{ SiloConnection.new s.options with state := .running }] }.spawn
      (.monitoring conn)).goto task
      (.firingEstablished who conn)

def closeExisting (s : SiloLink) (task : ℕ) (who : Installer) (existing : ℕ) : SiloLink :=
  if s.isClosing existing then s.register task who
  else (s.move existing (.close .normal)).goto task (.closingExisting who existing)

def installConnection (s : SiloLink) (task : ℕ) (who : Installer) : SiloLink :=
  match s.getConnection with
  | none => s.register task who
  | some existing =>
    if dedupKeepsExisting (s.initiator.getD s.remote) (s.initiatorOf who) then
      s.goto task (.dropping who existing)
    else
      let popped := { s with connection := none, initiator := none, monitorTask := none }
      match s.unfinished s.monitorTask with
      | some monitor => (popped.cancel monitor).goto task (.awaitingMonitor who existing monitor)
      | none => popped.closeExisting task who existing

/-- The last part of `disconnect`. -/
def dropMonitor (s : SiloLink) (task : ℕ) : SiloLink :=
  let popped := { s with monitorTask := none }
  match s.unfinished s.monitorTask with
  | some monitor => (popped.cancel monitor).goto task (.cancellingMonitor monitor)
  | none => popped.goto task (.finished .returned)

/-- `disconnect` from where it discards the silo. -/
def discard (s : SiloLink) (task : ℕ) : SiloLink :=
  match s.connection with
  | none => { s with active := false }.dropMonitor task
  | some conn =>
    let popped := { s with active := false, connection := none, initiator := none }
    if s.isClosing conn then popped.dropMonitor task
    else (popped.move conn (.close .normal)).goto task (.disconnecting conn)

def disconnect (s : SiloLink) (task : ℕ) : SiloLink :=
  let popped := { s with reconnectTask := none }
  match s.unfinished s.reconnectTask with
  | some loop => (popped.cancel loop).goto task (.cancellingReconnect loop)
  | none => popped.discard task

def updateActiveSilos (s : SiloLink) (included : Bool) : SiloLink :=
  { s with active := included }.spawn
    (if s.active && !included then .removing
    else if !s.active && included then .adding
    else .finished .returned)

def backgroundTasks (s : SiloLink) : List ℕ :=
  s.reconnectTask.toList ++ s.monitorTask.toList ++ s.pendingConnect.toList

def stop (s : SiloLink) : SiloLink :=
  if s.stopped then { s with stopReturned := true }.spawn (.finished .returned)
  else (s.backgroundTasks.foldl cancel { s with stopped := true, active := false }).spawn
    (.stopping s.backgroundTasks)

/-- `stop` when the tasks have ended. -/
def closeAll (s : SiloLink) (task : ℕ) : SiloLink :=
  let cleared := { s with reconnectTask := none, monitorTask := none, pendingConnect := none }
  match s.connection.filter fun conn ↦ !s.isClosing conn with
  | some conn => (cleared.move conn (.close .normal)).goto task (.closingAll (some conn) false)
  | none => cleared.goto task (.closingAll none false)

/-- `stop` with no time at all: `wait_for` cancels `_close_all` before it starts. -/
def overdue (s : SiloLink) (task : ℕ) : SiloLink :=
  { s with reconnectTask := none, monitorTask := none, pendingConnect := none }.goto task
    (.closingAll none true)

/-- The end of `stop`. -/
def clear (s : SiloLink) (task : ℕ) : SiloLink :=
  { s with connection := none, initiator := none, stopReturned := true }.goto task
    (.finished .returned)

/-- What `stop` does after its time limit. -/
def force (s : SiloLink) (task : ℕ) : SiloLink :=
  match s.connection.filter fun conn ↦ !s.isClosing conn with
  | some conn => (s.move conn (.close .lost)).goto task (.forcing conn)
  | none => s.clear task

def monitorConnection (s : SiloLink) (task conn : ℕ) : SiloLink :=
  if s.connection = some conn then
    { s with connection := none, initiator := none, monitorTask := none }.goto task
      (.firingLost (((s.conns[conn]?).bind SiloConnection.closeReason).getD .normal))
  else s.goto task (.finished .returned)

/-- What a task does from its wait to the next, if the wait is over. -/
def proceed (s : SiloLink) (task : ℕ) : LinkPhase → Option SiloLink
  | .connecting caller => some (s.connect task caller)
  | .reconnecting => some (s.reconnectLoop task 0)
  | .sleeping attempt =>
    some (if s.active ∧ ¬ s.stopped then s.connect task (.loop attempt)
      else s.endLoop task .returned)
  | .awaiting caller pending owner =>
    match s.tasks[pending]? with
    | some (.finished result) => some (s.awaited task caller pending owner result)
    | _ => none
  | .handshaking who => some (s.installConnection task who)
  | .refusing .dial error => some (s.goto task (.finished (.raised error)))
  | .refusing .accept _ => some (s.goto task (.finished .returned))
  | .dropping _ existing => some (s.goto task (.finished (.connected existing)))
  | .awaitingMonitor who existing monitor =>
    if s.isDone monitor then some (s.closeExisting task who existing) else none
  | .closingExisting who existing =>
    if s.isClosed existing then some (s.register task who) else none
  | .firingEstablished _ conn => some (s.goto task (.finished (.connected conn)))
  | .monitoring conn => if s.isClosed conn then some (s.monitorConnection task conn) else none
  | .firingLost reason =>
    some ((if reason = .lost ∧ s.active ∧ ¬ s.stopped then s.scheduleReconnect else s).goto task
      (.finished .returned))
  | .removing => some (s.disconnect task)
  | .adding => some ((s.spawn (.connecting .eager)).goto task (.finished .returned))
  | .cancellingReconnect loop => if s.isDone loop then some (s.discard task) else none
  | .disconnecting conn => if s.isClosed conn then some (s.dropMonitor task) else none
  | .cancellingMonitor monitor =>
    if s.isDone monitor then some (s.goto task (.finished .returned)) else none
  | .stopping tasks => if tasks.all s.isDone then some (s.closeAll task) else none
  | .closingAll conn expired =>
    if conn.all s.isClosed then some (if expired then s.force task else s.clear task) else none
  | .forcing conn => if s.isClosed conn then some (s.clear task) else none
  | .finished _ => none

/-- `CancelledError` in a task, which some waits suppress. -/
def interrupt (s : SiloLink) (task : ℕ) : LinkPhase → SiloLink
  | .awaiting caller pending owner => s.awaited task caller pending owner .cancelled
  | .sleeping _ => s.endLoop task .cancelled
  | .awaitingMonitor _ _ _ | .cancellingReconnect _ | .cancellingMonitor _ | .stopping _ =>
    { s with thrown := s.thrown.filter fun t ↦ t ≠ task }
  | .closingExisting _ conn | .disconnecting conn =>
    if s.isInterruptible conn then (s.move conn .closeCancelled).goto task (.finished .cancelled)
    else { s with thrown := s.thrown.filter fun t ↦ t ≠ task }
  | .closingAll (some conn) _ | .forcing conn =>
    (if s.isInterruptible conn then s.move conn .closeCancelled else s).goto task
      (.finished .cancelled)
  | _ => s.goto task (.finished .cancelled)

def step (s : SiloLink) : LinkEvent → Option SiloLink
  | .connect => some (s.spawn (.connecting .user))
  | .acceptInbound =>
    some (s.spawn (if s.stopped then .finished .returned else .handshaking .accept))
  | .disconnect => some (s.spawn .removing)
  | .updateActiveSilos included => some (s.updateActiveSilos included)
  | .stop => some s.stop
  | .cancel task => if (s.tasks[task]?).any LinkPhase.isInner then none else some (s.cancel task)
  | .connection conn e =>
    if e.isManagers then none
    else ((s.conns[conn]?).bind fun c ↦ c.step e).map fun c ↦ { s with conns := s.conns.set conn c }
  | .openFailed task =>
    match s.tasks[task]? with
    | some (.handshaking .dial) => some (s.goto task (.finished (.raised .connection)))
    | _ => none
  | .handshakeFailed task error =>
    match s.tasks[task]? with
    | some (.handshaking who) =>
      some ({ s with
        rejected :=
          s.rejected || decide (who = Installer.dial ∧ error = ConnectError.rejected) }.goto task
          (.refusing who error))
    | _ => none
  | .unexpected task =>
    match s.tasks[task]? with
    | some (.handshaking _) => some (s.goto task (.finished (.raised .other)))
    | _ => none
  | .timeout task =>
    match s.tasks[task]? with
    | some (.stopping tasks) => if tasks.all s.isDone then some (s.overdue task) else none
    | some (.closingAll conn false) =>
      match conn.filter s.isInterruptible with
      | some conn => some ((s.move conn .closeCancelled).goto task (.closingAll none true))
      | none => some (s.goto task (.closingAll conn true))
    | _ => none
  | .resume task =>
    match s.tasks[task]? with
    | some (.finished _) | none => none
    | some phase => if task ∈ s.thrown then some (s.interrupt task phase) else s.proceed task phase

end SiloLink

end Pyleans
