import PgGrpc.Library.Machine
import PgGrpc.Sql
import PgGrpc.Worker

/-! The database side of the extension: sessions with their subtransactions, the
worker's transaction statement by statement, and the committed tables between
them. Sessions only insert into the queue and the worker alone deletes, so an
uncommitted transaction is the rows it would add or remove. -/

namespace PgGrpc.Cluster
open Library

abbrev BackendId := Nat
abbrev Gid := Nat

/-- A session and its open transaction. A transaction that has written holds an
XID; `snapshot` is the one of the SQL statement being executed. -/
structure Session where
  base : List QueueRow := []
  /-- Open subtransactions, innermost first. -/
  nested : List (List QueueRow) := []
  hasXid : Bool := false
  snapshot : Tables := ⟨[], []⟩
  /-- `WAKE_CB_ACTIVE` of this process. -/
  wakeCbActive : Bool := false

namespace Session

def rows (session : Session) : List QueueRow := session.base ++ session.nested.flatten

def ids (session : Session) : List Int := session.rows.map QueueRow.id

def addRow (session : Session) (row : QueueRow) : Session :=
  match session.nested with
  | [] => { session with base := session.base ++ [row] }
  | top :: outer => { session with nested := (top ++ [row]) :: outer }

def idle (session : Session) : Bool := session.rows.isEmpty && session.nested.isEmpty && !session.hasXid

/-- The session after the end of its transaction, the callback having run. -/
def endXact (session : Session) (event : XactEvent) : Session :=
  { session with
    base := [], nested := [], hasXid := false
    wakeCbActive := (wakeWorkerOnCommit event session.wakeCbActive).1 }

end Session

inductive SessionEvent where
  /-- A new SQL statement starts and takes its snapshot. -/
  | statement
  | write
  | call (args : SqlCall)
  | savepoint
  | release
  | rollbackTo
  | commit
  | rollback
  | prepare (gid : Gid)
  | commitPrepared (gid : Gid)
  | rollbackPrepared (gid : Gid)

/-- The event under which PostgreSQL runs the callback, where the step ends a
transaction. COMMIT PREPARED and ROLLBACK PREPARED run in a transaction of their own. -/
def SessionEvent.xactEvent : SessionEvent → Option XactEvent
  | .commit | .commitPrepared _ | .rollbackPrepared _ => some .commit
  | .rollback => some .abort
  | .prepare _ => some .prepare
  | _ => none

/-- The worker's transaction: `rows` were dequeued, `results` await their INSERT. -/
inductive Stage where
  | idle
  | begun (tx : Tx)
  | dequeued (tx : Tx) (rows : List QueueRow)
  | executed (tx : Tx) (results : List CallResult)
  | inserted (tx : Tx)
  | cleaned (tx : Tx) (drained : Bool)

def Stage.tx? : Stage → Option Tx
  | .idle => none
  | .begun tx | .dequeued tx _ | .executed tx _ | .inserted tx | .cleaned tx _ => some tx

inductive WorkerEvent where
  | begin
  | dequeue (batchSize : BatchSize)
  | execute (joins : Worker.Joins)
  | insert
  | cleanup (ttl : String)
  | commit
  /-- An error at any point of the open transaction; the restarted worker is idle again. -/
  | fail

inductive Event where
  | session (backend : BackendId) (event : SessionEvent)
  | worker (event : WorkerEvent)
  | tick (elapsed : Nat)
  /-- A clean stop and start of the server: open transactions abort, prepared ones stay. -/
  | restart

/-- What commits and rollbacks have made of the ids so far. No step reads it. -/
structure Ledger where
  called : List Int := []
  abandoned : List Int := []
  stored : List Int := []
  /-- Removed by the clean-up after an earlier transaction had committed them. -/
  expired : List Int := []
  /-- Removed by the clean-up of the very transaction that stored them. -/
  vanished : List Int := []

structure State where
  clock : Timestamp
  tables : Tables := ⟨[], []⟩
  nextId : Int := 1
  sessions : BackendId → Session := fun _ => {}
  prepared : Gid → Option (List QueueRow) := fun _ => none
  worker : Stage := .idle
  ledger : Ledger := {}

namespace State

def setSession (state : State) (backend : BackendId) (session : Session) : State :=
  { state with sessions := fun other => if other = backend then session else state.sessions other }

def setPrepared (state : State) (gid : Gid) (rows : Option (List QueueRow)) : State :=
  { state with prepared := fun other => if other = gid then rows else state.prepared other }

def publish (state : State) (rows : List QueueRow) : State :=
  { state with
    tables := { state.tables with queue := state.tables.queue ++ rows }
    ledger := { state.ledger with called := state.ledger.called ++ rows.map QueueRow.id } }

def abandon (state : State) (rows : List QueueRow) : State :=
  { state with ledger := { state.ledger with abandoned := state.ledger.abandoned ++ rows.map QueueRow.id } }

def commitWorker (state : State) (tx : Tx) : State :=
  let stored := tx.inserted.map ResultRow.id
  { state with
    tables := tx.view state.tables
    worker := .idle
    ledger := { state.ledger with
      stored := state.ledger.stored ++ stored
      expired := state.ledger.expired ++ tx.expired.filter fun id => !stored.contains id
      vanished := state.ledger.vanished ++ stored.filter fun id => tx.expired.contains id } }

end State

def sessionStep (state : State) (backend : BackendId) (event : SessionEvent) : Option State :=
  let session := state.sessions backend
  match event with
  | .statement => some (state.setSession backend { session with snapshot := state.tables })
  | .write => some (state.setSession backend { session with hasXid := true })
  | .call args =>
    match grpcCallAsync args state.nextId with
    | .error _ => some state
    | .ok row => some ({ state with nextId := state.nextId + 1 }.setSession backend
        { session.addRow row with hasXid := true, wakeCbActive := true })
  | .savepoint => some (state.setSession backend { session with nested := [] :: session.nested })
  | .release =>
    match session.nested with
    | [] => none
    | [top] => some (state.setSession backend { session with base := session.base ++ top, nested := [] })
    | top :: parent :: outer => some (state.setSession backend { session with nested := (parent ++ top) :: outer })
  | .rollbackTo =>
    match session.nested with
    | [] => none
    | top :: outer => some ((state.abandon top).setSession backend { session with nested := [] :: outer })
  | .commit => some ((state.publish session.rows).setSession backend (session.endXact .commit))
  | .rollback => some ((state.abandon session.rows).setSession backend (session.endXact .abort))
  | .prepare gid =>
    match state.prepared gid with
    | some _ => none
    | none => some ((state.setPrepared gid (some session.rows)).setSession backend (session.endXact .prepare))
  | .commitPrepared gid =>
    match session.idle, state.prepared gid with
    | true, some rows => some (((state.publish rows).setPrepared gid none).setSession backend (session.endXact .commit))
    | _, _ => none
  | .rollbackPrepared gid =>
    match session.idle, state.prepared gid with
    | true, some rows => some (((state.abandon rows).setPrepared gid none).setSession backend (session.endXact .commit))
    | _, _ => none

def workerStep (pg : Postgres) (state : State) (event : WorkerEvent) : Option State :=
  match event, state.worker with
  | .begin, .idle => some { state with worker := .begun (.begin state.clock) }
  | .dequeue batchSize, .begun tx =>
    let batch := Queue.dequeue batchSize state.tables tx
    some { state with worker := .dequeued batch.2 batch.1 }
  | .execute joins, .dequeued tx rows =>
    if rows ≠ [] ∧ joins.covers rows then some { state with worker := .executed tx (Worker.collect rows joins) }
    else none
  | .insert, .executed tx results =>
    match Queue.insertResults pg state.tables tx results with
    | .error _ => some { state with worker := .idle }
    | .ok tx => some { state with worker := .inserted tx }
  | .cleanup ttl, .dequeued tx [] =>
    match Queue.ttlCleanup pg state.tables tx ttl with
    | .error _ => some { state with worker := .idle }
    | .ok (tx, _) => some { state with worker := .cleaned tx true }
  | .cleanup ttl, .inserted tx =>
    match Queue.ttlCleanup pg state.tables tx ttl with
    | .error _ => some { state with worker := .idle }
    | .ok (tx, _) => some { state with worker := .cleaned tx false }
  | .commit, .cleaned tx _ => some (state.commitWorker tx)
  | .fail, .begun _ | .fail, .dequeued _ _ | .fail, .executed _ _ | .fail, .inserted _ | .fail, .cleaned _ _ =>
    some { state with worker := .idle }
  | _, _ => none

def step (pg : Postgres) (state : State) : Event → Option State
  | .session backend event => sessionStep state backend event
  | .worker event => workerStep pg state event
  | .tick elapsed => some { state with clock := state.clock + elapsed }
  | .restart => some { state with sessions := fun _ => {}, worker := .idle }

def machine (pg : Postgres) : Machine State Event where
  initial state := ∃ clock, state = { clock }
  step := step pg

def enqueue (backend : BackendId) (args : SqlCall) : List Event :=
  [.session backend .statement, .session backend (.call args), .session backend .commit]

/-- The statements of a pass of the worker, over an empty batch or over one with calls. -/
def cycle (drained : Bool) (batchSize : BatchSize) (joins : Worker.Joins) (ttl : String) : List Event :=
  let calls := if drained then [] else [.worker (.execute joins), .worker .insert]
  [.worker .begin, .worker (.dequeue batchSize)] ++ calls ++ [.worker (.cleanup ttl), .worker .commit]

/-- The step runs the callback and the callback wakes the worker. -/
def signals (state : State) : Event → Bool
  | .session backend event =>
    match event.xactEvent with
    | some xact => (wakeWorkerOnCommit xact (state.sessions backend).wakeCbActive).2
    | none => false
  | _ => false

/-- What a select of the session sees: a new snapshot and its own rows when the
transaction holds an XID, else the snapshot of the calling statement. -/
def State.view (state : State) (backend : BackendId) : Tables :=
  let session := state.sessions backend
  if session.hasXid then { state.tables with queue := state.tables.queue ++ session.rows }
  else session.snapshot

end PgGrpc.Cluster
