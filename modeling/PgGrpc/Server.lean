import PgGrpc.Cluster

/-! The processes around the tables: the worker from its fork to its exit, the two
cells of shared memory, and the backends between a commit and their `SetLatch`.
Everything here is lost when the server stops, except what the cluster keeps. -/

namespace PgGrpc.Server
open Library Queue
open Cluster (BackendId SessionEvent Stage)

structure Settings where
  batchSize : BatchSize
  ttl : String

def Settings.default : Settings := ⟨.default, "6 hours"⟩

/-- A process slot, named by the address of its latch. -/
abbrev Slot := Nat

/-- Where the worker process stands: what its next step does. -/
inductive Pc where
  | dead
  /-- Forked; `clear_latch()` comes first. -/
  | starting
  | connecting
  | connected
  | hooked
  | waiting
  /-- Out of `WaitLatch`, the latch reset; `wait_latch` reads the SIGTERM flag next. -/
  | woken
  | reloading
  | swapping
  /-- At the head of the inner loop, with the batch size read before it. -/
  | draining (batchSize : BatchSize)
  | passing (batchSize : BatchSize)
  | exiting
  /-- The slot is given back; the `on_proc_exit` callbacks come next. -/
  | released
  /-- `on_worker_exit` has stored the flag and not yet cleared the pointer. -/
  | clearing
deriving DecidableEq

/-- The slot's latch is this process's own. -/
def Pc.holdsSlot : Pc → Bool
  | .dead | .released | .clearing => false
  | _ => true

def Pc.attached : Pc → Bool
  | .dead | .starting => false
  | _ => true

structure WorkerProcess where
  pc : Pc := .dead
  slot : Slot := 0
  latch : Bool := false
  sigterm : Bool := false
  sighup : Bool := false
  exitHook : Bool := false
  /-- What the last `ProcessConfigFile` of this process read. -/
  loaded : Settings
  /-- A SIGTERM was delivered to this process. No step reads it. -/
  terminated : Bool := false
  /-- The last process returned, so the postmaster starts no other. -/
  finished : Bool := false

/-- How far a backend is in `wake_worker_on_commit`. -/
inductive Waking where
  | idle
  /-- The rows are visible, the flag is not stored. -/
  | committed
  /-- The flag is stored, the pointer not read. -/
  | stored
  /-- The pointer is read and the share lock released. -/
  | read (latch : Option Slot)
deriving DecidableEq

structure State where
  cluster : Cluster.State
  shouldWake : Bool := false
  workerLatch : Option Slot := none
  waking : BackendId → Waking := fun _ => .idle
  file : Settings
  /-- What the postmaster last read from the file. A process that it forks begins with that. -/
  postmaster : Settings
  worker : WorkerProcess

inductive Statement where
  | begin
  | dequeue
  | execute (joins : Worker.Joins)
  | insert
  | cleanup
  | commit

/-- The captured batch size goes into the dequeue, the current ttl into the clean-up. -/
def Statement.event (batchSize : BatchSize) (ttl : String) : Statement → Cluster.WorkerEvent
  | .begin => .begin
  | .dequeue => .dequeue batchSize
  | .execute joins => .execute joins
  | .insert => .insert
  | .cleanup => .cleanup ttl
  | .commit => .commit

inductive Event where
  | session (backend : BackendId) (event : SessionEvent)
  | storeFlag (backend : BackendId)
  | readLatch (backend : BackendId)
  | setLatch (backend : BackendId)
  | start (slot : Slot)
  /-- The worker's next step outside a transaction. -/
  | run
  | statement (statement : Statement)
  /-- An error or a failed connection, at any point. -/
  | fail
  /-- A lock wait resets the latch of the process that waits. -/
  | lockWait
  | sigterm
  | sighup
  | configure (settings : Settings)
  | tick (elapsed : Nat)
  | restart

def Event.backend? : Event → Option BackendId
  | .session backend _ | .storeFlag backend | .readLatch backend | .setLatch backend => some backend
  | _ => none

namespace State

def fresh (clock : Timestamp) (file : Settings) : State where
  cluster := { clock }
  file := file
  postmaster := file
  worker := { loaded := file }

def setWaking (state : State) (backend : BackendId) (waking : Waking) : State :=
  { state with waking := fun other => if other = backend then waking else state.waking other }

def goto (state : State) (pc : Pc) : State := { state with worker := { state.worker with pc } }

/-- `SetLatch` through a pointer reaches the worker only while the slot is its own. -/
def setLatch (state : State) (latch : Option Slot) : State :=
  { state with worker := { state.worker with
      latch := state.worker.latch || (state.worker.pc.holdsSlot && latch == some state.worker.slot) } }

end State

def run (state : State) : Option State :=
  let worker := state.worker
  match worker.pc with
  | .dead | .passing _ => none
  | .starting => some ({ state with workerLatch := none }.goto .connecting)
  | .connecting => some (state.goto .connected)
  | .connected => some { state with worker := { worker with pc := .hooked, exitHook := true } }
  | .hooked => some ({ state with workerLatch := some worker.slot }.goto .waiting)
  | .waiting => if worker.latch then some { state with worker := { worker with pc := .woken, latch := false } } else none
  | .woken => some { state with worker := { worker with
      pc := if worker.sigterm then .exiting else .reloading, sigterm := false, finished := worker.sigterm } }
  | .reloading => some { state with worker := { worker with
      pc := .swapping, sighup := false, loaded := if worker.sighup then state.file else worker.loaded } }
  | .swapping =>
    if state.shouldWake then some ({ state with shouldWake := false }.goto (.draining worker.loaded.batchSize))
    else some (state.goto .waiting)
  -- `break` leaves the inner loop only, with the flag already cleared.
  | .draining batchSize => some { state with worker := { worker with
      pc := if worker.sigterm then .waiting else .passing batchSize, sigterm := false } }
  | .exiting => some (state.goto .released)
  | .released =>
    if worker.exitHook then some ({ state with shouldWake := true }.goto .clearing) else some (state.goto .dead)
  | .clearing => some ({ state with workerLatch := none }.goto .dead)

/-- Where a statement leaves the worker: the commit of an empty pass ends the
inner loop, and an error ends the process. -/
def afterStatement (batchSize : BatchSize) : Stage → Stage → Pc
  | .cleaned _ true, .idle => .waiting
  | .cleaned _ false, .idle => .draining batchSize
  | _, .idle => .exiting
  | _, _ => .passing batchSize

/-- A statement is running that can wait for a lock. -/
def querying : Stage → Bool
  | .begun _ | .executed _ _ | .inserted _ => true
  | .dequeued _ rows => rows.isEmpty
  | .idle | .cleaned _ _ => false

def step (pg : Postgres) (state : State) : Event → Option State
  | .session backend event =>
    match state.waking backend, Cluster.sessionStep state.cluster backend event with
    | .idle, some cluster =>
      some ({ state with cluster }.setWaking backend
        (if Cluster.signals state.cluster (.session backend event) then .committed else .idle))
    | _, _ => none
  | .storeFlag backend =>
    match state.waking backend with
    | .committed => some ({ state with shouldWake := true }.setWaking backend .stored)
    | _ => none
  | .readLatch backend =>
    match state.waking backend with
    | .stored => some (state.setWaking backend (.read state.workerLatch))
    | _ => none
  | .setLatch backend =>
    match state.waking backend with
    | .read latch => some ((state.setLatch latch).setWaking backend .idle)
    | _ => none
  | .start slot =>
    if state.worker.pc = .dead ∧ ¬ state.worker.finished then
      some { state with worker := { pc := .starting, slot, latch := true, loaded := state.postmaster } }
    else none
  | .run => run state
  | .statement statement =>
    match state.worker.pc with
    | .passing batchSize =>
      (Cluster.workerStep pg state.cluster (statement.event batchSize state.worker.loaded.ttl)).map fun cluster =>
        { state with cluster }.goto (afterStatement batchSize state.cluster.worker cluster.worker)
    | _ => none
  | .fail =>
    match state.worker.pc with
    | .dead | .exiting | .released | .clearing => none
    | _ => some ({ state with cluster := { state.cluster with worker := .idle } }.goto .exiting)
  | .lockWait =>
    match state.worker.pc, querying state.cluster.worker with
    | .connecting, _ | .passing _, true => some { state with worker := { state.worker with latch := false } }
    | _, _ => none
  | .sigterm =>
    if state.worker.pc.attached then
      some { state with worker := { state.worker with sigterm := true, latch := true, terminated := true } }
    else none
  | .sighup =>
    -- The postmaster reads the file itself and passes the signal on.
    if state.worker.pc = .dead then some { state with postmaster := state.file }
    else some { state with postmaster := state.file, worker := { state.worker with sighup := true, latch := true } }
  | .configure settings => some { state with file := settings }
  | .tick elapsed => some { state with cluster := { state.cluster with clock := state.cluster.clock + elapsed } }
  | .restart =>
    -- The postmaster waits for the worker. What a backend still had to do to the old
    -- shared memory is lost with it.
    if state.worker.pc = .dead then
      some {
        cluster := { state.cluster with sessions := fun _ => {}, worker := .idle }
        file := state.file
        postmaster := state.file
        worker := { loaded := state.file } }
    else none

def machine (pg : Postgres) : Machine State Event where
  initial state := ∃ clock file, state = .fresh clock file
  step := step pg

def enqueue (backend : BackendId) (args : SqlCall) : List Event :=
  [.session backend .statement, .session backend (.call args), .session backend .commit,
    .storeFlag backend, .readLatch backend, .setLatch backend]

/-- A start of the worker, up to its first wait on a clear latch. -/
def boot (slot : Slot) : List Event := .start slot :: List.replicate 8 .run

/-- From a wait with the latch and the flag set to the head of the drain. -/
def awaken : List Event := List.replicate 4 .run

def pass (drained : Bool) (joins : Worker.Joins) : List Event :=
  let calls : List Statement := if drained then [] else [.execute joins, .insert]
  let statements : List Statement := [.begin, .dequeue] ++ calls ++ [.cleanup, .commit]
  .run :: statements.map .statement

end PgGrpc.Server
