import PgGrpc.Cluster
import PgGrpc.Library.Exchange
import PgGrpc.RowCall

/-! The worker with the calls of its batch. Between the dequeue and the insert each row
has a task on a `JoinSet`; the tasks take turns at their awaits while the sessions go on. -/

namespace PgGrpc.JoinSet
open Library Worker

/-- The task of a row, under the id that tokio gave it. -/
structure Task where
  id : TaskId
  row : QueueRow

abbrev Running := Tasks Process Request Reply (Task × Log Request Reply) (GrpcResult Json)

/-- What a call was dropped for before it ended. -/
inductive Drop where
  | expired
  | panicked
deriving DecidableEq

/-- A batch between its spawns and the end of its joins. -/
structure Batch where
  /-- The ids of the tasks, in the order of the rows. -/
  handles : List TaskId
  /-- The ends of tasks that no join has reported yet. -/
  finished : List JoinNext := []
  joined : List JoinNext := []

structure State where
  cluster : Cluster.State
  /-- The tasks in the statics of the worker process. No step reads their logs, nor those
  of the calls that have ended, which outlast the process. -/
  tasks : Running := { shared := .fresh }
  batch : Option Batch := none
  /-- The tasks dropped so far. No step reads it. -/
  dropped : List (Task × Drop) := []

inductive Event where
  /-- Anything but the calls of a batch. -/
  | cluster (event : Cluster.Event)
  | spawn (handles : List TaskId)
  | poll (index : Nat) (answer : (request : Request) → Reply request)
  /-- The timeout of a task expires while it waits, and its call is dropped. -/
  | expire (index : Nat)
  | panic (index : Nat)
  | join (index : Nat)
  /-- The set is empty, and the loop over its joins ends. -/
  | collect

def body (crates : Crates) (task : Task) : Fiber Process Request Reply (GrpcResult Json) := (callRow crates task.row).run

def turn (crates : Crates) : Running → Turn Request Reply Task Empty → Option Running :=
  Tasks.logStep (body crates) fun operation _ => operation.elim

def spawnAll (crates : Crates) (tasks : Running) (spawned : List Task) : Running :=
  { tasks with running := tasks.running ++ spawned.map fun task => ((task, []), body crates task) }

/-- What is reported of a task whose call has ended. -/
def report (ended : (Task × Log Request Reply) × GrpcResult Json) : JoinNext :=
  .ok ended.1.1.id (rowResult ended.1.1.row (some ended.2))

/-- The worker process ends in this step, and what starts in its place has statics of its own. -/
def dies (after : Cluster.State) : Cluster.Event → Bool
  | .restart => true
  | .worker .commit | .session _ _ | .tick _ => false
  | .worker _ => after.worker.tx?.isNone

def Batch.report (batch : Batch) (ends : List JoinNext) : Batch := { batch with finished := batch.finished ++ ends }

def step (pg : Postgres) (crates : Crates) (state : State) : Event → Option State
  | .cluster (.worker (.execute _)) => none
  | .cluster event => (Cluster.step pg state.cluster event).map fun cluster =>
    if dies cluster event then
      { cluster, tasks := { shared := .fresh, ended := state.tasks.ended }, dropped := state.dropped }
    else { state with cluster }
  | .spawn handles =>
    match state.batch, state.cluster.worker with
    | none, .dequeued _ rows =>
      if rows ≠ [] ∧ handles.length = rows.length ∧ handles.Nodup then
        some { state with
          tasks := spawnAll crates state.tasks ((handles.zip rows).map fun (id, row) => ⟨id, row⟩)
          batch := some { handles } }
      else none
    | _, _ => none
  | .poll index answer =>
    match state.batch, turn crates state.tasks (.poll index answer) with
    | some batch, some tasks =>
      some { state with tasks, batch := some (batch.report ((tasks.ended.drop state.tasks.ended.length).map report)) }
    | _, _ => none
  | .expire index =>
    match state.batch, state.tasks.running[index]?, turn crates state.tasks (.cancel index) with
    | some batch, some ((task, _), .await _ _), some tasks =>
      some { state with
        tasks
        batch := some (batch.report [.ok task.id (rowResult task.row none)])
        dropped := state.dropped ++ [(task, .expired)] }
    | _, _, _ => none
  | .panic index =>
    match state.batch, state.tasks.running[index]?, turn crates state.tasks (.cancel index) with
    | some batch, some ((task, _), _), some tasks =>
      some { state with
        tasks, batch := some (batch.report [.err task.id]), dropped := state.dropped ++ [(task, .panicked)] }
    | _, _, _ => none
  | .join index =>
    match state.batch with
    | none => none
    | some batch => batch.finished[index]?.map fun next =>
      { state with batch := some { batch with
          finished := batch.finished.eraseIdx index, joined := batch.joined ++ [next] } }
  | .collect =>
    match state.batch, state.cluster.worker with
    | some batch, .dequeued tx rows =>
      if state.tasks.running.isEmpty ∧ batch.finished.isEmpty then
        some { state with
          cluster := { state.cluster with worker := .executed tx (blockOn rows batch.handles batch.joined) }
          batch := none }
      else none
    | _, _ => none

def machine (pg : Postgres) (crates : Crates) : Machine State Event where
  initial state := ∃ clock, state = { cluster := { clock } }
  step := step pg crates

end PgGrpc.JoinSet
