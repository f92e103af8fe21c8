import PgGrpc.Cluster
import PgGrpc.Proofs.Queue

/-! What one step of the cluster can do, said once for all the invariants. -/

namespace PgGrpc.Cluster
open Library

namespace Session

theorem addRow_rows (session : Session) (row : QueueRow) : (session.addRow row).rows.Perm (session.rows ++ [row]) := by
  unfold addRow
  split
  next flat => simp [rows, flat]
  next top outer deep =>
    simp only [rows, deep, List.flatten_cons, List.append_assoc]
    exact ((List.perm_append_comm.append_left _).append_left _)

theorem addRow_ids (session : Session) (row : QueueRow) : (session.addRow row).ids.Perm (session.ids ++ [row.id]) := by
  simpa [ids] using (session.addRow_rows row).map QueueRow.id

@[simp] theorem addRow_snapshot (session : Session) (row : QueueRow) :
    (session.addRow row).snapshot = session.snapshot := by
  unfold addRow
  split <;> rfl

@[simp] theorem endXact_ids (session : Session) (event : XactEvent) : (session.endXact event).ids = [] := rfl

theorem idle_ids {session : Session} (idle : session.idle = true) : session.ids = [] := by
  simp only [Session.idle, Bool.and_eq_true, List.isEmpty_iff] at idle
  simp [ids, idle.1.1]

end Session

/-- The two places of the clean-up: after an empty dequeue, and after the INSERT. -/
inductive Cleanable (state : State) (tx : Tx) : Bool → Prop where
  | drained (empty : state.worker = .dequeued tx []) : Cleanable state tx true
  | stored (inserted : state.worker = .inserted tx) : Cleanable state tx false

inductive WorkerMove (pg : Postgres) (state : State) : WorkerEvent → State → Prop where
  | begin (idle : state.worker = .idle) :
      WorkerMove pg state .begin { state with worker := .begun (.begin state.clock) }
  | dequeue {batchSize tx} (begun : state.worker = .begun tx) :
      WorkerMove pg state (.dequeue batchSize) { state with
        worker := .dequeued (Queue.dequeue batchSize state.tables tx).2 (Queue.dequeue batchSize state.tables tx).1 }
  | execute {joins tx rows} (dequeued : state.worker = .dequeued tx rows) (nonempty : rows ≠ [])
      (covers : joins.covers rows) :
      WorkerMove pg state (.execute joins) { state with worker := .executed tx (Worker.collect rows joins) }
  | insert {tx results stored} (executed : state.worker = .executed tx results)
      (ran : Queue.insertResults pg state.tables tx results = .ok stored) :
      WorkerMove pg state .insert { state with worker := .inserted stored }
  | insertError {tx results error} (executed : state.worker = .executed tx results)
      (failed : Queue.insertResults pg state.tables tx results = .error error) :
      WorkerMove pg state .insert { state with worker := .idle }
  | cleanup {ttl tx drained cleaned warning} (ready : Cleanable state tx drained)
      (ran : Queue.ttlCleanup pg state.tables tx ttl = .ok (cleaned, warning)) :
      WorkerMove pg state (.cleanup ttl) { state with worker := .cleaned cleaned drained }
  | cleanupError {ttl tx drained error} (ready : Cleanable state tx drained)
      (failed : Queue.ttlCleanup pg state.tables tx ttl = .error error) :
      WorkerMove pg state (.cleanup ttl) { state with worker := .idle }
  | commit {tx drained} (cleaned : state.worker = .cleaned tx drained) :
      WorkerMove pg state .commit (state.commitWorker tx)
  | fail {tx} (opened : state.worker.tx? = some tx) : WorkerMove pg state .fail { state with worker := .idle }

theorem workerStep_cases {pg : Postgres} {state after : State} {event : WorkerEvent}
    (taken : workerStep pg state event = some after) : WorkerMove pg state event after := by
  unfold workerStep at taken
  split at taken
  next idle => cases taken; exact .begin idle
  next begun => cases taken; exact .dequeue begun
  next dequeued =>
    split at taken
    next ready => cases taken; exact .execute dequeued ready.1 ready.2
    next => cases taken
  next executed =>
    split at taken
    next failed => cases taken; exact .insertError executed failed
    next ran => cases taken; exact .insert executed ran
  next empty =>
    split at taken
    next failed => cases taken; exact .cleanupError (.drained empty) failed
    next ran => cases taken; exact .cleanup (.drained empty) ran
  next inserted =>
    split at taken
    next failed => cases taken; exact .cleanupError (.stored inserted) failed
    next ran => cases taken; exact .cleanup (.stored inserted) ran
  next cleaned => cases taken; exact .commit cleaned
  -- What is left is an error in each of the five open stages, and the disabled events.
  iterate 5
    next opened => cases taken; exact .fail (by rw [opened]; rfl)
  next => cases taken

/-- What a session can change outside its own transaction and the prepared ones:
it adds rows to the queue. -/
structure SessionFrame (state after : State) : Prop where
  clock : after.clock = state.clock
  queue : ∃ rows, after.tables.queue = state.tables.queue ++ rows
  results : after.tables.results = state.tables.results
  worker : after.worker = state.worker
  called : state.ledger.called ⊆ after.ledger.called
  expired : after.ledger.expired = state.ledger.expired
  vanished : after.ledger.vanished = state.ledger.vanished

theorem sessionStep_frame {state after : State} {backend : BackendId} {event : SessionEvent}
    (taken : sessionStep state backend event = some after) : SessionFrame state after := by
  have quiet : ∃ rows, state.tables.queue = state.tables.queue ++ rows := ⟨[], (List.append_nil _).symm⟩
  cases event <;> simp only [sessionStep] at taken
  case commit => cases taken; exact ⟨rfl, ⟨_, rfl⟩, rfl, rfl, List.subset_append_left _ _, rfl, rfl⟩
  case commitPrepared =>
    split at taken
    · cases taken; exact ⟨rfl, ⟨_, rfl⟩, rfl, rfl, List.subset_append_left _ _, rfl, rfl⟩
    · cases taken
  all_goals
    repeat' split at taken
    all_goals cases taken
    all_goals exact ⟨rfl, quiet, rfl, rfl, List.Subset.refl _, rfl, rfl⟩

theorem workerStep_called {pg : Postgres} {state after : State} {event : WorkerEvent}
    (taken : workerStep pg state event = some after) : state.ledger.called ⊆ after.ledger.called := by
  cases workerStep_cases taken <;> exact List.Subset.refl _

theorem called_grows {pg : Postgres} {state after : State} {event : Event} (taken : step pg state event = some after) :
    state.ledger.called ⊆ after.ledger.called := by
  cases event with
  | session backend event =>
    rw [step] at taken
    exact (sessionStep_frame taken).called
  | worker event => exact workerStep_called taken
  | tick elapsed | restart => cases taken; exact List.Subset.refl _

@[simp] theorem setSession_self (state : State) (backend : BackendId) (session : Session) :
    (state.setSession backend session).sessions backend = session := by simp [State.setSession]

theorem setSession_other (state : State) {backend other : BackendId} (session : Session) (apart : other ≠ backend) :
    (state.setSession backend session).sessions other = state.sessions other := by simp [State.setSession, apart]

theorem sessionStep_other {state after : State} {backend other : BackendId} {event : SessionEvent}
    (taken : sessionStep state backend event = some after) (apart : other ≠ backend) :
    after.sessions other = state.sessions other := by
  cases event <;> simp only [sessionStep] at taken
  all_goals
    repeat' split at taken
    all_goals cases taken
    all_goals first | rfl | exact setSession_other _ _ apart

inductive Publishes (state : State) : Event → QueueRow → Prop where
  | commit {backend row} (own : row ∈ (state.sessions backend).rows) : Publishes state (.session backend .commit) row
  | commitPrepared {backend gid rows row} (held : state.prepared gid = some rows) (member : row ∈ rows) :
      Publishes state (.session backend (.commitPrepared gid)) row

private theorem sessionStep_publishes {state after : State} {backend : BackendId} {event : SessionEvent} {row : QueueRow}
    (taken : sessionStep state backend event = some after) (appears : row ∈ after.tables.queue)
    (new : row ∉ state.tables.queue) : Publishes state (.session backend event) row := by
  cases event <;> simp only [sessionStep] at taken
  case commit =>
    cases taken
    exact .commit ((List.mem_append.mp appears).resolve_left new)
  case commitPrepared gid =>
    split at taken
    next rows _ held =>
      cases taken
      exact .commitPrepared held ((List.mem_append.mp appears).resolve_left new)
    next => cases taken
  all_goals
    repeat' split at taken
    all_goals cases taken
    all_goals exact absurd appears new

/-- The worker never adds to the queue and leaves the sessions alone. -/
structure WorkerFrame (state after : State) : Prop where
  clock : after.clock = state.clock
  queue : after.tables.queue ⊆ state.tables.queue
  nextId : after.nextId = state.nextId
  sessions : after.sessions = state.sessions
  prepared : after.prepared = state.prepared

theorem workerStep_frame {pg : Postgres} {state after : State} {event : WorkerEvent}
    (taken : workerStep pg state event = some after) : WorkerFrame state after := by
  cases workerStep_cases taken with
  | commit _ => exact ⟨rfl, List.filter_subset_self _, rfl, rfl, rfl⟩
  | _ => exact ⟨rfl, List.Subset.refl _, rfl, rfl, rfl⟩

theorem step_publishes {pg : Postgres} {state after : State} {event : Event} {row : QueueRow}
    (taken : step pg state event = some after) (appears : row ∈ after.tables.queue) (new : row ∉ state.tables.queue) :
    Publishes state event row := by
  cases event with
  | session backend event => exact sessionStep_publishes taken appears new
  | worker event => exact absurd ((workerStep_frame taken).queue appears) new
  | tick elapsed => cases taken; exact absurd appears new
  | restart => cases taken; exact absurd appears new

end PgGrpc.Cluster
