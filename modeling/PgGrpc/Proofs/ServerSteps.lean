import PgGrpc.Server
import PgGrpc.Proofs.Refinement

/-! What one step of the server can do, that its tables move as those of the
cluster, and what holds of the worker process wherever it stands. -/

namespace PgGrpc.Server
open Library Queue
open Cluster (BackendId SessionEvent Stage)

inductive Run (state : State) : State → Prop where
  | clearLatch (starting : state.worker.pc = .starting) :
      Run state ({ state with workerLatch := none }.goto .connecting)
  | connect (connecting : state.worker.pc = .connecting) : Run state (state.goto .connected)
  | hook (connected : state.worker.pc = .connected) :
      Run state { state with worker := { state.worker with pc := .hooked, exitHook := true } }
  | storeLatch (hooked : state.worker.pc = .hooked) :
      Run state ({ state with workerLatch := some state.worker.slot }.goto .waiting)
  | wake (waiting : state.worker.pc = .waiting) (latch : state.worker.latch = true) :
      Run state { state with worker := { state.worker with pc := .woken, latch := false } }
  | leave (woken : state.worker.pc = .woken) (flag : state.worker.sigterm = true) :
      Run state { state with worker := { state.worker with pc := .exiting, sigterm := false, finished := true } }
  | stay (woken : state.worker.pc = .woken) (clear : state.worker.sigterm = false) :
      Run state { state with worker := { state.worker with pc := .reloading, sigterm := false, finished := false } }
  | reload (reloading : state.worker.pc = .reloading) :
      Run state { state with worker := { state.worker with
        pc := .swapping, sighup := false, loaded := if state.worker.sighup then state.file else state.worker.loaded } }
  | take (swapping : state.worker.pc = .swapping) (pending : state.shouldWake = true) :
      Run state ({ state with shouldWake := false }.goto (.draining state.worker.loaded.batchSize))
  | skip (swapping : state.worker.pc = .swapping) (nothing : state.shouldWake = false) : Run state (state.goto .waiting)
  | break_ {batchSize} (draining : state.worker.pc = .draining batchSize) (flag : state.worker.sigterm = true) :
      Run state { state with worker := { state.worker with pc := .waiting, sigterm := false } }
  | pass {batchSize} (draining : state.worker.pc = .draining batchSize) (clear : state.worker.sigterm = false) :
      Run state { state with worker := { state.worker with pc := .passing batchSize, sigterm := false } }
  | release (exiting : state.worker.pc = .exiting) : Run state (state.goto .released)
  | storeFlag (released : state.worker.pc = .released) (hooked : state.worker.exitHook = true) :
      Run state ({ state with shouldWake := true }.goto .clearing)
  | vanish (released : state.worker.pc = .released) (bare : state.worker.exitHook = false) :
      Run state (state.goto .dead)
  | clear (clearing : state.worker.pc = .clearing) : Run state ({ state with workerLatch := none }.goto .dead)

theorem run_cases {state after : State} (taken : run state = some after) : Run state after := by
  unfold run at taken
  cases stands : state.worker.pc <;> simp only [stands] at taken
  case dead | passing => cases taken
  case starting => cases taken; exact .clearLatch stands
  case connecting => cases taken; exact .connect stands
  case connected => cases taken; exact .hook stands
  case hooked => cases taken; exact .storeLatch stands
  case waiting =>
    split at taken
    next latch => cases taken; exact .wake stands latch
    next => cases taken
  case woken =>
    cases taken
    cases flag : state.worker.sigterm with
    | true => exact .leave stands flag
    | false => exact .stay stands flag
  case reloading => cases taken; exact .reload stands
  case swapping =>
    split at taken
    next pending => cases taken; exact .take stands pending
    next nothing => cases taken; exact .skip stands (by simpa using nothing)
  case draining =>
    cases taken
    cases flag : state.worker.sigterm with
    | true => exact .break_ stands flag
    | false => exact .pass stands flag
  case exiting => cases taken; exact .release stands
  case released =>
    split at taken
    next hooked => cases taken; exact .storeFlag stands hooked
    next bare => cases taken; exact .vanish stands (by simpa using bare)
  case clearing => cases taken; exact .clear stands

def Pc.alive : Pc → Bool
  | .dead | .exiting | .released | .clearing => false
  | _ => true

inductive Move (pg : Postgres) (state : State) : Event → State → Prop where
  | session {backend event cluster} (idle : state.waking backend = .idle)
      (taken : Cluster.sessionStep state.cluster backend event = some cluster) :
      Move pg state (.session backend event) ({ state with cluster }.setWaking backend
        (if Cluster.signals state.cluster (.session backend event) then .committed else .idle))
  | storeFlag {backend} (committed : state.waking backend = .committed) :
      Move pg state (.storeFlag backend) ({ state with shouldWake := true }.setWaking backend .stored)
  | readLatch {backend} (stored : state.waking backend = .stored) :
      Move pg state (.readLatch backend) (state.setWaking backend (.read state.workerLatch))
  | setLatch {backend latch} (read : state.waking backend = .read latch) :
      Move pg state (.setLatch backend) ((state.setLatch latch).setWaking backend .idle)
  | start {slot} (dead : state.worker.pc = .dead) (wanted : state.worker.finished = false) :
      Move pg state (.start slot)
        { state with worker := { pc := .starting, slot, latch := true, loaded := state.postmaster } }
  | run {after} (ran : Run state after) : Move pg state .run after
  | statement {batchSize statement cluster} (passing : state.worker.pc = .passing batchSize)
      (taken : Cluster.workerStep pg state.cluster (statement.event batchSize state.worker.loaded.ttl) = some cluster) :
      Move pg state (.statement statement)
        ({ state with cluster }.goto (afterStatement batchSize state.cluster.worker cluster.worker))
  | fail (alive : state.worker.pc.alive = true) :
      Move pg state .fail ({ state with cluster := { state.cluster with worker := .idle } }.goto .exiting)
  | lockWait (waits : state.worker.pc = .connecting ∨
        (∃ batchSize, state.worker.pc = .passing batchSize) ∧ querying state.cluster.worker = true) :
      Move pg state .lockWait { state with worker := { state.worker with latch := false } }
  | sigterm (attached : state.worker.pc.attached = true) :
      Move pg state .sigterm
        { state with worker := { state.worker with sigterm := true, latch := true, terminated := true } }
  | reread (dead : state.worker.pc = .dead) : Move pg state .sighup { state with postmaster := state.file }
  | sighup (runs : state.worker.pc ≠ .dead) :
      Move pg state .sighup
        { state with postmaster := state.file, worker := { state.worker with sighup := true, latch := true } }
  | configure {settings} : Move pg state (.configure settings) { state with file := settings }
  | tick {elapsed} : Move pg state (.tick elapsed)
      { state with cluster := { state.cluster with clock := state.cluster.clock + elapsed } }
  | restart (dead : state.worker.pc = .dead) : Move pg state .restart {
      cluster := { state.cluster with sessions := fun _ => {}, worker := .idle }
      file := state.file
      postmaster := state.file
      worker := { loaded := state.file } }

theorem step_cases {pg : Postgres} {state after : State} {event : Event} (taken : step pg state event = some after) :
    Move pg state event after := by
  cases event <;> simp only [step] at taken
  case session =>
    split at taken
    next idle moved => cases taken; exact .session idle moved
    next => cases taken
  case storeFlag =>
    split at taken
    next committed => cases taken; exact .storeFlag committed
    next => cases taken
  case readLatch =>
    split at taken
    next stored => cases taken; exact .readLatch stored
    next => cases taken
  case setLatch =>
    split at taken
    next read => cases taken; exact .setLatch read
    next => cases taken
  case start =>
    split at taken
    next ready => cases taken; exact .start ready.1 (by simpa using ready.2)
    next => cases taken
  case run => exact .run (run_cases taken)
  case statement =>
    split at taken
    next passing =>
      obtain ⟨cluster, moved, rfl⟩ := Option.map_eq_some_iff.mp taken
      exact .statement passing moved
    next => cases taken
  case fail =>
    split at taken
    iterate 4
      next => cases taken
    next dead exiting released clearing =>
      cases taken
      refine .fail ?_
      unfold Pc.alive
      split <;> first | contradiction | rfl
  case lockWait =>
    split at taken
    next connecting => cases taken; exact .lockWait (.inl connecting)
    next passing querying => cases taken; exact .lockWait (.inr ⟨⟨_, passing⟩, querying⟩)
    next => cases taken
  case sigterm =>
    split at taken
    next attached => cases taken; exact .sigterm attached
    next => cases taken
  case sighup =>
    split at taken
    next dead => cases taken; exact .reread dead
    next runs => cases taken; exact .sighup runs
  case configure => cases taken; exact .configure
  case tick => cases taken; exact .tick
  case restart =>
    split at taken
    next dead => cases taken; exact .restart dead
    next => cases taken

theorem setWaking_other {state : State} {backend other : BackendId} (waking : Waking) (apart : other ≠ backend) :
    (state.setWaking backend waking).waking other = state.waking other := if_neg apart

theorem Run.waking {state after : State} (ran : Run state after) : after.waking = state.waking := by
  cases ran <;> rfl

theorem step_waking {pg : Postgres} {state after : State} {event : Event} {backend : BackendId}
    (taken : step pg state event = some after) (apart : event.backend? ≠ some backend)
    (idle : state.waking backend = .idle) : after.waking backend = .idle := by
  have elsewhere {actor : BackendId} (same : event.backend? = some actor) : backend ≠ actor := by
    rintro rfl
    exact apart same
  cases step_cases taken with
  | session | storeFlag | readLatch | setLatch => exact (setWaking_other _ (elsewhere rfl)).trans idle
  | run ran => rw [ran.waking, idle]
  | restart => rfl
  | _ => exact idle

theorem Run.cluster {state after : State} (ran : Run state after) : after.cluster = state.cluster := by
  cases ran <;> rfl

theorem simulates (pg : Postgres) : (machine pg).Simulates (Cluster.machine pg) State.cluster where
  initial := by
    intro state begins
    obtain ⟨clock, file, rfl⟩ := begins
    exact ⟨clock, rfl⟩
  step before event after taken := by
    cases step_cases taken with
    | session idle moved => exact ⟨[.session _ _], congrArg (Option.bind · _) moved⟩
    | statement passing moved => exact ⟨[.worker _], congrArg (Option.bind · _) moved⟩
    | run ran => exact ⟨[], congrArg some ran.cluster.symm⟩
    | tick => exact ⟨[.tick _], rfl⟩
    | restart dead => exact ⟨[.restart], rfl⟩
    | fail alive =>
      cases stage : before.cluster.worker with
      | idle => exact ⟨[], congrArg some (by rw [State.goto, ← stage])⟩
      | _ =>
        refine ⟨[.worker .fail], ?_⟩
        simp only [Machine.run_cons, Cluster.machine, Cluster.step, Cluster.workerStep, stage]
        rfl
    | _ => exact ⟨[], rfl⟩

theorem reachable_cluster {pg : Postgres} {allowed : State → Event → Prop} {state : State}
    (reached : (machine pg).Reaches allowed state) : (Cluster.machine pg).Reachable state.cluster :=
  (simulates pg).reachable reached

def Pc.serves : Pc → Bool
  | .waiting | .woken | .reloading | .swapping | .draining _ | .passing _ => true
  | _ => false

/-- What the worker process has left in the tables and in the shared memory. -/
structure Settled (state : State) : Prop where
  stage : (∀ batchSize, state.worker.pc ≠ .passing batchSize) → state.cluster.worker = .idle
  published : state.worker.pc.serves = true → state.workerLatch = some state.worker.slot
  exitHook : state.worker.pc.serves = true ∨ state.worker.pc = .hooked → state.worker.exitHook = true

theorem Run.outside {state after : State} (ran : Run state after) (batchSize : BatchSize) :
    state.worker.pc ≠ .passing batchSize := by
  cases ran <;> simp_all

private theorem Run.settled {state after : State} (ran : Run state after) (settled : Settled state) : Settled after where
  stage _ := ran.cluster ▸ settled.stage ran.outside
  published := by
    have before := settled.published
    cases ran <;> simp_all [State.goto, Pc.serves]
  exitHook := by
    have before := settled.exitHook
    cases ran <;> simp_all [State.goto, Pc.serves]

theorem afterStatement_open {batchSize : BatchSize} {before after : Stage} (opened : after ≠ .idle) :
    afterStatement batchSize before after = .passing batchSize := by
  unfold afterStatement
  split <;> first | rfl | contradiction

theorem step_settled {pg : Postgres} {state after : State} {event : Event} (taken : step pg state event = some after)
    (settled : Settled state) : Settled after := by
  cases step_cases taken with
  | session idle moved =>
    exact { settled with stage := fun outside => (Cluster.sessionStep_frame moved).worker ▸ settled.stage outside }
  | start dead wanted => exact ⟨fun _ => settled.stage (by simp [dead]), nofun, nofun⟩
  | run ran => exact ran.settled settled
  | statement passing moved =>
    have serves : state.worker.pc.serves = true := by rw [passing]; rfl
    refine ⟨fun outside => ?_, fun _ => settled.published serves, fun _ => settled.exitHook (.inl serves)⟩
    by_contra opened
    exact outside _ (afterStatement_open opened)
  | fail alive => exact ⟨fun _ => rfl, nofun, nofun⟩
  | restart dead => exact ⟨fun _ => rfl, nofun, nofun⟩
  | _ => exact { settled with }

theorem reachable_settled {pg : Postgres} {allowed : State → Event → Prop} {state : State}
    (reached : (machine pg).Reaches allowed state) : Settled state := by
  apply reached.invariant Settled
  · intro start begins
    obtain ⟨clock, file, rfl⟩ := begins
    exact ⟨fun _ => rfl, nofun, nofun⟩
  · intro before event after _ _ taken settled
    exact step_settled taken settled

end PgGrpc.Server
