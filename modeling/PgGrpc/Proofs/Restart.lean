import PgGrpc.Proofs.LostWakeup

/-! A clean restart. The rows of the queue are still there afterwards, the flag that
stands for them is not, and nothing but a new call sets it again. -/

namespace PgGrpc.Server
open Library Queue
open Cluster (BackendId SessionEvent Stage)

/-- Steps without a new call, in which the worker neither fails nor is stopped. -/
def Undisturbed : Event → Prop
  | .session _ (.call _) | .fail | .sigterm | .restart => False
  | _ => True

/-- Without any new call the worker comes to drain what the queue holds. -/
def Survives (pg : Postgres) (state : State) : Prop :=
  state.cluster.tables.queue ≠ [] → ∃ events after batchSize,
    (machine pg).Path (fun _ event => Undisturbed event) state events after ∧ after.worker.pc = .draining batchSize

def Pc.sleeps : Pc → Bool
  | .draining _ | .passing _ | .exiting | .released | .clearing => false
  | _ => true

/-- Nobody has announced anything, and nobody has anything to announce. -/
structure Asleep (state : State) : Prop where
  flag : state.shouldWake = false
  callbacks : ∀ backend, (state.cluster.sessions backend).wakeCbActive = false
  quiet : ∀ backend, state.waking backend = .idle
  sigterm : state.worker.sigterm = false
  sleeps : state.worker.pc.sleeps = true

section Steps
variable {pg : Postgres} {state after : State}

theorem restart_asleep {before : State} (taken : step pg before .restart = some state) : Asleep state := by
  cases step_cases taken with
  | restart dead => exact ⟨rfl, fun _ => rfl, fun _ => rfl, rfl, rfl⟩

private theorem session_asleep {cluster : Cluster.State} {actor : BackendId} {event : SessionEvent}
    (undisturbed : Undisturbed (.session actor event)) (idle : state.waking actor = .idle)
    (moved : Cluster.sessionStep state.cluster actor event = some cluster) (asleep : Asleep state) :
    Asleep (({ state with cluster } : State).setWaking actor
      (if Cluster.signals state.cluster (.session actor event) then .committed else .idle)) := by
  have silent : Cluster.signals state.cluster (.session actor event) = false := by
    cases event <;> simp [Cluster.signals, Cluster.SessionEvent.xactEvent, wakeWorkerOnCommit, asleep.callbacks]
  have same : ({ state with cluster } : State).setWaking actor .idle = { state with cluster } := setWaking_same idle
  rw [silent, if_neg (by simp), same]
  refine { asleep with callbacks := fun backend => ?_ }
  have taken : Cluster.step .sample state.cluster (.session actor event) = some cluster := moved
  rw [Cluster.step_flag backend taken, asleep.callbacks]
  cases event with
  | call args => exact undisturbed.elim
  | _ => simp [Cluster.enqueued]

private theorem run_asleep (ran : Run state after) (asleep : Asleep state) : Asleep after := by
  have awake {pc : Pc} (stands : state.worker.pc = pc) : pc.sleeps = true := stands ▸ asleep.sleeps
  cases ran with
  | clearLatch | connect | hook | storeLatch | wake | reload | skip => exact { asleep with sleeps := rfl }
  | stay => exact { asleep with sigterm := rfl, sleeps := rfl }
  | leave pc flag => cases flag.symm.trans asleep.sigterm
  | take pc pending => cases pending.symm.trans asleep.flag
  | break_ pc | pass pc | release pc | storeFlag pc | vanish pc | clear pc => cases awake pc

theorem step_asleep {event : Event} (undisturbed : Undisturbed event) (taken : step pg state event = some after)
    (asleep : Asleep state) : Asleep after := by
  cases step_cases taken with
  | session idle moved => exact session_asleep undisturbed idle moved asleep
  | storeFlag busy | readLatch busy | setLatch busy => cases (asleep.quiet _).symm.trans busy
  | start => exact { asleep with sigterm := rfl, sleeps := rfl }
  | run ran => exact run_asleep ran asleep
  | statement passing => have sleeps := asleep.sleeps; rw [passing] at sleeps; cases sleeps
  | fail | sigterm | restart => exact undisturbed.elim
  | _ => exact { asleep with }

theorem path_asleep {events : List Event} (path : (machine pg).Path (fun _ event => Undisturbed event) state events after)
    (asleep : Asleep state) : Asleep after :=
  path.preserves Asleep (fun _ _ _ undisturbed taken => step_asleep undisturbed taken) asleep

private theorem not_survives {before : State} (taken : step pg before .restart = some state)
    (calls : state.cluster.tables.queue ≠ []) : ¬ Survives pg state := by
  intro survives
  obtain ⟨events, after, batchSize, path, draining⟩ := survives calls
  have sleeps := (path_asleep path (restart_asleep taken)).sleeps
  rw [draining] at sleeps
  cases sleeps

/-- After a clean restart the rows that were left are drained without a new call
only when there are none. -/
theorem restart_survives_iff {before : State} (taken : step pg before .restart = some state) :
    Survives pg state ↔ state.cluster.tables.queue = [] := by
  constructor
  · intro survives
    by_contra calls
    exact not_survives taken calls survives
  · exact fun empty calls => absurd empty calls

end Steps

theorem restart_survives_empty : ∃ before state, step .sample before .restart = some state ∧ Survives .sample state := by
  have taken : step .sample (.fresh 0 .default) .restart = some (.fresh 0 .default) := rfl
  exact ⟨_, _, taken, (restart_survives_iff taken).mpr rfl⟩

private def stop : List Event := boot 7 ++ [.sigterm] ++ enqueue 0 .sample ++ List.replicate 5 .run

private def stranded (state : State) : Bool :=
  match step .sample state .restart with
  | some after => ((machine .sample).run after (boot 8)).map (fun last => last.worker.pc = .waiting &&
      !last.worker.latch && !last.cluster.tables.queue.isEmpty && !after.cluster.tables.queue.isEmpty) == some true
  | none => false

/-- A call committed during the shutdown stays in the queue. The new worker has
looked at the flag and waits, with its latch clear. -/
theorem restart_strands : ∃ before state last, (machine .sample).Reachable before ∧
    step .sample before .restart = some state ∧ ¬ Survives .sample state ∧
    (machine .sample).run state (boot 8) = some last ∧ Lost last := by
  obtain ⟨before, _, reached, checked⟩ := (machine .sample).exists_of_run ⟨0, .default, rfl⟩ stop stranded (by decide)
  unfold stranded at checked
  split at checked
  next state taken =>
    obtain ⟨last, executed, ended⟩ := Option.map_eq_some_iff.mp (eq_of_beq checked)
    simp only [Bool.and_eq_true, decide_eq_true_eq, Bool.not_eq_true', List.isEmpty_eq_false_iff] at ended
    obtain ⟨⟨⟨waiting, latch⟩, left⟩, calls⟩ := ended
    have path := Machine.path_of_run Undisturbed (by simp [boot, Undisturbed]) executed
    have quiet := (path_asleep path (restart_asleep taken)).quiet
    exact ⟨before, state, last, reached, taken, not_survives taken calls, executed, ⟨waiting, latch, quiet, left⟩⟩
  next => cases checked

end PgGrpc.Server
