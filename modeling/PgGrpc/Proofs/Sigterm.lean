import PgGrpc.Proofs.ServerSteps

/-! The SIGTERM flag. Two loops read it and reading clears it; the outer loop leaves
when it finds it set, the inner loop only returns to the outer one. -/

namespace PgGrpc.Server
open Library Queue
open Cluster (BackendId SessionEvent Stage)

/-- The worker blocks, and nothing tells it any more that it was asked to stop. -/
structure Swallowed (state : State) : Prop where
  terminated : state.worker.terminated = true
  waiting : state.worker.pc = .waiting
  latch : state.worker.latch = false
  flag : state.worker.sigterm = false

/-- The `sigterm_received()` of the inner loop does not find the flag set. -/
def Unread (state : State) (event : Event) : Prop :=
  ∀ batchSize, event = .run → state.worker.pc = .draining batchSize → state.worker.sigterm = false

/-- A process that was asked to stop still has the flag, or is on its way out. -/
def Heeded (state : State) : Prop :=
  state.worker.terminated = true → state.worker.sigterm = true ∨ state.worker.pc.alive = false

private theorem run_heeded {state after : State} (ran : Run state after) (unread : Unread state .run)
    (heeded : Heeded state) : Heeded after := by
  intro terminated
  have before : state.worker.terminated = true := by cases ran <;> exact terminated
  cases ran with
  | clearLatch pc | connect pc | hook pc | storeLatch pc | wake pc | reload pc | take pc | skip pc =>
    exact .inl ((heeded before).resolve_right (by simp [pc, Pc.alive]))
  | stay pc clear => simpa [clear, pc, Pc.alive] using heeded before
  | pass pc clear => simpa [clear, pc, Pc.alive] using heeded before
  | break_ pc flag => cases flag.symm.trans (unread _ rfl pc)
  | leave | release | storeFlag | vanish | clear => exact .inr rfl

theorem step_heeded {pg : Postgres} {state after : State} {event : Event} (unread : Unread state event)
    (taken : step pg state event = some after) (heeded : Heeded state) : Heeded after := by
  cases step_cases taken with
  | run ran => exact run_heeded ran unread heeded
  | start | restart => exact nofun
  | statement passing => exact fun terminated => .inl ((heeded terminated).resolve_right (by simp [passing, Pc.alive]))
  | fail => exact fun _ => .inr rfl
  | sigterm => exact fun _ => .inl rfl
  | _ => exact heeded

/-- As long as the inner loop never finds the flag set, the worker never blocks
after a SIGTERM. -/
theorem sigterm_kept {pg : Postgres} {state : State} (reached : (machine pg).Reaches Unread state) : ¬ Swallowed state := by
  have heeded : Heeded state := by
    apply reached.invariant Heeded
    · intro start begins
      obtain ⟨clock, file, rfl⟩ := begins
      exact nofun
    · exact fun before event after _ unread taken => step_heeded unread taken
  intro swallowed
  obtain ⟨terminated, waiting, latch, flag⟩ := swallowed
  simpa [waiting, flag, Pc.alive] using heeded terminated

private def unread (state : State) (event : Event) : Bool :=
  match event, state.worker.pc with
  | .run, .draining _ => !state.worker.sigterm
  | _, _ => true

private theorem unread_of_check (state : State) (event : Event) (check : unread state event = true) :
    Unread state event := by
  rintro batchSize rfl draining
  simpa [unread, draining] using check

private def answer : Worker.Joins := ⟨[1], [(1, .finished (.success .null))]⟩

theorem sigterm_kept_idle : ∃ state, (machine .sample).Reaches Unread state ∧ state.worker.terminated = true ∧
    state.worker.pc = .waiting ∧ ¬ Swallowed state := by
  obtain ⟨state, _, reached, checked⟩ := (machine .sample).exists_allowed unread unread_of_check ⟨0, .default, rfl⟩
    (boot 7 ++ enqueue 0 .sample ++ awaken ++ pass false answer ++
      [.run, .statement .begin, .statement .dequeue, .sigterm, .statement .cleanup, .statement .commit])
    (fun state => state.worker.terminated && state.worker.pc = .waiting) (by decide)
  simp only [Bool.and_eq_true, decide_eq_true_eq] at checked
  exact ⟨state, reached, checked.1, checked.2, sigterm_kept reached⟩

/-- A SIGTERM while the calls of a batch run is read by the inner loop, and the worker waits. -/
theorem sigterm_swallowed : ∃ state, (machine .sample).Reachable state ∧ Swallowed state := by
  obtain ⟨state, _, reached, checked⟩ := (machine .sample).exists_of_run ⟨0, .default, rfl⟩
    (boot 7 ++ enqueue 0 .sample ++ awaken ++
      [.run, .statement .begin, .statement .dequeue, .sigterm, .statement (.execute answer), .statement .insert,
        .statement .cleanup, .statement .commit, .run] ++ List.replicate 4 .run)
    (fun state => state.worker.terminated && state.worker.pc = .waiting && !state.worker.latch &&
      !state.worker.sigterm) (by decide)
  simp only [Bool.and_eq_true, decide_eq_true_eq, Bool.not_eq_true'] at checked
  obtain ⟨⟨⟨terminated, waiting⟩, latch⟩, flag⟩ := checked
  exact ⟨state, reached, ⟨terminated, waiting, latch, flag⟩⟩

end PgGrpc.Server
