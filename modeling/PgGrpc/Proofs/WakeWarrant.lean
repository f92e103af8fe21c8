import PgGrpc.Proofs.Wake

/-! Commits that wake the worker for nothing. The rows of a transaction are nested as
its savepoints are and end with it; the flag of its process is neither nested nor
cleared by PREPARE TRANSACTION. -/

namespace PgGrpc.Cluster
open Library

def Session.outer (session : Session) : List QueueRow := session.base ++ session.nested.tail.flatten

/-- The step does not take from the backend's transaction the last row it has enqueued,
unless it commits the transaction or rolls it back. -/
def Retains (backend : BackendId) (state : State) : Event → Prop
  | .session actor .rollbackTo =>
    actor = backend → (state.sessions backend).rows ≠ [] → (state.sessions backend).outer ≠ []
  | .session actor (.prepare _) => actor = backend → (state.sessions backend).rows = []
  | _ => True

/-- Whichever commit comes next in the backend, it wakes the worker only if a row of
the committed transaction is in the queue. -/
def Warranted (pg : Postgres) (backend : BackendId) (state : State) : Prop :=
  ∀ event after, step pg state (.session backend event) = some after → signals state (.session backend event) = true →
    ∃ row ∈ after.tables.queue, row ∈ (state.sessions backend).rows

variable {pg : Postgres} {backend : BackendId} {state after : State} {event : Event}

private theorem idle_rows {session : Session} (idle : session.idle = true) : session.rows = [] :=
  List.map_eq_nil_iff.mp (Session.idle_ids idle)

theorem warranted_iff : Warranted pg backend state ↔
    ((state.sessions backend).wakeCbActive = true → (state.sessions backend).rows ≠ []) := by
  constructor
  · intro warranted flag
    obtain ⟨row, _, own⟩ := warranted .commit _ rfl (by simp [signals, SessionEvent.xactEvent, wakeWorkerOnCommit, flag])
    exact List.ne_nil_of_mem own
  · intro agrees event after taken woken
    have active : (state.sessions backend).wakeCbActive = true := by
      cases event <;> simp_all [signals, SessionEvent.xactEvent, wakeWorkerOnCommit]
    have rows := agrees active
    cases event <;> simp only [step, sessionStep] at taken
    case commit =>
      cases taken
      obtain ⟨row, own⟩ := List.exists_mem_of_ne_nil _ rows
      exact ⟨row, List.mem_append_right _ own, own⟩
    case commitPrepared | rollbackPrepared =>
      split at taken
      next idle _ => exact absurd (idle_rows idle) rows
      next => cases taken
    all_goals simp [signals, SessionEvent.xactEvent, wakeWorkerOnCommit] at woken

/-- While the flag and the rows agree, the steps that retain a row are those that keep them in agreement. -/
private theorem sessionStep_agrees {event : SessionEvent} (taken : sessionStep state backend event = some after)
    (agrees : (state.sessions backend).wakeCbActive = true ↔ (state.sessions backend).rows ≠ []) :
    Retains backend state (.session backend event) ↔
      ((after.sessions backend).wakeCbActive = true → (after.sessions backend).rows ≠ []) := by
  cases event <;> simp only [sessionStep] at taken
  case rollbackTo =>
    split at taken
    next => cases taken
    next top outer deep =>
      cases taken
      simp [Retains, Session.outer, deep, agrees, Session.rows]
  case prepare gid =>
    split at taken
    next => cases taken
    next =>
      cases taken
      simp [Retains, Session.endXact, wakeWorkerOnCommit, Session.rows, agrees]
  case call args =>
    split at taken
    next => cases taken; exact iff_of_true trivial agrees.mp
    next row made =>
      cases taken
      refine iff_of_true trivial fun _ none => ?_
      rw [setSession_self] at none
      change ((state.sessions backend).addRow row).rows = [] at none
      have grown := ((state.sessions backend).addRow_rows row).length_eq
      simp [none] at grown
  all_goals
    repeat' split at taken
    all_goals cases taken
    all_goals simp_all [Retains, Session.endXact, wakeWorkerOnCommit, Session.rows]

theorem step_warranted (reached : (machine pg).Reachable state) (warranted : Warranted pg backend state)
    (taken : step pg state event = some after) : Retains backend state event ↔ Warranted pg backend after := by
  rw [warranted_iff] at warranted ⊢
  have agrees := Iff.intro warranted (reachable_flagged reached backend)
  cases event with
  | session actor event =>
    by_cases other : backend = actor
    · subst other
      exact sessionStep_agrees taken agrees
    · rw [sessionStep_other taken other]
      refine iff_of_true ?_ warranted
      cases event <;> simp [Retains, Ne.symm other]
  | worker event =>
    rw [(workerStep_frame taken).sessions]
    exact iff_of_true trivial warranted
  | tick elapsed =>
    cases taken
    exact iff_of_true trivial warranted
  | restart =>
    cases taken
    exact iff_of_true trivial nofun

/-- In a run all of whose steps retain a row, and in no other, no commit of the
backend would have woken the worker for nothing. -/
theorem warranted_run_iff {start final : State} {events : List Event} (initial : (machine pg).initial start)
    (executed : (machine pg).run start events = some final) :
    (machine pg).Path (Retains backend) start events final ↔
      ∀ before rest middle, events = before ++ rest → (machine pg).run start before = some middle →
        Warranted pg backend middle := by
  have reached {before : List Event} {middle : State} (ran : (machine pg).run start before = some middle) :
      (machine pg).Reachable middle := Machine.reachable_of_run initial ran
  constructor
  · intro path before rest middle same ran
    obtain ⟨_, each⟩ := Machine.path_iff.mp path
    induction before using List.reverseRecOn generalizing rest middle with
    | nil =>
      cases ran
      obtain ⟨clock, rfl⟩ := initial
      exact warranted_iff.mpr nofun
    | append_singleton before event ih =>
      rw [Machine.run_append] at ran
      obtain ⟨state, earlier, last⟩ := Option.bind_eq_some_iff.mp ran
      obtain ⟨next, taken, stays⟩ := Option.bind_eq_some_iff.mp last
      cases stays
      rw [List.append_assoc] at same
      have warranted := ih _ _ same earlier
      exact (step_warranted (reached earlier) warranted taken).mp (each before event rest state same earlier)
  · intro all
    refine Machine.path_iff.mpr ⟨executed, fun before event rest middle same ran => ?_⟩
    have whole := executed
    rw [same, Machine.run_append, ran, Option.bind_some] at whole
    obtain ⟨next, taken, _⟩ := Option.bind_eq_some_iff.mp whole
    refine (step_warranted (reached ran) (all before _ middle same ran) taken).mpr ?_
    apply all (before ++ [event]) rest next (by rw [same, List.append_assoc]; rfl)
    rw [Machine.run_append, ran, Option.bind_some, Machine.run_cons, show (machine pg).step middle event = some next from taken]
    rfl

/-- A call in a savepoint that is released, one whose savepoint is rolled back, and the commit. -/
private def released : List Event :=
  [.savepoint, .statement, .call .sample, .release, .savepoint, .statement, .call .sample, .rollbackTo, .commit].map
    (.session 0)

private def retains (state : State) : Event → Bool
  | .session _ .rollbackTo => (state.sessions 0).rows.isEmpty || !(state.sessions 0).outer.isEmpty
  | .session _ (.prepare _) => (state.sessions 0).rows.isEmpty
  | _ => true

private theorem retains_of_check (state : State) (event : Event) (check : retains state event = true) :
    Retains 0 state event := by
  cases event with
  | session actor event =>
    cases event with
    | rollbackTo =>
      intro _ rows
      simpa [retains, rows] using check
    | prepare gid => exact fun _ => by simpa [retains] using check
    | _ => trivial
  | _ => trivial

theorem warranted_run_released : ∃ final, (machine .sample).run { clock := 0 } released = some final ∧
    final.tables.queueIds = [1] ∧ ∀ before rest middle, released = before ++ rest →
      (machine .sample).run { clock := 0 } before = some middle → Warranted .sample 0 middle := by
  obtain ⟨final, path, _, checked⟩ := (machine .sample).exists_allowed retains retains_of_check ⟨0, rfl⟩ released
    (fun final => decide (final.tables.queueIds = [1])) (by decide)
  refine ⟨final, path.run, of_decide_eq_true checked, ?_⟩
  exact (warranted_run_iff ⟨0, rfl⟩ path.run).mp (path.weaken retains_of_check)

private def rolledBack : List Event := [.savepoint, .statement, .call .sample, .rollbackTo].map (.session 0)

private def preparedAway : List Event := [.statement, .call .sample, .prepare 7].map (.session 0)

/-- A commit that adds nothing to the queue and wakes the worker all the same. -/
private def wakesForNothing (state : State) : Bool :=
  signals state (.session 0 .commit) && (state.sessions 0).rows.isEmpty && state.tables.queue.isEmpty

private theorem not_warranted {state : State} (check : wakesForNothing state = true) : ¬ Warranted .sample 0 state ∧
    ∃ after, step .sample state (.session 0 .commit) = some after ∧ signals state (.session 0 .commit) = true ∧
      after.tables.queue = [] := by
  simp only [wakesForNothing, Bool.and_eq_true, List.isEmpty_iff] at check
  obtain ⟨⟨woken, rows⟩, queue⟩ := check
  refine ⟨fun warranted => ?_, _, rfl, woken, ?_⟩
  · obtain ⟨row, _, own⟩ := warranted .commit _ rfl woken
    rw [rows] at own
    cases own
  · change state.tables.queue ++ (state.sessions 0).rows = []
    rw [queue, rows, List.append_nil]

/-- The next commit after the run wakes the worker, which finds nothing. -/
def WakesAfter (events : List Event) : Prop := ∃ state, (machine .sample).Reachable state ∧
  (machine .sample).run { clock := 0 } events = some state ∧ ¬ Warranted .sample 0 state ∧
  ∃ after, step .sample state (.session 0 .commit) = some after ∧ signals state (.session 0 .commit) = true ∧
    after.tables.queue = []

private theorem wakes_after {events : List Event}
    (executed : ((machine .sample).run { clock := 0 } events).map wakesForNothing = some true) : WakesAfter events := by
  obtain ⟨state, ran, reached, check⟩ := (machine .sample).exists_of_run ⟨0, rfl⟩ events wakesForNothing executed
  exact ⟨state, reached, ran, not_warranted check⟩

/-- The only enqueued call is rolled back with its savepoint, or prepared with its transaction. -/
theorem wakes_for_nothing : WakesAfter rolledBack ∧ WakesAfter preparedAway :=
  ⟨wakes_after (by decide), wakes_after (by decide)⟩

end PgGrpc.Cluster
