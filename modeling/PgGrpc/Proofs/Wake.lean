import PgGrpc.Proofs.ClusterSteps

/-! When a commit wakes the worker. `WAKE_CB_ACTIVE` belongs to a process, the rows
to a transaction; the two agree as long as a transaction stays in the process
that began it. -/

namespace PgGrpc.Cluster
open Library

/-- What an event leaves of the fact that a backend has enqueued a call since one
of its transactions last ended. PREPARE TRANSACTION is no such end. -/
def enqueued (backend : BackendId) (before : Bool) : Event → Bool
  | .session actor event =>
    if actor = backend then
      match event with
      | .call args => before || (grpcCallAsync args 0).isOk
      | .commit | .rollback | .commitPrepared _ | .rollbackPrepared _ => false
      | _ => before
    else before
  | .restart => false
  | _ => before

/-- A backend has enqueued a call in these events and has not committed or rolled back since. -/
def Pending (backend : BackendId) (events : List Event) : Prop :=
  events.foldl (enqueued backend) false = true

instance (backend : BackendId) (events : List Event) : Decidable (Pending backend events) :=
  inferInstanceAs (Decidable (_ = true))

private theorem sessionStep_flag {state after : State} {actor backend : BackendId} {event : SessionEvent}
    (taken : sessionStep state actor event = some after) :
    (after.sessions backend).wakeCbActive =
      enqueued backend (state.sessions backend).wakeCbActive (.session actor event) := by
  by_cases other : backend = actor
  · subst other
    cases event <;> simp only [sessionStep] at taken
    case call args =>
      have same := grpcCallAsync_isOk args 0 state.nextId
      split at taken
      next error refused =>
        cases taken
        rw [refused] at same
        simp only [enqueued, if_true, same]
        exact (Bool.or_false _).symm
      next row made =>
        cases taken
        rw [made] at same
        simp only [setSession_self, enqueued, if_true, same]
        exact (Bool.or_true _).symm
    all_goals
      repeat' split at taken
      all_goals cases taken
      all_goals simp [enqueued, Session.endXact, wakeWorkerOnCommit]
  · rw [sessionStep_other taken other]
    simp [enqueued, Ne.symm other]

theorem step_flag {pg : Postgres} {state after : State} {event : Event} (backend : BackendId)
    (taken : step pg state event = some after) :
    (after.sessions backend).wakeCbActive = enqueued backend (state.sessions backend).wakeCbActive event := by
  cases event with
  | session actor event => exact sessionStep_flag taken
  | worker event => rw [(workerStep_frame taken).sessions]; rfl
  | tick elapsed => cases taken; rfl
  | restart => cases taken; rfl

/-- The flag is the history of its own process, and of nothing else. -/
theorem run_flag {pg : Postgres} {state after : State} {events : List Event} (backend : BackendId)
    (executed : (machine pg).run state events = some after) :
    (after.sessions backend).wakeCbActive = events.foldl (enqueued backend) (state.sessions backend).wakeCbActive := by
  induction events generalizing state with
  | nil => cases executed; rfl
  | cons event rest ih =>
    obtain ⟨next, taken, remaining⟩ := Option.bind_eq_some_iff.mp executed
    rw [ih remaining, List.foldl_cons, step_flag backend taken]

/-- An open transaction with rows of its own has the flag of its process. -/
def Flagged (state : State) : Prop :=
  ∀ backend, (state.sessions backend).rows ≠ [] → (state.sessions backend).wakeCbActive = true

private theorem sessionStep_flagged {state after : State} {actor : BackendId} {event : SessionEvent}
    (flagged : Flagged state) (taken : sessionStep state actor event = some after) : Flagged after := by
  intro backend
  by_cases other : backend = actor
  · subst other
    have before := flagged backend
    cases event <;> simp only [sessionStep] at taken
    all_goals
      repeat' split at taken
      all_goals cases taken
      all_goals simp_all [Session.rows, Session.endXact]
  · rw [sessionStep_other taken other]
    exact flagged backend

theorem reachable_flagged {pg : Postgres} {state : State} (reached : (machine pg).Reachable state) : Flagged state := by
  apply reached.invariant Flagged
  · intro start begins backend rows
    obtain ⟨clock, rfl⟩ := begins
    exact absurd rfl rows
  · intro before event after _ _ taken flagged
    cases event with
    | session actor event => exact sessionStep_flagged flagged taken
    | worker event => intro backend; rw [(workerStep_frame taken).sessions]; exact flagged backend
    | tick elapsed => cases taken; exact flagged
    | restart => cases taken; exact fun backend rows => absurd rfl rows

/-- A step that makes an enqueued row visible wakes the worker, except a COMMIT
PREPARED in a process that has no enqueued call of its own pending. -/
theorem publish_wakes_iff {pg : Postgres} {start state after : State} {events : List Event} {event : Event}
    (initial : (machine pg).initial start) (executed : (machine pg).run start events = some state)
    (taken : step pg state event = some after) (appears : ∃ row ∈ after.tables.queue, row ∉ state.tables.queue) :
    signals state event = true ↔ ∀ backend gid, event = .session backend (.commitPrepared gid) → Pending backend events := by
  have flag (backend : BackendId) : Pending backend events ↔ (state.sessions backend).wakeCbActive = true := by
    obtain ⟨clock, rfl⟩ := initial
    rw [run_flag backend executed]
    rfl
  obtain ⟨row, visible, new⟩ := appears
  cases step_publishes taken visible new with
  | @commit backend row own =>
    refine iff_of_true ?_ nofun
    exact reachable_flagged (Machine.reachable_of_run initial executed) backend (List.ne_nil_of_mem own)
  | @commitPrepared backend gid rows row held member =>
    refine ⟨fun woken actor other same => ?_, fun pending => (flag backend).mp (pending backend gid rfl)⟩
    cases same
    exact (flag backend).mpr woken

private def prepares : List Event :=
  [.session 0 .statement, .session 0 (.call .sample), .session 0 (.prepare 7)]

private def shows (backend : BackendId) (state : State) : Bool :=
  match step .sample state (.session backend (.commitPrepared 7)) with
  | some after => decide (state.tables.queueIds = [] ∧ after.tables.queueIds = [1])
  | none => false

private theorem appears {backend : BackendId} {state : State} (shown : shows backend state = true) :
    ∃ after, step .sample state (.session backend (.commitPrepared 7)) = some after ∧
      ∃ row ∈ after.tables.queue, row ∉ state.tables.queue := by
  unfold shows at shown
  split at shown
  next after taken =>
    obtain ⟨before, later⟩ := of_decide_eq_true shown
    obtain ⟨row, member, _⟩ := List.mem_map.mp (show 1 ∈ after.tables.queueIds by simp [later])
    rw [Tables.queueIds, List.map_eq_nil_iff] at before
    exact ⟨after, taken, row, member, by simp [before]⟩
  next => cases shown

theorem commitPrepared_wakes : ∃ state, (machine .sample).run { clock := 0 } prepares = some state ∧
    signals state (.session 0 (.commitPrepared 7)) = true := by
  obtain ⟨state, executed, _, shown⟩ := (machine .sample).exists_of_run ⟨0, rfl⟩ prepares (shows 0) (by decide)
  obtain ⟨after, taken, new⟩ := appears shown
  refine ⟨state, executed, (publish_wakes_iff ⟨0, rfl⟩ executed taken new).mpr fun backend gid same => ?_⟩
  cases same
  decide

/-- A transaction prepared in one backend and committed from another becomes
visible without a signal. -/
theorem commitPrepared_silent : ∃ state after, (machine .sample).Reachable state ∧
    step .sample state (.session 1 (.commitPrepared 7)) = some after ∧
    (∃ row ∈ after.tables.queue, row ∉ state.tables.queue) ∧
    signals state (.session 1 (.commitPrepared 7)) = false := by
  obtain ⟨state, _, reached, checked⟩ := (machine .sample).exists_of_run ⟨0, rfl⟩ prepares
    (fun state => shows 1 state && !signals state (.session 1 (.commitPrepared 7))) (by decide)
  obtain ⟨shown, silent⟩ := Bool.and_eq_true_iff.mp checked
  obtain ⟨after, taken, new⟩ := appears shown
  exact ⟨state, after, reached, taken, new, by simpa using silent⟩

end PgGrpc.Cluster
