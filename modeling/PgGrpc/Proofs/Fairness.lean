import PgGrpc.Proofs.DrainLoop
import PgGrpc.Proofs.Executions
import PgGrpc.Proofs.IssuedRows

/-! How long a committed call can be passed over. A batch takes the lowest ids, so
beside what the worker had in its hands before, only older calls are answered first. -/

namespace PgGrpc.Cluster
open Library Lifecycle

/-- The id of the call is lower, or the worker held it from the start. -/
def Ahead (held : List Int) (id other : Int) : Prop := other < id ∨ other ∈ held

/-- The call still waits: only ids ahead of it have been answered, and the worker holds
either the call itself or ids ahead of it. -/
structure PassedBy (held : List Int) (id : Int) (new : List Int) (state : State) : Prop where
  queued : id ∈ state.tables.queueIds
  answered : ∀ other ∈ new, Ahead held id other
  hand : id ∈ state.worker.taken ∨ ∀ other ∈ state.worker.taken, Ahead held id other

/-- The call has been passed by, or it is answered. -/
def Served (held stored : List Int) (id : Int) (state : State) : Prop :=
  ∃ new, state.ledger.stored = stored ++ new ∧ (PassedBy held id new state ∨ id ∈ state.ledger.stored)

section Steps
variable {pg : Postgres} {state after : State} {phases : Phases} {held stored new : List Int} {id : Int} {event : WorkerEvent}

private theorem PassedBy.quiet (passed : PassedBy held id new state) (queue : state.tables.queueIds ⊆ after.tables.queueIds)
    (holds : after.worker.taken = state.worker.taken ∨ after.worker.taken = []) : PassedBy held id new after where
  queued := queue passed.queued
  answered := passed.answered
  hand := by
    rcases holds with same | none
    · exact same ▸ passed.hand
    · exact .inr (none ▸ List.forall_mem_nil _)

private theorem PassedBy.dequeue (passed : PassedBy held id new state) (tracks : Tracks state phases) {tx : Tx}
    (begun : state.worker = .begun tx) (batchSize : BatchSize) :
    PassedBy held id new { state with
      worker := .dequeued (Queue.dequeue batchSize state.tables tx).2 (Queue.dequeue batchSize state.tables tx).1 } := by
  have stage := tracks.worker
  rw [begun] at stage
  have deleted : tx.deleted = [] := stage.1
  refine ⟨passed.queued, passed.answered, ?_⟩
  have view : (tx.view state.tables).queueIds = state.tables.queueIds := by simp [Tx.view, deleted, Tables.queueIds]
  have picks : (Queue.dequeue batchSize state.tables tx).2.deleted = Keyed.smallest batchSize.value state.tables.queueIds := by
    rw [Queue.dequeue_tx, deleted, List.nil_append, view]
  change id ∈ (Queue.dequeue batchSize state.tables tx).2.deleted ∨
    ∀ other ∈ (Queue.dequeue batchSize state.tables tx).2.deleted, Ahead held id other
  rw [picks]
  by_cases picked : id ∈ Keyed.smallest batchSize.value state.tables.queueIds
  · exact .inl picked
  · refine .inr fun other member => .inl ?_
    have below := Keyed.smallest_le member passed.queued picked
    exact lt_of_le_of_ne below fun same => picked (same ▸ member)

private theorem PassedBy.commit (passed : PassedBy held id new state) (tracks : Tracks state phases) {tx : Tx} {drained : Bool}
    (cleaned : state.worker = .cleaned tx drained) :
    PassedBy held id (new ++ tx.inserted.map ResultRow.id) (state.commitWorker tx) ∨
      id ∈ (state.commitWorker tx).ledger.stored := by
  have stage := tracks.worker
  rw [cleaned] at stage
  have hand := stage.1.same
  have holds : state.worker.taken = tx.deleted := by rw [cleaned]; rfl
  by_cases own : id ∈ tx.deleted
  · exact .inr (List.mem_append_right _ (hand.mem_iff.mpr own))
  · refine .inl ⟨Keyed.mem_map_without QueueRow.id |>.mpr ⟨passed.queued, own⟩, ?_, .inr (List.forall_mem_nil _)⟩
    intro other member
    rcases List.mem_append.mp member with before | now
    · exact passed.answered other before
    · have ahead := (holds ▸ passed.hand).resolve_left own
      exact ahead other (hand.mem_iff.mp now)

private theorem Cleanable.taken {tx : Tx} {drained : Bool} (ready : Cleanable state tx drained) :
    state.worker.taken = tx.deleted := by
  cases ready with
  | drained stands | stored stands => rw [stands]; rfl

private theorem workerStep_served (tracks : Tracks state phases) (taken : workerStep pg state event = some after)
    (served : Served held stored id state) : Served held stored id after := by
  obtain ⟨new, same, progress⟩ := served
  have keeps (ledger : after.ledger = state.ledger) (passes : PassedBy held id new state → PassedBy held id new after) :
      Served held stored id after :=
    ⟨new, by rw [ledger, same], progress.imp passes fun answered => by rwa [ledger]⟩
  cases workerStep_cases taken with
  | begin idle => exact keeps rfl fun passed => passed.quiet (List.Subset.refl _) (.inr rfl)
  | @dequeue batchSize tx begun => exact keeps rfl fun passed => passed.dequeue tracks begun batchSize
  | execute dequeued =>
    exact keeps rfl fun passed => passed.quiet (List.Subset.refl _) (.inl (by rw [dequeued]; rfl))
  | insert executed ran =>
    exact keeps rfl fun passed =>
      passed.quiet (List.Subset.refl _) (.inl (by rw [executed]; exact (Queue.insertResults_frame ran).1))
  | cleanup ready ran =>
    obtain ⟨bound, _, cleaned⟩ := (Queue.ttlCleanup_ok ..).mp ran
    cases cleaned
    exact keeps rfl fun passed => passed.quiet (List.Subset.refl _) (.inl ready.taken.symm)
  | @commit tx drained cleaned =>
    refine ⟨new ++ tx.inserted.map ResultRow.id, ?_, ?_⟩
    · rw [← List.append_assoc, ← same]
      rfl
    · rcases progress with passed | answered
      · exact passed.commit tracks cleaned
      · exact .inr (List.mem_append_left _ answered)
  | insertError | cleanupError | fail =>
    exact keeps rfl fun passed => passed.quiet (List.Subset.refl _) (.inr rfl)

end Steps

section Runs
variable {pg : Postgres} {state final : State} {held stored : List Int} {id : Int}

private theorem step_served {before after : State} {event : Event} (reached : (machine pg).Reachable before)
    (taken : step pg before event = some after) (served : Served held stored id before) : Served held stored id after := by
  obtain ⟨new, same, progress⟩ := served
  cases event with
  | session backend event =>
    rw [step] at taken
    have frame := sessionStep_frame taken
    obtain ⟨rows, queue⟩ := frame.queue
    have ledger := sessionStep_stored taken
    have grows : before.tables.queueIds ⊆ after.tables.queueIds := by
      rw [Tables.queueIds, Tables.queueIds, queue, List.map_append]
      exact List.subset_append_left _ _
    have holds : after.worker.taken = before.worker.taken := by rw [frame.worker]
    exact ⟨new, ledger.trans same, progress.imp (fun passed => passed.quiet grows (.inl holds)) fun answered => by rwa [ledger]⟩
  | worker event =>
    obtain ⟨phases, tracks⟩ := reachable_tracks reached
    exact workerStep_served tracks taken ⟨new, same, progress⟩
  | tick elapsed =>
    cases taken
    exact ⟨new, same, progress.imp_left fun passed => passed.quiet (List.Subset.refl _) (.inl rfl)⟩
  | restart =>
    cases taken
    exact ⟨new, same, progress.imp_left fun passed => passed.quiet (List.Subset.refl _) (.inr rfl)⟩

private theorem stored_positive (reached : (machine pg).Reachable state) {other : Int} (answered : other ∈ state.ledger.stored) :
    1 ≤ other := by
  obtain ⟨phases, tracks⟩ := reachable_tracks reached
  apply (reachable_provenance reached).called
  rw [tracks.called]
  have phase := (tracks.stored other).mp answered
  revert phase
  cases phases other <;> simp [Phase.answered, Phase.called]

/-- While a committed call waits, whatever commits, rolls back, fails or restarts
meanwhile, only older calls are answered, and what the worker had in its hands before. -/
theorem not_overtaken {events : List Event} (reached : (machine pg).Reachable state)
    (queued : id ∈ state.tables.queueIds) (executed : (machine pg).run state events = some final)
    (waits : id ∈ final.tables.queueIds) :
    ∃ new, final.ledger.stored = state.ledger.stored ++ new ∧ (∀ other ∈ new, Ahead state.worker.taken id other) ∧
      (new.length : Int) < id + state.worker.taken.length := by
  have path := Machine.path_of_run (fun _ => True) (fun _ _ => trivial) executed
  have kept : (machine pg).Reachable final ∧ Served state.worker.taken state.ledger.stored id final := by
    refine path.preserves (fun later => (machine pg).Reachable later ∧ Served _ _ id later) ?_ ⟨reached, [], ?_, .inl ?_⟩
    · exact fun before event after _ taken holds => ⟨holds.1.next trivial taken, step_served holds.1 taken holds.2⟩
    · exact (List.append_nil _).symm
    · exact ⟨queued, List.forall_mem_nil _, .inr fun other member => .inr member⟩
  obtain ⟨later, new, same, progress⟩ := kept
  obtain ⟨phases, tracks⟩ := reachable_tracks later
  have unanswered : id ∉ final.ledger.stored := by
    intro answered
    have phase := (tracks.stored id).mp answered
    rw [(tracks.located.at_ .queued ⟨by simp, by simp⟩ id).mp waits] at phase
    cases phase
  have passed := progress.resolve_right unanswered
  refine ⟨new, same, passed.answered, ?_⟩
  have distinct : new.Nodup := (List.nodup_append.mp (same ▸ tracks.storedOnce)).2.1
  have among : new.toFinset ⊆ Finset.Ico 1 id ∪ state.worker.taken.toFinset := by
    intro other member
    have answered := List.mem_toFinset.mp member
    have low := stored_positive later (same ▸ List.mem_append_right _ answered)
    rw [Finset.mem_union, Finset.mem_Ico, List.mem_toFinset]
    exact (passed.answered other answered).imp_left fun below => ⟨low, below⟩
  have positive : 1 ≤ id := by
    apply (reachable_provenance later).called
    rw [tracks.called, (tracks.located.at_ .queued ⟨by simp, by simp⟩ id).mp waits]
    rfl
  have size := (Finset.card_le_card among).trans (Finset.card_union_le _ _)
  rw [List.toFinset_card_of_nodup distinct, Int.card_Ico] at size
  have held := List.toFinset_card_le state.worker.taken
  omega

end Runs

private def inHand : List Event :=
  enqueue 0 .sample ++ [.worker .begin, .worker (.dequeue .default)] ++ enqueue 1 .sample

private def stores : List Event :=
  [.worker (.execute ⟨[7], [(7, .finished (.success .null))]⟩), .worker .insert, .worker (.cleanup "6 hours"), .worker .commit]

/-- The second of two calls waits while the batch of the first, already in hand, commits. -/
theorem not_overtaken_second : ∃ state final : State, (machine .sample).Reachable state ∧ state.tables.queueIds = [1, 2] ∧
    final.tables.queueIds = [2] ∧ ∃ new, final.ledger.stored = state.ledger.stored ++ new ∧
      (∀ other ∈ new, Ahead state.worker.taken 2 other) ∧ (new.length : Int) < 2 + state.worker.taken.length := by
  obtain ⟨state, ran, reached, queued⟩ := (machine .sample).exists_of_run ⟨0, rfl⟩ inHand
    (fun state => decide (state.tables.queueIds = [1, 2])) (by decide)
  have executed : ((machine .sample).run { clock := 0 } (inHand ++ stores)).map (fun final => final.tables.queueIds) =
      some [2] := by decide
  rw [Machine.run_append, ran, Option.bind_some] at executed
  obtain ⟨final, later, waits⟩ := Option.map_eq_some_iff.mp executed
  have both := of_decide_eq_true queued
  refine ⟨state, final, reached, both, waits, ?_⟩
  exact not_overtaken reached (by simp [both]) later (by simp [waits])

end PgGrpc.Cluster
