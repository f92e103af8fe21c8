import PgGrpc.Proofs.Batch

/-! A running worker empties the queue. From wherever its transaction stands it
comes back to its loop, and every pass over calls makes the queue shorter. -/

namespace PgGrpc.Cluster
open Library Queue Worker

/-- The steps of a worker that does not fail of its own accord, under fixed
settings, and the passing of time. -/
def Works (batchSize : BatchSize) (ttl : String) : Event → Prop
  | .worker (.dequeue size) => size = batchSize
  | .worker (.cleanup setting) => setting = ttl
  | .worker .fail => False
  | .worker _ | .tick _ => True
  | .session _ _ | .restart => False

/-- How every call ends while the network is away. -/
def unavailableOutcome : CallOutcome := .error "unavailable"

/-- What a worker needs to keep going: a clean-up that runs, and room for a batch
of failed calls. -/
structure Running (pg : Postgres) (batchSize : BatchSize) (ttl : String) : Prop where
  cleanup : ∀ now, (pg.cutoff now ttl).isSome
  errors : ∀ n ≤ batchSize.value, pg.arraysFit (List.replicate n unavailableOutcome) = true

/-- Some way on leads to a state with the property. -/
def Comes (pg : Postgres) (batchSize : BatchSize) (ttl : String) (state : State) (goal : State → Prop) : Prop :=
  ∃ events after, (machine pg).Path (fun _ event => Works batchSize ttl event) state events after ∧ goal after

def unavailable (rows : List QueueRow) : Joins where
  tasks := List.range rows.length
  ends := (List.range rows.length).map fun task => (task, .finished unavailableOutcome)

theorem unavailable_covers (rows : List QueueRow) : (unavailable rows).covers rows := by
  refine ⟨List.length_range, List.nodup_range, ?_⟩
  simp [unavailable, Function.comp_def]

section Progress
variable {pg : Postgres} {batchSize : BatchSize} {ttl : String} {state : State}

theorem Comes.now {goal : State → Prop} (holds : goal state) : Comes pg batchSize ttl state goal :=
  ⟨[], state, .nil, holds⟩

theorem Comes.first {goal : State → Prop} (event : Event) (next : State) (works : Works batchSize ttl event)
    (taken : step pg state event = some next) (later : Comes pg batchSize ttl next goal) :
    Comes pg batchSize ttl state goal :=
  let ⟨events, after, path, holds⟩ := later
  ⟨event :: events, after, .cons works taken path, holds⟩

theorem Comes.then {first goal : State → Prop} (comes : Comes pg batchSize ttl state first)
    (later : ∀ middle events, (machine pg).Path (fun _ event => Works batchSize ttl event) state events middle →
      first middle → Comes pg batchSize ttl middle goal) : Comes pg batchSize ttl state goal :=
  let ⟨_, middle, path, holds⟩ := comes
  let ⟨_, after, rest, done⟩ := later middle _ path holds
  ⟨_, after, path.append rest, done⟩

private theorem close_idle {tx : Tx} {drained : Bool} (ready : Cleanable state tx drained) :
    Comes pg batchSize ttl state fun after => after.worker = .idle := by
  cases ready with
  | drained opened | stored opened =>
    cases ran : ttlCleanup pg state.tables tx ttl with
    | error failed =>
      exact .first (.worker (.cleanup ttl)) { state with worker := .idle } rfl
        (by simp only [step, workerStep, opened, ran]) (.now rfl)
    | ok after =>
      refine .first (.worker (.cleanup ttl)) { state with worker := .cleaned after.1 _ } rfl
        (by simp only [step, workerStep, opened, ran]; rfl) ?_
      exact .first (.worker .commit) _ trivial rfl (.now rfl)

private theorem executed_idle {tx : Tx} {results : List CallResult} (opened : state.worker = .executed tx results) :
    Comes pg batchSize ttl state fun after => after.worker = .idle := by
  cases ran : insertResults pg state.tables tx results with
  | error failed =>
    exact .first (.worker .insert) { state with worker := .idle } trivial
      (by simp only [step, workerStep, opened, ran]) (.now rfl)
  | ok after =>
    exact .first (.worker .insert) { state with worker := .inserted after } trivial
      (by simp only [step, workerStep, opened, ran]) (close_idle (.stored rfl))

private theorem dequeued_idle {tx : Tx} {rows : List QueueRow} (opened : state.worker = .dequeued tx rows) :
    Comes pg batchSize ttl state fun after => after.worker = .idle := by
  by_cases empty : rows = []
  · subst empty
    exact close_idle (.drained opened)
  · refine .first (.worker (.execute (unavailable rows)))
      { state with worker := .executed tx (collect rows (unavailable rows)) } trivial ?_ (executed_idle rfl)
    simp only [step, workerStep, opened]
    rw [if_pos ⟨empty, unavailable_covers rows⟩]

theorem comes_idle (state : State) : Comes pg batchSize ttl state fun after => after.worker = .idle := by
  cases stage : state.worker with
  | idle => exact .now stage
  | begun tx =>
    exact .first (.worker (.dequeue batchSize)) _ rfl (by simp only [step, workerStep, stage]; rfl) (dequeued_idle rfl)
  | dequeued tx rows => exact dequeued_idle stage
  | executed tx results => exact executed_idle stage
  | inserted tx => exact close_idle (.stored stage)
  | cleaned tx drained =>
    exact .first (.worker .commit) _ trivial (by simp only [step, workerStep, stage]; rfl) (.now rfl)

theorem unavailable_outcomes (rows : List QueueRow) :
    (unavailable rows).outcomes = List.replicate rows.length unavailableOutcome := by
  simp [unavailable, Joins.outcomes, TaskEnd.outcome, List.map_const', Function.comp_def]

theorem unavailable_storable {rows : List QueueRow}
    (fits : pg.arraysFit (List.replicate rows.length unavailableOutcome) = true) :
    Storable pg (unavailable rows).outcomes where
  accepted value member := by
    rw [unavailable_outcomes] at member
    cases List.eq_of_mem_replicate member
  fits := by rwa [unavailable_outcomes]

private theorem cycle_works (drained : Bool) (joins : Joins) :
    ∀ event ∈ cycle drained batchSize joins ttl, Works batchSize ttl event := by
  cases drained <;> simp [cycle, Works]

private theorem pass_shortens (running : Running pg batchSize ttl) (sound : state.tables.Sound)
    (idle : state.worker = .idle) (calls : state.tables.queue ≠ []) :
    Comes pg batchSize ttl state fun after => after.worker = .idle ∧
      after.tables.queue.length < state.tables.queue.length := by
  have covers := unavailable_covers (batch batchSize state.clock state.tables)
  have ids : ((batch batchSize state.clock state.tables).map QueueRow.id).Perm _ := batch_ids sound
  obtain ⟨bound, cutoff⟩ := Option.isSome_iff_exists.mp (running.cleanup state.clock)
  have short : (batch batchSize state.clock state.tables).length ≤ batchSize.value := by
    have length := ids.length_eq
    rw [List.length_map, Keyed.length_smallest] at length
    omega
  obtain ⟨ledger, ran⟩ := drainBatch_commits pg batchSize ttl _ idle covers
    ((drainBatch_ok sound covers _).mpr ⟨.inr (unavailable_storable (running.errors _ short)), bound, cutoff, rfl⟩)
  refine ⟨_, _, Machine.path_of_run _ (cycle_works _ _) ran, idle, List.length_filter_lt_length_iff_exists.mpr ?_⟩
  obtain ⟨row, member⟩ := List.exists_mem_of_ne_nil _ fun empty => calls ((batch_empty sound).mp empty)
  have picked := ids.mem_iff.mp (List.mem_map_of_mem member)
  obtain ⟨queued, queuedMember, same⟩ := List.mem_map.mp (Keyed.smallest_subset picked)
  exact ⟨queued, queuedMember, by simp [same, picked]⟩

private theorem drains (running : Running pg batchSize ttl) (reached : (machine pg).Reachable state)
    (idle : state.worker = .idle) : Comes pg batchSize ttl state fun after => after.tables.queue = [] := by
  induction size : state.tables.queue.length using Nat.strong_induction_on generalizing state with
  | _ size ih =>
    by_cases calls : state.tables.queue = []
    · exact .now calls
    · apply (pass_shortens running (reachable_sound reached) idle calls).then
      intro middle events path holds
      exact ih _ (size ▸ holds.2) (reached.path (path.weaken fun _ _ _ => trivial)) holds.1 rfl

theorem comes_drained (running : Running pg batchSize ttl) (reached : (machine pg).Reachable state) :
    Comes pg batchSize ttl state fun after => after.tables.queue = [] :=
  (comes_idle state).then fun _ _ path idle => drains running (reached.path (path.weaken fun _ _ _ => trivial)) idle

end Progress
end PgGrpc.Cluster
