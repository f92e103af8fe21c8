import PgGrpc.Proofs.Conservation

/-! How long a result stays. The age of a row counts from the start of the
transaction that stored it, which is before its calls; the row becomes visible at
the end of that transaction. -/

namespace PgGrpc.Cluster
open Library

/-- An interval that is not negative, by what it adds to a point in time and what
it takes from one. The two need not be inverse: months differ in length. -/
structure Interval where
  after : Timestamp → Timestamp
  before : Timestamp → Timestamp
  notNegative : ∀ now, before now ≤ now

def Interval.fixed (length : Nat) : Interval where
  after now := now + length
  before now := now - length
  notNegative now := Int.sub_le_self now (Int.natCast_nonneg length)

/-- The database reads the text as this interval. -/
def Interval.Named (interval : Interval) (pg : Postgres) (ttl : String) : Prop :=
  ∀ now, pg.cutoff now ttl = some (interval.before now)

def Dated (stage : Stage) : Prop := ∀ tx, stage.tx? = some tx → ∀ row ∈ tx.inserted, row.created = tx.start

private theorem Stage.tx_eq {stage : Stage} {tx other : Tx} (here : stage.tx? = some tx) (there : stage.tx? = some other) :
    other = tx := Option.some.inj (there.symm.trans here)

private theorem workerStep_dated {pg : Postgres} {state after : State} {event : WorkerEvent}
    (taken : workerStep pg state event = some after) (dated : Dated state.worker) : Dated after.worker := by
  cases workerStep_cases taken with
  | begin idle =>
    intro tx opened
    cases opened
    exact List.forall_mem_nil _
  | @dequeue batchSize tx begun =>
    intro _ opened
    cases opened
    exact dated tx (by rw [begun]; rfl)
  | @execute joins tx rows dequeued nonempty covers =>
    intro _ opened
    cases opened
    exact dated tx (by rw [dequeued]; rfl)
  | @insert tx results stored executed ran =>
    intro _ opened
    cases opened
    have young := dated tx (by rw [executed]; rfl)
    by_cases nonempty : results = []
    · subst nonempty
      cases ran
      exact young
    · obtain ⟨_, _, _, rfl⟩ := (Queue.insertResults_ok pg state.tables tx nonempty stored).mp ran
      intro row member
      rcases List.mem_append.mp member with old | new
      · exact young row old
      · obtain ⟨result, _, rfl⟩ := List.mem_map.mp new
        rfl
  | @cleanup ttl tx drained cleaned warning ready ran =>
    intro _ opened
    cases opened
    obtain ⟨bound, _, same⟩ := (Queue.ttlCleanup_ok ..).mp ran
    cases same
    cases ready with
    | drained stands | stored stands => exact dated tx (by rw [stands]; rfl)
  | insertError | cleanupError | commit | fail => exact nofun

theorem reachable_dated {pg : Postgres} {allowed : State → Event → Prop} {state : State}
    (reached : (machine pg).Reaches allowed state) : Dated state.worker := by
  apply reached.invariant fun state => Dated state.worker
  · intro start begins
    obtain ⟨clock, rfl⟩ := begins
    exact nofun
  · intro before event after _ _ taken dated
    cases event with
    | session backend event => exact (sessionStep_frame taken).worker ▸ dated
    | worker event => exact workerStep_dated taken dated
    | tick elapsed => cases taken; exact dated
    | restart => cases taken; exact nofun

/-- What the clean-up leaves to its transaction: the rows that are not older than the bound. -/
theorem cleanup_results {pg : Postgres} {state : State} {phases : Lifecycle.Phases} {tx cleaned : Tx} {ttl : String}
    {drained : Bool} {warning : Option String} {bound : Timestamp} (tracks : Tracks state phases)
    (ready : Cleanable state tx drained) (cutoff : pg.cutoff tx.start ttl = some bound)
    (ran : Queue.ttlCleanup pg state.tables tx ttl = .ok (cleaned, warning)) :
    (cleaned.view state.tables).results =
      (state.tables.results ++ tx.inserted).filter fun row => !decide (row.created < bound) := by
  obtain ⟨hand, fresh⟩ := tracks.worker.hand ready
  obtain ⟨_, same, rest⟩ := (Queue.ttlCleanup_ok ..).mp ran
  cases cutoff.symm.trans same
  cases rest
  have view : (tx.view state.tables).results = state.tables.results ++ tx.inserted := by simp [Tx.view, fresh]
  rw [view]
  simp only [Tx.view, fresh, List.nil_append]
  exact Keyed.filter_without ResultRow.id (hand.result_ids tracks) _

/-- The clean-up takes the row from what its transaction sees and will commit. -/
def Deletes (state after : State) (row : ResultRow) : Prop :=
  ∃ tx cleaned, state.worker.tx? = some tx ∧ after.worker.tx? = some cleaned ∧
    row ∈ (tx.view state.tables).results ∧ row ∉ (cleaned.view after.tables).results

theorem deletes_iff {pg : Postgres} {state after : State} {ttl : String} {tx : Tx} {bound : Timestamp} {row : ResultRow}
    (reached : (machine pg).Reachable state) (opened : state.worker.tx? = some tx)
    (cutoff : pg.cutoff tx.start ttl = some bound) (cleans : step pg state (.worker (.cleanup ttl)) = some after)
    (stored : row ∈ state.tables.results) : Deletes state after row ↔ row.created < bound := by
  obtain ⟨phases, tracks⟩ := reachable_tracks reached
  cases workerStep_cases cleans with
  | @cleanup _ gc drained cleaned warning ready ran =>
    have same : gc = tx := by
      cases ready with
      | drained stands | stored stands => exact Stage.tx_eq opened (by rw [stands]; rfl)
    subst same
    have fresh := (tracks.worker.hand ready).2
    have results := cleanup_results tracks ready cutoff ran
    have seen : row ∈ (gc.view state.tables).results := by simp [Tx.view, fresh, stored]
    constructor
    · intro deletes
      obtain ⟨_, _, _, closed, _, gone⟩ := deletes
      cases closed
      rw [results] at gone
      simp only [List.mem_filter, List.mem_append, stored, true_or, true_and] at gone
      simpa using gone
    · intro old
      refine ⟨gc, cleaned, opened, rfl, seen, ?_⟩
      rw [results]
      simp [old]
  | @cleanupError _ gc drained error ready failed =>
    have same : gc = tx := by
      cases ready with
      | drained stands | stored stands => exact Stage.tx_eq opened (by rw [stands]; rfl)
    subst same
    have ran := (Queue.ttlCleanup_ok pg state.tables gc ttl _).mpr ⟨bound, cutoff, rfl⟩
    cases failed.symm.trans ran

theorem commit_keeps {pg : Postgres} {storing stored : State} {tx : Tx} {drained : Bool} {row : ResultRow}
    (keeps : StageKeeps storing.worker) (finished : storing.worker = .cleaned tx drained) (own : row ∈ tx.inserted)
    (commits : step pg storing (.worker .commit) = some stored) : row ∈ stored.tables.results := by
  cases workerStep_cases commits with
  | commit cleaned =>
    cases finished.symm.trans cleaned
    rw [finished] at keeps
    simp only [State.commitWorker, Tx.view, List.mem_filter, List.mem_append, own, or_true, true_and]
    simpa using keeps row own

/-- A row stored by a transaction that began at `tx.start` and committed at
`storing.clock`: its own clean-up leaves it, and a later one that finds it there
keeps it for the full interval unless it begins when the interval has passed since
that start and not since that commit. -/
theorem full_ttl_iff {pg : Postgres} {ttl : String} {interval : Interval} (named : interval.Named pg ttl)
    {storing stored current after : State} {tx gc : Tx} {drained : Bool} {row : ResultRow} {events : List Event}
    (reached : (machine pg).Reaches (TtlNotNegative pg) storing)
    (finished : storing.worker = .cleaned tx drained) (own : row ∈ tx.inserted)
    (commits : step pg storing (.worker .commit) = some stored)
    (path : (machine pg).Path (TtlNotNegative pg) stored events current) (there : row ∈ current.tables.results)
    (opened : current.worker.tx? = some gc) (cleans : step pg current (.worker (.cleanup ttl)) = some after) :
    row ∈ stored.tables.results ∧
      ((gc.start < interval.after storing.clock → ¬ Deletes current after row) ↔
        ¬ (tx.start < interval.before gc.start ∧ gc.start < interval.after storing.clock)) := by
  have permitted : TtlNotNegative pg storing (.worker .commit) := trivial
  have later : (machine pg).Reachable current := ((reached.next permitted commits).path path).weaken fun _ _ _ => trivial
  have created : row.created = tx.start := reachable_dated reached tx (by rw [finished]; rfl) row own
  refine ⟨commit_keeps (reaches_keeps reached).1 finished own commits, ?_⟩
  rw [deletes_iff later opened (named gc.start) cleans there, created]
  tauto

private def sixHours : Interval := .fixed 21600000000

private theorem sixHours_named : sixHours.Named .sample "6 hours" := fun _ => rfl

/-- From the end of one pass to the clean-up of the next, which finds the queue empty. -/
private theorem next_pass {storing : State} {tx : Tx} {drained : Bool} (finished : storing.worker = .cleaned tx drained)
    (empty : (storing.commitWorker tx).tables.queue = []) :
    ∃ current after gc events, step .sample storing (.worker .commit) = some (storing.commitWorker tx) ∧
      (machine .sample).Path (TtlNotNegative .sample) (storing.commitWorker tx) events current ∧
      current.tables = (storing.commitWorker tx).tables ∧ current.worker.tx? = some gc ∧ gc.start = storing.clock ∧
      step .sample current (.worker (.cleanup "6 hours")) = some after := by
  have commits : step .sample storing (.worker .commit) = some (storing.commitWorker tx) := by
    simp only [step, workerStep, finished]
  let stored := storing.commitWorker tx
  let gc := (Queue.dequeue .default stored.tables (.begin stored.clock)).2
  have none : (Queue.dequeue .default stored.tables (.begin stored.clock)).1 = [] := by
    simp [Queue.dequeue, Tx.view, stored, empty]
  have dequeues : (machine .sample).run stored [.worker .begin, .worker (.dequeue .default)] =
      some { stored with worker := .dequeued gc [] } := by
    change some { stored with worker := .dequeued gc (Queue.dequeue .default stored.tables (.begin stored.clock)).1 } = _
    rw [none]
  refine ⟨{ stored with worker := .dequeued gc [] }, _, gc, [.worker .begin, .worker (.dequeue .default)], commits, ?_,
    rfl, rfl, rfl, rfl⟩
  apply (Machine.path_of_run (fun event => ∀ ttl, event ≠ .worker (.cleanup ttl)) (by simp) dequeues).weaken
  intro before event calm
  unfold TtlNotNegative
  split
  next ttl => exact absurd rfl (calm ttl)
  next => trivial

private def calm (_ : State) : Event → Bool
  | .worker (.cleanup ttl) => ttl == "6 hours"
  | _ => true

private theorem calm_permits (state : State) (event : Event) (check : calm state event = true) :
    TtlNotNegative .sample state event := by
  unfold TtlNotNegative
  split
  next ttl =>
    cases beq_iff_eq.mp check
    intro tx _ bound cutoff
    cases cutoff
    exact sixHours.notNegative tx.start
  next => trivial

private def slow (elapsed : Nat) : List Event :=
  enqueue 0 .sample ++ [.worker .begin, .worker (.dequeue .default),
    .worker (.execute ⟨[7], [(7, .finished (.success .null))]⟩), .tick elapsed, .worker .insert, .worker (.cleanup "6 hours")]

/-- The pass that answers the only call, begun at 0 and about to commit at `elapsed`. -/
private def finishing (elapsed : Nat) (storing : State) : Bool :=
  match storing.worker with
  | .cleaned tx _ => decide (tx.start = 0 ∧ storing.clock = elapsed ∧ tx.inserted.length = 1 ∧
      (storing.commitWorker tx).tables.queueIds = [])
  | _ => false

private theorem finishing_cases {elapsed : Nat} {storing : State} (checked : finishing elapsed storing = true) :
    ∃ tx drained row, storing.worker = .cleaned tx drained ∧ row ∈ tx.inserted ∧ tx.start = 0 ∧ storing.clock = elapsed ∧
      (storing.commitWorker tx).tables.queue = [] := by
  unfold finishing at checked
  split at checked
  next tx drained finished =>
    obtain ⟨start, clock, one, empty⟩ := of_decide_eq_true checked
    obtain ⟨row, only⟩ := List.length_eq_one_iff.mp one
    exact ⟨tx, drained, row, finished, by simp [only], start, clock, List.map_eq_nil_iff.mp empty⟩
  next => cases checked

/-- A pass of one hour, which is less than the ttl: its answer stays when the next pass cleans up. -/
theorem full_ttl_short : ∃ storing stored current after row,
    (machine .sample).Reaches (TtlNotNegative .sample) storing ∧ step .sample storing (.worker .commit) = some stored ∧
      row.created + 3600000000 = storing.clock ∧
      row ∈ stored.tables.results ∧ step .sample current (.worker (.cleanup "6 hours")) = some after ∧
      ¬ Deletes current after row := by
  obtain ⟨storing, _, reached, checked⟩ := (machine .sample).exists_allowed calm calm_permits ⟨0, rfl⟩
    (slow 3600000000) (finishing 3600000000) (by decide)
  obtain ⟨tx, drained, row, finished, own, start, clock, empty⟩ := finishing_cases checked
  obtain ⟨current, after, gc, events, commits, path, same, opened, began, cleans⟩ := next_pass finished empty
  have there : row ∈ current.tables.results :=
    same ▸ commit_keeps (reaches_keeps reached).1 finished own commits
  obtain ⟨stored, kept⟩ := full_ttl_iff sixHours_named reached finished own commits path there opened cleans
  have created : row.created = tx.start := reachable_dated reached tx (by rw [finished]; rfl) row own
  refine ⟨storing, _, current, after, row, reached, commits, by rw [created, start, clock]; rfl, stored, cleans, kept.mpr ?_ ?_⟩
  · simp [start, began, clock, sixHours, Interval.fixed]
  · simp [began, clock, sixHours, Interval.fixed]

/-- A batch that runs for ten hours: its answer becomes visible at the end of them,
and the next pass, begun at that same moment, deletes it. -/
theorem result_deleted_early : ∃ storing stored current after gc row events,
    (machine .sample).Reaches (TtlNotNegative .sample) storing ∧ step .sample storing (.worker .commit) = some stored ∧
      row ∉ storing.tables.results ∧ row ∈ stored.tables.results ∧
      (machine .sample).Path (TtlNotNegative .sample) stored events current ∧ current.worker.tx? = some gc ∧
      step .sample current (.worker (.cleanup "6 hours")) = some after ∧
      gc.start < (Interval.fixed 21600000000).after storing.clock ∧ Deletes current after row := by
  obtain ⟨storing, _, reached, checked⟩ := (machine .sample).exists_allowed calm calm_permits ⟨0, rfl⟩ (slow 36000000000)
    (fun storing => finishing 36000000000 storing && storing.tables.resultIds.isEmpty) (by decide)
  obtain ⟨finishes, fresh⟩ := Bool.and_eq_true_iff.mp checked
  obtain ⟨tx, drained, row, finished, own, start, clock, empty⟩ := finishing_cases finishes
  obtain ⟨current, after, gc, events, commits, path, same, opened, began, cleans⟩ := next_pass finished empty
  have permitted : TtlNotNegative .sample storing (.worker .commit) := trivial
  have later : (machine .sample).Reachable current :=
    ((reached.next permitted commits).path path).weaken fun _ _ _ => trivial
  have stored := commit_keeps (reaches_keeps reached).1 finished own commits
  have created : row.created = tx.start := reachable_dated reached tx (by rw [finished]; rfl) row own
  refine ⟨storing, _, current, after, gc, row, events, reached, commits, ?_, stored, path, opened, cleans, ?_, ?_⟩
  · have none := List.map_eq_nil_iff.mp (List.isEmpty_iff.mp fresh)
    simp [none]
  · simp [began, Interval.fixed]
  · rw [deletes_iff later opened (sixHours_named gc.start) cleans (same ▸ stored), created]
    simp [start, began, clock, sixHours, Interval.fixed]

end PgGrpc.Cluster
