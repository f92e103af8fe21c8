import PgGrpc.Proofs.Refinement

/-! One pass of the worker commits or leaves nothing. Its results, the clean-up
and the delete from the queue share one transaction, so that an ERROR raised by
any of them brings the whole batch back. -/

namespace PgGrpc.Worker
open Library Queue Cluster

/-- The clean-up at this time removes rows stored at that one. -/
def Expires (pg : Postgres) (now : Timestamp) (ttl : String) (created : Timestamp) : Prop :=
  ∃ bound, pg.cutoff now ttl = some bound ∧ created < bound

section Pass
variable (pg : Postgres) (batchSize : BatchSize) (ttl : String) (now : Timestamp) (tables : Tables) (joins : Joins)

def batch : List QueueRow := (dequeue batchSize tables (.begin now)).1

def answers : List ResultRow := (collect (batch batchSize now tables) joins).map fun result => result.row now

/-- The tables after a pass whose clean-up removed the results older than the bound. -/
def passed (bound : Timestamp) : Tables where
  queue := tables.queue.filter fun row => !(Keyed.smallest batchSize.value tables.queueIds).contains row.id
  results := (tables.results ++ answers batchSize now tables joins).filter fun row => !decide (row.created < bound)

variable {pg batchSize ttl now tables joins}

private theorem begin_view : (Tx.begin now).view tables = tables := by
  simp [Tx.view, Tx.begin]

theorem batch_ids (sound : tables.Sound) :
    ((batch batchSize now tables).map QueueRow.id).Perm (Keyed.smallest batchSize.value tables.queueIds) := by
  have distinct : ((Tx.begin now).view tables).queueIds.Nodup := by rw [begin_view]; exact sound.queueOnce
  have ids := dequeue_ids batchSize tables (.begin now) distinct
  rwa [begin_view] at ids

theorem batch_empty (sound : tables.Sound) : batch batchSize now tables = [] ↔ tables.queue = [] := by
  have distinct : ((Tx.begin now).view tables).queueIds.Nodup := by rw [begin_view]; exact sound.queueOnce
  have empty := dequeue_empty batchSize tables (.begin now) distinct
  rwa [begin_view] at empty

theorem answers_ids (covers : joins.covers (batch batchSize now tables)) :
    ((answers batchSize now tables joins).map ResultRow.id).Perm ((batch batchSize now tables).map QueueRow.id) := by
  have ids := collect_ids covers
  rwa [answers, List.map_map]

theorem answers_apart (sound : tables.Sound) (covers : joins.covers (batch batchSize now tables)) :
    ((tables.results ++ answers batchSize now tables joins).map ResultRow.id).Nodup := by
  have ids := (answers_ids covers).trans (batch_ids sound)
  rw [List.map_append, List.nodup_append]
  refine ⟨sound.resultOnce, ids.nodup_iff.mpr (Keyed.smallest_nodup sound.queueOnce _), ?_⟩
  rintro id old other new rfl
  exact sound.apart id (Keyed.smallest_subset (ids.mem_iff.mp new)) old

private theorem dequeue_begin : (dequeue batchSize tables (.begin now)).2 =
    ⟨now, Keyed.smallest batchSize.value tables.queueIds, [], []⟩ := by
  rw [dequeue_tx, begin_view]
  rfl

private def answered (batchSize : BatchSize) (now : Timestamp) (tables : Tables) (joins : Joins) : Tx :=
  ⟨now, Keyed.smallest batchSize.value tables.queueIds, answers batchSize now tables joins, []⟩

private theorem insert_ok (sound : tables.Sound) (covers : joins.covers (batch batchSize now tables))
    (nonempty : batch batchSize now tables ≠ []) (after : Tx) :
    insertResults pg tables ⟨now, Keyed.smallest batchSize.value tables.queueIds, [], []⟩
        (collect (batch batchSize now tables) joins) = .ok after ↔
      Storable pg joins.outcomes ∧ after = answered batchSize now tables joins := by
  have apart := answers_apart sound covers
  rw [List.map_append, List.nodup_append] at apart
  obtain ⟨_, distinct, free⟩ := apart
  have ids : (answers batchSize now tables joins).map ResultRow.id =
      (collect (batch batchSize now tables) joins).map CallResult.id := by
    simp [answers, Function.comp_def]
  rw [ids] at distinct free
  rw [insertResults_ok pg tables _ (collect_nonempty covers nonempty), collect_outcomes covers]
  apply and_congr_right
  intro _
  have visible : ((⟨now, Keyed.smallest batchSize.value tables.queueIds, [], []⟩ : Tx).view tables).resultIds =
      tables.resultIds := by simp [Tx.view, Tables.resultIds]
  constructor
  · exact fun all => all.2.2
  · refine fun same => ⟨distinct, fun result member old => ?_, same⟩
    rw [visible] at old
    exact free _ old _ (List.mem_map_of_mem member) rfl

theorem batch_stored (sound : tables.Sound) (covers : joins.covers (batch batchSize now tables))
    (nonempty : batch batchSize now tables ≠ []) :
    (∃ after, insertResults pg tables (dequeue batchSize tables (.begin now)).2 (collect (batch batchSize now tables) joins) =
      .ok after) ↔ Storable pg joins.outcomes := by
  rw [dequeue_begin]
  simp only [insert_ok sound covers nonempty, exists_and_left, exists_eq, and_true]

private def finish (pg : Postgres) (ttl : String) (tables : Tables) (drained : Bool) (tx : Tx) : Except PgError Pass :=
  ttlCleanup pg tables tx ttl >>= fun (tx, warning) => pure ⟨tx.view tables, drained, warning⟩

private theorem finish_ok (pg : Postgres) (ttl : String) (sound : tables.Sound) (covers : joins.covers (batch batchSize now tables)) (drained : Bool)
    (pass : Pass) :
    finish pg ttl tables drained (answered batchSize now tables joins) = .ok pass ↔
      ∃ bound, pg.cutoff now ttl = some bound ∧ pass = ⟨passed batchSize now tables joins bound, drained, none⟩ := by
  have kept (bound : Timestamp) :=
    Keyed.filter_without ResultRow.id (answers_apart sound covers) fun row => decide (row.created < bound)
  cases cutoff : pg.cutoff now ttl with
  | none => simp [finish, ttlCleanup_error pg tables (answered batchSize now tables joins) ttl cutoff, bind, Except.bind]
  | some bound =>
    have ran := (ttlCleanup_ok pg tables (answered batchSize now tables joins) ttl _).mpr ⟨bound, cutoff, rfl⟩
    have view : (⟨tables.queue.filter fun row => !(Keyed.smallest batchSize.value tables.queueIds).contains row.id,
        (tables.results ++ answers batchSize now tables joins).filter fun row =>
          !(((tables.results ++ answers batchSize now tables joins).filter fun row =>
            decide (row.created < bound)).map ResultRow.id).contains row.id⟩ : Tables) =
        passed batchSize now tables joins bound := congrArg (Tables.mk _) (kept bound)
    simp only [finish, ran, bind, Except.bind, pure, Except.pure, Except.ok.injEq, Option.some.injEq, exists_eq_left']
    simp only [answered, Tx.view, List.nil_append, List.contains_nil, Bool.not_false, List.filter_true, view]
    exact eq_comm

private theorem drainBatch_eq : drainBatch pg batchSize ttl now tables joins =
    if (batch batchSize now tables).isEmpty then finish pg ttl tables true (dequeue batchSize tables (.begin now)).2
    else insertResults pg tables (dequeue batchSize tables (.begin now)).2 (collect (batch batchSize now tables) joins) >>=
      finish pg ttl tables false := rfl

/-- A pass commits exactly when its answers can be stored and its clean-up can run. -/
theorem drainBatch_ok (sound : tables.Sound) (covers : joins.covers (batch batchSize now tables)) (pass : Pass) :
    drainBatch pg batchSize ttl now tables joins = .ok pass ↔
      (batch batchSize now tables = [] ∨ Storable pg joins.outcomes) ∧
      ∃ bound, pg.cutoff now ttl = some bound ∧
        pass = ⟨passed batchSize now tables joins bound, (batch batchSize now tables).isEmpty, none⟩ := by
  rw [drainBatch_eq, dequeue_begin]
  by_cases empty : batch batchSize now tables = []
  · have none : answers batchSize now tables joins = [] := by
      have ids := answers_ids covers
      rwa [empty, List.map_nil, List.perm_nil, List.map_eq_nil_iff] at ids
    have finished := finish_ok pg ttl sound covers true pass
    simp only [answered, none] at finished
    simp only [empty, List.isEmpty_nil, if_true, finished, true_or, true_and]
  · have busy : (batch batchSize now tables).isEmpty = false := List.isEmpty_eq_false_iff.mpr empty
    simp only [empty, busy, Bool.false_eq_true, if_false, false_or]
    cases ran : insertResults pg tables ⟨now, Keyed.smallest batchSize.value tables.queueIds, [], []⟩
        (collect (batch batchSize now tables) joins) with
    | error error =>
      have refused : ¬ Storable pg joins.outcomes := by
        intro storable
        have inserted := (insert_ok sound covers empty _).mpr ⟨storable, rfl⟩
        cases ran.symm.trans inserted
      simp [bind, Except.bind, refused]
    | ok after =>
      obtain ⟨storable, rfl⟩ := (insert_ok sound covers empty after).mp ran
      refine (finish_ok pg ttl sound covers false pass).trans ?_
      simp only [storable, true_and]

end Pass

section Run
variable (pg : Postgres) (batchSize : BatchSize) (ttl : String) (joins : Joins) {state : State}

private theorem open_run (idle : state.worker = .idle) (rest : List Event) :
    (machine pg).run state ([.worker .begin, .worker (.dequeue batchSize)] ++ rest) =
      (machine pg).run { state with
        worker := .dequeued (dequeue batchSize state.tables (.begin state.clock)).2
          (batch batchSize state.clock state.tables) } rest := by
  simp only [List.cons_append, List.nil_append, Machine.run_cons, machine, step, workerStep, idle, Option.bind_some]
  rfl

private theorem finish_commits {middle : State} {tx : Tx} {drained : Bool} {pass : Pass}
    (ready : Cleanable middle tx drained) (done : finish pg ttl middle.tables drained tx = .ok pass) :
    pass.drained = drained ∧ ∃ ledger, (machine pg).run middle [.worker (.cleanup ttl), .worker .commit] =
      some { middle with tables := pass.tables, worker := .idle, ledger } := by
  cases ran : ttlCleanup pg middle.tables tx ttl with
  | error failed => rw [finish, ran] at done; cases done
  | ok after =>
    rw [finish, ran] at done
    cases done
    cases ready with
    | drained opened | stored opened =>
      simp only [Machine.run_cons, machine, step, workerStep, opened, ran, Option.bind_some, Machine.run_nil]
      exact ⟨trivial, _, rfl⟩

private theorem finish_reverts {middle : State} {tx : Tx} {drained : Bool} {error : PgError}
    (ready : Cleanable middle tx drained) (failed : finish pg ttl middle.tables drained tx = .error error) :
    (machine pg).run middle [.worker (.cleanup ttl)] = some { middle with worker := .idle } := by
  cases ran : ttlCleanup pg middle.tables tx ttl with
  | ok after => rw [finish, ran] at failed; cases failed
  | error failed =>
    cases ready with
    | drained opened | stored opened =>
      simp only [Machine.run_cons, machine, step, workerStep, opened, ran, Option.bind_some, Machine.run_nil]

private theorem calls_run {middle : State} {tx : Tx} {rows : List QueueRow} (opened : middle.worker = .dequeued tx rows)
    (busy : rows ≠ []) (covers : joins.covers rows) (rest : List Event) :
    (machine pg).run middle ([.worker (.execute joins), .worker .insert] ++ rest) =
      match insertResults pg middle.tables tx (collect rows joins) with
      | .error _ => (machine pg).run { middle with worker := .idle } rest
      | .ok tx => (machine pg).run { middle with worker := .inserted tx } rest := by
  simp only [List.cons_append, List.nil_append, Machine.run_cons, machine, step, workerStep, opened, ne_eq, busy,
    not_false_eq_true, covers, and_self, if_true, Option.bind_some]
  cases insertResults pg middle.tables tx (collect rows joins) <;> rfl

/-- The pass as the worker's statements in the cluster: its commit publishes the
tables of the pass. -/
theorem drainBatch_commits {pass : Pass} (idle : state.worker = .idle)
    (covers : joins.covers (batch batchSize state.clock state.tables))
    (done : drainBatch pg batchSize ttl state.clock state.tables joins = .ok pass) :
    ∃ ledger, (machine pg).run state (cycle pass.drained batchSize joins ttl) =
      some { state with tables := pass.tables, ledger } := by
  have opened := open_run pg batchSize idle
  rw [drainBatch_eq] at done
  by_cases empty : batch batchSize state.clock state.tables = []
  · rw [empty] at opened done
    obtain ⟨drained, ledger, ran⟩ := finish_commits pg ttl (.drained rfl : Cleanable
      { state with worker := .dequeued (dequeue batchSize state.tables (.begin state.clock)).2 [] } _ true) done
    refine ⟨ledger, ?_⟩
    rw [drained, cycle, if_pos rfl, List.append_nil, opened, ran, ← idle]
  · have busy : (batch batchSize state.clock state.tables).isEmpty = false := List.isEmpty_eq_false_iff.mpr empty
    simp only [busy, Bool.false_eq_true, if_false] at done
    cases stored : insertResults pg state.tables (dequeue batchSize state.tables (.begin state.clock)).2
        (collect (batch batchSize state.clock state.tables) joins) with
    | error error => rw [stored] at done; cases done
    | ok tx =>
      rw [stored] at done
      obtain ⟨drained, ledger, ran⟩ := finish_commits pg ttl
        (.stored rfl : Cleanable { state with worker := .inserted tx } tx false) done
      refine ⟨ledger, ?_⟩
      rw [drained, cycle, if_neg nofun, List.append_assoc, opened, calls_run pg joins rfl empty covers]
      simp only [stored, ran, ← idle]

/-- A pass that raises ends the worker's statements early and leaves no trace:
the same rows are dequeued again. -/
theorem drainBatch_reverts {error : PgError} (idle : state.worker = .idle)
    (covers : joins.covers (batch batchSize state.clock state.tables))
    (failed : drainBatch pg batchSize ttl state.clock state.tables joins = .error error) :
    ∃ drained statements, statements <+: cycle drained batchSize joins ttl ∧ statements ≠ [] ∧
      (machine pg).run state statements = some state := by
  have opened := open_run pg batchSize idle
  rw [drainBatch_eq] at failed
  by_cases empty : batch batchSize state.clock state.tables = []
  · rw [empty] at opened failed
    have ran := finish_reverts pg ttl (.drained rfl : Cleanable
      { state with worker := .dequeued (dequeue batchSize state.tables (.begin state.clock)).2 [] } _ true) failed
    refine ⟨true, [.worker .begin, .worker (.dequeue batchSize)] ++ [.worker (.cleanup ttl)], ⟨[.worker .commit], rfl⟩,
      nofun, ?_⟩
    rw [opened, ran, ← idle]
  · have busy : (batch batchSize state.clock state.tables).isEmpty = false := List.isEmpty_eq_false_iff.mpr empty
    simp only [busy, Bool.false_eq_true, if_false] at failed
    cases stored : insertResults pg state.tables (dequeue batchSize state.tables (.begin state.clock)).2
        (collect (batch batchSize state.clock state.tables) joins) with
    | error error =>
      refine ⟨false, [.worker .begin, .worker (.dequeue batchSize)] ++ ([.worker (.execute joins), .worker .insert] ++ []),
        ⟨[.worker (.cleanup ttl), .worker .commit], rfl⟩, nofun, ?_⟩
      rw [opened, calls_run pg joins rfl empty covers]
      simp only [stored, Machine.run_nil, ← idle]
    | ok tx =>
      rw [stored] at failed
      have ran := finish_reverts pg ttl
        (.stored rfl : Cleanable { state with worker := .inserted tx } tx false) failed
      refine ⟨false, [.worker .begin, .worker (.dequeue batchSize)] ++
        ([.worker (.execute joins), .worker .insert] ++ [.worker (.cleanup ttl)]), ⟨[.worker .commit], rfl⟩, nofun, ?_⟩
      rw [opened, calls_run pg joins rfl empty covers]
      simp only [stored, ran, ← idle]

end Run

section Claims
variable {pg : Postgres} {batchSize : BatchSize} {ttl : String} {now : Timestamp} {tables : Tables} {joins : Joins}

/-- The pass commits, and every row it dequeued is answered by exactly one result. -/
def Answered (pg : Postgres) (batchSize : BatchSize) (ttl : String) (now : Timestamp) (tables : Tables)
    (joins : Joins) : Prop :=
  ∃ pass, drainBatch pg batchSize ttl now tables joins = .ok pass ∧
    ∀ row ∈ batch batchSize now tables, row.id ∉ pass.tables.queueIds ∧ pass.tables.resultIds.count row.id = 1

/-- The pass commits its results and removes its batch. The clean-up takes only
rows that have outlived the `ttl`, and one that cannot run says so. -/
def Kept (pg : Postgres) (batchSize : BatchSize) (ttl : String) (now : Timestamp) (tables : Tables)
    (joins : Joins) : Prop :=
  ∃ pass, drainBatch pg batchSize ttl now tables joins = .ok pass ∧
    (∀ row ∈ batch batchSize now tables, row.id ∉ pass.tables.queueIds) ∧
    (∀ row ∈ tables.results ++ answers batchSize now tables joins,
      ¬ Expires pg now ttl row.created → row ∈ pass.tables.results) ∧
    (pg.cutoff now ttl = none → pass.warning.isSome)

private theorem passed_left (sound : tables.Sound) {row : QueueRow} (member : row ∈ batch batchSize now tables)
    (bound : Timestamp) : row.id ∉ (passed batchSize now tables joins bound).queueIds := by
  intro left
  have picked := (batch_ids sound).mem_iff.mp (List.mem_map_of_mem member)
  exact ((Keyed.mem_map_without QueueRow.id).mp left).2 picked

private theorem answers_created {answer : ResultRow} (among : answer ∈ answers batchSize now tables joins) :
    answer.created = now := by
  obtain ⟨result, _, rfl⟩ := List.mem_map.mp among
  rfl

/-- A dequeued row has its one result unless the clean-up takes what was stored just now. -/
private theorem passed_once (sound : tables.Sound) (covers : joins.covers (batch batchSize now tables)) {row : QueueRow}
    (member : row ∈ batch batchSize now tables) {bound : Timestamp} :
    (passed batchSize now tables joins bound).resultIds.count row.id = 1 ↔ bound ≤ now := by
  have apart := answers_apart sound covers
  have once : (passed batchSize now tables joins bound).resultIds.Nodup := Keyed.map_filter_nodup _ apart _
  obtain ⟨answer, among, same⟩ := List.mem_map.mp ((answers_ids covers).mem_iff.mpr (List.mem_map_of_mem member))
  have listed := List.mem_append_right tables.results among
  rw [← same]
  constructor
  · intro counted
    have kept : answer.id ∈ (passed batchSize now tables joins bound).resultIds := List.count_pos_iff.mp (by omega)
    obtain ⟨other, there, named⟩ := List.mem_map.mp kept
    obtain ⟨there, young⟩ := List.mem_filter.mp there
    obtain rfl : other = answer := List.inj_on_of_nodup_map apart there listed named
    simpa [answers_created among] using young
  · intro young
    refine List.count_eq_one_of_mem once (List.mem_map_of_mem (List.mem_filter.mpr ⟨listed, ?_⟩))
    simpa [answers_created among] using young

end Claims

end PgGrpc.Worker

namespace PgGrpc.Cluster
open Library Queue Worker

/-- A batch is answered exactly when PostgreSQL can store every answer in it and the
clean-up of the same transaction can run, for a `ttl` that is not negative. -/
theorem batch_answered_iff {pg : Postgres} {state : State} (reached : (machine pg).Reachable state)
    (batchSize : BatchSize) (ttl : String) (joins : Joins) (calls : batch batchSize state.clock state.tables ≠ [])
    (covers : joins.covers (batch batchSize state.clock state.tables)) :
    Answered pg batchSize ttl state.clock state.tables joins ↔
      Storable pg joins.outcomes ∧ ∃ bound, pg.cutoff state.clock ttl = some bound ∧ bound ≤ state.clock := by
  have sound := reachable_sound reached
  constructor
  · intro answered
    obtain ⟨pass, done, answers⟩ := answered
    obtain ⟨storable, bound, cutoff, rfl⟩ := (drainBatch_ok sound covers pass).mp done
    obtain ⟨row, member⟩ := List.exists_mem_of_ne_nil _ calls
    exact ⟨storable.resolve_left calls, bound, cutoff, (passed_once sound covers member).mp (answers row member).2⟩
  · intro both
    obtain ⟨storable, bound, cutoff, young⟩ := both
    refine ⟨_, (drainBatch_ok sound covers _).mpr ⟨.inr storable, bound, cutoff, rfl⟩, fun row member => ?_⟩
    exact ⟨passed_left sound member bound, (passed_once sound covers member).mpr young⟩

private def unlucky : Joins := ⟨[7], [(7, .finished (.success (.string "pg\u0000grpc")))]⟩

private def lucky : Joins := ⟨[7], [(7, .finished (.success (.string "pg_grpc")))]⟩

private def two : BatchSize := ⟨2, by decide, by decide⟩

private theorem lucky_storable : Storable .sample lucky.outcomes where
  accepted value member := by
    obtain rfl : value = .string "pg_grpc" := by simpa [lucky, Joins.outcomes, TaskEnd.outcome] using member
    decide
  fits := rfl

private theorem one_call (joins : Joins) (check : State → Bool)
    (executed : ((machine .sample).run { clock := 0 } (enqueue 0 .sample)).map (fun state =>
      decide (state.tables.queueIds = [1] ∧ joins.covers (batch two state.clock state.tables) ∧ state.clock = 0) &&
        check state) = some true) :
    ∃ state, (machine .sample).Reachable state ∧ batch two state.clock state.tables ≠ [] ∧
      joins.covers (batch two state.clock state.tables) ∧ state.clock = 0 ∧ check state = true := by
  obtain ⟨state, _, reached, checked⟩ := (machine .sample).exists_of_run ⟨0, rfl⟩ _ _ executed
  obtain ⟨decided, more⟩ := Bool.and_eq_true_iff.mp checked
  obtain ⟨queue, covers, clock⟩ := of_decide_eq_true decided
  refine ⟨state, reached, ?_, covers, clock, more⟩
  rw [ne_eq, batch_empty (reachable_sound reached)]
  intro empty
  simp [Tables.queueIds, empty] at queue

theorem batch_answered_lucky : ∃ state, (machine .sample).Reachable state ∧ batch two state.clock state.tables ≠ [] ∧
    Answered .sample two "6 hours" state.clock state.tables lucky := by
  obtain ⟨state, reached, calls, covers, clock, _⟩ := one_call lucky (fun _ => true) (by decide)
  refine ⟨state, reached, calls, (batch_answered_iff reached two "6 hours" lucky calls covers).mpr
    ⟨lucky_storable, -21600000000, ?_, ?_⟩⟩
  · rw [clock]
    decide
  · rw [clock]
    decide

private def raises (ttl : String) (joins : Joins) (state : State) : Bool :=
  match drainBatch .sample two ttl state.clock state.tables joins with
  | .ok _ => false
  | .error _ => true

private theorem not_ok {ttl : String} {joins : Joins} {state : State} (check : raises ttl joins state = true)
    (pass : Pass) : drainBatch .sample two ttl state.clock state.tables joins ≠ .ok pass := by
  intro done
  simp [raises, done] at check

private def retry : List Event :=
  [.worker .begin, .worker (.dequeue two), .worker (.execute unlucky), .worker .insert, .worker .begin,
    .worker (.dequeue two)]

private def retries (state : State) : Bool :=
  match ((machine .sample).run state retry).map State.worker with
  | some (.dequeued _ [row]) => row.id == 1
  | _ => false

/-- An answer with U+0000 aborts the pass. The worker that restarts dequeues the
same row and sends the call again. -/
theorem batch_poisoned : ∃ state, (machine .sample).Reachable state ∧
    unlucky.covers (batch two state.clock state.tables) ∧ Postgres.sample.cutoff state.clock "6 hours" = some (-21600000000) ∧
    ¬ Answered .sample two "6 hours" state.clock state.tables unlucky ∧
    ∃ tx row, ((machine .sample).run state retry).map State.worker = some (.dequeued tx [row]) ∧ row.id = 1 := by
  obtain ⟨state, reached, _, covers, clock, more⟩ :=
    one_call unlucky (fun state => raises "6 hours" unlucky state && retries state) (by decide)
  obtain ⟨raised, again⟩ := Bool.and_eq_true_iff.mp more
  refine ⟨state, reached, covers, ?_, fun ⟨pass, done, _⟩ => not_ok raised pass done, ?_⟩
  · rw [clock]
    decide
  · unfold retries at again
    split at again
    next tx row ran => exact ⟨tx, row, ran, by simpa using again⟩
    next => cases again

end PgGrpc.Cluster
