import PgGrpc.Worker

/-! One lemma for each statement of the queue. Later modules use these and do not
unfold the statements again. -/

namespace PgGrpc

namespace CallOutcome

def status : CallOutcome → String
  | .success _ => "SUCCESS"
  | .error _ => "ERROR"

def response : CallOutcome → Option Json
  | .success value => some value
  | .error _ => none

def errorMsg : CallOutcome → Option String
  | .success _ => none
  | .error text => some text

def row (outcome : CallOutcome) (id : Int) (now : Timestamp) : ResultRow :=
  ⟨id, outcome.status, outcome.response, outcome.errorMsg, now⟩

end CallOutcome

def CallResult.row (result : CallResult) (now : Timestamp) : ResultRow := result.outcome.row result.id now

@[simp] theorem CallResult.row_id (result : CallResult) (now : Timestamp) : (result.row now).id = result.id := rfl

def ResultRow.outcome (row : ResultRow) : LookupStatus :=
  if row.status = "SUCCESS" then .success (row.response.getD .null) else .error (row.errorMsg.getD "")

theorem ResultRow.outcome_final (row : ResultRow) : row.outcome ≠ .pending := by
  unfold outcome
  split <;> nofun

/-- The two primary keys, and no id in both tables. -/
structure Tables.Sound (tables : Tables) : Prop where
  queueOnce : tables.queueIds.Nodup
  resultOnce : tables.resultIds.Nodup
  apart : ∀ id ∈ tables.queueIds, id ∉ tables.resultIds

namespace Queue
open Library

private theorem push_all (results : List CallResult) (arrays : ResultArrays) :
    results.foldl ResultArrays.push arrays =
      ⟨arrays.ids ++ results.map CallResult.id, arrays.statuses ++ results.map (·.outcome.status),
        arrays.responses ++ results.map (·.outcome.response), arrays.errorMsgs ++ results.map (·.outcome.errorMsg)⟩ := by
  induction results generalizing arrays with
  | nil => simp
  | cons result rest ih =>
    rw [List.foldl_cons, ih]
    cases outcome : result.outcome <;>
      simp [ResultArrays.push, outcome, CallOutcome.status, CallOutcome.response, CallOutcome.errorMsg]

/-- The four arrays put back together are the outcomes, each under its own id. -/
theorem unnest_push (results : List CallResult) (now : Timestamp) :
    unnest now (results.foldl ResultArrays.push {}) = results.map fun result => result.row now := by
  rw [push_all]
  induction results with
  | nil => rfl
  | cons result rest ih =>
    simp only [unnest, List.nil_append, List.map_cons, List.zip_cons_cons] at ih ⊢
    rw [ih]
    rfl

theorem responses_push (results : List CallResult) :
    (results.foldl ResultArrays.push {}).responses = (results.map CallResult.outcome).map CallOutcome.response := by
  simp [push_all]

/-- Everything PostgreSQL asks of the answers of a batch. -/
structure Storable (pg : Postgres) (outcomes : List CallOutcome) : Prop where
  accepted : ∀ value, .success value ∈ outcomes → pg.acceptsJson value = true
  fits : pg.arraysFit outcomes = true

private theorem responses_accepted (pg : Postgres) (outcomes : List CallOutcome) :
    ((outcomes.map CallOutcome.response).all fun response => response.all pg.acceptsJson) = true ↔
      ∀ value, .success value ∈ outcomes → pg.acceptsJson value = true := by
  simp only [List.all_map, List.all_eq_true, Function.comp_apply]
  constructor
  · exact fun all value member => by simpa [CallOutcome.response] using all _ member
  · intro each outcome member
    cases outcome with
    | success value => simpa [CallOutcome.response] using each value member
    | error text => rfl

/-- The INSERT succeeds exactly on storable answers under new and distinct ids. -/
theorem insertResults_ok (pg : Postgres) (committed : Tables) (tx : Tx) {results : List CallResult}
    (nonempty : results ≠ []) (after : Tx) :
    insertResults pg committed tx results = .ok after ↔
      Storable pg (results.map CallResult.outcome) ∧ (results.map CallResult.id).Nodup ∧
      (∀ result ∈ results, result.id ∉ (tx.view committed).resultIds) ∧
      after = { tx with inserted := tx.inserted ++ results.map fun result => result.row tx.start } := by
  have ids : (results.map fun result => result.row tx.start).map ResultRow.id = results.map CallResult.id := by
    simp [Function.comp_def]
  simp only [insertResults, List.isEmpty_iff, nonempty, if_false, unnest_push, responses_push, ids]
  generalize same : results.map CallResult.outcome = outcomes
  by_cases accepted : ((outcomes.map CallOutcome.response).all fun response => response.all pg.acceptsJson) = true
  · by_cases fits : pg.arraysFit outcomes = true
    · have storable : Storable pg outcomes := ⟨(responses_accepted pg outcomes).mp accepted, fits⟩
      simp only [accepted, fits, storable, Bool.not_true, Bool.false_eq_true, if_false, true_and]
      cases clash : Keyed.firstClash (tx.view committed).resultIds (results.map CallResult.id) with
      | some id =>
        simp only [reduceCtorEq, false_iff]
        intro fresh
        obtain ⟨distinct, free, _⟩ := fresh
        have clear := Keyed.firstClash_eq_none.mpr ⟨distinct, List.forall_mem_map.mpr free⟩
        cases clash.symm.trans clear
      | none =>
        obtain ⟨distinct, free⟩ := Keyed.firstClash_eq_none.mp clash
        simp only [Except.ok.injEq, distinct, true_and]
        exact ⟨fun same => ⟨fun result member => free _ (List.mem_map_of_mem member), same.symm⟩, fun both => both.2.symm⟩
    · have refused : ¬ Storable pg outcomes := fun storable => fits storable.fits
      simp [accepted, fits, refused]
  · have refused : ¬ Storable pg outcomes := fun storable => accepted ((responses_accepted pg outcomes).mpr storable.accepted)
    simp [accepted, refused]

theorem ttlCleanup_ok (pg : Postgres) (committed : Tables) (tx : Tx) (ttl : String) (after : Tx × Option String) :
    ttlCleanup pg committed tx ttl = .ok after ↔
      ∃ bound, pg.cutoff tx.start ttl = some bound ∧
        after = ({ tx with expired := tx.expired ++
          ((tx.view committed).results.filter fun row => decide (row.created < bound)).map ResultRow.id }, none) := by
  unfold ttlCleanup deleteExpired
  cases pg.cutoff tx.start ttl with
  | none => simp
  | some bound => simp [eq_comm]

theorem ttlCleanup_error (pg : Postgres) (committed : Tables) (tx : Tx) (ttl : String)
    (unusable : pg.cutoff tx.start ttl = none) : ttlCleanup pg committed tx ttl = .error (.invalidInterval ttl) := by
  simp [ttlCleanup, deleteExpired, unusable]

section Dequeue
variable (batchSize : BatchSize) (committed : Tables) (tx : Tx)

theorem dequeue_tx : (dequeue batchSize committed tx).2 =
    { tx with deleted := tx.deleted ++ Keyed.smallest batchSize.value (tx.view committed).queueIds } := rfl

theorem dequeue_ids (distinct : (tx.view committed).queueIds.Nodup) :
    ((dequeue batchSize committed tx).1.map QueueRow.id).Perm
      (Keyed.smallest batchSize.value (tx.view committed).queueIds) :=
  Keyed.map_filter_perm QueueRow.id distinct (Keyed.smallest_nodup distinct _) fun _ => Keyed.smallest_subset

theorem dequeue_empty (distinct : (tx.view committed).queueIds.Nodup) :
    (dequeue batchSize committed tx).1 = [] ↔ (tx.view committed).queue = [] := by
  have perm := (dequeue_ids batchSize committed tx distinct).length_eq
  rw [← List.map_eq_nil_iff (f := QueueRow.id), ← List.length_eq_zero_iff, perm, List.length_eq_zero_iff,
    Keyed.smallest_eq_nil batchSize.positive, Tables.queueIds, List.map_eq_nil_iff]

end Dequeue

theorem lookup_only {first : Tables} {row : ResultRow} (member : row ∈ first.results)
    (only : ∀ other ∈ first.results, other.id = row.id → other = row) (second : Tables) :
    lookup first second row.id = ⟨row.id, row.outcome⟩ := by
  have found : first.results.find? (fun other => other.id == row.id) = some row := by
    obtain ⟨other, seen⟩ := Option.isSome_iff_exists.mp
      (List.find?_isSome.mpr ⟨row, member, by simp⟩ : (first.results.find? fun other => other.id == row.id).isSome)
    have same : other.id = row.id := by simpa using List.find?_some seen
    rwa [only other (List.mem_of_find?_eq_some seen) same] at seen
  simp only [lookup, found, ResultRow.outcome, beq_iff_eq]
  split <;> rfl

theorem lookup_stored {first : Tables} (once : first.resultIds.Nodup) {row : ResultRow} (member : row ∈ first.results)
    (second : Tables) : lookup first second row.id = ⟨row.id, row.outcome⟩ :=
  lookup_only member (fun _ there same => List.inj_on_of_nodup_map once there member same) second

theorem insertResults_expired {pg : Postgres} {committed : Tables} {tx after : Tx} {results : List CallResult}
    (ran : insertResults pg committed tx results = .ok after) : after.expired = tx.expired := by
  by_cases empty : results = []
  · subst empty
    cases ran
    rfl
  · obtain ⟨_, _, _, rfl⟩ := (insertResults_ok pg committed tx empty after).mp ran
    rfl

/-- A result that was inserted is what its id leads to once that is committed, unless
the transaction has expired it in the meantime. -/
theorem insertResults_lookup {pg : Postgres} {committed : Tables} {tx after final : Tx} {results : List CallResult}
    (ran : insertResults pg committed tx results = .ok after) (inserted : final.inserted = after.inserted)
    (later : after.expired ⊆ final.expired) {result : CallResult} (member : result ∈ results)
    (kept : result.id ∉ final.expired) (second : Tables) :
    lookup (final.view committed) second result.id = ⟨result.id, (result.row tx.start).outcome⟩ := by
  have nonempty : results ≠ [] := List.ne_nil_of_mem member
  obtain ⟨_, distinct, free, same⟩ := (insertResults_ok pg committed tx nonempty after).mp ran
  have rows : final.inserted = tx.inserted ++ results.map fun result => result.row tx.start := by rw [inserted, same]
  have early : result.id ∉ tx.expired := fun gone => kept (later (by rw [same]; exact gone))
  have here : result.row tx.start ∈ (final.view committed).results := by
    have listed : result.row tx.start ∈ final.inserted := by
      rw [rows]
      exact List.mem_append_right _ (List.mem_map_of_mem member)
    exact List.mem_filter.mpr ⟨List.mem_append_right _ listed, by simpa using kept⟩
  refine lookup_only here ?_ second
  intro other there named
  obtain ⟨there, _⟩ := List.mem_filter.mp there
  rw [rows, ← List.append_assoc, List.mem_append, List.mem_map] at there
  rcases there with old | ⟨twin, listed, rfl⟩
  · have seen : other ∈ (tx.view committed).results := List.mem_filter.mpr ⟨old, by simpa [named] using early⟩
    exact absurd (List.mem_map.mpr ⟨other, seen, named⟩) (free result member)
  · rw [List.inj_on_of_nodup_map distinct listed member named]

theorem lookup_absent {first second : Tables} {id : Int} (absent : id ∉ first.resultIds) :
    lookup first second id = if id ∈ second.queueIds then ⟨id, .pending⟩ else ⟨id, .error notFound⟩ := by
  have none : first.results.find? (fun row => row.id == id) = none := by
    rw [List.find?_eq_none]
    intro row member same
    exact absent (List.mem_map.mpr ⟨row, member, by simpa using same⟩)
  have count : 0 < (second.queue.filter fun row => row.id == id).length ↔ id ∈ second.queueIds := by
    simp only [List.length_pos_iff, ne_eq, List.filter_eq_nil_iff, beq_iff_eq, not_forall, not_not,
      Tables.queueIds, List.mem_map, exists_prop]
  simp only [lookup, none, count]

theorem lookup_pending {first second : Tables} (once : first.resultIds.Nodup) {id : Int} :
    (lookup first second id).status = .pending ↔ id ∉ first.resultIds ∧ id ∈ second.queueIds := by
  by_cases seen : id ∈ first.resultIds
  · obtain ⟨row, member, rfl⟩ := List.mem_map.mp seen
    rw [lookup_stored once member]
    exact iff_of_false row.outcome_final fun both => both.1 seen
  · rw [lookup_absent seen]
    split
    next waiting => exact iff_of_true rfl ⟨seen, waiting⟩
    next gone => exact iff_of_false nofun fun both => gone both.2

end Queue

namespace Worker
open Queue

private theorem lookup_zip {tasks : List TaskId} {rows : List QueueRow} (same : tasks.length = rows.length)
    {task : TaskId} (member : task ∈ tasks) : ∃ row ∈ rows, (tasks.zip rows).lookup task = some row := by
  induction tasks generalizing rows with
  | nil => cases member
  | cons head tail ih =>
    cases rows with
    | nil => cases same
    | cons row rest =>
      by_cases here : task = head
      · exact ⟨row, by simp, by simp [here]⟩
      · obtain ⟨found, inside, seen⟩ := ih (by simpa using same) ((List.mem_cons.mp member).resolve_left here)
        refine ⟨found, List.mem_cons_of_mem _ inside, ?_⟩
        simpa [List.lookup_cons, beq_eq_false_iff_ne.mpr here] using seen

/-- The id under which a task's end is recorded: always its own row's. -/
private def idOf (spawned : List (TaskId × QueueRow)) (task : TaskId) : Option Int :=
  (spawned.lookup task).map QueueRow.id

private theorem lookup_map (spawned : List (TaskId × QueueRow)) (task : TaskId) :
    (spawned.map fun (task, row) => (task, row.id)).lookup task = idOf spawned task := by
  induction spawned with
  | nil => rfl
  | cons head tail ih =>
    obtain ⟨first, row⟩ := head
    simp only [List.map_cons, List.lookup_cons, idOf] at ih ⊢
    cases task == first with
    | true => rfl
    | false => exact ih

def TaskEnd.outcome : TaskEnd → CallOutcome
  | .finished outcome => outcome
  | .panicked => .error "task panicked"

theorem collectOne_seen {spawned : List (TaskId × QueueRow)} {task : TaskId} {row : QueueRow} (ended : TaskEnd)
    (seen : spawned.lookup task = some row) : collectOne spawned (task, ended) = some ⟨row.id, ended.outcome⟩ := by
  cases ended with
  | finished outcome => simp [collectOne, seen, TaskEnd.outcome]
  | panicked => simp [collectOne, lookup_map, idOf, seen, TaskEnd.outcome]

private theorem collect_eq {spawned : List (TaskId × QueueRow)} {ends : List (TaskId × TaskEnd)}
    (known : ∀ joined ∈ ends, ∃ row, spawned.lookup joined.1 = some row) :
    (ends.filterMap (collectOne spawned)).map CallResult.id = (ends.map Prod.fst).filterMap (idOf spawned) ∧
      (ends.filterMap (collectOne spawned)).map CallResult.outcome = ends.map fun joined => joined.2.outcome := by
  induction ends with
  | nil => exact ⟨rfl, rfl⟩
  | cons joined rest ih =>
    obtain ⟨task, ended⟩ := joined
    obtain ⟨row, seen⟩ := known (task, ended) (by simp)
    obtain ⟨ids, outcomes⟩ := ih fun other member => known other (by simp [member])
    have here : idOf spawned task = some row.id := by simp only [idOf, seen, Option.map_some]
    rw [List.filterMap_cons_some (collectOne_seen ended seen)]
    simp only [List.map_cons, List.filterMap_cons_some here, ids, outcomes, and_self]

private theorem zip_ids {tasks : List TaskId} {rows : List QueueRow} (same : tasks.length = rows.length)
    (distinct : tasks.Nodup) : tasks.filterMap (idOf (tasks.zip rows)) = rows.map QueueRow.id := by
  induction tasks generalizing rows with
  | nil => rw [List.eq_nil_of_length_eq_zero same.symm]; rfl
  | cons head tail ih =>
    cases rows with
    | nil => cases same
    | cons row rest =>
      obtain ⟨fresh, distinct⟩ := List.nodup_cons.mp distinct
      have first : idOf ((head :: tail).zip (row :: rest)) head = some row.id := by simp [idOf]
      have later : tail.filterMap (idOf ((head :: tail).zip (row :: rest))) = tail.filterMap (idOf (tail.zip rest)) := by
        apply List.filterMap_congr
        intro task member
        have other : task ≠ head := fun same => fresh (same ▸ member)
        simp [idOf, List.lookup_cons, beq_eq_false_iff_ne.mpr other]
      rw [List.filterMap_cons_some first, later, ih (by simpa using same) distinct, List.map_cons]

private theorem known {rows : List QueueRow} {joins : Joins} (covers : joins.covers rows) :
    ∀ ended ∈ joins.ends, ∃ row, (joins.tasks.zip rows).lookup ended.1 = some row := by
  intro ended member
  obtain ⟨row, _, seen⟩ := lookup_zip covers.1 (covers.2.2.mem_iff.mp (List.mem_map_of_mem member))
  exact ⟨row, seen⟩

/-- In whatever order the tasks end, each row's id gets exactly one result. -/
theorem collect_ids {rows : List QueueRow} {joins : Joins} (covers : joins.covers rows) :
    ((collect rows joins).map CallResult.id).Perm (rows.map QueueRow.id) := by
  rw [collect, (collect_eq (known covers)).1, ← zip_ids covers.1 covers.2.1]
  exact covers.2.2.filterMap _

theorem mem_collect {rows : List QueueRow} {joins : Joins} {task : TaskId} {row : QueueRow} {ended : TaskEnd}
    (spawned : (joins.tasks.zip rows).lookup task = some row) (joined : (task, ended) ∈ joins.ends) :
    ⟨row.id, ended.outcome⟩ ∈ collect rows joins :=
  List.mem_filterMap.mpr ⟨(task, ended), joined, collectOne_seen ended spawned⟩

def Joins.outcomes (joins : Joins) : List CallOutcome := joins.ends.map fun joined => joined.2.outcome

theorem collect_outcomes {rows : List QueueRow} {joins : Joins} (covers : joins.covers rows) :
    (collect rows joins).map CallResult.outcome = joins.outcomes := (collect_eq (known covers)).2

theorem collect_nonempty {rows : List QueueRow} {joins : Joins} (covers : joins.covers rows) (nonempty : rows ≠ []) :
    collect rows joins ≠ [] := by
  intro empty
  have perm := (collect_ids covers).length_eq
  simp only [empty, List.map_nil, List.length_nil, List.length_map] at perm
  exact nonempty (List.length_eq_zero_iff.mp perm.symm)

end Worker
end PgGrpc
