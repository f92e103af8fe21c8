import PgGrpc.Proofs.Queue
import PgGrpc.RowCall

/-! The outcomes of a batch. A row's answer travels under the id of its task, in the
order of the joins, through four arrays and back: it never reaches another row. -/

namespace PgGrpc

def CallOutcome.shown : CallOutcome → LookupStatus
  | .success value => .success value
  | .error text => .error text

theorem CallResult.row_outcome (result : CallResult) (now : Timestamp) : (result.row now).outcome = result.outcome.shown := by
  obtain ⟨id, outcome⟩ := result
  cases outcome <;> rfl

private def secondLetter (text : String) : Option Char := text.toList.tail.head?

private theorem display_letter (failure : GrpcError) : secondLetter failure.display ≠ some 'a' := by
  cases failure with
  | connection text =>
    change secondLetter ("Connection error: " ++ text) ≠ _
    simp [secondLetter, String.toList_append]
  | proto text =>
    change secondLetter ("Proto error: " ++ text) ≠ _
    simp [secondLetter, String.toList_append]
  | protoCompile text =>
    change secondLetter ("Proto compile error: " ++ text) ≠ _
    simp [secondLetter, String.toList_append]
  | call text =>
    change secondLetter ("gRPC call failed: " ++ text) ≠ _
    simp [secondLetter, String.toList_append]
  | timeout ms =>
    change secondLetter ("Request timeout: " ++ toString ms ++ "ms") ≠ _
    simp [secondLetter, String.toList_append]

private theorem expired_letter (ms : Nat) : secondLetter ("timeout after " ++ toString ms ++ "ms") ≠ some 'a' := by
  simp [secondLetter, String.toList_append]

/-- No text that a call reports is that of a panic. -/
theorem rowOutcome_ne_panic (row : QueueRow) (ended : Option (GrpcResult Json)) :
    rowOutcome row ended ≠ .error "task panicked" := by
  have panic : secondLetter "task panicked" = some 'a' := by decide
  intro same
  rcases ended with _ | (failure | value)
  · exact expired_letter _ ((congrArg secondLetter (CallOutcome.error.inj same)).trans panic)
  · exact display_letter failure ((congrArg secondLetter (CallOutcome.error.inj same)).trans panic)
  · cases same

namespace Worker
open Library Queue

variable {rows : List QueueRow} {handles : List TaskId} {joined : List JoinNext}

/-- One distinct task a row, each joined once, and a task that returned has run the
call of its own row. -/
structure Reports (rows : List QueueRow) (handles : List TaskId) (joined : List JoinNext) : Prop where
  spawned : handles.length = rows.length
  once : handles.Nodup
  all : (joined.map JoinNext.task).Perm handles
  own : ∀ task row result, (task, row) ∈ handles.zip rows → .ok task result ∈ joined → ∃ ended, result = rowResult row ended

def Panicked (rows : List QueueRow) (handles : List TaskId) (joined : List JoinNext) (row : QueueRow) : Prop :=
  ∃ task, (task, row) ∈ handles.zip rows ∧ .err task ∈ joined

/-- The call of the row ended in this way, and its task returned. -/
def Returned (rows : List QueueRow) (handles : List TaskId) (joined : List JoinNext) (row : QueueRow)
    (ended : Option (GrpcResult Json)) : Prop :=
  ∃ task, (task, row) ∈ handles.zip rows ∧ .ok task (rowResult row ended) ∈ joined

def JoinNext.ended : JoinNext → TaskId × TaskEnd
  | .ok task result => (task, .finished result.outcome)
  | .err task => (task, .panicked)

def joinsOf (handles : List TaskId) (joined : List JoinNext) : Joins := ⟨handles, joined.map JoinNext.ended⟩

theorem JoinNext.ended_task (report : JoinNext) : report.ended.1 = report.task := by
  cases report <;> rfl

theorem Reports.covers (reports : Reports rows handles joined) : (joinsOf handles joined).covers rows := by
  refine ⟨reports.spawned, reports.once, ?_⟩
  have tasks : (joined.map JoinNext.ended).map Prod.fst = joined.map JoinNext.task := by
    rw [List.map_map]
    exact List.map_congr_left fun report _ => report.ended_task
  rw [joinsOf, tasks]
  exact reports.all

theorem Reports.lookup_iff (reports : Reports rows handles joined) {task : TaskId} {row : QueueRow} :
    (handles.zip rows).lookup task = some row ↔ (task, row) ∈ handles.zip rows := by
  apply Keyed.lookup_eq_some
  rw [List.map_fst_zip reports.spawned.le]
  exact reports.once

theorem Reports.row_of (reports : Reports rows handles joined) {report : JoinNext} (member : report ∈ joined) :
    ∃ row ∈ rows, (report.task, row) ∈ handles.zip rows := by
  have handle : report.task ∈ (handles.zip rows).map Prod.fst := by
    rw [List.map_fst_zip reports.spawned.le]
    exact reports.all.mem_iff.mp (List.mem_map_of_mem member)
  obtain ⟨⟨task, row⟩, spawned, same⟩ := List.mem_map.mp handle
  exact ⟨row, (List.of_mem_zip spawned).2, same ▸ spawned⟩

theorem Reports.joins (reports : Reports rows handles joined) {row : QueueRow} (member : row ∈ rows) :
    Panicked rows handles joined row ∨ ∃ ended, Returned rows handles joined row ended := by
  have zipped : row ∈ (handles.zip rows).map Prod.snd := by rwa [List.map_snd_zip reports.spawned.ge]
  obtain ⟨⟨task, row⟩, spawned, rfl⟩ := List.mem_map.mp zipped
  have handle : task ∈ joined.map JoinNext.task := reports.all.mem_iff.mpr (List.of_mem_zip spawned).1
  obtain ⟨report, listed, rfl⟩ := List.mem_map.mp handle
  cases report with
  | ok task result =>
    obtain ⟨ended, rfl⟩ := reports.own task row result spawned listed
    exact .inr ⟨ended, task, spawned, listed⟩
  | err task => exact .inl ⟨task, spawned, listed⟩

/-- A join finds the id of its row in the map. -/
theorem Reports.id_known (reports : Reports rows handles joined) {task : TaskId} {row : QueueRow}
    (spawned : (task, row) ∈ handles.zip rows) : (handles.zip (rows.map QueueRow.id)).lookup task = some row.id := by
  apply (Keyed.lookup_eq_some ?_).mpr
  · rw [List.zip_map_right]
    exact List.mem_map.mpr ⟨(task, row), spawned, rfl⟩
  · rw [List.map_fst_zip (by simp [reports.spawned])]
    exact reports.once

/-- The loop over the joins gathers what `collect` says. -/
theorem Reports.blockOn_eq (reports : Reports rows handles joined) :
    blockOn rows handles joined = collect rows (joinsOf handles joined) := by
  simp only [blockOn, collect, joinsOf, List.filterMap_map]
  rw [← List.filterMap_eq_map]
  apply List.filterMap_congr
  intro report member
  obtain ⟨row, _, spawned⟩ := reports.row_of member
  have seen := reports.lookup_iff.mpr spawned
  cases report with
  | ok task result =>
    obtain ⟨ended, rfl⟩ := reports.own task row result spawned member
    exact (collectOne_seen (.finished (rowOutcome row ended)) seen).symm
  | err task =>
    have known : (handles.zip (rows.map QueueRow.id)).lookup task = some row.id := reports.id_known spawned
    refine Eq.trans ?_ (collectOne_seen .panicked seen).symm
    simp only [Function.comp_apply, JoinNext.result, known]
    rfl

theorem Reports.ids (reports : Reports rows handles joined) :
    ((blockOn rows handles joined).map CallResult.id).Perm (rows.map QueueRow.id) := by
  rw [reports.blockOn_eq]
  exact collect_ids reports.covers

theorem Reports.result_of (reports : Reports rows handles joined) (distinct : (rows.map QueueRow.id).Nodup)
    {row : QueueRow} {outcome : CallOutcome} (stored : ⟨row.id, outcome⟩ ∈ blockOn rows handles joined) :
    ∀ result ∈ blockOn rows handles joined, result.id = row.id → result = ⟨row.id, outcome⟩ := by
  intro result member same
  have once := reports.ids.nodup_iff.mpr distinct
  exact List.inj_on_of_nodup_map once member stored same

private theorem Returned.stored {row : QueueRow} {ended : Option (GrpcResult Json)}
    (returned : Returned rows handles joined row ended) : rowResult row ended ∈ blockOn rows handles joined := by
  obtain ⟨task, _, listed⟩ := returned
  exact List.mem_map.mpr ⟨.ok task (rowResult row ended), listed, rfl⟩

private theorem Panicked.stored (reports : Reports rows handles joined) {row : QueueRow}
    (panicked : Panicked rows handles joined row) : ⟨row.id, .error "task panicked"⟩ ∈ blockOn rows handles joined := by
  obtain ⟨task, spawned, listed⟩ := panicked
  refine List.mem_map.mpr ⟨.err task, listed, ?_⟩
  simp only [JoinNext.result, reports.id_known spawned]
  rfl

/-- Where the results are stored and the transaction commits without having expired
the one of this id, a lookup of the id shows the outcome. -/
def Readable (results : List CallResult) (id : Int) (outcome : CallOutcome) : Prop :=
  ∀ (pg : Postgres) (committed : Tables) (tx after final : Tx) (second : Tables),
    insertResults pg committed tx results = .ok after → final.inserted = after.inserted →
    after.expired ⊆ final.expired → id ∉ final.expired →
    lookup (final.view committed) second id = ⟨id, outcome.shown⟩

theorem readable {results : List CallResult} {result : CallResult} (member : result ∈ results) :
    Readable results result.id result.outcome := by
  intro pg committed tx after final second ran inserted later kept
  rw [insertResults_lookup ran inserted later member kept second, CallResult.row_outcome]

/-- Each row gets one result, with its own id and its own outcome, and once the batch
is committed its id leads to that outcome. -/
theorem outcomes_own (distinct : (rows.map QueueRow.id).Nodup) (reports : Reports rows handles joined) :
    ((blockOn rows handles joined).map CallResult.id).Perm (rows.map QueueRow.id) ∧
    (∀ report ∈ joined, ((handles.zip (rows.map QueueRow.id)).lookup report.task).isSome) ∧
    ∀ row ∈ rows, ∃ outcome, ⟨row.id, outcome⟩ ∈ blockOn rows handles joined ∧
      (∀ result ∈ blockOn rows handles joined, result.id = row.id → result = ⟨row.id, outcome⟩) ∧
      (outcome = .error "task panicked" ↔ Panicked rows handles joined row) ∧
      (¬ Panicked rows handles joined row →
        ∃ ended, Returned rows handles joined row ended ∧ outcome = rowOutcome row ended) ∧
      Readable (blockOn rows handles joined) row.id outcome := by
  refine ⟨reports.ids, ?_, ?_⟩
  · intro report member
    obtain ⟨row, _, spawned⟩ := reports.row_of member
    rw [reports.id_known spawned]
    rfl
  intro row member
  by_cases panicked : Panicked rows handles joined row
  · have stored := panicked.stored reports
    refine ⟨_, stored, reports.result_of distinct stored, by simp [panicked], ?_, readable stored⟩
    exact fun returned => absurd panicked returned
  · obtain ⟨ended, returned⟩ := (reports.joins member).resolve_left panicked
    have stored := returned.stored
    refine ⟨_, stored, reports.result_of distinct stored, ?_, fun _ => ⟨ended, returned, rfl⟩, readable stored⟩
    exact iff_of_false (rowOutcome_ne_panic row ended) panicked

private def sayRow (id : Int) : QueueRow := ⟨id, "localhost:50051", "pkg.Echo/Say", .object [], none, none, 30000⟩

/-- The task of the second row panics before that of the first returns. -/
private def mixed : List JoinNext := [.err 9, .ok 7 (rowResult (sayRow 1) (some (.ok (.string "pg_grpc"))))]

private theorem mixed_reports : Reports [sayRow 1, sayRow 2] [7, 9] mixed where
  spawned := rfl
  once := by decide
  all := List.Perm.swap ..
  own task row result spawned member := by
    simp only [mixed, List.mem_cons, JoinNext.ok.injEq, reduceCtorEq, List.not_mem_nil, false_or, or_false] at member
    obtain ⟨rfl, rfl⟩ := member
    obtain rfl : row = sayRow 1 := by simpa using spawned
    exact ⟨_, rfl⟩

private def empty : Tables := ⟨[], []⟩

/-- The batch is stored, and its result is found under the id of the row whose task panicked. -/
theorem outcomes_own_mixed : ∃ outcome after, ⟨2, outcome⟩ ∈ blockOn [sayRow 1, sayRow 2] [7, 9] mixed ∧
    outcome = .error "task panicked" ∧
    insertResults .sample empty (.begin 0) (blockOn [sayRow 1, sayRow 2] [7, 9] mixed) = .ok after ∧
    after.inserted.map ResultRow.id = [2, 1] ∧ lookup (after.view empty) empty 2 = ⟨2, outcome.shown⟩ := by
  have own := outcomes_own (by decide) mixed_reports
  obtain ⟨outcome, among, _, panics, _, found⟩ := own.2.2 (sayRow 2) (by simp)
  let ran := insertResults .sample empty (.begin 0) (blockOn [sayRow 1, sayRow 2] [7, 9] mixed)
  have stored : ran.toOption.map (fun after => (after.inserted.map ResultRow.id, after.expired)) = some ([2, 1], []) := by
    decide
  cases executed : ran with
  | error e => rw [executed] at stored; cases stored
  | ok after =>
    rw [executed] at stored
    obtain ⟨inserted, expired⟩ := Prod.mk.inj (Option.some.inj stored)
    refine ⟨outcome, after, among, panics.mpr ⟨9, by simp, by simp [mixed]⟩, executed, inserted, ?_⟩
    have kept : 2 ∉ after.expired := by
      change after.expired = [] at expired
      rw [expired]
      exact List.not_mem_nil
    exact found .sample empty (.begin 0) after after empty executed rfl (List.Subset.refl _) kept

end Worker
end PgGrpc
