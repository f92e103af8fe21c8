import PgGrpc.RowCall
import PgGrpc.Proofs.CallEffects
import PgGrpc.Proofs.Batch

/-! The asynchronous path beside the synchronous one: what is accepted into the
queue, and what a queued call reports where `grpc_call` would have returned. -/

namespace PgGrpc
open Library

structure Validated (args : SqlCall) (opts : OptionsConfig) : Prop where
  endpoint : ∃ host, validateEndpoint args.endpoint = .ok host
  method : ∃ names, parseMethod args.method = .ok names
  options : OptionsConfig.ofArgument args.options = .ok opts

def OptionsConfig.timeout (opts : OptionsConfig) : Nat := opts.timeoutMs.getD 30000

def SqlCall.row (args : SqlCall) (opts : OptionsConfig) (id : Int) : QueueRow :=
  ⟨id, args.endpoint, args.method, args.request, args.metadata, args.options, opts.timeout⟩

theorem grpcCallAsync_ok {args : SqlCall} {id : Int} {row : QueueRow} : grpcCallAsync args id = .ok row ↔
    ∃ opts, Validated args opts ∧ opts.timeout ≤ i32Max ∧ row = args.row opts id := by
  simp only [grpcCallAsync, bind_eq_ok, mapErr_eq_ok]
  constructor
  · intro made
    obtain ⟨host, endpoint, names, method, opts, options, made⟩ := made
    split at made
    next => cases made
    next small =>
      cases made
      exact ⟨opts, ⟨⟨host, endpoint⟩, ⟨names, method⟩, options⟩, Nat.le_of_not_gt small, rfl⟩
  · intro valid
    obtain ⟨opts, ⟨⟨host, endpoint⟩, ⟨names, method⟩, options⟩, small, rfl⟩ := valid
    exact ⟨host, endpoint, names, method, opts, options, if_neg (Nat.not_lt.mpr small)⟩

theorem asU64_natCast {n : Nat} (small : n ≤ i32Max) : asU64 n = n := by
  have bound : n ≤ 2 ^ 31 - 1 := small
  simp only [asU64]
  omega

/-- `call_async_row` accepts the row again, and waits as long as `grpc_call` would. -/
structure Revalidates (row : QueueRow) (opts : OptionsConfig) : Prop where
  endpoint : ∃ host, validateEndpoint row.endpoint = .ok host
  method : ∃ names, parseMethod row.method = .ok names
  options : OptionsConfig.ofArgument row.options = .ok opts
  timeout : asU64 row.timeoutMs = opts.timeout

theorem Validated.revalidates {args : SqlCall} {opts : OptionsConfig} (valid : Validated args opts)
    (small : opts.timeout ≤ i32Max) (id : Int) : Revalidates (args.row opts id) opts :=
  ⟨valid.endpoint, valid.method, valid.options, asU64_natCast small⟩

def RefusedAtOnce (crates : Crates) (args : SqlCall) : Prop :=
  ∃ e, (OptionsConfig.ofArgument args.options = .error e ∨ ∃ opts, OptionsConfig.ofArgument args.options = .ok opts ∧
      ∀ world, (callAsync crates (Invocation.callArgs ⟨args, world⟩ opts)).run = .done (.error e)) ∧
    ∀ (pg : Postgres) (backend : Backend) (world : World), world.runtime = .ok () →
      (backend.grpcCall pg crates ⟨args, world⟩).1 = .error (.grpc e)

theorem refusedAtOnce_of_program {crates : Crates} {args : SqlCall} {opts : OptionsConfig} {e : GrpcError}
    (options : OptionsConfig.ofArgument args.options = .ok opts)
    (program : ∀ world, (callAsync crates (Invocation.callArgs ⟨args, world⟩ opts)).run = .done (.error e)) :
    RefusedAtOnce crates args := by
  refine ⟨e, .inr ⟨opts, options, program⟩, fun pg backend world built => ?_⟩
  simp only [Backend.grpcCall, options, built, makeGrpcCall, program, Fiber.drive, toJsonB]

theorem refusedAtOnce {crates : Crates} {args : SqlCall} (invalid : ∀ opts, ¬ Validated args opts) :
    RefusedAtOnce crates args := by
  cases options : OptionsConfig.ofArgument args.options with
  | error e => exact ⟨e, .inl options, fun pg backend world _ => by simp only [Backend.grpcCall, options]⟩
  | ok opts =>
    cases method : parseMethod args.method with
    | error e =>
      refine refusedAtOnce_of_program (e := e) options fun world => ?_
      simp only [callAsync, Invocation.callArgs, method]
      rfl
    | ok names =>
      cases endpoint : validateEndpoint args.endpoint with
      | error e =>
        refine refusedAtOnce_of_program (e := e) options fun world => ?_
        simp only [callAsync, Invocation.callArgs, method, getOrConnect, endpoint]
        rfl
      | ok host => exact absurd ⟨⟨host, endpoint⟩, ⟨names, method⟩, options⟩ (invalid opts)

/-- A call is enqueued, and the wake armed, where endpoint, method and options are
accepted and the timeout fits the column. What the three refuse `grpc_call` refuses too. -/
theorem enqueue_validates (pg : Postgres) (crates : Crates) (args : SqlCall) (state : Cluster.State)
    (backend : Cluster.BackendId) :
    (∀ opts, Validated args opts → opts.timeout ≤ i32Max → ∃ after,
      Cluster.step pg state (.session backend (.call args)) = some after ∧
        (after.sessions backend).rows.Perm ((state.sessions backend).rows ++ [args.row opts state.nextId]) ∧
        (after.sessions backend).wakeCbActive = true ∧ Revalidates (args.row opts state.nextId) opts) ∧
    ((∀ opts, Validated args opts → i32Max < opts.timeout) →
      Cluster.step pg state (.session backend (.call args)) = some state) ∧
    ((∀ opts, ¬ Validated args opts) → RefusedAtOnce crates args) := by
  refine ⟨?_, ?_, refusedAtOnce⟩
  · intro opts valid small
    have made := grpcCallAsync_ok.mpr ⟨opts, valid, small, (rfl : _ = args.row opts state.nextId)⟩
    simp only [Cluster.step, Cluster.sessionStep, made]
    refine ⟨_, rfl, ?_, ?_, valid.revalidates small _⟩
    · simp only [Cluster.State.setSession, if_true]
      exact (state.sessions backend).addRow_rows _
    · simp [Cluster.State.setSession]
  · intro large
    cases made : grpcCallAsync args state.nextId with
    | error text => simp only [Cluster.step, Cluster.sessionStep, made]
    | ok row =>
      obtain ⟨opts, valid, small, _⟩ := grpcCallAsync_ok.mp made
      exact absurd small (Nat.not_le.mpr (large opts valid))

private def hugeTimeout : SqlCall :=
  { SqlCall.sample with options := some (.object [("timeout_ms", .number (.int 2147483648))]) }

theorem large_timeout_refused : (∃ opts, Validated hugeTimeout opts) ∧
    (∀ id, grpcCallAsync hugeTimeout id = .error "options.timeout_ms must be <= 2147483647") ∧
    ∀ pg state backend, Cluster.step pg state (.session backend (.call hugeTimeout)) = some state := by
  have options : OptionsConfig.ofArgument hugeTimeout.options = .ok { timeoutMs := some 2147483648 } := by rfl
  have refused (id : Int) : grpcCallAsync hugeTimeout id = .error "options.timeout_ms must be <= 2147483647" := by rfl
  refine ⟨⟨_, ⟨_, by rfl⟩, ⟨_, by rfl⟩, options⟩, refused, fun pg state backend => ?_⟩
  simp only [Cluster.step, Cluster.sessionStep, refused]

/-- What the worker's turn on a queued call leaves to be read: the dequeued rows and their
results in one transaction, which is rolled back where the INSERT raises. Without a
runtime the worker does not come to it. -/
def served (pg : Postgres) (world : World) (batchSize : BatchSize) (now : Timestamp) (tables : Tables)
    (joins : Worker.Joins) : Tables :=
  match world.runtime with
  | .error _ => tables
  | .ok () =>
    match Queue.insertResults pg tables (Queue.dequeue batchSize tables (.begin now)).2
      (Worker.collect (Worker.batch batchSize now tables) joins) with
    | .error _ => tables
    | .ok after => after.view tables

/-- The line that `grpc_call_result` then shows for an id. -/
def report (tables : Tables) (id : Int) : ResultLine := grpcCallResult (Queue.lookup tables tables id)

def successLine (id : Int) (value : Json) : ResultLine := ⟨id, "SUCCESS", none, some value⟩

def errorLine (id : Int) (message : String) : ResultLine := ⟨id, "ERROR", some message, none⟩

def pendingLine (id : Int) : ResultLine := ⟨id, "PENDING", none, none⟩

/-- The line says what the synchronous call returns or raises. -/
structure Agrees (pg : Postgres) (id : Int) (line : ResultLine) (result : Except SqlError Json) : Prop where
  returns : ∀ value, line = successLine id value ↔ result = .ok value
  raises : ∀ message, line = errorLine id message ↔ ∃ e, result = .error e ∧ e.text pg = message

section Lines
variable {pg : Postgres} {id : Int} {result : Except SqlError Json}

def outcomeLine (id : Int) : CallOutcome → ResultLine
  | .success value => successLine id value
  | .error text => errorLine id text

theorem agrees_success {value : Json} : Agrees pg id (successLine id value) result ↔ result = .ok value := by
  refine ⟨fun agrees => (agrees.returns value).mp rfl, ?_⟩
  rintro rfl
  exact ⟨fun other => by simp [successLine], fun message => by simp [successLine, errorLine]⟩

theorem agrees_error {text : String} :
    Agrees pg id (errorLine id text) result ↔ ∃ e, result = .error e ∧ e.text pg = text := by
  refine ⟨fun agrees => (agrees.raises text).mp rfl, ?_⟩
  rintro ⟨e, rfl, rfl⟩
  exact ⟨fun value => by simp [successLine, errorLine], fun message => by simp [errorLine]⟩

theorem not_agrees_pending : ¬ Agrees pg id (pendingLine id) result := by
  intro agrees
  cases result with
  | ok value => exact absurd ((agrees.returns value).mpr rfl) (by simp [pendingLine, successLine])
  | error e => exact absurd ((agrees.raises _).mpr ⟨e, rfl, rfl⟩) (by simp [pendingLine, errorLine])

theorem grpcCallResult_stored (result : CallResult) (now : Timestamp) :
    grpcCallResult ⟨result.id, (result.row now).outcome⟩ = outcomeLine result.id result.outcome := by
  obtain ⟨id, outcome⟩ := result
  cases outcome <;> rfl

theorem report_queued {tables : Tables} (sound : tables.Sound) (queued : id ∈ tables.queueIds) :
    report tables id = pendingLine id := by
  rw [report, Queue.lookup_absent (sound.apart id queued), if_pos queued]
  rfl

end Lines

section Refinement
variable {crates : Crates} {backend : Backend} {invocation : Invocation} {id : Int} {row : QueueRow} {opts : OptionsConfig}
  {pg : Postgres} {batchSize : BatchSize} {joins : Worker.Joins} {task : Worker.TaskId}

/-- What the network and the timer do during the call, on the runtime built for it. -/
def Backend.answers (backend : Backend) (world : World) : Nat → (request : Request) → Option (Reply request) :=
  world.answer (backend.nextRuntime :: backend.live).contains backend.nextRuntime

def TimesOut (crates : Crates) (backend : Backend) (invocation : Invocation) : Prop :=
  ∃ opts, OptionsConfig.ofArgument invocation.args.options = .ok opts ∧
    (callAsync crates (invocation.callArgs opts)).run.Abandoned (backend.answers invocation.world) 0 backend.process

/-- The two texts of an expired timeout begin with different letters. -/
private theorem timeout_texts (first second : String) :
    "Request timeout: " ++ second ++ "ms" ≠ "timeout after " ++ first ++ "ms" := by
  intro same
  have letters := congrArg (fun text => text.toList.head?) same
  simp [String.toList_append] at letters

private theorem grpcCall_drive (options : OptionsConfig.ofArgument invocation.args.options = .ok opts)
    (built : invocation.world.runtime = .ok ()) : (backend.grpcCall pg crates invocation).1 = toJsonB pg
      (match ((callAsync crates (invocation.callArgs opts)).run.drive (backend.answers invocation.world) 0
        backend.process).1 with
      | none => .error (.timeout opts.timeout)
      | some (result, _) => result) := by
  simp only [Backend.grpcCall, options, built, makeGrpcCall, Backend.answers]
  rcases (callAsync crates (invocation.callArgs opts)).run.drive _ 0 backend.process with ⟨_ | ended, after⟩ <;> rfl

private theorem callRow_drive (options : OptionsConfig.ofArgument invocation.args.options = .ok opts)
    (answer : Nat → (request : Request) → Option (Reply request)) (process : Process) :
    (callRow crates (invocation.args.row opts id)).run.drive answer 0 process =
      (callAsync crates (invocation.callArgs opts)).run.drive answer 0 process := by
  have parsed : OptionsConfig.ofArgument (invocation.args.row opts id).options = .ok opts := options
  simp only [callRow, parsed, Call.drive_ofResult_bind]
  rfl

/-- The outcome of a queued call, where PostgreSQL accepts it, reads as what `grpc_call`
returns or raises in the same circumstances, unless the timeout expires. -/
theorem callAsyncRow_agrees (accepted : grpcCallAsync invocation.args id = .ok row)
    (built : invocation.world.runtime = .ok ()) (storable : ∀ value,
      (callAsyncRow crates (backend.answers invocation.world) row backend.process).1.outcome = .success value →
        pg.acceptsJson value = true) :
    Agrees pg id (outcomeLine id (callAsyncRow crates (backend.answers invocation.world) row backend.process).1.outcome)
      (backend.grpcCall pg crates invocation).1 ↔ ¬ TimesOut crates backend invocation := by
  obtain ⟨opts, valid, small, rfl⟩ := grpcCallAsync_ok.mp accepted
  have options := valid.options
  have expires : TimesOut crates backend invocation ↔ ((callAsync crates (invocation.callArgs opts)).run.drive
      (backend.answers invocation.world) 0 backend.process).1 = none := by
    rw [Fiber.drive_eq_none]
    constructor
    · intro times
      obtain ⟨other, parsed, abandoned⟩ := times
      cases options.symm.trans parsed
      exact abandoned
    · exact fun abandoned => ⟨opts, options, abandoned⟩
  rw [callAsyncRow, callRow_drive options] at storable
  rw [expires, grpcCall_drive options built, callAsyncRow, callRow_drive options]
  revert storable
  rcases (callAsync crates (invocation.callArgs opts)).run.drive _ 0 backend.process with ⟨_ | ⟨result, n⟩, after⟩
  · intro _
    refine iff_of_false (fun agrees => ?_) (fun finished => finished rfl)
    obtain ⟨e, raised, same⟩ := agrees_error.mp agrees
    cases raised
    exact timeout_texts _ _ same
  · intro storable
    refine iff_of_true ?_ (Option.some_ne_none _)
    cases result with
    | ok value => exact agrees_success.mpr (if_pos (storable value rfl))
    | error e => exact agrees_error.mpr ⟨.grpc e, rfl, rfl⟩

/-- The whole chain: enqueued, dequeued among other rows, run in a task, stored with the
batch, and looked up. It reports what `grpc_call` does exactly where the runtime can be
built, PostgreSQL stores the batch, and the timeout does not expire. -/
theorem async_refines_sync {state : Cluster.State} (reached : (Cluster.machine pg).Reachable state)
    (accepted : grpcCallAsync invocation.args id = .ok row)
    (covers : joins.covers (Worker.batch batchSize state.clock state.tables))
    (spawned : (joins.tasks.zip (Worker.batch batchSize state.clock state.tables)).lookup task = some row)
    (joined : (task, .finished (callAsyncRow crates (backend.answers invocation.world) row backend.process).1.outcome) ∈
      joins.ends) :
    Agrees pg id (report (served pg invocation.world batchSize state.clock state.tables joins) id)
        (backend.grpcCall pg crates invocation).1 ↔
      invocation.world.runtime = .ok () ∧ Queue.Storable pg joins.outcomes ∧ ¬ TimesOut crates backend invocation := by
  obtain rfl := grpcCallAsync_id accepted
  have sound := Cluster.reachable_sound reached
  have member : row ∈ Worker.batch batchSize state.clock state.tables := by
    obtain ⟨first, rest, zipped, _⟩ := List.lookup_eq_some_iff.mp spawned
    exact (List.of_mem_zip (zipped ▸ List.mem_append_right first List.mem_cons_self)).2
  have picked := (Worker.batch_ids sound).mem_iff.mp (List.mem_map_of_mem member)
  have queued : report state.tables row.id = pendingLine row.id := report_queued sound (Keyed.smallest_subset picked)
  unfold served
  cases built : invocation.world.runtime with
  | error e =>
    refine iff_of_false ?_ fun both => nomatch both.1
    simp only [queued]
    exact not_agrees_pending
  | ok =>
    have stores := @Worker.batch_stored pg batchSize state.clock state.tables joins sound covers (List.ne_nil_of_mem member)
    cases ran : Queue.insertResults pg state.tables (Queue.dequeue batchSize state.tables (.begin state.clock)).2
        (Worker.collect (Worker.batch batchSize state.clock state.tables) joins) with
    | error e =>
      refine iff_of_false ?_ fun both => ?_
      · simp only [queued]
        exact not_agrees_pending
      · obtain ⟨after, stored⟩ := stores.mpr both.2.1
        cases ran.symm.trans stored
    | ok after =>
      have storable := stores.mp ⟨after, ran⟩
      have accepts (value : Json) (same : (callAsyncRow crates (backend.answers invocation.world) row
          backend.process).1.outcome = .success value) : pg.acceptsJson value = true :=
        storable.accepted value (List.mem_map.mpr ⟨_, joined, same⟩)
      have quiet : after.expired = [] := Queue.insertResults_expired ran
      have found := Queue.insertResults_lookup ran rfl (List.Subset.refl _) (Worker.mem_collect spawned joined)
        (by rw [quiet]; exact List.not_mem_nil) (after.view state.tables)
      have line : report (after.view state.tables) row.id =
          outcomeLine row.id (callAsyncRow crates (backend.answers invocation.world) row backend.process).1.outcome :=
        (congrArg grpcCallResult found).trans (grpcCallResult_stored ⟨row.id, _⟩ state.clock)
      simp only [line, callAsyncRow_agrees accepted built accepts, storable, true_and]

end Refinement

section Echo

private def echoRow : QueueRow := SqlCall.sample.row {} 1

private def echoWorld (reached : Bool) : World :=
  { World.sample with connect := fun _ _ _ => if reached then some (.ok 0) else none }

private def echoJoins (reached : Bool) : Worker.Joins where
  tasks := [0]
  ends := [(0, .finished (callAsyncRow .echo (Backend.fresh.answers (echoWorld reached)) echoRow .fresh).1.outcome)]

private theorem echo_queued : ∃ state, (Cluster.machine .sample).Reachable state ∧
    state.tables = ⟨[echoRow], []⟩ ∧ state.clock = 0 := by
  obtain ⟨state, ran, same⟩ := Option.map_eq_some_iff.mp
    (rfl : ((Cluster.machine .sample).run { clock := 0 } (Cluster.enqueue 0 .sample)).map (fun state =>
      (state.tables, state.clock)) = some (⟨[echoRow], []⟩, 0))
  obtain ⟨tables, clock⟩ := Prod.mk.inj same
  exact ⟨state, Machine.reachable_of_run ⟨0, rfl⟩ ran, tables, clock⟩

/-- Where the connection takes too long, the two paths report two texts. -/
theorem timeout_text_differs : ∃ state, (Cluster.machine .sample).Reachable state ∧
    grpcCallAsync .sample 1 = .ok echoRow ∧
    report (served .sample (echoWorld false) .default state.clock state.tables (echoJoins false)) 1 =
      errorLine 1 "timeout after 30000ms" ∧
    (Backend.fresh.grpcCall .sample .echo ⟨.sample, echoWorld false⟩).1 = .error (.grpc (.timeout 30000)) ∧
    (SqlError.grpc (.timeout 30000)).text .sample = "Request timeout: 30000ms" ∧
    ¬ Agrees .sample 1 (report (served .sample (echoWorld false) .default state.clock state.tables (echoJoins false)) 1)
      (Backend.fresh.grpcCall .sample .echo ⟨.sample, echoWorld false⟩).1 := by
  obtain ⟨state, reached, tables, clock⟩ := echo_queued
  have line : report (served .sample (echoWorld false) .default 0 ⟨[echoRow], []⟩ (echoJoins false)) 1 =
      errorLine 1 "timeout after 30000ms" := rfl
  have raised : (Backend.fresh.grpcCall .sample .echo ⟨.sample, echoWorld false⟩).1 = .error (.grpc (.timeout 30000)) := rfl
  have text : (SqlError.grpc (.timeout 30000)).text .sample = "Request timeout: 30000ms" := by decide
  rw [← tables, ← clock] at line
  refine ⟨state, reached, rfl, line, raised, text, fun agrees => ?_⟩
  rw [line, raised, agrees_error] at agrees
  obtain ⟨e, same, differs⟩ := agrees
  cases same
  exact absurd (text.symm.trans differs) (by decide)

theorem async_refines_sync_echo : ∃ state, (Cluster.machine .sample).Reachable state ∧
    Agrees .sample 1 (report (served .sample (echoWorld true) .default state.clock state.tables (echoJoins true)) 1)
      (Backend.fresh.grpcCall .sample .echo ⟨.sample, echoWorld true⟩).1 ∧
    (Backend.fresh.grpcCall .sample .echo ⟨.sample, echoWorld true⟩).1 = .ok (.string "pkg.Text") := by
  obtain ⟨state, reached, tables, clock⟩ := echo_queued
  have batch : Worker.batch .default state.clock state.tables = [echoRow] := by
    rw [tables]
    rfl
  have answered : ¬ TimesOut .echo .fresh ⟨.sample, echoWorld true⟩ := by
    rintro ⟨opts, parsed, abandoned⟩
    cases parsed
    cases Fiber.drive_eq_none.mpr abandoned
  have accepted : grpcCallAsync (Invocation.mk .sample (echoWorld true)).args 1 = .ok echoRow := rfl
  have outcome : (echoJoins true).outcomes = [.success (.string "pkg.Text")] := rfl
  have storable : Queue.Storable .sample (echoJoins true).outcomes := by
    rw [outcome]
    refine ⟨fun value member => ?_, rfl⟩
    cases List.mem_singleton.mp member
    decide
  refine ⟨state, reached, ?_, rfl⟩
  refine (async_refines_sync reached accepted ?_ ?_ (List.mem_singleton_self _)).mpr ⟨rfl, storable, answered⟩
  · rw [batch]
    decide
  · rw [batch]
    rfl

end Echo
end PgGrpc
