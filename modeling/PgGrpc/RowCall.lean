import PgGrpc.Calls
import PgGrpc.Sql
import PgGrpc.Worker

/-! `call_async_row`, and the tasks of the worker that run it. -/

namespace PgGrpc
open Library

/-- `as u64` of a signed integer. -/
def asU64 (n : Int) : Nat := (n % 2 ^ 64).toNat

def QueueRow.callArgs (row : QueueRow) (opts : OptionsConfig) : CallArgs where
  endpoint := row.endpoint
  method := row.method
  request := row.request
  useReflection := opts.useReflection.getD true
  metadata := row.metadata
  tls := opts.tls
  maxDecode := opts.maxDecodeMessageSizeBytes
  maxEncode := opts.maxEncodeMessageSizeBytes

/-- The call of a row, with the options parsed again from the row. -/
def callRow (crates : Crates) (row : QueueRow) : Call Json := do
  let opts ← Call.ofResult (OptionsConfig.ofArgument row.options)
  callAsync crates (row.callArgs opts)

/-- What is stored for a call that ended, or whose timeout expired. -/
def rowOutcome (row : QueueRow) : Option (GrpcResult Json) → CallOutcome
  | some (.ok value) => .success value
  | some (.error e) => .error e.display
  | none => .error ("timeout after " ++ toString (asU64 row.timeoutMs) ++ "ms")

/-- `call_async_row` of a task that no other task interrupts. -/
def callAsyncRow (crates : Crates) (answer : Nat → (request : Request) → Option (Reply request)) (row : QueueRow)
    (process : Process) : CallResult × Process :=
  let (ended, after) := (callRow crates row).run.drive answer 0 process
  (⟨row.id, rowOutcome row (ended.map Prod.fst)⟩, after)

/-- What the task of a row returns, in whatever turns its call ran. -/
def rowResult (row : QueueRow) (ended : Option (GrpcResult Json)) : CallResult := ⟨row.id, rowOutcome row ended⟩

namespace Worker

/-- What `join_next_with_id` reports: the result of a task, or the error of one that panicked. -/
inductive JoinNext where
  | ok (task : TaskId) (result : CallResult)
  | err (task : TaskId)

def JoinNext.task : JoinNext → TaskId
  | .ok task _ | .err task => task

def JoinNext.result (ids : List (TaskId × Int)) : JoinNext → CallResult
  | .ok _ result => result
  | .err task => ⟨(ids.lookup task).getD 0, .error "task panicked"⟩

/-- The calls of a batch, with the task that each row's spawn gave and the reports in
the order of the joins. -/
def blockOn (rows : List QueueRow) (handles : List TaskId) (joined : List JoinNext) : List CallResult :=
  let ids := handles.zip (rows.map QueueRow.id)
  joined.map (JoinNext.result ids)

abbrev Calls := Tasks Process Request Reply QueueRow (GrpcResult Json)

/-- The worker runs no SQL function, so nothing but its calls changes its process. -/
def calls (crates : Crates) : Machine Calls (Turn Request Reply QueueRow Empty) :=
  Tasks.machine (fun process => process = .fresh) (fun row => (callRow crates row).run) fun operation _ => operation.elim

end Worker
end PgGrpc
