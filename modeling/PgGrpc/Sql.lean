import PgGrpc.Call
import PgGrpc.Queue

/-! The SQL functions of the extension and its transaction callback. -/

namespace PgGrpc
open Library

structure SqlCall where
  endpoint : String
  method : String
  request : Json
  metadata : Option Json := none
  options : Option Json := none

def SqlCall.sample : SqlCall where
  endpoint := "localhost:50051"
  method := "pkg.Echo/Say"
  request := .object []

/-- `grpc_call_async` up to its INSERT: the row it stores under the id the
sequence gives, or the text of the ERROR it raises. -/
def grpcCallAsync (args : SqlCall) (id : Int) : Except String QueueRow := do
  let _ ← mapErr GrpcError.display (validateEndpoint args.endpoint)
  let _ ← mapErr GrpcError.display (parseMethod args.method)
  let opts ← mapErr GrpcError.display (OptionsConfig.ofArgument args.options)
  let timeoutRaw := opts.timeoutMs.getD 30000
  if timeoutRaw > i32Max then
    .error ("options.timeout_ms must be <= " ++ toString i32Max)
  else
    .ok ⟨id, args.endpoint, args.method, args.request, args.metadata, args.options, timeoutRaw⟩

theorem grpcCallAsync_id {args : SqlCall} {id : Int} {row : QueueRow} (made : grpcCallAsync args id = .ok row) :
    row.id = id := by
  simp only [grpcCallAsync, bind, Except.bind] at made
  repeat' split at made
  all_goals cases made
  rfl

theorem grpcCallAsync_isOk (args : SqlCall) (id other : Int) :
    (grpcCallAsync args id).isOk = (grpcCallAsync args other).isOk := by
  simp only [grpcCallAsync, bind, Except.bind]
  repeat' split
  all_goals simp_all [Except.isOk, Except.toBool]

inductive XactEvent where
  | commit
  | parallelCommit
  | abort
  | parallelAbort
  | prepare
  | preCommit
  | parallelPreCommit
  | prePrepare
deriving DecidableEq

/-- The new value of `WAKE_CB_ACTIVE`, and whether the callback stores
`should_wake` and sets the worker's latch. -/
def wakeWorkerOnCommit (event : XactEvent) (wakeCbActive : Bool) : Bool × Bool :=
  if event = .commit ∨ event = .parallelCommit then (false, wakeCbActive)
  else if event = .abort ∨ event = .parallelAbort then (false, false)
  else (wakeCbActive, false)

structure ResultLine where
  id : Int
  status : String
  message : Option String
  response : Option Json

def grpcCallResult (result : LookupResult) : ResultLine :=
  match result.status with
  | .pending => ⟨result.id, "PENDING", none, none⟩
  | .success value => ⟨result.id, "SUCCESS", none, some value⟩
  | .error message => ⟨result.id, "ERROR", some message, none⟩

/-- A backend: its statics, and the tokio runtimes it has built and not yet dropped. -/
structure Backend where
  process : Process
  nextRuntime : Nat
  live : List Nat

def Backend.fresh : Backend := ⟨.fresh, 0, []⟩

structure Invocation where
  args : SqlCall
  world : World

def Invocation.callArgs (invocation : Invocation) (opts : OptionsConfig) : CallArgs where
  endpoint := invocation.args.endpoint
  method := invocation.args.method
  request := invocation.args.request
  useReflection := opts.useReflection.getD true
  metadata := invocation.args.metadata
  tls := opts.tls
  maxDecode := opts.maxDecodeMessageSizeBytes
  maxEncode := opts.maxEncodeMessageSizeBytes

/-- `make_grpc_call` on the runtime it has built for itself, the runtimes alive
during the call being given. -/
def makeGrpcCall (crates : Crates) (world : World) (alive : Nat → Bool) (runtime : Nat) (args : CallArgs)
    (timeoutMs : Nat) (process : Process) : GrpcResult Json × Process :=
  match (callAsync crates args).run.drive (world.answer alive runtime) 0 process with
  | (none, after) => (.error (.timeout timeoutMs), after)
  | (some (result, _), after) => (result, after)

/-- What an SQL function raises: an error of the extension, or one of PostgreSQL. -/
inductive SqlError where
  | grpc (error : GrpcError)
  | postgres (error : PgError)
deriving DecidableEq

def SqlError.text (pg : Postgres) : SqlError → String
  | .grpc error => error.display
  | .postgres error => pg.message error

/-- The result of a call as a `jsonb` that PostgreSQL accepts. -/
def toJsonB (pg : Postgres) : GrpcResult Json → Except SqlError Json
  | .error e => .error (.grpc e)
  | .ok value => if pg.acceptsJson value then .ok value else .error (.postgres .invalidJson)

/-- `grpc_call`. The runtime is built for the call and dropped when it returns. -/
def Backend.grpcCall (pg : Postgres) (crates : Crates) (backend : Backend) (invocation : Invocation) :
    Except SqlError Json × Backend :=
  match OptionsConfig.ofArgument invocation.args.options with
  | .error e => (.error (.grpc e), backend)
  | .ok opts =>
    match invocation.world.runtime with
    | .error e => (.error (.grpc (.connection e)), backend)
    | .ok () =>
      let runtime := backend.nextRuntime
      let live := runtime :: backend.live
      let (result, process) := makeGrpcCall crates invocation.world live.contains runtime (invocation.callArgs opts)
        (opts.timeoutMs.getD 30000) backend.process
      (toJsonB pg result, { process, nextRuntime := runtime + 1, live := live.erase runtime })

end PgGrpc
