import PgGrpc.RowCall
import PgGrpc.Proofs.PinnedSchemas

/-! The schemas of the worker. A queue row says how to call, not with which schema:
its call is made with what the worker itself has registered, and no user has
registered anything there. -/

namespace PgGrpc.Worker
open Library PgGrpc.Calls

variable {crates : Crates} {surroundings : Surroundings} {tasks after : Worker.Calls}

def Permits (surroundings : Surroundings) (row : QueueRow) : Prop :=
  ∀ opts, OptionsConfig.ofArgument row.options = .ok opts → surroundings.permits (row.callArgs opts)

/-- The worker takes the rows, and gets the replies, that the surroundings say. -/
def Serves (surroundings : Surroundings) : Worker.Calls → Turn Request Reply QueueRow Empty → Prop :=
  Tasks.Answers surroundings.replies (Permits surroundings)

private theorem rows_safe (row : QueueRow) (state : Process) (permitted : Permits surroundings row)
    (sound : Sound crates surroundings state) :
    (callRow crates row).run.Safe (contract crates surroundings) (fun _ _ => True) state := by
  have safe : (callRow crates row).Safe (contract crates surroundings) (fun _ _ => True) state := by
    apply Call.Safe.ofResult_bind
    exact fun opts parsed => callAsync_safe (permitted opts parsed) sound
  exact safe.weaken fun _ _ _ => trivial

theorem calls_safe (reached : (calls crates).Reaches (Serves surroundings) tasks) :
    Tasks.AllSafe (contract crates surroundings) (fun _ _ _ => True) tasks := by
  refine Tasks.reaches_safe reached ?_ rows_safe (fun _ _ answers => answers) (fun _ operation => operation.elim)
  rintro _ rfl
  exact .fresh _ _

theorem callAsyncRow_reachable {process : Process} {ended : List (QueueRow × GrpcResult Json)}
    (reached : (calls crates).Reachable { shared := process, ended })
    (answer : Nat → (request : Request) → Option (Reply request)) (row : QueueRow) :
    ∃ later, (calls crates).Reachable { shared := (callAsyncRow crates answer row process).2, ended := later } :=
  Tasks.drive_reaches _ _ _ answer row reached

structure Reflected (process : Process) : Prop where
  registry : ∀ serviceName entry, process.registry serviceName = some entry → entry.pinned = false
  resolved : ∀ resolution ∈ process.resolved, ∃ endpoint, resolution.origin = some (.reflection endpoint)

theorem Reflected.keeps {before after : Process} (reflected : Reflected before) (keeps : Keeps before after) :
    Reflected after := by
  refine ⟨fun serviceName => keeps.unpinned_kept (reflected.registry serviceName), ?_⟩
  obtain ⟨new, grown, attributed⟩ := keeps.resolved
  intro resolution member
  rw [grown] at member
  rcases List.mem_append.mp member with old | made
  · exact reflected.resolved resolution old
  · obtain ⟨origin, same, staged⟩ := (attributed resolution made).origin
    cases origin with
    | reflection endpoint => exact ⟨endpoint, same⟩
    | userStaged filename source => cases reflected.registry _ _ (staged rfl)

theorem calls_reflected (reached : (calls crates).Reaches (Serves surroundings) tasks) : Reflected tasks.shared := by
  apply reached.invariant fun tasks => Reflected tasks.shared
  · rintro _ ⟨_, rfl, rfl⟩
    exact ⟨nofun, List.forall_mem_nil _⟩
  · intro before turn after reached answers taken reflected
    change Tasks.step (fun row => (callRow crates row).run) (fun operation _ => operation.elim) before turn = some after at taken
    have advances := (calls_safe reached).advances rows_safe answers taken fun operation => operation.elim
    exact reflected.keeps advances.grows

private theorem advance_process (first : Process → Call α) (next : α → Call β) (process : Process) :
    ((Call.process >>= first) >>= next).run.advance process = (first process >>= next).run.advance process := rfl

theorem callOn_disabled {args : CallArgs} {serviceName : String} {process : Process} (methodName : String) (channel : Channel)
    (absent : process.registry serviceName = none) (disabled : args.useReflection = false) :
    (callOn crates args serviceName methodName channel).run.advance process =
      (.done (.error (.proto ("service not found in registry and reflection disabled: " ++ serviceName))), process) := by
  have miss : process.getProto serviceName = none := by rw [Process.getProto, absent]; rfl
  unfold callOn resolvePool
  refine (advance_process _ _ process).trans ?_
  simp only [miss, disabled]
  rfl

/-- The calls of the worker resolve to pools that the worker has fetched itself for their service, whatever
any backend has registered, and where there is none and reflection is off they fail. -/
theorem worker_schemas (reached : (calls crates).Reaches (Serves surroundings) tasks) :
    (∀ serviceName entry, tasks.shared.registry serviceName = some entry → ∃ endpoint,
      entry.origin = .reflection endpoint ∧ Fetched crates surroundings serviceName endpoint entry.pool) ∧
    (∀ resolution ∈ tasks.shared.resolved, ∃ endpoint, resolution.origin = some (.reflection endpoint) ∧
      Fetched crates surroundings resolution.serviceName endpoint resolution.pool) ∧
    ∀ args serviceName methodName channel, tasks.shared.registry serviceName = none → args.useReflection = false →
      (callOn crates args serviceName methodName channel).run.advance tasks.shared =
        (.done (.error (.proto ("service not found in registry and reflection disabled: " ++ serviceName))), tasks.shared) := by
  have reflected := calls_reflected reached
  have sound : Sound crates surroundings tasks.shared := (calls_safe reached).valid
  refine ⟨fun serviceName entry here => ?_, fun resolution member => ?_,
    fun _ _ methodName channel => callOn_disabled methodName channel⟩
  · have unpinned := reflected.registry serviceName entry here
    obtain ⟨pool, origin⟩ := entry
    cases origin with
    | reflection endpoint => exact ⟨endpoint, rfl, sound.registry serviceName pool endpoint here⟩
    | userStaged filename source => cases unpinned
  · obtain ⟨endpoint, origin⟩ := reflected.resolved resolution member
    exact ⟨endpoint, origin, (sound.resolved resolution member).2 endpoint origin⟩

private def echoArgs (useReflection : Bool) : SqlCall :=
  { SqlCall.sample with options := some (.object [("use_reflection", .bool useReflection)]) }

private def echoRow (useReflection : Bool) : QueueRow :=
  ⟨1, "localhost:50051", "pkg.Echo/Say", .object [], none, (echoArgs useReflection).options, 30000⟩

/-- The server has another schema for the service than the user. -/
private def otherFile : FileProto :=
  { FileProto.sample with
    name := "other.proto"
    messages := [{ fullName := "pkg.Other" }]
    services := [⟨"pkg.Echo", [⟨"Say", "pkg.Other", "pkg.Other"⟩]⟩] }

private def echoServer : Crates := .sample [.sample, otherFile]

private def otherStream : ReflectionStream := ⟨[.fileDescriptorResponse [[1]]], none⟩

private def echoTurns (useReflection : Bool) (polls : Nat) : List (Turn Request Reply QueueRow Empty) :=
  .spawn (echoRow useReflection) :: List.replicate polls (.poll 0 (network fun _ _ => otherStream))

private def failure : GrpcResult Json → Option String
  | .ok _ => none
  | .error e => some e.display

/-- Accepted in a backend that has compiled a schema for the service, the call fails
in the worker for want of one, or is made with another. -/
theorem worker_lacks_schema :
    (machine echoServer).Reachable { shared := echoCompiled echoServer } ∧
    (echoCompiled echoServer).registry "pkg.Echo" = some ⟨⟨[.sample]⟩, .userStaged "echo.proto" "service Echo"⟩ ∧
    (∀ useReflection, grpcCallAsync (echoArgs useReflection) 1 = .ok (echoRow useReflection)) ∧
    (∃ worker, (calls echoServer).Reachable worker ∧ worker.ended.map (fun ended => failure ended.2) =
      [some "Proto error: service not found in registry and reflection disabled: pkg.Echo"]) ∧
    ∃ worker, (calls echoServer).Reachable worker ∧ worker.ended.map (fun ended => failure ended.2) = [none] ∧
      worker.shared.resolved =
        [⟨"localhost:50051", "pkg.Echo", ⟨[otherFile]⟩, some (.reflection "localhost:50051")⟩] := by
  refine ⟨echoCompiled_reachable _, by decide, fun useReflection => by cases useReflection <;> rfl, ?_, ?_⟩
  · obtain ⟨worker, _, reached, checked⟩ := (calls echoServer).exists_of_run ⟨.fresh, rfl, rfl⟩ (echoTurns false 2)
      (fun worker => decide (worker.ended.map (fun ended => failure ended.2) =
        [some "Proto error: service not found in registry and reflection disabled: pkg.Echo"])) (by decide)
    exact ⟨worker, reached, of_decide_eq_true checked⟩
  · obtain ⟨worker, _, reached, checked⟩ := (calls echoServer).exists_of_run ⟨.fresh, rfl, rfl⟩ (echoTurns true 5)
      (fun worker => decide (worker.ended.map (fun ended => failure ended.2) = [none] ∧ worker.shared.resolved =
        [⟨"localhost:50051", "pkg.Echo", ⟨[otherFile]⟩, some (.reflection "localhost:50051")⟩])) (by decide)
    exact ⟨worker, reached, of_decide_eq_true checked⟩

/-- What the worker meets: one server, which has one schema. -/
private def otherServer : Surroundings where
  connects uri _ channel := channel.uri = uri
  offers _ _ stream := stream = otherStream
  calls serviceName endpoint := serviceName = "pkg.Echo" ∧ endpoint = "localhost:50051"

/-- The second of two calls finds what the first has fetched. -/
theorem worker_schemas_echo : ∃ worker, (calls echoServer).Reaches (Serves otherServer) worker ∧ worker.ended.length = 2 ∧
    worker.shared.resolved.map Resolution.pool = [⟨[otherFile]⟩, ⟨[otherFile]⟩] ∧
    ∀ resolution ∈ worker.shared.resolved, ∃ endpoint, resolution.origin = some (.reflection endpoint) ∧
      Fetched echoServer otherServer resolution.serviceName endpoint resolution.pool := by
  obtain ⟨worker, ran, _, checked⟩ := (calls echoServer).exists_of_run ⟨.fresh, rfl, rfl⟩
    (echoTurns true 5 ++ echoTurns true 3) (fun worker => decide (worker.ended.length = 2 ∧
      worker.shared.resolved.map Resolution.pool = [⟨[otherFile]⟩, ⟨[otherFile]⟩])) (by decide)
  obtain ⟨ended, pools⟩ := of_decide_eq_true checked
  have path := Machine.path_of_run (fun turn => turn = .spawn (echoRow true) ∨ turn = .poll 0 (network fun _ _ => otherStream))
    (by simp [echoTurns]) ran
  have start : (calls echoServer).Reaches (Serves otherServer) { shared := .fresh } := .start ⟨.fresh, rfl, rfl⟩
  have reached : (calls echoServer).Reaches (Serves otherServer) worker := by
    refine start.path (path.weaken ?_)
    rintro before turn (rfl | rfl)
    · intro opts _ serviceName methodName named
      have parsed : parseMethod "pkg.Echo/Say" = .ok ("pkg.Echo", "Say") := by decide
      cases parsed.symm.trans named
      exact ⟨rfl, rfl⟩
    · exact fun _ request _ _ => network_replies (fun _ _ => rfl) (fun _ _ => rfl) request
  exact ⟨worker, reached, ended, pools, (worker_schemas reached).2.1⟩

end PgGrpc.Worker
