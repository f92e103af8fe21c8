import PgGrpc.Proofs.CallSafety
import PgGrpc.Proofs.Compile

/-! Runs of a process: calls in every interleaving, and the SQL functions that change
its schemas between them. -/

namespace PgGrpc.Calls
open Library

/-- What an operation leaves as it is, and what it may put into the registry. -/
structure Operated (before after : Process) : Prop where
  channels : after.channels = before.channels
  resolved : after.resolved = before.resolved
  registry : ∀ name entry, after.registry name = some entry → before.registry name = some entry ∨
    (entry.pinned = true ∧ (entry.pool.getServiceByName name).isSome)

theorem Operated.refl (process : Process) : Operated process process := ⟨rfl, rfl, fun _ _ => .inl⟩

variable {crates : Crates} {process : Process}

theorem grpcProtoCompile_operated (snapshot : PendingFiles) :
    Operated process (grpcProtoCompile crates snapshot process).2 := by
  unfold grpcProtoCompile
  split
  next pool _ =>
    refine ⟨register_frame.1, register_frame.2.2, fun name entry here => ?_⟩
    by_cases defined : ∃ service ∈ pool.services, service.2.fullName = name
    · obtain ⟨last, _, _, found⟩ := register_some defined
      cases found.symm.trans here
      exact .inr ⟨rfl, DescriptorPool.getServiceByName_isSome.mpr defined⟩
    · left
      rw [← here]
      exact (register_other fun service member same => defined ⟨service, member, same⟩).symm
  next => exact .refl process

theorem Operation.run_operated (operation : Operation) : Operated process (operation.run crates process) := by
  cases operation with
  | stage filename source =>
    simp only [Operation.run, grpcProtoStage]
    split
    next => exact ⟨rfl, rfl, fun _ _ => .inl⟩
    next => exact .refl process
  | unstage | unstageAll => exact ⟨rfl, rfl, fun _ _ => .inl⟩
  | compile snapshot =>
    simp only [Operation.run]
    split
    next => exact grpcProtoCompile_operated snapshot
    next => exact .refl process
  | unregister serviceName =>
    refine ⟨rfl, rfl, fun name entry here => .inl ?_⟩
    simp only [Operation.run, grpcProtoUnregister, Process.remove] at here
    split at here
    next => cases here
    next => exact here
  | unregisterAll => exact ⟨rfl, rfl, fun _ _ here => by cases here⟩

theorem Sound.operated {surroundings : Surroundings} {after : Process} (sound : Sound crates surroundings process)
    (operated : Operated process after) : Sound crates surroundings after where
  channels key channel cached := sound.channels key channel (operated.channels ▸ cached)
  registry name pool endpoint here := by
    rcases operated.registry name _ here with old | made
    · exact sound.registry name pool endpoint old
    · cases made.1
  resolved resolution member := sound.resolved resolution (operated.resolved ▸ member)

/-- The environment of a run stays within the surroundings. -/
def Surroundings.Kept (surroundings : Surroundings) : State → Event → Prop :=
  Tasks.Answers surroundings.replies surroundings.permits

def Surroundings.any : Surroundings := ⟨fun _ _ _ => True, fun _ _ _ => True, fun _ _ => True⟩

theorem Surroundings.any_replies (request : Request) (reply : Reply request) : Surroundings.any.replies request reply := by
  cases request with
  | connect | serverReflectionInfo => exact fun _ _ => trivial
  | ready | unary => trivial

theorem Surroundings.any_kept (tasks : State) (turn : Event) : Surroundings.any.Kept tasks turn :=
  .of_all any_replies (fun _ _ _ _ => trivial) tasks turn

variable {surroundings : Surroundings} {tasks after : State} {turn : Event}

private theorem bodies_safe (args : CallArgs) (state : Process) (permitted : surroundings.permits args)
    (sound : Sound crates surroundings state) :
    (callAsync crates args).run.Safe (contract crates surroundings) (fun _ _ => True) state :=
  (callAsync_safe permitted sound).weaken fun _ _ _ => trivial

theorem reaches_safe (reached : (machine crates).Reaches surroundings.Kept tasks) :
    Tasks.AllSafe (contract crates surroundings) (fun _ _ _ => True) tasks := by
  refine Tasks.reaches_safe reached ?_ bodies_safe (fun _ _ kept => kept) ?_
  · rintro _ rfl
    exact .fresh _ _
  · exact fun _ operation _ sound => sound.operated operation.run_operated

theorem step_cases (reached : (machine crates).Reaches surroundings.Kept tasks) (kept : surroundings.Kept tasks turn)
    (taken : (machine crates).step tasks turn = some after) :
    (∃ operation, turn = .operate operation ∧ after.shared = operation.run crates tasks.shared) ∨
      (∀ operation, turn ≠ .operate operation) ∧ Keeps tasks.shared after.shared := by
  change Tasks.step (fun args => (callAsync crates args).run) (Operation.run crates) tasks turn = some after at taken
  cases turn with
  | operate operation =>
    cases Tasks.step_cases taken with
    | operate idle => exact .inl ⟨operation, rfl, rfl⟩
  | spawn | poll | cancel =>
    exact .inr ⟨by simp, ((reaches_safe reached).advances bodies_safe kept taken (by simp)).grows⟩

instance (request : Request) : Inhabited (Reply request) :=
  match request with
  | .connect _ _ => ⟨.error ""⟩
  | .serverReflectionInfo _ _ _ _ _ => ⟨.ok ⟨[], none⟩⟩
  | .ready _ => ⟨.ok ()⟩
  | .unary _ _ _ _ _ _ => ⟨.ok []⟩

/-- A backend that runs `grpc_call` takes a run of the tasks. -/
theorem grpcCall_reachable {backend : Backend} {ended : List (CallArgs × GrpcResult Json)}
    (reached : (machine crates).Reachable { shared := backend.process, ended }) (pg : Postgres) (invocation : Invocation) :
    ∃ later, (machine crates).Reachable { shared := (backend.grpcCall pg crates invocation).2.process, ended := later } := by
  unfold Backend.grpcCall
  cases OptionsConfig.ofArgument invocation.args.options with
  | error e => exact ⟨ended, reached⟩
  | ok opts =>
    cases invocation.world.runtime with
    | error e => exact ⟨ended, reached⟩
    | ok =>
      obtain ⟨later, further⟩ := Tasks.drive_reaches _ _ _
        (invocation.world.answer (backend.nextRuntime :: backend.live).contains backend.nextRuntime)
        (invocation.callArgs opts) reached
      refine ⟨later, ?_⟩
      change (machine crates).Reachable { shared := (makeGrpcCall _ _ _ _ _ _ _).2, ended := later }
      rwa [makeGrpcCall_process]

def plainCall (endpoint method : String) (useReflection : Bool) : CallArgs :=
  ⟨endpoint, method, .object [], useReflection, none, none, none, none⟩

/-- A network that accepts everything, where reflection depends on the URI and the symbol. -/
def network (stream : String → String → ReflectionStream) : (request : Request) → Reply request
  | .connect uri tls => .ok ⟨uri, tls, 0, 0⟩
  | .serverReflectionInfo _ channel symbol _ _ => .ok (stream channel.uri symbol)
  | .ready _ => .ok ()
  | .unary _ _ _ _ _ _ => .ok []

theorem network_replies {stream : String → String → ReflectionStream}
    (connects : ∀ uri tls, surroundings.connects uri tls ⟨uri, tls, 0, 0⟩)
    (offers : ∀ channel symbol, surroundings.offers channel symbol (stream channel.uri symbol)) (request : Request) :
    surroundings.replies request (network stream request) := by
  cases request with
  | connect uri tls =>
    rintro channel same
    cases same
    exact connects uri tls
  | serverReflectionInfo version channel symbol =>
    rintro offered same
    cases same
    exact offers channel symbol
  | ready | unary => trivial

/-- Calls over the network stay within surroundings that describe it. -/
theorem network_reaches (stream : String → String → ReflectionStream) {events : List Event}
    (executed : (machine crates).run { shared := .fresh } events = some after)
    (turns : ∀ turn ∈ events, (∃ args, turn = .spawn args ∧ surroundings.permits args) ∨
      ∃ index, turn = .poll index (network stream))
    (connects : ∀ uri tls, surroundings.connects uri tls ⟨uri, tls, 0, 0⟩)
    (offers : ∀ channel symbol, surroundings.offers channel symbol (stream channel.uri symbol)) :
    (machine crates).Reaches surroundings.Kept after := by
  have start : (machine crates).Reaches surroundings.Kept { shared := .fresh } := .start ⟨.fresh, rfl, rfl⟩
  refine start.path ((Machine.path_of_run _ turns executed).weaken ?_)
  rintro tasks turn (⟨args, rfl, permitted⟩ | ⟨index, rfl⟩)
  · exact permitted
  · exact fun _ request _ _ => network_replies connects offers request

end PgGrpc.Calls
