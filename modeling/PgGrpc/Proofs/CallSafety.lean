import PgGrpc.Calls
import PgGrpc.Proofs.CallEffects

/-! One contract for all the calls of a process. Every call keeps it at whatever
state it is resumed in, so every interleaving keeps it. -/

namespace PgGrpc
open Library

/-- The entry was made by `grpc_proto_compile`. -/
def RegisteredService.pinned (entry : RegisteredService) : Bool :=
  match entry.origin with
  | .userStaged _ _ => true
  | .reflection _ => false

namespace Calls

/-- What a run of the process meets outside: which channels it gets for a URI, which
streams it gets over a channel for a symbol, and which endpoints are called for a service. -/
structure Surroundings where
  connects : String → Option ClientTlsConfig → Channel → Prop
  offers : Channel → String → ReflectionStream → Prop
  calls : String → String → Prop

def Surroundings.permits (surroundings : Surroundings) (args : CallArgs) : Prop :=
  ∀ serviceName methodName, parseMethod args.method = .ok (serviceName, methodName) →
    surroundings.calls serviceName args.endpoint

def Surroundings.replies (surroundings : Surroundings) : (request : Request) → Reply request → Prop
  | .connect uri tls => fun reply => ∀ channel, reply = .ok channel → surroundings.connects uri tls channel
  | .serverReflectionInfo _ channel symbol _ _ => fun reply => ∀ stream, reply = .ok stream →
      surroundings.offers channel symbol stream
  | .ready _ | .unary _ _ _ _ _ _ => fun _ => True

/-- The pool is made of a stream that came over the channel for the service. -/
def Assembled (crates : Crates) (surroundings : Surroundings) (channel : Channel) (serviceName : String)
    (pool : DescriptorPool) : Prop :=
  ∃ stream fetched, surroundings.offers channel serviceName stream ∧
    Proto.readStream crates serviceName stream = .ok fetched ∧ Proto.backfillWkts crates fetched = .ok pool

/-- The pool was fetched for the service from the endpoint, by a call to that endpoint. -/
structure Fetched (crates : Crates) (surroundings : Surroundings) (serviceName endpoint : String)
    (pool : DescriptorPool) : Prop where
  called : surroundings.calls serviceName endpoint
  assembled : ∃ key channel, validateEndpoint endpoint = .ok key.1 ∧
    surroundings.connects (uriOf key) (clientTls key) channel ∧ Assembled crates surroundings channel serviceName pool

structure Sound (crates : Crates) (surroundings : Surroundings) (process : Process) : Prop where
  channels : ∀ key channel, process.channels key = some channel → surroundings.connects (uriOf key) (clientTls key) channel
  registry : ∀ serviceName pool endpoint, process.registry serviceName = some ⟨pool, .reflection endpoint⟩ →
    Fetched crates surroundings serviceName endpoint pool
  resolved : ∀ resolution ∈ process.resolved, surroundings.calls resolution.serviceName resolution.endpoint ∧
    ∀ endpoint, resolution.origin = some (.reflection endpoint) →
      Fetched crates surroundings resolution.serviceName endpoint resolution.pool

theorem Sound.fresh (crates : Crates) (surroundings : Surroundings) : Sound crates surroundings .fresh where
  channels _ _ cached := by cases cached
  registry _ _ _ registered := by cases registered
  resolved := List.forall_mem_nil _

/-- A resolution made at or after this state: to the pool of the staged schema that
is registered, and to a staged schema only if it is. -/
structure Attributed (process : Process) (resolution : Resolution) : Prop where
  pinned : ∀ entry, process.registry resolution.serviceName = some entry → entry.pinned = true →
    resolution.pool = entry.pool
  origin : ∃ origin, resolution.origin = some origin ∧ ((RegisteredService.mk resolution.pool origin).pinned = true →
    process.registry resolution.serviceName = some ⟨resolution.pool, origin⟩)

/-- What calls leave as it is: a connected channel, and a staged schema with all that resolves to it. -/
structure Keeps (before after : Process) : Prop where
  channels : ∀ key channel, before.channels key = some channel → after.channels key = some channel
  staged : after.staged = before.staged
  pinned : ∀ serviceName entry, before.registry serviceName = some entry → entry.pinned = true →
    after.registry serviceName = some entry
  unpinned : ∀ serviceName entry, after.registry serviceName = some entry → entry.pinned = true →
    before.registry serviceName = some entry
  resolved : ∃ new, after.resolved = before.resolved ++ new ∧ ∀ resolution ∈ new, Attributed before resolution

theorem Keeps.refl (process : Process) : Keeps process process :=
  ⟨fun _ _ cached => cached, rfl, fun _ _ here _ => here, fun _ _ here _ => here,
    [], (List.append_nil _).symm, List.forall_mem_nil _⟩

theorem Keeps.trans {a b c : Process} (first : Keeps a b) (second : Keeps b c) : Keeps a c where
  channels key channel cached := second.channels key channel (first.channels key channel cached)
  staged := second.staged.trans first.staged
  pinned name entry here pinned := second.pinned name entry (first.pinned name entry here pinned) pinned
  unpinned name entry here pinned := first.unpinned name entry (second.unpinned name entry here pinned) pinned
  resolved := by
    obtain ⟨early, before, earlier⟩ := first.resolved
    obtain ⟨late, after, later⟩ := second.resolved
    refine ⟨early ++ late, by rw [after, before, List.append_assoc], ?_⟩
    intro resolution member
    rcases List.mem_append.mp member with old | new
    · exact earlier resolution old
    · have attributed := later resolution new
      obtain ⟨origin, same, staged⟩ := attributed.origin
      refine ⟨fun entry here pinned => attributed.pinned entry (first.pinned _ entry here pinned) pinned, origin, same, ?_⟩
      exact fun pinned => first.unpinned _ _ (staged pinned) pinned

/-- Reflection is asked only for a service that no staged schema defines. -/
def Asks (process : Process) : Request → Prop
  | .serverReflectionInfo _ _ symbol _ _ =>
    ∀ entry, process.registry symbol = some entry → entry.pinned = false
  | _ => True

def contract (crates : Crates) (surroundings : Surroundings) : Contract Process Request Reply where
  valid := Sound crates surroundings
  grows := Keeps
  replies := surroundings.replies
  asks := Asks
  refl := Keeps.refl
  trans := Keeps.trans

end Calls

/-- The call keeps the contract, and a value it returns satisfies the postcondition. -/
abbrev Call.Safe (contract : Contract Process Request Reply) (post : α → Process → Prop) (call : Call α)
    (process : Process) : Prop :=
  call.run.Safe contract (fun result later => ∀ value, result = .ok value → post value later) process

namespace Call.Safe
variable {contract : Contract Process Request Reply} {process : Process}

theorem bind {first : α → Process → Prop} {post : β → Process → Prop} {call : Call α} {next : α → Call β}
    (safe : call.Safe contract first process) (valid : contract.valid process)
    (rest : ∀ value later, contract.valid later → contract.grows process later → first value later →
      (next value).Safe contract post later) : (call >>= next).Safe contract post process := by
  rw [Call.Safe, run_bind]
  apply Fiber.Safe.bind safe valid
  intro result later kept growth ended
  cases result with
  | ok value => exact rest value later kept growth (ended value rfl)
  | error e => exact nofun

theorem ofResult {post : α → Process → Prop} {result : GrpcResult α}
    (done : ∀ value, result = .ok value → post value process) : (Call.ofResult result).Safe contract post process := done

theorem pure {post : α → Process → Prop} {value : α} (done : post value process) :
    (Pure.pure value : Call α).Safe contract post process := by
  intro _ same
  cases same
  exact done

theorem ofResult_bind {post : β → Process → Prop} {result : GrpcResult α} {next : α → Call β}
    (rest : ∀ value, result = .ok value → (next value).Safe contract post process) :
    (Call.ofResult result >>= next).Safe contract post process := by
  cases result with
  | ok value => exact rest value rfl
  | error e => exact nofun

theorem process_bind {post : β → Process → Prop} {next : Process → Call β}
    (rest : (next process).Safe contract post process) : (Call.process >>= next).Safe contract post process := rest

theorem modify_bind {post : β → Process → Prop} {change : Process → Process} {next : Unit → Call β}
    (kept : contract.valid (change process)) (growth : contract.grows process (change process))
    (rest : (next ()).Safe contract post (change process)) : (Call.modify change >>= next).Safe contract post process :=
  ⟨kept, growth, rest⟩

theorem ask_bind {post : β → Process → Prop} {request : Request} {next : Reply request → Call β}
    (rest : ∀ later, contract.valid later → contract.grows process later → contract.asks later request ∧
      ∀ reply, contract.replies request reply → (next reply).Safe contract post later) :
    Call.Safe contract post (ExceptT.lift (ask request) >>= next) process := rest

end Call.Safe

namespace Calls
variable {crates : Crates} {surroundings : Surroundings} {process : Process}

-- What the calls check about their texts plays no part here.
attribute [local irreducible] validateEndpoint parseMethod

def Cached (endpoint : String) (tls : Option TlsConfig) (channel : Channel) (process : Process) : Prop :=
  ∃ host, validateEndpoint endpoint = .ok host ∧ process.channels (host, tls) = some channel

private theorem insert_sound {key : Key} {channel : Channel} (sound : Sound crates surroundings process)
    (connected : surroundings.connects (uriOf key) (clientTls key) channel) :
    Sound crates surroundings (process.orInsertChannel key channel) where
  channels other cached found := by
    by_cases same : other = key
    · subst same
      rw [Process.orInsertChannel_same] at found
      cases before : process.channels other with
      | none =>
        rw [before] at found
        cases found
        exact connected
      | some old =>
        rw [before] at found
        cases found
        exact sound.channels other old before
    · rw [Process.orInsertChannel_other _ _ same] at found
      exact sound.channels other cached found
  registry := sound.registry
  resolved := sound.resolved

private theorem insert_keeps (key : Key) (channel : Channel) : Keeps process (process.orInsertChannel key channel) :=
  { Keeps.refl process with
    channels := by
      intro other cached found
      by_cases same : other = key
      · subst same
        rw [Process.orInsertChannel_same, found, Option.getD_some]
      · rw [Process.orInsertChannel_other _ _ same, found] }

private theorem dial_safe {endpoint host : String} (tls : Option TlsConfig) (valid : validateEndpoint endpoint = .ok host) :
    Call.Safe (contract crates surroundings) (Cached endpoint tls)
      (Call.connect (uriOf (host, tls)) (clientTls (host, tls)) >>= fun reply => match reply with
        | .error e => Call.ofResult (.error (.connection (host ++ ": " ++ e)))
        | .ok channel => do
          Call.modify fun process => process.orInsertChannel (host, tls) channel
          return ((← Call.process).channels (host, tls)).getD channel) process := by
  apply Call.Safe.ask_bind
  intro later kept _
  refine ⟨trivial, fun reply connected => ?_⟩
  cases reply with
  | error e => exact .ofResult nofun
  | ok channel =>
    apply Call.Safe.modify_bind (insert_sound kept (connected channel rfl)) (insert_keeps _ _)
    apply Call.Safe.process_bind
    refine .pure ⟨host, valid, ?_⟩
    simp

theorem getOrConnect_safe (endpoint : String) (tls : Option TlsConfig) :
    (getOrConnect crates endpoint tls).Safe (contract crates surroundings) (Cached endpoint tls) process := by
  unfold getOrConnect
  apply Call.Safe.ofResult_bind
  intro host valid
  apply Call.Safe.process_bind
  cases cached : process.channels (host, tls) with
  | some channel => exact .pure ⟨host, valid, cached⟩
  | none =>
    apply Call.Safe.ofResult_bind
    intro _ _
    cases tls with
    | none => exact dial_safe none valid
    | some config => exact Call.Safe.ofResult_bind fun _ _ => dial_safe (some config) valid

def Unpinned (serviceName : String) (process : Process) : Prop :=
  ∀ entry, process.registry serviceName = some entry → entry.pinned = false

theorem Keeps.unpinned_kept {before after : Process} (keeps : Keeps before after) {serviceName : String}
    (unpinned : Unpinned serviceName before) : Unpinned serviceName after := by
  intro entry here
  by_contra pinned
  rw [Bool.not_eq_false] at pinned
  have old := unpinned entry (keeps.unpinned serviceName entry here pinned)
  rw [pinned] at old
  cases old

private theorem fetch_safe {channel : Channel} {serviceName : String} (version : ReflectionVersion)
    (maxDecode maxEncode : Option Nat) (unpinned : Unpinned serviceName process) :
    Call.Safe (contract crates surroundings) (fun reply later => Unpinned serviceName later ∧ ∀ fetched, reply = .ok fetched →
      ∃ stream, surroundings.offers channel serviceName stream ∧ Proto.readStream crates serviceName stream = .ok fetched)
      (ExceptT.lift (Proto.fetch crates version channel serviceName maxDecode maxEncode)) process := by
  intro later _ growth
  have still := growth.unpinned_kept unpinned
  refine ⟨still, fun reply offered value same => ?_⟩
  cases same
  refine ⟨still, fun fetched read => ?_⟩
  cases reply with
  | error status => cases read
  | ok stream => exact ⟨stream, offered stream rfl, read⟩

theorem fetchPool_safe {channel : Channel} {serviceName : String} (maxDecode maxEncode : Option Nat)
    (sound : Sound crates surroundings process) (unpinned : Unpinned serviceName process) :
    (Proto.fetchPool crates channel serviceName maxDecode maxEncode).Safe (contract crates surroundings)
      (fun pool later => Unpinned serviceName later ∧ Assembled crates surroundings channel serviceName pool) process := by
  have assembled {fetched pool : DescriptorPool} {later : Process} (filled : Proto.backfillWkts crates fetched = .ok pool)
      (reply : Unpinned serviceName later ∧ ∀ answer, (.ok fetched : Except Status DescriptorPool) = .ok answer → ∃ stream,
        surroundings.offers channel serviceName stream ∧ Proto.readStream crates serviceName stream = .ok answer) :
      Unpinned serviceName later ∧ Assembled crates surroundings channel serviceName pool := by
    obtain ⟨stream, offered, read⟩ := reply.2 fetched rfl
    exact ⟨reply.1, stream, fetched, offered, read, filled⟩
  unfold Proto.fetchPool
  apply Call.Safe.bind (fetch_safe .v1 maxDecode maxEncode unpinned) sound
  intro first later sound _ reply
  cases first with
  | ok fetched =>
    change Call.Safe _ _ (Call.ofResult (Proto.backfillWkts crates fetched)) later
    exact .ofResult fun pool filled => assembled filled reply
  | error status =>
    dsimp only
    split
    · apply Call.Safe.bind (fetch_safe .v1alpha maxDecode maxEncode reply.1) sound
      intro second final _ _ reply
      cases second with
      | error status => exact .ofResult nofun
      | ok fetched => exact .ofResult fun pool filled => assembled filled reply
    · change Call.Safe _ _ (Call.ofResult (.error (.proto ("reflection: " ++ status.message)))) later
      exact .ofResult nofun

/-- The registry holds the pool that the call was resolved to. -/
def Resolved (serviceName : String) (pool : DescriptorPool) (process : Process) : Prop :=
  ∃ origin, process.registry serviceName = some ⟨pool, origin⟩

private theorem reflect_sound {serviceName endpoint : String} {pool : DescriptorPool}
    (sound : Sound crates surroundings process) (fetched : Fetched crates surroundings serviceName endpoint pool) :
    Sound crates surroundings (process.insertProtoReflection serviceName pool endpoint) where
  channels := sound.channels
  registry name other source found := by
    simp only [Process.insertProtoReflection] at found
    split at found
    next same =>
      cases found
      exact same ▸ fetched
    next => exact sound.registry name other source found
  resolved := sound.resolved

private theorem reflect_keeps {serviceName : String} (endpoint : String) (pool : DescriptorPool)
    (unpinned : Unpinned serviceName process) :
    Keeps process (process.insertProtoReflection serviceName pool endpoint) :=
  { Keeps.refl process with
    pinned := by
      intro name entry here pinned
      have other : name ≠ serviceName := by
        rintro rfl
        rw [unpinned entry here] at pinned
        cases pinned
      simpa [Process.insertProtoReflection, other] using here
    unpinned := by
      intro name entry here pinned
      simp only [Process.insertProtoReflection] at here
      split at here
      next => cases here; cases pinned
      next => exact here }

theorem resolvePool_safe {args : CallArgs} {channel : Channel} {serviceName host : String}
    (valid : validateEndpoint args.endpoint = .ok host) (connected : surroundings.connects (uriOf (host, args.tls)) (clientTls (host, args.tls)) channel)
    (called : surroundings.calls serviceName args.endpoint) (sound : Sound crates surroundings process) :
    (resolvePool crates args channel serviceName).Safe (contract crates surroundings) (Resolved serviceName) process := by
  unfold resolvePool
  apply Call.Safe.process_bind
  cases registered : process.registry serviceName with
  | some entry =>
    simp only [Process.getProto, registered, Option.map_some]
    exact .pure ⟨entry.origin, registered⟩
  | none =>
    simp only [Process.getProto, registered, Option.map_none]
    split
    · have unpinned : Unpinned serviceName process := by simp [Unpinned, registered]
      apply Call.Safe.bind (fetchPool_safe args.maxDecode args.maxEncode sound unpinned) sound
      intro pool later sound _ fetched
      have fetch : Fetched crates surroundings serviceName args.endpoint pool :=
        ⟨called, (host, args.tls), channel, valid, connected, fetched.2⟩
      apply Call.Safe.modify_bind (reflect_sound sound fetch) (reflect_keeps _ _ fetched.1)
      exact .pure ⟨.reflection args.endpoint, by simp [Process.insertProtoReflection]⟩
    · exact .ofResult nofun

private theorem record_sound {serviceName endpoint : String} {pool : DescriptorPool}
    (sound : Sound crates surroundings process) (called : surroundings.calls serviceName endpoint)
    (resolved : Resolved serviceName pool process) :
    Sound crates surroundings (process.recordResolution endpoint serviceName pool) where
  channels := sound.channels
  registry := sound.registry
  resolved := by
    obtain ⟨origin, here⟩ := resolved
    intro resolution member
    rcases List.mem_append.mp member with old | new
    · exact sound.resolved resolution old
    · cases List.mem_singleton.mp new
      refine ⟨called, fun source reflected => ?_⟩
      simp only [here, Option.map_some, Option.some.injEq] at reflected
      exact sound.registry serviceName pool source (reflected ▸ here)

private theorem record_keeps {serviceName : String} (endpoint : String) {pool : DescriptorPool}
    (resolved : Resolved serviceName pool process) : Keeps process (process.recordResolution endpoint serviceName pool) :=
  { Keeps.refl process with
    resolved := by
      obtain ⟨origin, here⟩ := resolved
      refine ⟨_, rfl, ?_⟩
      intro resolution member
      cases List.mem_singleton.mp member
      refine ⟨fun entry there _ => ?_, origin, by rw [here]; rfl, fun _ => here⟩
      cases here.symm.trans there
      rfl }

private theorem unaryCall_safe (channel : Channel) (serviceName methodName : String) (body : Bytes)
    (metadata : Option Json) (maxDecode maxEncode : Option Nat) :
    (unaryCall crates channel serviceName methodName body metadata maxDecode maxEncode).Safe
      (contract crates surroundings) (fun _ _ => True) process := by
  unfold unaryCall
  apply Call.Safe.ofResult_bind
  intro _ _
  apply Call.Safe.ask_bind
  intro later _ _
  refine ⟨trivial, fun ready _ => ?_⟩
  cases ready with
  | error e => exact .ofResult nofun
  | ok =>
    apply Call.Safe.ofResult_bind
    intro headers _
    apply Call.Safe.ask_bind
    intro final _ _
    refine ⟨trivial, fun reply _ => ?_⟩
    cases reply with
    | error status => exact .ofResult nofun
    | ok bytes => exact .pure trivial

theorem callAsync_safe {args : CallArgs} (permitted : surroundings.permits args) (sound : Sound crates surroundings process) :
    (callAsync crates args).Safe (contract crates surroundings) (fun _ _ => True) process := by
  unfold callAsync
  apply Call.Safe.ofResult_bind
  intro names parsed
  obtain ⟨serviceName, methodName⟩ := names
  have called := permitted serviceName methodName parsed
  apply Call.Safe.bind (getOrConnect_safe args.endpoint args.tls) sound
  intro channel later sound _ cached
  obtain ⟨host, valid, cached⟩ := cached
  apply Call.Safe.bind (resolvePool_safe valid (sound.channels _ _ cached) called sound) sound
  intro pool later sound _ resolved
  apply Call.Safe.modify_bind (record_sound sound called resolved) (record_keeps args.endpoint resolved)
  apply Call.Safe.ofResult_bind
  intro methodDesc _
  apply Call.Safe.ofResult_bind
  intro body _
  apply Call.Safe.bind
    (unaryCall_safe channel serviceName methodName body args.metadata args.maxDecode args.maxEncode)
    (record_sound sound called resolved)
  exact fun reply final _ _ _ => .ofResult fun _ _ => trivial

end Calls
end PgGrpc
