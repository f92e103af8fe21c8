import PgGrpc.Sql

/-! What a call does once it has its channel: it talks over that channel only, and
leaves the channel cache as it is. -/

namespace PgGrpc
open Library

def uriOf (key : Key) : String := (if key.2.isSome then "https" else "http") ++ "://" ++ key.1

def clientTls (key : Key) : Option ClientTlsConfig := key.2.map TlsConfig.buildClientTlsConfig

def OnChannel (channel : Channel) : Request → Prop
  | .connect _ _ => False
  | .serverReflectionInfo _ used _ _ _ => used = channel
  | .ready used => used = channel
  | .unary used _ _ _ _ _ => used = channel

def KeepsChannels (before after : Process) : Prop := after.channels = before.channels

/-- The call from here on uses one channel and keeps the cache. -/
abbrev Call.Confined (channel : Channel) (call : Call α) : Prop :=
  call.run.Within (OnChannel channel) KeepsChannels

def Reflects (channel : Channel) : Request → Prop
  | .serverReflectionInfo _ used _ _ _ => used = channel
  | _ => False

def ChangesRegistry (before after : Process) : Prop := after.channels = before.channels ∧ after.resolved = before.resolved

/-- The call asks for nothing but reflection over one channel, and changes only the registry. -/
abbrev Call.Reflecting (channel : Channel) (call : Call α) : Prop :=
  call.run.Within (Reflects channel) ChangesRegistry

namespace Call
variable {channel : Channel}

theorem run_bind (call : Call α) (next : α → Call β) :
    (call >>= next).run = call.run.bind fun result =>
      match result with
      | .ok value => (next value).run
      | .error e => .done (.error e) := by
  change call.run.bind _ = call.run.bind _
  congr 1
  funext result
  cases result <;> rfl

section Drive
variable {answer : Nat → (request : Request) → Option (Reply request)} (n : Nat) (process : Process)

theorem drive_ofResult_bind (result : GrpcResult α) (next : α → Call β) :
    (Call.ofResult result >>= next).run.drive answer n process =
      match result with
      | .ok value => (next value).run.drive answer n process
      | .error e => (some (.error e, n), process) := by
  cases result <;> rfl

theorem drive_process_bind (next : Process → Call β) :
    (Call.process >>= next).run.drive answer n process = (next process).run.drive answer n process := rfl

theorem drive_modify_bind (change : Process → Process) (next : Unit → Call β) :
    (Call.modify change >>= next).run.drive answer n process = (next ()).run.drive answer n (change process) := rfl

theorem drive_pure (value : α) : (pure value : Call α).run.drive answer n process = (some (.ok value, n), process) := rfl

theorem drive_connect_bind (uri : String) (tls : Option ClientTlsConfig) (next : Except String Channel → Call β) :
    (Call.connect uri tls >>= next).run.drive answer n process =
      match answer n (.connect uri tls) with
      | none => (none, process)
      | some reply => (next reply).run.drive answer (n + 1) process := by
  rw [run_bind, Fiber.drive_bind]
  simp only [Call.connect, ask, Fiber.request, ExceptT.lift, ExceptT.run, ExceptT.mk, Fiber.map_eq, Fiber.bind, Fiber.drive]
  cases answer n (.connect uri tls) <;> rfl

end Drive

theorem within_bind {asked : Request → Prop} {permitted : Process → Process → Prop} {call : Call α} {next : α → Call β}
    (first : call.run.Within asked permitted) (rest : ∀ value, (next value).run.Within asked permitted) :
    (call >>= next).run.Within asked permitted := by
  rw [run_bind]
  apply Fiber.Within.bind first
  intro result
  cases result with
  | ok value => exact rest value
  | error e => trivial

theorem Confined.bind {call : Call α} {next : α → Call β} (first : call.Confined channel)
    (rest : ∀ value, (next value).Confined channel) : (call >>= next).Confined channel := within_bind first rest

theorem Confined.ofResult (result : GrpcResult α) : (Call.ofResult result).Confined channel := trivial

theorem Confined.pure (value : α) : (Pure.pure value : Call α).Confined channel := trivial

theorem Confined.ready : (Call.ready channel).Confined channel := ⟨rfl, fun _ => trivial⟩

theorem Confined.unary (path : String) (headers : List (String × String)) (body : Bytes) (maxDecode maxEncode : Option Nat) :
    (Call.unary channel path headers body maxDecode maxEncode).Confined channel := ⟨rfl, fun _ => trivial⟩

end Call

section Effects
variable (crates : Crates) {channel : Channel}

private theorem fetch_reflects (version : ReflectionVersion) (serviceName : String) (maxDecode maxEncode : Option Nat) :
    Call.Reflecting channel (ExceptT.lift (Proto.fetch crates version channel serviceName maxDecode maxEncode)) :=
  ⟨rfl, fun _ => trivial⟩

private theorem fetchPool_reflects (serviceName : String) (maxDecode maxEncode : Option Nat) :
    (Proto.fetchPool crates channel serviceName maxDecode maxEncode).Reflecting channel := by
  apply Call.within_bind (fetch_reflects crates .v1 serviceName maxDecode maxEncode)
  intro first
  cases first with
  | ok pool =>
    refine Call.within_bind ?_ fun fetched => ?_
    · trivial
    · cases fetched <;> trivial
  | error status =>
    dsimp only
    split
    · apply Call.within_bind (fetch_reflects crates .v1alpha serviceName maxDecode maxEncode)
      intro fetched
      cases fetched <;> trivial
    · refine Call.within_bind ?_ fun fetched => ?_
      · trivial
      · cases fetched <;> trivial

theorem resolvePool_reflects (args : CallArgs) (serviceName : String) :
    (resolvePool crates args channel serviceName).Reflecting channel := by
  refine Call.within_bind (fun _ => trivial) fun process => ?_
  cases process.getProto serviceName with
  | some pool => trivial
  | none =>
    dsimp only
    split
    · apply Call.within_bind (fetchPool_reflects crates serviceName args.maxDecode args.maxEncode)
      exact fun pool => ⟨fun _ => ⟨rfl, rfl⟩, trivial⟩
    · trivial

private theorem resolvePool_confined (args : CallArgs) (serviceName : String) :
    (resolvePool crates args channel serviceName).Confined channel := by
  refine (resolvePool_reflects crates args serviceName).weaken (fun request reflects => ?_) fun _ _ same => same.1
  cases request with
  | serverReflectionInfo version used symbol maxDecode maxEncode => exact reflects
  | connect | ready | unary => exact reflects.elim

private theorem unaryCall_confined (serviceName methodName : String) (body : Bytes) (metadata : Option Json)
    (maxDecode maxEncode : Option Nat) :
    (unaryCall crates channel serviceName methodName body metadata maxDecode maxEncode).Confined channel := by
  refine (Call.Confined.ofResult _).bind fun _ => Call.Confined.ready.bind fun ready => ?_
  cases ready with
  | error e => exact .ofResult _
  | ok =>
    refine (Call.Confined.ofResult _).bind fun headers => (Call.Confined.unary ..).bind fun reply => ?_
    cases reply with
    | error status => exact .ofResult _
    | ok bytes => exact .pure bytes

theorem callOn_confined (args : CallArgs) (serviceName methodName : String) :
    (callOn crates args serviceName methodName channel).Confined channel :=
  (resolvePool_confined crates args serviceName).bind fun _ => Call.Confined.bind ⟨fun _ => rfl, trivial⟩ fun _ =>
    (Call.Confined.ofResult _).bind fun _ => (Call.Confined.ofResult _).bind fun _ =>
      (unaryCall_confined ..).bind fun _ => .ofResult _

end Effects

theorem makeGrpcCall_process {crates : Crates} (world : World) (alive : Nat → Bool) (runtime : Nat) (args : CallArgs)
    (timeoutMs : Nat) (process : Process) :
    (makeGrpcCall crates world alive runtime args timeoutMs process).2 =
      ((callAsync crates args).run.drive (world.answer alive runtime) 0 process).2 := by
  unfold makeGrpcCall
  split <;> simp [*]

/-- While its runtime lives, a channel is answered as if no runtime ever ended. -/
theorem answer_alive (world : World) {alive : Nat → Bool} {channel : Channel} (lives : alive channel.runtime = true)
    (current n : Nat) (request : Request) (on : OnChannel channel request) :
    world.answer alive current n request = world.answer (fun _ => true) current n request := by
  cases request with
  | connect uri tls => exact on.elim
  | serverReflectionInfo version used symbol maxDecode maxEncode => cases on; simp [World.answer, lives]
  | ready used => cases on; simp [World.answer, lives]
  | unary used path headers body maxDecode maxEncode => cases on; simp [World.answer, lives]

end PgGrpc
