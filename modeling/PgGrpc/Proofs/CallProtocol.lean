import PgGrpc.Library.Exchange
import PgGrpc.Proofs.Metadata
import PgGrpc.Proofs.PinnedSchemas

/-! The protocol a call keeps towards its server. At most five requests, the RPC itself
last and sent once, all over one channel; and what was said last decides the result. -/

namespace PgGrpc.Calls
open Library

/-- What a call has been told so far, as far as its later requests and its result depend on it. -/
inductive Phase where
  | begun
  | connected
  | unimplemented (channel : Channel)
  | fetched (channel : Channel)
  | ready (channel : Channel)
  | replied (body : Bytes) (answer : Except Status Bytes)
  | failed

namespace Phase

/-- The channel may be any that is open, or it is the one used before. -/
def AllowsReady (channel : Channel) : Phase → Prop
  | .begun | .connected => True
  | .fetched used => used = channel
  | .unimplemented _ | .ready _ | .replied _ _ | .failed => False

/-- v1 comes first, and v1alpha only where v1 is not implemented. -/
def AllowsReflection (version : ReflectionVersion) (channel : Channel) : Phase → Prop
  | .begun | .connected => version = .v1
  | .unimplemented used => version = .v1alpha ∧ used = channel
  | .fetched _ | .ready _ | .replied _ _ | .failed => False

def sent : Phase → Nat
  | .replied _ _ => 1
  | .begun | .connected | .unimplemented _ | .fetched _ | .ready _ | .failed => 0

def afterReflection (version : ReflectionVersion) (channel : Channel) : Except Status DescriptorPool → Phase
  | .ok _ => .fetched channel
  | .error status => if version = .v1 ∧ status.code = .unimplemented then .unimplemented channel else .failed

/-- How many requests may be left. -/
def rank : Phase → Nat
  | .begun => 5
  | .connected => 4
  | .unimplemented _ => 3
  | .fetched _ => 2
  | .ready _ => 1
  | .replied _ _ | .failed => 0

end Phase

def Allows (crates : Crates) (args : CallArgs) (phase : Phase) : Request → Prop
  | .connect uri tls => phase = .begun ∧
      ∃ host, validateEndpoint args.endpoint = .ok host ∧ uri = uriOf (host, args.tls) ∧ tls = clientTls (host, args.tls)
  | .serverReflectionInfo version channel symbol maxDecode maxEncode => phase.AllowsReflection version channel ∧
      args.useReflection = true ∧ (∃ methodName, parseMethod args.method = .ok (symbol, methodName)) ∧
      maxDecode = args.maxDecode ∧ maxEncode = args.maxEncode
  | .ready channel => phase.AllowsReady channel
  | .unary channel path headers _ maxDecode maxEncode => phase = .ready channel ∧
      (∃ serviceName methodName, parseMethod args.method = .ok (serviceName, methodName) ∧
        crates.pathAndQuery ("/" ++ serviceName ++ "/" ++ methodName) = .ok path) ∧
      applyMetadata crates [] args.metadata = .ok headers ∧ maxDecode = args.maxDecode ∧ maxEncode = args.maxEncode

def afterReply (crates : Crates) : (request : Request) → Reply request → Phase
  | .connect _ _, .ok _ => .connected
  | .connect _ _, .error _ => .failed
  | .serverReflectionInfo version channel symbol _ _, reply =>
    .afterReflection version channel (reply.bind (Proto.readStream crates symbol))
  | .ready channel, .ok _ => .ready channel
  | .ready _, .error _ => .failed
  | .unary _ _ _ body _ _, reply => .replied body reply

def protocol (crates : Crates) (args : CallArgs) : Protocol Request Reply Phase where
  start := .begun
  allows := Allows crates args
  after _ := afterReply crates

/-- The result a call may end with: what the server has answered, read as a response
or as an error, and an error of the call itself only where nothing was sent. Request
and response are encoded and decoded with one method of one pool. -/
def Concludes (crates : Crates) (args : CallArgs) (result : GrpcResult Json) : Phase → Prop
  | .replied body (.ok bytes) => ∃ serviceName methodName pool desc,
      parseMethod args.method = .ok (serviceName, methodName) ∧ resolveMethod pool serviceName methodName = .ok desc ∧
      encodeRequest crates desc.input args.request = .ok body ∧ result = decodeResponse crates desc.output bytes
  | .replied _ (.error status) => result = .error (.call (crates.statusText status))
  | .begun | .connected | .unimplemented _ | .fetched _ | .ready _ | .failed => ∃ e, result = .error e

def Sends : Sigma Reply → Bool
  | ⟨.unary _ _ _ _ _ _, _⟩ => true
  | ⟨.connect _ _, _⟩ | ⟨.serverReflectionInfo _ _ _ _ _, _⟩ | ⟨.ready _, _⟩ => false

section Following
variable {crates : Crates} {args : CallArgs} {phase : Phase}

private theorem afterReflection_lowers {version : ReflectionVersion} {channel : Channel}
    (allowed : phase.AllowsReflection version channel) (fetched : Except Status DescriptorPool) :
    (Phase.afterReflection version channel fetched).rank < phase.rank := by
  cases phase with
  | begun | connected =>
    cases allowed
    rcases fetched with status | pool
    · simp only [Phase.afterReflection]
      split <;> simp [Phase.rank]
    · simp [Phase.afterReflection, Phase.rank]
  | unimplemented used =>
    obtain ⟨rfl, rfl⟩ := allowed
    rcases fetched with status | pool <;> simp [Phase.afterReflection, Phase.rank]
  | fetched | ready | replied | failed => exact allowed.elim

theorem rank_lowers (request : Request) (reply : Reply request) (allowed : Allows crates args phase request) :
    (afterReply crates request reply).rank < phase.rank := by
  cases request with
  | connect uri tls =>
    rw [allowed.1]
    cases reply <;> simp [afterReply, Phase.rank]
  | serverReflectionInfo version channel symbol maxDecode maxEncode => exact afterReflection_lowers allowed.1 _
  | ready channel =>
    change phase.AllowsReady channel at allowed
    cases phase with
    | begun | connected | fetched => cases reply <;> simp [afterReply, Phase.rank]
    | unimplemented | ready | replied | failed => exact allowed.elim
  | unary channel path headers body maxDecode maxEncode =>
    rw [allowed.1]
    exact Nat.zero_lt_one

theorem allows_unsent (request : Request) (allowed : Allows crates args phase request) : phase.sent = 0 := by
  cases phase with
  | begun | connected | unimplemented | fetched | ready | failed => rfl
  | replied body answer =>
    cases request with
    | connect | unary => cases allowed.1
    | serverReflectionInfo => exact allowed.1.elim
    | ready => exact allowed.elim

private theorem afterReflection_sent (version : ReflectionVersion) (channel : Channel) (fetched : Except Status DescriptorPool) :
    (Phase.afterReflection version channel fetched).sent = 0 := by
  rcases fetched with status | pool
  · simp only [Phase.afterReflection]
    split <;> rfl
  · rfl

private theorem sends_counted (request : Request) (reply : Reply request) (allowed : Allows crates args phase request) :
    (afterReply crates request reply).sent = phase.sent + if Sends ⟨request, reply⟩ then 1 else 0 := by
  rw [allows_unsent request allowed]
  cases request with
  | connect | ready => cases reply <;> rfl
  | serverReflectionInfo version channel symbol => exact afterReflection_sent version channel _
  | unary => rfl

/-- A value as described, or an error before the RPC was sent. -/
def Before (post : α → Phase → Prop) (result : GrpcResult α) (phase : Phase) : Prop :=
  match result with
  | .ok value => post value phase
  | .error _ => phase.sent = 0

private abbrev Follows (crates : Crates) (args : CallArgs) (post : GrpcResult α → Phase → Prop) (call : Call α)
    (phase : Phase) : Prop :=
  call.run.Follows (protocol crates args) post phase

private theorem Follows.bind {first : α → Phase → Prop} {post : GrpcResult β → Phase → Prop} {call : Call α}
    {next : α → Call β} (begins : Follows crates args (Before first) call phase)
    (rest : ∀ value later, first value later → Follows crates args post (next value) later)
    (failed : ∀ e later, later.sent = 0 → post (.error e) later) : Follows crates args post (call >>= next) phase := by
  rw [Follows, Call.run_bind]
  refine Fiber.Follows.bind begins fun result later holds => ?_
  cases result with
  | ok value => exact rest value later holds
  | error e => exact .done (failed e later holds)

private theorem Follows.ofResult_bind {post : GrpcResult β → Phase → Prop} {result : GrpcResult α} {next : α → Call β}
    (rest : ∀ value, result = .ok value → Follows crates args post (next value) phase)
    (failed : ∀ e, post (.error e) phase) : Follows crates args post (Call.ofResult result >>= next) phase := by
  cases result with
  | ok value => exact rest value rfl
  | error e => exact .done (failed e)

private theorem Follows.process_bind {post : GrpcResult β → Phase → Prop} {next : Process → Call β}
    (rest : ∀ process, Follows crates args post (next process) phase) :
    Follows crates args post (Call.process >>= next) phase := .read rest

/-- No channel has been chosen yet. -/
private def Open (_ : Channel) (phase : Phase) : Prop := phase = .begun ∨ phase = .connected

private theorem Open.sent {channel : Channel} (opened : Open channel phase) : phase.sent = 0 := by
  rcases opened with rfl | rfl <;> rfl

private theorem connect_follows {host uri : String} {tls : Option ClientTlsConfig}
    (allowed : Allows crates args .begun (.connect uri tls)) :
    Follows crates args (Before Open) (do
      match ← Call.connect uri tls with
      | .error e => Call.ofResult (.error (.connection (host ++ ": " ++ e)))
      | .ok channel =>
        Call.modify fun process => process.orInsertChannel (host, args.tls) channel
        return ((← Call.process).channels (host, args.tls)).getD channel) .begun := by
  refine .await allowed fun reply => ?_
  cases reply with
  | error e => exact .done rfl
  | ok channel => exact .write (.read fun _ => .done (.inr rfl))

private theorem getOrConnect_follows : Follows crates args (Before Open) (getOrConnect crates args.endpoint args.tls) .begun := by
  unfold getOrConnect
  refine Follows.ofResult_bind (fun host valid => Follows.process_bind fun process => ?_) fun _ => rfl
  have connects : Allows crates args .begun (.connect (uriOf (host, args.tls)) (clientTls (host, args.tls))) :=
    ⟨rfl, host, valid, rfl, rfl⟩
  dsimp only
  split
  next => exact .done (.inl rfl)
  next =>
    have connected := @connect_follows crates args host _ _ connects
    refine Follows.ofResult_bind (fun _ _ => ?_) fun _ => rfl
    cases given : args.tls with
    | none =>
      rw [given] at connected
      exact connected
    | some config =>
      rw [given] at connected
      exact Follows.ofResult_bind (fun _ _ => connected) fun _ => rfl

variable {serviceName methodName : String} {channel : Channel}

/-- A channel is chosen, and the call talks over no other. -/
private def Uses (channel : Channel) (phase : Phase) : Prop := Open channel phase ∨ phase = .fetched channel

private theorem Uses.sent (uses : Uses channel phase) : phase.sent = 0 := by
  rcases uses with opened | rfl
  · exact opened.sent
  · rfl

private theorem Uses.allows (uses : Uses channel phase) : phase.AllowsReady channel := by
  rcases uses with (rfl | rfl) | rfl <;> trivial

private theorem fetch_follows {version : ReflectionVersion} (parsed : parseMethod args.method = .ok (serviceName, methodName))
    (enabled : args.useReflection = true) (allowed : phase.AllowsReflection version channel) :
    Follows crates args (Before fun fetched later => later = .afterReflection version channel fetched)
      (ExceptT.lift (Proto.fetch crates version channel serviceName args.maxDecode args.maxEncode)) phase :=
  .await ⟨allowed, enabled, ⟨methodName, parsed⟩, rfl, rfl⟩ fun _ => .done rfl

private theorem fetched_follows {fetched : Except Status DescriptorPool} {version : ReflectionVersion} :
    Follows crates args (Before fun _ later => later = .fetched channel)
      (match fetched with
        | .error status => Call.ofResult (.error (.proto ("reflection: " ++ status.message)))
        | .ok pool => Call.ofResult (Proto.backfillWkts crates pool)) (.afterReflection version channel fetched) := by
  cases fetched with
  | error status => exact .done (afterReflection_sent version channel _)
  | ok pool =>
    dsimp only
    cases Proto.backfillWkts crates pool <;> exact .done rfl

private theorem fetchPool_follows (parsed : parseMethod args.method = .ok (serviceName, methodName))
    (enabled : args.useReflection = true) (opened : Open channel phase) :
    Follows crates args (Before fun _ later => later = .fetched channel)
      (Proto.fetchPool crates channel serviceName args.maxDecode args.maxEncode) phase := by
  have first : phase.AllowsReflection .v1 channel := by rcases opened with rfl | rfl <;> rfl
  refine (fetch_follows parsed enabled first).bind (fun reply later same => ?_) fun e later unsent => unsent
  subst same
  cases reply with
  | ok pool => exact @fetched_follows crates args channel (.ok pool) .v1
  | error status =>
    dsimp only
    split
    next unimplemented =>
      have second : (Phase.afterReflection .v1 channel (.error status)).AllowsReflection .v1alpha channel := by
        simp [Phase.afterReflection, Phase.AllowsReflection, unimplemented]
      refine (fetch_follows parsed enabled second).bind (fun fetched later same => ?_) fun e later unsent => unsent
      subst same
      exact fetched_follows
    next => exact .done (afterReflection_sent .v1 channel _)

private theorem resolvePool_follows (parsed : parseMethod args.method = .ok (serviceName, methodName))
    (opened : Open channel phase) :
    Follows crates args (Before fun _ => Uses channel) (resolvePool crates args channel serviceName) phase := by
  refine Follows.process_bind fun process => ?_
  cases process.getProto serviceName with
  | some pool => exact .done (.inl opened)
  | none =>
    dsimp only
    split
    next enabled =>
      refine (fetchPool_follows parsed enabled opened).bind (fun pool later same => ?_) fun e later unsent => unsent
      exact .write (.done (.inr same))
    next => exact .done opened.sent

private theorem unsent_concludes {e : GrpcError} (unsent : phase.sent = 0) : Concludes crates args (.error e) phase := by
  cases phase with
  | replied body answer => cases unsent
  | begun | connected | unimplemented | fetched | ready | failed => exact ⟨e, rfl⟩

private theorem unaryCall_follows {pool : DescriptorPool} {desc : MethodDescriptor} {body : Bytes}
    (parsed : parseMethod args.method = .ok (serviceName, methodName)) (found : resolveMethod pool serviceName methodName = .ok desc)
    (encodes : encodeRequest crates desc.input args.request = .ok body) (uses : Uses channel phase) :
    Follows crates args (Concludes crates args)
      (unaryCall crates channel serviceName methodName body args.metadata args.maxDecode args.maxEncode >>= fun bytes =>
        Call.ofResult (decodeResponse crates desc.output bytes)) phase := by
  rw [Follows, Call.run_bind, Metadata.unaryCall_run]
  split
  next => exact .done (unsent_concludes uses.sent)
  next path sent =>
    refine .await uses.allows fun ready => ?_
    cases ready with
    | error e => exact .done ⟨_, rfl⟩
    | ok =>
      dsimp only
      split
      next => exact .done ⟨_, rfl⟩
      next headers applied =>
        refine .await ⟨rfl, ⟨serviceName, methodName, parsed, sent⟩, applied, rfl, rfl⟩ fun reply => ?_
        cases reply with
        | error status => exact .done rfl
        | ok bytes => exact .done ⟨serviceName, methodName, pool, desc, parsed, found, encodes, rfl⟩

theorem callAsync_follows (crates : Crates) (args : CallArgs) :
    Follows crates args (Concludes crates args) (callAsync crates args) .begun := by
  unfold callAsync
  refine Follows.ofResult_bind (fun names parsed => ?_) fun e => ⟨e, rfl⟩
  obtain ⟨serviceName, methodName⟩ := names
  refine getOrConnect_follows.bind (fun channel after opened => ?_) fun e later => unsent_concludes
  unfold callOn
  refine (resolvePool_follows parsed opened).bind (fun pool resolved uses => .write ?_) fun e later => unsent_concludes
  have failed (e : GrpcError) : Concludes crates args (.error e) resolved := unsent_concludes uses.sent
  refine Follows.ofResult_bind (fun desc found => ?_) failed
  exact Follows.ofResult_bind (fun body encodes => unaryCall_follows parsed found encodes uses) failed

end Following

/-- The requests so far with their replies are as the protocol has them: at most five,
and the RPC among them as often as the phase says. -/
structure Lawful (crates : Crates) (args : CallArgs) (log : Log Request Reply) : Prop where
  accepted : (protocol crates args).Accepts log
  short : log.length ≤ 5
  sends : log.countP Sends = ((protocol crates args).phase log).sent

theorem lawful_of_accepts {crates : Crates} {args : CallArgs} {log : Log Request Reply}
    (accepts : (protocol crates args).Accepts log) : Lawful crates args log where
  accepted := accepts
  short := le_trans (Nat.le_add_right _ _) (accepts.length_le Phase.rank fun _ => rank_lowers)
  sends := accepts.countP_eq Sends Phase.sent rfl fun _ => sends_counted

abbrev Logged := Tasks Process Request Reply (CallArgs × Log Request Reply) (GrpcResult Json)

def logged (crates : Crates) : Machine Logged Event :=
  Tasks.logged (fun process => process = Process.fresh) (fun args => (callAsync crates args).run) (Operation.run crates)

/-- A call in flight has not sent its RPC before, and any reply to what it asks now keeps
its log lawful. An ended call has the result that its log decides. -/
structure Exchanged (crates : Crates) (tasks : Logged) : Prop where
  waiting : ∀ args log request next, ((args, log), .await request next) ∈ tasks.running →
    log.countP Sends = 0 ∧ ∀ reply, Lawful crates args (log ++ [⟨request, reply⟩])
  ended : ∀ args log result, ((args, log), result) ∈ tasks.ended →
    Lawful crates args log ∧ Concludes crates args result ((protocol crates args).phase log)

/-- Every run of the calls, in whatever order they take turns, is one in which each call keeps the protocol. -/
theorem calls_exchange (crates : Crates) {events : List Event} {final : State}
    (executed : (machine crates).run { shared := .fresh } events = some final) :
    ∃ tasks : Logged, (logged crates).run { shared := .fresh } events = some tasks ∧ tasks.unlogged = final ∧
      Exchanged crates tasks := by
  have same : (machine crates).run { shared := .fresh } events =
      ((logged crates).run { shared := .fresh } events).map Tasks.unlogged :=
    Tasks.logged_run (fun process => process = Process.fresh) (fun args => (callAsync crates args).run) (Operation.run crates)
      { shared := .fresh } events
  rw [executed] at same
  obtain ⟨tasks, ran, unlogged⟩ := Option.map_eq_some_iff.mp same.symm
  have reached : (logged crates).Reachable tasks := Machine.reachable_of_run ⟨.fresh, rfl, rfl⟩ ran
  have obeys : Tasks.Obeys (protocol crates) (Concludes crates) tasks :=
    Tasks.reachable_obeys reached (callAsync_follows crates)
  refine ⟨tasks, ran, unlogged, fun args log request next waits => ?_, fun args log result ended => ?_⟩
  · obtain ⟨accepts, follows⟩ := obeys.running args log _ waits
    cases follows with
    | await allowed rest =>
      refine ⟨?_, fun reply => lawful_of_accepts (accepts.snoc allowed reply)⟩
      rw [(lawful_of_accepts accepts).sends, allows_unsent request allowed]
  · obtain ⟨accepts, concludes⟩ := obeys.ended args log result ended
    exact ⟨lawful_of_accepts accepts, concludes⟩

private def echoExchange : List Event :=
  let reply : Event := .poll 0 (network fun _ _ => ⟨[.fileDescriptorResponse [[0]]], none⟩)
  [.spawn (plainCall "localhost:50051" "pkg.Echo/Say" true), .spawn (plainCall "localhost:50051" "pkg.Echo/Say" true)] ++
    List.replicate 8 reply

/-- The second of two calls finds the channel and the schema of the first. -/
theorem calls_exchange_echo : ∃ final tasks, (machine .echo).run { shared := .fresh } echoExchange = some final ∧
    tasks.unlogged = final ∧ final.ended.length = 2 ∧ Exchanged .echo tasks := by
  have executed : ((machine .echo).run { shared := .fresh } echoExchange).map
      (fun final => final.ended.length) = some 2 := by decide
  obtain ⟨final, ran, ended⟩ := Option.map_eq_some_iff.mp executed
  obtain ⟨tasks, _, unlogged, exchanged⟩ := calls_exchange _ ran
  exact ⟨final, tasks, ran, unlogged, ended, exchanged⟩

end PgGrpc.Calls
