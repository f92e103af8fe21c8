import PgGrpc.Proofs.CallEffects

/-! Two lifetimes. A channel is driven by the runtime of the call that dialled it,
and that runtime ends with the call; the cache that remembers the channel ends
with the process. -/

namespace PgGrpc
open Library

def accepts (crates : Crates) (key : Key) : Except String Unit :=
  match clientTls key with
  | some config => crates.tlsConfig config
  | none => .ok ()

/-- The channel that a lookup without a hit makes, on the runtime it runs on. -/
def dial (crates : Crates) (world : World) (current : Nat) (key : Key) : Option Channel :=
  match crates.fromShared (uriOf key), accepts crates key, world.connect 0 (uriOf key) (clientTls key) with
  | .ok (), .ok (), some (.ok serial) => some ⟨uriOf key, clientTls key, current, serial⟩
  | _, _, _ => none

section Lookup
variable {crates : Crates} {world : World} {alive : Nat → Bool} {current : Nat} {endpoint host : String}
  {tls : Option TlsConfig} {process : Process} {channel : Channel}

theorem getOrConnect_hit (valid : validateEndpoint endpoint = .ok host)
    (cached : process.channels (host, tls) = some channel) :
    (getOrConnect crates endpoint tls).run.drive (world.answer alive current) 0 process =
      (some (.ok channel, 0), process) := by
  simp only [getOrConnect, valid, Call.drive_ofResult_bind, Call.drive_process_bind, cached, Call.drive_pure]

/-- What becomes of a lookup that dials: its result, and the process after it. -/
private def dialled (world : World) (current : Nat) (key : Key) (process : Process) :
    Option (GrpcResult Channel × Nat) × Process :=
  match world.connect 0 (uriOf key) (clientTls key) with
  | none => (none, process)
  | some (.error e) => (some (.error (.connection (key.1 ++ ": " ++ e)), 1), process)
  | some (.ok serial) =>
    let channel : Channel := ⟨uriOf key, clientTls key, current, serial⟩
    (some (.ok channel, 1), process.orInsertChannel key channel)

private theorem connect_run (world : World) (alive : Nat → Bool) (current : Nat) {key : Key} (absent : process.channels key = none) :
    (Call.connect (uriOf key) (clientTls key) >>= fun reply => match reply with
      | .error e => Call.ofResult (.error (.connection (key.1 ++ ": " ++ e)))
      | .ok channel => do
        Call.modify fun process => process.orInsertChannel key channel
        return ((← Call.process).channels key).getD channel).run.drive (world.answer alive current) 0 process =
      dialled world current key process := by
  rw [Call.drive_connect_bind]
  simp only [World.answer, dialled]
  cases world.connect 0 (uriOf key) (clientTls key) with
  | none => rfl
  | some reply =>
    cases reply with
    | error e => rfl
    | ok serial =>
      simp only [Option.map_some, Except.map, Call.drive_modify_bind, Call.drive_process_bind, Call.drive_pure,
        Process.orInsertChannel_same, absent, Option.getD_none, Option.getD_some]

private theorem getOrConnect_run (valid : validateEndpoint endpoint = .ok host)
    (absent : process.channels (host, tls) = none) :
    (getOrConnect crates endpoint tls).run.drive (world.answer alive current) 0 process =
      match crates.fromShared (uriOf (host, tls)), accepts crates (host, tls) with
      | .error e, _ => (some (.error (.connection e), 0), process)
      | .ok (), .error e => (some (.error (.connection ("TLS config: " ++ e)), 0), process)
      | .ok (), .ok () => dialled world current (host, tls) process := by
  have uri : (if tls.isSome then "https" else "http") ++ "://" ++ host = uriOf (host, tls) := rfl
  simp only [getOrConnect, valid, Call.drive_ofResult_bind, Call.drive_process_bind, absent, uri]
  cases crates.fromShared (uriOf (host, tls)) with
  | error e => rfl
  | ok =>
    have tail := connect_run world alive current absent
    cases tls with
    | none => exact tail
    | some config =>
      simp only [accepts, clientTls, Option.map_some]
      change (Call.ofResult _ >>= _).run.drive _ _ _ = _
      rw [Call.drive_ofResult_bind]
      cases crates.tlsConfig config.buildClientTlsConfig with
      | error e => rfl
      | ok => exact tail

private theorem getOrConnect_alive (valid : validateEndpoint endpoint = .ok host)
    (absent : process.channels (host, tls) = none) (alive other : Nat → Bool) :
    (getOrConnect crates endpoint tls).run.drive (world.answer alive current) 0 process =
      (getOrConnect crates endpoint tls).run.drive (world.answer other current) 0 process := by
  rw [getOrConnect_run valid absent, getOrConnect_run valid absent]

theorem getOrConnect_miss (crates : Crates) (world : World) (alive : Nat → Bool) (current : Nat) (valid : validateEndpoint endpoint = .ok host) (absent : process.channels (host, tls) = none) :
    match dial crates world current (host, tls) with
    | some channel => (getOrConnect crates endpoint tls).run.drive (world.answer alive current) 0 process =
        (some (.ok channel, 1), process.orInsertChannel (host, tls) channel)
    | none => ∃ outcome, (getOrConnect crates endpoint tls).run.drive (world.answer alive current) 0 process =
        (outcome, process) ∧ ∀ channel n, outcome ≠ some (.ok channel, n) := by
  rw [getOrConnect_run valid absent]
  simp only [dial, dialled]
  cases crates.fromShared (uriOf (host, tls)) with
  | error e => exact ⟨_, rfl, nofun⟩
  | ok =>
    cases accepts crates (host, tls) with
    | error e => exact ⟨_, rfl, nofun⟩
    | ok =>
      cases world.connect 0 (uriOf (host, tls)) (clientTls (host, tls)) with
      | none => exact ⟨_, rfl, nofun⟩
      | some reply =>
        cases reply with
        | error e => exact ⟨_, rfl, nofun⟩
        | ok serial => rfl

end Lookup
section Call
variable {crates : Crates} {world : World} {alive : Nat → Bool} {current : Nat} {process : Process}

theorem getOrConnect_invalid {endpoint : String} {e : GrpcError} (invalid : validateEndpoint endpoint = .error e)
    (tls : Option TlsConfig) : (getOrConnect crates endpoint tls).run.drive (world.answer alive current) 0 process =
      (some (.error e, 0), process) := by
  simp only [getOrConnect, invalid, Call.drive_ofResult_bind]

theorem dial_runtime {key : Key} {channel : Channel} (made : dial crates world current key = some channel) :
    channel.runtime = current := by
  unfold dial at made
  split at made
  · cases made; rfl
  · cases made

/-- Everything before the dial accepts the key, and the dial gets an answer in time. -/
def Connects (crates : Crates) (world : World) (key : Key) : Prop :=
  crates.fromShared (uriOf key) = .ok () ∧ accepts crates key = .ok () ∧
    ∃ serial, world.connect 0 (uriOf key) (clientTls key) = some (.ok serial)

theorem dial_isSome {key : Key} : (dial crates world current key).isSome ↔ Connects crates world key := by
  unfold dial Connects
  cases crates.fromShared (uriOf key) with
  | error e => simp
  | ok =>
    cases accepts crates key with
    | error e => simp
    | ok =>
      cases world.connect 0 (uriOf key) (clientTls key) with
      | none => simp
      | some reply => cases reply <;> simp

theorem callAsync_run {args : CallArgs} {serviceName methodName : String}
    (parsed : parseMethod args.method = .ok (serviceName, methodName))
    {answer : Nat → (request : Request) → Option (Reply request)} :
    (callAsync crates args).run.drive answer 0 process =
      match (getOrConnect crates args.endpoint args.tls).run.drive answer 0 process with
      | (none, after) => (none, after)
      | (some (.error e, n), after) => (some (.error e, n), after)
      | (some (.ok channel, n), after) => (callOn crates args serviceName methodName channel).run.drive answer n after := by
  simp only [callAsync, parsed, Call.drive_ofResult_bind]
  rw [Call.run_bind, Fiber.drive_bind]
  rcases (getOrConnect crates args.endpoint args.tls).run.drive answer 0 process with ⟨_ | ⟨_ | _, n⟩, after⟩ <;> rfl

theorem callAsync_unparsed {args : CallArgs} {e : GrpcError} (unparsed : parseMethod args.method = .error e)
    {answer : Nat → (request : Request) → Option (Reply request)} :
    (callAsync crates args).run.drive answer 0 process = (some (.error e, 0), process) := by
  simp only [callAsync, unparsed, Call.drive_ofResult_bind]

end Call

/-- The key under which a call looks for its channel, if it gets that far. -/
def Invocation.key (invocation : Invocation) : Option Key :=
  match OptionsConfig.ofArgument invocation.args.options, invocation.world.runtime,
    parseMethod invocation.args.method, validateEndpoint invocation.args.endpoint with
  | .ok opts, .ok (), .ok _, .ok host => some (host, opts.tls)
  | _, _, _, _ => none

namespace Backend

/-- The channel that `getOrConnect` hands to the call. -/
def channel (crates : Crates) (backend : Backend) (invocation : Invocation) : Option Channel :=
  match OptionsConfig.ofArgument invocation.args.options, invocation.world.runtime,
    parseMethod invocation.args.method with
  | .ok opts, .ok (), .ok _ =>
    let alive := (backend.nextRuntime :: backend.live).contains
    match ((getOrConnect crates invocation.args.endpoint opts.tls).run.drive
      (invocation.world.answer alive backend.nextRuntime) 0 backend.process).1 with
    | some (.ok channel, _) => some channel
    | _ => none
  | _, _, _ => none

variable {pg : Postgres} {crates : Crates} {backend : Backend} {invocation : Invocation}

theorem channel_eq : backend.channel crates invocation = invocation.key.bind fun key =>
    (backend.process.channels key).or (dial crates invocation.world backend.nextRuntime key) := by
  unfold channel Invocation.key
  cases OptionsConfig.ofArgument invocation.args.options with
  | error e => rfl
  | ok opts =>
    cases invocation.world.runtime with
    | error e => rfl
    | ok =>
      cases parseMethod invocation.args.method with
      | error e => rfl
      | ok parsed =>
        cases valid : validateEndpoint invocation.args.endpoint with
        | error e => simp only [getOrConnect_invalid valid, Option.bind_none]
        | ok host =>
          cases cached : backend.process.channels (host, opts.tls) with
          | some channel => simp [getOrConnect_hit valid cached, cached]
          | none =>
            have missed := getOrConnect_miss crates invocation.world ((backend.nextRuntime :: backend.live).contains) backend.nextRuntime valid cached
            cases made : dial crates invocation.world backend.nextRuntime (host, opts.tls) with
            | some channel =>
              rw [made] at missed
              simp [missed, cached, made]
            | none =>
              rw [made] at missed
              obtain ⟨outcome, ran, failed⟩ := missed
              simp only [ran, Option.bind_some, cached, made]
              rfl

private theorem callAsync_channels {args : CallArgs} {parsed : String × String}
    (valid : parseMethod args.method = .ok parsed) (answer : Nat → (request : Request) → Option (Reply request))
    (process : Process) :
    ((callAsync crates args).run.drive answer 0 process).2.channels =
      ((getOrConnect crates args.endpoint args.tls).run.drive answer 0 process).2.channels := by
  rw [callAsync_run valid]
  rcases (getOrConnect crates args.endpoint args.tls).run.drive answer 0 process with ⟨_ | ⟨_ | channel, n⟩, after⟩
  · rfl
  · rfl
  · exact (callOn_confined crates args parsed.1 parsed.2).changes (fun _ => rfl)
      (fun first second => Eq.trans second first) n after

private theorem getOrConnect_channels {endpoint : String} {tls : Option TlsConfig} {world : World} {alive : Nat → Bool}
    {current : Nat} {process : Process} (key : Key) :
    ((getOrConnect crates endpoint tls).run.drive (world.answer alive current) 0 process).2.channels key =
      (process.channels key).or
        (if (validateEndpoint endpoint).toOption.map (·, tls) = some key then dial crates world current key else none) := by
  cases valid : validateEndpoint endpoint with
  | error e => simp [getOrConnect_invalid valid, Except.toOption]
  | ok host =>
    simp only [Except.toOption, Option.map_some, Option.some.injEq]
    cases cached : process.channels (host, tls) with
    | some channel =>
      rw [getOrConnect_hit valid cached]
      split
      next same => subst same; simp [cached]
      next => simp
    | none =>
      have missed := getOrConnect_miss crates world alive current valid cached
      cases made : dial crates world current (host, tls) with
      | some channel =>
        rw [made] at missed
        rw [missed]
        split
        next same => subst same; simp [cached, made]
        next other => simp [Process.orInsertChannel_other process channel (Ne.symm other)]
      | none =>
        rw [made] at missed
        obtain ⟨outcome, ran, _⟩ := missed
        rw [ran]
        split
        next same => subst same; simp [made]
        next => simp

theorem grpcCall_channels (key : Key) : (backend.grpcCall pg crates invocation).2.process.channels key =
    (backend.process.channels key).or
      (if invocation.key = some key then dial crates invocation.world backend.nextRuntime key else none) := by
  unfold grpcCall Invocation.key
  cases OptionsConfig.ofArgument invocation.args.options with
  | error e => simp
  | ok opts =>
    cases invocation.world.runtime with
    | error e => simp
    | ok =>
      dsimp only
      rw [makeGrpcCall_process]
      cases parsed : parseMethod invocation.args.method with
      | error e =>
        have unparsed : parseMethod (invocation.callArgs opts).method = .error e := parsed
        simp [callAsync_unparsed unparsed]
      | ok names =>
        have valid : parseMethod (invocation.callArgs opts).method = .ok names := parsed
        rw [callAsync_channels valid, getOrConnect_channels]
        have endpoint : (invocation.callArgs opts).endpoint = invocation.args.endpoint := rfl
        have tls : (invocation.callArgs opts).tls = opts.tls := rfl
        rw [endpoint, tls]
        cases validateEndpoint invocation.args.endpoint with
        | error e => simp only [Except.toOption, Option.map_none]; congr
        | ok host => simp only [Except.toOption, Option.map_some]; congr

theorem grpcCall_live : (backend.grpcCall pg crates invocation).2.live = backend.live := by
  unfold grpcCall
  cases OptionsConfig.ofArgument invocation.args.options with
  | error e => rfl
  | ok opts =>
    cases invocation.world.runtime with
    | error e => rfl
    | ok => simp

/-- Every call that gets as far as the cache has built a runtime of its own. -/
theorem grpcCall_nextRuntime (pg : Postgres) (crates : Crates) (backend : Backend) (invocation : Invocation) :
    backend.nextRuntime ≤ (backend.grpcCall pg crates invocation).2.nextRuntime ∧
    (invocation.key.isSome → (backend.grpcCall pg crates invocation).2.nextRuntime = backend.nextRuntime + 1) := by
  unfold grpcCall Invocation.key
  cases OptionsConfig.ofArgument invocation.args.options with
  | error e => simp
  | ok opts =>
    cases invocation.world.runtime with
    | error e => simp
    | ok => simp

def after (pg : Postgres) (crates : Crates) (backend : Backend) (calls : List Invocation) : Backend :=
  calls.foldl (fun backend invocation => (backend.grpcCall pg crates invocation).2) backend

/-- The runtime of the channel that the call gets is alive while the call runs. -/
def Usable (crates : Crates) (backend : Backend) (invocation : Invocation) : Prop :=
  ∀ channel, backend.channel crates invocation = some channel →
    channel.runtime ∈ backend.nextRuntime :: backend.live

/-- The call ends as it would if no runtime of an earlier call had ever ended. -/
def Unharmed (crates : Crates) (backend : Backend) (invocation : Invocation) : Prop :=
  ∀ opts, OptionsConfig.ofArgument invocation.args.options = .ok opts → invocation.world.runtime = .ok () →
    let run alive := makeGrpcCall crates invocation.world alive backend.nextRuntime (invocation.callArgs opts)
      (opts.timeoutMs.getD 30000) backend.process
    (run (backend.nextRuntime :: backend.live).contains).1 = (run fun _ => true).1

/-- After a sequence of calls the cache remembers what some call of it dialled, on
a runtime that is gone. -/
structure Remembers (crates : Crates) (earlier : List Invocation) (backend : Backend) : Prop where
  live : backend.live = []
  ended : ∀ key channel, backend.process.channels key = some channel → channel.runtime < backend.nextRuntime
  dialled : ∀ key, (backend.process.channels key).isSome ↔
    ∃ call ∈ earlier, call.key = some key ∧ Connects crates call.world key

theorem remembers_fresh : Remembers crates [] .fresh := ⟨rfl, nofun, fun _ => by simp [Backend.fresh, Process.fresh]⟩

theorem Remembers.grpcCall {earlier : List Invocation} (remembers : Remembers crates earlier backend) :
    Remembers crates (earlier ++ [invocation]) (backend.grpcCall pg crates invocation).2 where
  live := grpcCall_live.trans remembers.live
  ended key channel cached := by
    rw [grpcCall_channels, Option.or_eq_some_iff] at cached
    obtain ⟨grows, next⟩ := grpcCall_nextRuntime pg crates backend invocation
    rcases cached with old | ⟨_, new⟩
    · exact Nat.lt_of_lt_of_le (remembers.ended key channel old) grows
    · split at new
      next same => rw [dial_runtime new, next (by simp [same])]; omega
      next => cases new
  dialled key := by
    rw [grpcCall_channels, Option.isSome_or, Bool.or_eq_true, remembers.dialled]
    by_cases here : invocation.key = some key
    · simp [here, dial_isSome, or_and_right, exists_or]
    · simp [here, or_and_right, exists_or]

theorem remembers_after (pg : Postgres) (crates : Crates) (calls : List Invocation) :
    Remembers crates calls (Backend.fresh.after pg crates calls) := by
  induction calls using List.reverseRecOn with
  | nil => exact remembers_fresh
  | append_singleton earlier invocation ih =>
    rw [after, List.foldl_append]
    exact ih.grpcCall

theorem Remembers.usable_iff {earlier : List Invocation} (remembers : Remembers crates earlier backend) :
    Usable crates backend invocation ↔ ∀ key, invocation.key = some key → backend.process.channels key = none := by
  rw [Usable, remembers.live]
  constructor
  · intro usable key reached
    by_contra cached
    obtain ⟨channel, cached⟩ := Option.ne_none_iff_exists'.mp cached
    have current := usable channel (by rw [channel_eq, reached, Option.bind_some, cached, Option.some_or])
    have ended := remembers.ended key channel cached
    rw [List.mem_singleton] at current
    omega
  · intro missed channel handed
    rw [channel_eq] at handed
    obtain ⟨key, reached, found⟩ := Option.bind_eq_some_iff.mp handed
    rw [missed key reached, Option.none_or] at found
    rw [dial_runtime found]
    exact List.mem_singleton_self _

theorem unharmed_of_missed (missed : ∀ key, invocation.key = some key → backend.process.channels key = none) :
    Unharmed crates backend invocation := by
  intro opts accepted built run
  suffices same : (callAsync crates (invocation.callArgs opts)).run.drive
      (invocation.world.answer (backend.nextRuntime :: backend.live).contains backend.nextRuntime) 0 backend.process =
      (callAsync crates (invocation.callArgs opts)).run.drive
        (invocation.world.answer (fun _ => true) backend.nextRuntime) 0 backend.process by
    simp only [run, makeGrpcCall, same]
  cases parsed : parseMethod (invocation.callArgs opts).method with
  | error e => rw [callAsync_unparsed parsed, callAsync_unparsed parsed]
  | ok names =>
    rw [callAsync_run parsed, callAsync_run parsed]
    cases valid : validateEndpoint (invocation.callArgs opts).endpoint with
    | error e => rw [getOrConnect_invalid valid, getOrConnect_invalid valid]
    | ok host =>
      have method : parseMethod invocation.args.method = .ok names := parsed
      have endpoint : validateEndpoint invocation.args.endpoint = .ok host := valid
      have absent : backend.process.channels (host, (invocation.callArgs opts).tls) = none :=
        missed (host, opts.tls) (by simp only [Invocation.key, accepted, built, method, endpoint])
      rw [getOrConnect_alive valid absent (backend.nextRuntime :: backend.live).contains fun _ => true]
      have dialled := getOrConnect_miss crates invocation.world (fun _ => true) backend.nextRuntime valid absent
      cases made : dial crates invocation.world backend.nextRuntime (host, (invocation.callArgs opts).tls) with
      | some channel =>
        have own : (backend.nextRuntime :: backend.live).contains channel.runtime = true := by
          simp [dial_runtime made]
        rw [made] at dialled
        rw [dialled]
        exact (callOn_confined crates _ names.1 names.2).drive_congr (answer_alive invocation.world own _) 1 _
      | none =>
        rw [made] at dialled
        obtain ⟨outcome, ran, failed⟩ := dialled
        rw [ran]
        rcases outcome with _ | ⟨_ | channel, n⟩
        · rfl
        · rfl
        · exact absurd rfl (failed channel n)

theorem Remembers.call_iff {earlier : List Invocation} (remembers : Remembers crates earlier backend) :
    Usable crates backend invocation ∧ Unharmed crates backend invocation ↔
      ∀ call ∈ earlier, ∀ key, call.key = some key → Connects crates call.world key → invocation.key ≠ some key := by
  rw [remembers.usable_iff]
  constructor
  · intro both call member key dialled connects reached
    have missed := both.1
    have cached := (remembers.dialled key).mpr ⟨call, member, dialled, connects⟩
    rw [missed key reached] at cached
    cases cached
  · intro fresh
    have missed : ∀ key, invocation.key = some key → backend.process.channels key = none := by
      intro key reached
      by_contra cached
      obtain ⟨call, member, dialled, connects⟩ := (remembers.dialled key).mp (Option.isSome_iff_ne_none.mpr cached)
      exact fresh call member key dialled connects reached
    exact ⟨missed, unharmed_of_missed missed⟩

/-- In a sequence of calls every channel is usable, and no call fails for the sake
of an earlier one, exactly when no call looks for a key that an earlier one
connected under. -/
theorem channels_usable_iff (pg : Postgres) (crates : Crates) (calls : List Invocation) :
    (∀ earlier invocation later, calls = earlier ++ invocation :: later →
      Usable crates (Backend.fresh.after pg crates earlier) invocation ∧
        Unharmed crates (Backend.fresh.after pg crates earlier) invocation) ↔
    calls.Pairwise fun first second =>
      ∀ key, first.key = some key → Connects crates first.world key → second.key ≠ some key := by
  induction calls using List.reverseRecOn with
  | nil => exact iff_of_true (fun earlier _ _ split => by simp at split) .nil
  | append_singleton earlier last ih =>
    rw [List.pairwise_append, ← ih]
    simp only [List.pairwise_cons, List.not_mem_nil, false_implies, implies_true, List.Pairwise.nil, and_self, true_and,
      List.mem_singleton, forall_eq]
    rw [← (remembers_after pg crates earlier).call_iff]
    constructor
    · intro every
      exact ⟨fun first invocation later split => every first invocation (later ++ [last]) (by simp [split]),
        every earlier last [] rfl⟩
    · intro both first invocation later split
      obtain ⟨before, now⟩ := both
      rcases List.eq_nil_or_concat later with rfl | ⟨rest, final, rfl⟩
      · obtain ⟨rfl, same⟩ := List.append_inj' split rfl
        cases same
        exact now
      · have shape : earlier ++ [last] = (first ++ invocation :: rest) ++ [final] := by simpa using split
        obtain ⟨same, _⟩ := List.append_inj' shape rfl
        exact before first invocation rest same

private def echoCall : Invocation := ⟨.sample, .sample⟩

/-- The same call twice: the second finds the channel of the first, whose runtime
is gone, and fails although the server answers everything. -/
theorem second_call_fails :
    (Backend.fresh.grpcCall .sample .echo echoCall).1.isOk = true ∧
    ((Backend.fresh.after .sample .echo [echoCall]).grpcCall .sample .echo echoCall).1 =
      .error (.grpc (.connection "transport error")) ∧
    ¬ Usable .echo (Backend.fresh.after .sample .echo [echoCall]) echoCall ∧
    ¬ Unharmed .echo (Backend.fresh.after .sample .echo [echoCall]) echoCall := by
  refine ⟨by decide, by rfl, fun usable => ?_, fun unharmed => ?_⟩
  · have alive := usable ⟨"http://localhost:50051", none, 0, 0⟩ (by decide)
    revert alive
    decide
  · have same := congrArg Except.isOk (unharmed {} rfl rfl)
    revert same
    decide

end Backend

end PgGrpc
