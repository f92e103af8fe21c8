import PgGrpc.Proofs.CallRuns
import PgGrpc.Proofs.TlsOptions

/-! Lookups of the channel cache that race with each other: each gets a channel to
its own endpoint under its own TLS settings, and one key has one channel. -/

namespace PgGrpc.Channels
open Library PgGrpc.Calls

structure Lookup where
  endpoint : String
  options : Option Json

/-- `get_or_connect`, with the TLS settings of the options. -/
def lookup (crates : Crates) (call : Lookup) : Call Channel := do
  let opts ← Call.ofResult (OptionsConfig.ofArgument call.options)
  getOrConnect crates call.endpoint opts.tls

abbrev State := Tasks Process Request Reply Lookup (GrpcResult Channel)

abbrev Event := Turn Request Reply Lookup Empty

def machine (crates : Crates) : Machine State Event :=
  Tasks.machine (fun process => process = .fresh) (fun call => (lookup crates call).run) fun operation _ => operation.elim

/-- tonic connects a channel to the URI it is asked for, under the configuration it is given. -/
def tonic : Surroundings where
  connects uri tls channel := channel.uri = uri ∧ channel.tls = tls
  offers _ _ _ := True
  calls _ _ := True

def Connects : State → Event → Prop := Tasks.Answers tonic.replies fun _ => True

/-- The channel leads to the endpoint of the call, under what its `tls` object says. -/
def Leads (call : Lookup) (channel : Channel) : Prop :=
  ∃ host, validateEndpoint call.endpoint = .ok host ∧
    match tlsObject call.options with
    | none => channel.uri = "http://" ++ host ∧ channel.tls = none
    | some m => channel.uri = "https://" ++ host ∧ ∃ texts, TlsTexts.Of texts m ∧ channel.tls = some texts.clientTls

/-- The two calls name one endpoint, and `tls` objects that differ in nulls at most. -/
def SameKey (first second : Lookup) : Prop :=
  validateEndpoint first.endpoint = validateEndpoint second.endpoint ∧
    match tlsObject first.options, tlsObject second.options with
    | none, none => True
    | some m, some n => ∀ key, m.present key = n.present key
    | _, _ => False

/-- What a lookup was given is what the cache holds under its key. -/
def Held (call : Lookup) (result : GrpcResult Channel) (process : Process) : Prop :=
  ∀ channel, result = .ok channel → ∃ opts, OptionsConfig.ofArgument call.options = .ok opts ∧
    Cached call.endpoint opts.tls channel process

variable {crates : Crates} {tasks after : State} {turn : Event} {process : Process}

section Lookups

-- What a lookup checks about its endpoint plays no part here.
attribute [local irreducible] validateEndpoint

private theorem lookups_safe (call : Lookup) (state : Process) (_ : True) (_ : Sound crates tonic state) :
    (lookup crates call).run.Safe (contract crates tonic) (Held call) state := by
  have safe : (lookup crates call).Safe (contract crates tonic) (fun channel later =>
      ∃ opts, OptionsConfig.ofArgument call.options = .ok opts ∧ Cached call.endpoint opts.tls channel later) state := by
    apply Call.Safe.ofResult_bind
    intro opts parsed
    exact (getOrConnect_safe call.endpoint opts.tls).weaken fun result later cached channel same =>
      ⟨opts, parsed, cached channel same⟩
  exact safe

theorem lookups_allSafe (reached : (machine crates).Reaches Connects tasks) :
    Tasks.AllSafe (contract crates tonic) Held tasks := by
  refine Tasks.reaches_safe reached ?_ lookups_safe (fun _ _ kept => kept) (fun _ operation => operation.elim)
  rintro _ rfl
  exact .fresh _ _

theorem lookups_step (reached : (machine crates).Reaches Connects tasks) (kept : Connects tasks turn)
    (taken : (machine crates).step tasks turn = some after) : Tasks.Advances (contract crates tonic) Held tasks after := by
  change Tasks.step (fun call => (lookup crates call).run) (fun operation _ => operation.elim) tasks turn = some after at taken
  exact (lookups_allSafe reached).advances lookups_safe kept taken fun operation => operation.elim

theorem Held.keeps {call : Lookup} {result : GrpcResult Channel} {later : Process} (held : Held call result process)
    (keeps : Keeps process later) : Held call result later := by
  intro channel same
  obtain ⟨opts, parsed, host, valid, cached⟩ := held channel same
  exact ⟨opts, parsed, host, valid, keeps.channels _ _ cached⟩

theorem ended_held (reached : (machine crates).Reaches Connects tasks) :
    ∀ entry ∈ tasks.ended, Held entry.1 entry.2 tasks.shared := by
  apply reached.invariant fun tasks => ∀ entry ∈ tasks.ended, Held entry.1 entry.2 tasks.shared
  · rintro _ ⟨_, _, rfl⟩
    exact List.forall_mem_nil _
  · intro before turn after reached kept taken held entry member
    have advances := lookups_step reached kept taken
    rcases advances.ended entry member with old | new
    · exact (held entry old).keeps advances.grows
    · exact new

private theorem uriOf_host {key other : Key} (scheme : key.2.isSome = other.2.isSome) (same : uriOf key = uriOf other) :
    key.1 = other.1 := by
  rw [uriOf, uriOf, scheme] at same
  exact (String.append_right_inj _).mp same

section Returned
variable {call other : Lookup} {channel : Channel}

private theorem held_key (sound : Sound crates tonic process) (held : Held call (.ok channel) process) :
    ∃ key, validateEndpoint call.endpoint = .ok key.1 ∧ (channel.uri = uriOf key ∧ channel.tls = clientTls key) ∧
      ((tlsObject call.options = none ∧ key.2 = none) ∨
        ∃ m texts, tlsObject call.options = some m ∧ TlsTexts.Of texts m ∧ key.2 = some texts.config) := by
  obtain ⟨opts, parsed, host, valid, cached⟩ := held channel rfl
  exact ⟨(host, opts.tls), valid, sound.channels _ _ cached, OptionsConfig.ofArgument_tls parsed⟩

theorem Held.leads (sound : Sound crates tonic process) (held : Held call (.ok channel) process) : Leads call channel := by
  obtain ⟨⟨host, tls⟩, valid, ⟨uri, config⟩, settings⟩ := held_key sound held
  refine ⟨host, valid, ?_⟩
  rcases settings with ⟨plain, rfl⟩ | ⟨m, texts, object, described, rfl⟩
  · rw [plain]
    exact ⟨uri, config⟩
  · rw [object]
    refine ⟨uri, texts, described, config.trans ?_⟩
    rw [← texts.config_build]
    rfl

theorem Held.sameKey (sound : Sound crates tonic process) (first : Held call (.ok channel) process)
    (second : Held other (.ok channel) process) : SameKey call other := by
  obtain ⟨⟨host, tls⟩, valid, ⟨uri, config⟩, settings⟩ := held_key sound first
  obtain ⟨⟨host', tls'⟩, valid', ⟨uri', config'⟩, settings'⟩ := held_key sound second
  have configs := config.symm.trans config'
  have uris := uri.symm.trans uri'
  rcases settings with ⟨plain, rfl⟩ | ⟨m, texts, object, described, rfl⟩ <;>
    rcases settings' with ⟨plain', rfl⟩ | ⟨m', texts', object', described', rfl⟩
  · rw [SameKey, valid, valid', plain, plain']
    exact ⟨congrArg Except.ok (uriOf_host rfl uris), trivial⟩
  · cases configs
  · cases configs
  · have built : texts.clientTls = texts'.clientTls := by
      rw [← texts.config_build, ← texts'.config_build]
      exact Option.some.inj configs
    cases TlsTexts.clientTls_injective described.paired described'.paired built
    rw [SameKey, valid, valid', object, object']
    exact ⟨congrArg Except.ok (uriOf_host rfl uris), described.present_eq described'⟩

end Returned

/-- A connect fails or its task is dropped, or a lookup ends in an error. -/
inductive Fails (tasks : State) : Event → State → Prop where
  | dropped {index after} : Fails tasks (.cancel index) after
  | refused {index answer after call uri tls next e}
      (waits : tasks.running[index]? = some (call, .await (.connect uri tls) next))
      (failed : answer (.connect uri tls) = .error e) : Fails tasks (.poll index answer) after
  | ended {turn after call e} (ended : after.ended = tasks.ended ++ [(call, .error e)]) : Fails tasks turn after

/-- What a lookup does with the reply to its connect. -/
private def connected (key : Key) (reply : Except String Channel) : Fiber Process Request Reply (GrpcResult Channel) :=
  match reply with
  | .error e => .done (.error (.connection (key.1 ++ ": " ++ e)))
  | .ok channel => .write (fun process => process.orInsertChannel key channel)
      (.read fun process => .done (.ok ((process.channels key).getD channel)))

/-- A lookup has not begun, or waits for its connect. -/
private def Progress (crates : Crates) (call : Lookup) (fiber : Fiber Process Request Reply (GrpcResult Channel)) : Prop :=
  fiber = (lookup crates call).run ∨ ∃ key, fiber = .await (.connect (uriOf key) (clientTls key)) (connected key)

private theorem advance_ofResult (result : GrpcResult α) (next : α → Call β) (process : Process) :
    (Call.ofResult result >>= next).run.advance process =
      match result with
      | .ok value => (next value).run.advance process
      | .error e => (.done (.error e), process) := by
  cases result <;> rfl

private theorem dial_advance (key : Key) (process : Process) :
    (Call.connect (uriOf key) (clientTls key) >>= fun reply => match reply with
      | .error e => Call.ofResult (.error (.connection (key.1 ++ ": " ++ e)))
      | .ok channel => do
        Call.modify fun process => process.orInsertChannel key channel
        return ((← Call.process).channels key).getD channel).run.advance process =
      (.await (.connect (uriOf key) (clientTls key)) (connected key), process) := by
  refine Prod.ext (congrArg (Fiber.await _) (funext fun reply => ?_)) rfl
  cases reply <;> rfl

private theorem lookup_advance (crates : Crates) (call : Lookup) (process : Process) :
    ∃ fiber, (lookup crates call).run.advance process = (fiber, process) ∧
      ((∃ result, fiber = .done result) ∨ ∃ key, fiber = .await (.connect (uriOf key) (clientTls key)) (connected key)) := by
  rw [lookup, advance_ofResult]
  cases OptionsConfig.ofArgument call.options with
  | error e => exact ⟨_, rfl, .inl ⟨_, rfl⟩⟩
  | ok opts =>
    simp only [getOrConnect, advance_ofResult]
    cases validateEndpoint call.endpoint with
    | error e => exact ⟨_, rfl, .inl ⟨_, rfl⟩⟩
    | ok host =>
      have begun (next : Process → Call Channel) :
          (Call.process >>= next).run.advance process = (next process).run.advance process := rfl
      simp only [begun]
      cases process.channels (host, opts.tls) with
      | some channel => exact ⟨_, rfl, .inl ⟨_, rfl⟩⟩
      | none =>
        simp only [advance_ofResult]
        cases mapErr GrpcError.connection (crates.fromShared _) with
        | error e => exact ⟨_, rfl, .inl ⟨_, rfl⟩⟩
        | ok =>
          have dialled := dial_advance (host, opts.tls) process
          cases tls : opts.tls with
          | none =>
            rw [tls] at dialled
            exact ⟨_, dialled, .inr ⟨_, rfl⟩⟩
          | some config =>
            rw [tls] at dialled
            simp only [Option.map_some, advance_ofResult]
            cases mapErr _ (crates.tlsConfig config.buildClientTlsConfig) with
            | error e => exact ⟨_, rfl, .inl ⟨_, rfl⟩⟩
            | ok => exact ⟨_, dialled, .inr ⟨_, rfl⟩⟩

private theorem lookup_resume (crates : Crates) (call : Lookup) (answer : (request : Request) → Reply request)
    (process : Process) : (lookup crates call).run.resume answer process = (lookup crates call).run.advance process ∧
      ∀ request next, (lookup crates call).run ≠ .await request next := by
  unfold lookup
  cases OptionsConfig.ofArgument call.options with
  | error e => exact ⟨rfl, by rintro _ _ ⟨⟩⟩
  | ok opts =>
    unfold getOrConnect
    cases validateEndpoint call.endpoint with
    | error e => exact ⟨rfl, by rintro _ _ ⟨⟩⟩
    | ok host => exact ⟨rfl, by rintro _ _ ⟨⟩⟩

/-- Only a lookup that ends with a channel changes anything. -/
private theorem connected_advance (key : Key) (reply : Except String Channel) (process : Process) :
    ∃ result later, (connected key reply).advance process = (.done result, later) ∧
      (later = process ∨ (∃ channel, result = .ok channel) ∧ ∃ channel, reply = .ok channel) := by
  cases reply with
  | error e => exact ⟨_, _, rfl, .inl rfl⟩
  | ok channel => exact ⟨_, _, rfl, .inr ⟨⟨_, rfl⟩, channel, rfl⟩⟩

private theorem progress (reached : (machine crates).Reachable tasks) :
    ∀ task ∈ tasks.running, Progress crates task.1 task.2 := by
  apply reached.invariant fun tasks => ∀ task ∈ tasks.running, Progress crates task.1 task.2
  · rintro _ ⟨_, _, rfl⟩
    exact List.forall_mem_nil _
  · intro before turn after _ _ taken kept task member
    change Tasks.step (fun call => (lookup crates call).run) (fun operation _ => operation.elim) before turn = some after at taken
    cases Tasks.step_cases taken with
    | spawn =>
      rcases List.mem_append.mp member with old | new
      · exact kept task old
      · cases List.mem_singleton.mp new
        exact .inl rfl
    | finish => exact kept task (List.mem_of_mem_eraseIdx member)
    | cancel => exact kept task (List.mem_of_mem_eraseIdx member)
    | @wait index answer call fiber request next shared found ran =>
      rcases List.mem_or_eq_of_mem_set member with old | rfl
      · exact kept task old
      · have point : Progress crates call fiber := kept _ (List.mem_of_getElem? found)
        rcases point with rfl | ⟨key, rfl⟩
        · obtain ⟨later, advanced, ends⟩ := lookup_advance crates call before.shared
          rw [(lookup_resume crates call answer before.shared).1, advanced] at ran
          cases ran
          rcases ends with ⟨result, done⟩ | waits
          · cases done
          · exact .inr waits
        · obtain ⟨result, later, advanced, _⟩ := connected_advance key (answer (.connect _ _)) before.shared
          cases advanced.symm.trans ran
    | @operate operation => exact operation.elim

private theorem resume_frame (reached : (machine crates).Reachable tasks) {index : Nat}
    {answer : (request : Request) → Reply request} {call : Lookup} {fiber rest : Fiber Process Request Reply (GrpcResult Channel)}
    {later : Process} (found : tasks.running[index]? = some (call, fiber))
    (ran : fiber.resume answer tasks.shared = (rest, later)) : later = tasks.shared ∨
      (∃ channel, rest = .done (.ok channel)) ∧ ∃ key channel,
        fiber = .await (.connect (uriOf key) (clientTls key)) (connected key) ∧
        answer (.connect (uriOf key) (clientTls key)) = .ok channel := by
  have point : Progress crates call fiber := progress reached _ (List.mem_of_getElem? found)
  rcases point with rfl | ⟨key, rfl⟩
  · obtain ⟨_, advanced, _⟩ := lookup_advance crates call tasks.shared
    rw [(lookup_resume crates call answer tasks.shared).1, advanced] at ran
    cases ran
    exact .inl rfl
  · obtain ⟨result, final, advanced, same | ⟨⟨channel, rfl⟩, reply, replied⟩⟩ :=
      connected_advance key (answer (.connect _ _)) tasks.shared
    · cases advanced.symm.trans ran
      exact .inl same
    · cases advanced.symm.trans ran
      exact .inr ⟨⟨channel, rfl⟩, key, reply, rfl, replied⟩

/-- A connect that fails or is dropped leaves the whole process as it was. -/
theorem fails_frame (reached : (machine crates).Reachable tasks) (fails : Fails tasks turn after)
    (taken : (machine crates).step tasks turn = some after) : after.shared = tasks.shared := by
  change Tasks.step (fun call => (lookup crates call).run) (fun operation _ => operation.elim) tasks turn = some after at taken
  cases Tasks.step_cases taken with
  | spawn => rfl
  | cancel => rfl
  | @operate operation => exact operation.elim
  | finish found ran =>
    rcases resume_frame reached found ran with same | ⟨⟨channel, succeeded⟩, key, reply, waited, replied⟩
    · exact same
    · cases fails with
      | refused waits failed =>
        cases (waits.symm.trans found).trans (congrArg (fun fiber => some (_, fiber)) waited)
        rw [replied] at failed
        cases failed
      | ended ended =>
        have value := (List.append_right_inj _).mp ended
        cases succeeded
        cases value
  | wait found ran =>
    rcases resume_frame reached found ran with same | ⟨⟨channel, succeeded⟩, _⟩
    · exact same
    · cases succeeded

end Lookups

/-- What holds of the lookups so far, and of the cache from here on. -/
structure Isolated (crates : Crates) (tasks : State) : Prop where
  leads : ∀ call channel, (call, .ok channel) ∈ tasks.ended → Leads call channel
  apart : ∀ first second channel, (first, .ok channel) ∈ tasks.ended → (second, .ok channel) ∈ tasks.ended →
    SameKey first second
  held : ∀ call channel, (call, .ok channel) ∈ tasks.ended → ∃ opts, OptionsConfig.ofArgument call.options = .ok opts ∧
    ∃ host, validateEndpoint call.endpoint = .ok host ∧ tasks.shared.channels (host, opts.tls) = some channel
  kept : ∀ events after, (machine crates).Path Connects tasks events after → ∀ key channel,
    tasks.shared.channels key = some channel → after.shared.channels key = some channel
  unchanged : ∀ turn after, Fails tasks turn after → (machine crates).step tasks turn = some after →
    after.shared.channels = tasks.shared.channels

private theorem channels_kept (reached : (machine crates).Reaches Connects tasks) {events : List Event}
    (path : (machine crates).Path Connects tasks events after) {key : Key} {channel : Channel}
    (cached : tasks.shared.channels key = some channel) : after.shared.channels key = some channel := by
  have both : (machine crates).Reaches Connects after ∧ after.shared.channels key = some channel := by
    apply path.preserves fun later => (machine crates).Reaches Connects later ∧ later.shared.channels key = some channel
    · intro before turn after connects taken kept
      exact ⟨.next kept.1 connects taken, (lookups_step kept.1 connects taken).grows.channels key channel kept.2⟩
    · exact ⟨reached, cached⟩
  exact both.2

theorem channels_isolated (reached : (machine crates).Reaches Connects tasks) : Isolated crates tasks := by
  have sound := (lookups_allSafe reached).valid
  have held (call : Lookup) (channel : Channel) (ended : (call, .ok channel) ∈ tasks.ended) :
      Held call (.ok channel) tasks.shared := ended_held reached _ ended
  refine ⟨?_, ?_, ?_, ?_, ?_⟩
  · exact fun call channel ended => (held call channel ended).leads sound
  · exact fun first second channel one two => (held first channel one).sameKey sound (held second channel two)
  · exact fun call channel ended => held call channel ended channel rfl
  · exact fun events after path key channel cached => channels_kept reached path cached
  · intro turn after fails taken
    exact congrArg Process.channels (fails_frame (reached.weaken fun _ _ _ => trivial) fails taken)

private def tlsOptions : Option Json := some (.object [("tls", .object [("ca_cert", .string "pem"), ("domain_name", .null)])])

private def dialled (serial : Nat) : (request : Request) → Reply request
  | .connect uri tls => .ok ⟨uri, tls, 0, serial⟩
  | .serverReflectionInfo _ _ _ _ _ => .ok ⟨[], none⟩
  | .ready _ => .ok ()
  | .unary _ _ _ _ _ _ => .ok []

private def race : List Event :=
  [.spawn ⟨"host:443", tlsOptions⟩, .spawn ⟨" host:443 ", tlsOptions⟩, .poll 0 (dialled 0), .poll 1 (dialled 0),
    .poll 1 (dialled 1), .poll 0 (dialled 2), .spawn ⟨"host:443", none⟩, .poll 0 (dialled 3), .poll 0 (dialled 4)]

theorem channels_isolated_race : ∃ tasks, Isolated (.sample []) tasks ∧ tasks.running = [] ∧
    tasks.ended.map (fun entry => entry.2.toOption.map Channel.serial) = [some 1, some 1, some 4] := by
  have executed : ((machine (.sample [])).run { shared := .fresh } race).map (fun tasks => (tasks.running.isEmpty,
      tasks.ended.map fun entry => entry.2.toOption.map Channel.serial)) = some (true, [some 1, some 1, some 4]) := by decide
  obtain ⟨tasks, ran, ended⟩ := Option.map_eq_some_iff.mp executed
  obtain ⟨idle, serials⟩ := Prod.mk.inj ended
  have start : (machine (.sample [])).Reaches Connects { shared := .fresh } := .start ⟨.fresh, rfl, rfl⟩
  have path := Machine.path_of_run (fun turn => (∃ call, turn = .spawn call) ∨ ∃ index serial, turn = .poll index (dialled serial))
    (by simp [race]) ran
  refine ⟨tasks, channels_isolated (start.path (path.weaken ?_)), List.isEmpty_iff.mp idle, serials⟩
  rintro before turn (⟨call, rfl⟩ | ⟨index, serial, rfl⟩)
  · trivial
  · intro call request next _
    cases request with
    | connect uri tls =>
      rintro channel same
      cases same
      exact ⟨rfl, rfl⟩
    | serverReflectionInfo => exact fun _ _ => trivial
    | ready | unary => trivial

end PgGrpc.Channels
