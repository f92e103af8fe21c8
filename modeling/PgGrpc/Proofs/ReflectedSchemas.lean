import PgGrpc.Proofs.CallRuns

/-! Schemas that calls fetch by reflection: which server they come from, and when
the registry holds one under a name that it does not define. -/

namespace PgGrpc
open Library

def ReflectionMessage.files (crates : Crates) : ReflectionMessage → List FileProto
  | .fileDescriptorResponse files => files.filterMap fun bytes => (crates.decodeFile bytes).toOption
  | .errorResponse _ _ | .other => []

/-- The files of the stream that count define the service. -/
def ReflectionStream.Defines (crates : Crates) (serviceName : String) (stream : ReflectionStream) : Prop :=
  ∃ file ∈ (stream.messages.flatMap (ReflectionMessage.files crates)).foldl keepFirst [],
    ∃ service ∈ file.services, service.fullName = serviceName

namespace Proto
variable {crates : Crates} {pool after : DescriptorPool} {serviceName : String}

theorem addFile_files {bytes : Bytes} (added : addFile crates pool bytes = .ok after) :
    ∃ file, crates.decodeFile bytes = .ok file ∧ after.files = keepFirst pool.files file := by
  obtain ⟨file, decoded, added⟩ := bind_eq_ok.mp added
  rw [mapErr_eq_ok] at decoded added
  refine ⟨file, decoded, ?_⟩
  rcases DescriptorPool.addFileDescriptorProto_ok added with ⟨known, rfl⟩ | ⟨new, grown, _⟩
  · exact (if_pos known).symm
  · exact grown.trans (if_neg new).symm

theorem handleMessage_files {message : ReflectionMessage} (handled : handleMessage crates pool message = .ok after) :
    after.files = (message.files crates).foldl keepFirst pool.files := by
  cases message with
  | fileDescriptorResponse files =>
    change files.foldlM (addFile crates) pool = .ok after at handled
    change _ = (files.filterMap _).foldl keepFirst pool.files
    induction files generalizing pool with
    | nil => cases handled; rfl
    | cons bytes rest ih =>
      rw [List.foldlM_cons] at handled
      obtain ⟨next, first, remaining⟩ := bind_eq_ok.mp handled
      obtain ⟨file, decoded, grown⟩ := addFile_files first
      rw [List.filterMap_cons_some (by rw [decoded]; rfl), List.foldl_cons, ← grown]
      exact ih remaining
  | errorResponse => cases handled
  | other => cases handled; rfl

private theorem messages_files {messages : List ReflectionMessage}
    (read : messages.foldlM (handleMessage crates) pool = .ok after) :
    after.files = (messages.flatMap (ReflectionMessage.files crates)).foldl keepFirst pool.files := by
  induction messages generalizing pool with
  | nil => cases read; rfl
  | cons message rest ih =>
    rw [List.foldlM_cons] at read
    obtain ⟨next, first, remaining⟩ := bind_eq_ok.mp read
    rw [ih remaining, handleMessage_files first, List.flatMap_cons, List.foldl_append]

theorem readStream_defines {stream : ReflectionStream} {symbol : String}
    (read : readStream crates symbol stream = .ok pool) :
    (pool.getServiceByName serviceName).isSome ↔ stream.Defines crates serviceName := by
  obtain ⟨whole, handled, checked⟩ := bind_eq_ok.mp read
  have same : whole = pool := by
    split at checked
    next => cases checked
    next =>
      split at checked
      next => cases checked
      next => cases checked; rfl
  subst same
  have files := messages_files handled
  rw [DescriptorPool.getServiceByName_isSome, ReflectionStream.Defines]
  change whole.files = List.foldl keepFirst [] _ at files
  rw [← files]
  constructor
  · intro found
    obtain ⟨⟨file, service⟩, listed, named⟩ := found
    obtain ⟨member, defined⟩ := DescriptorPool.mem_services.mp listed
    exact ⟨file, member, service, defined, named⟩
  · intro found
    obtain ⟨file, member, service, defined, named⟩ := found
    exact ⟨(file, service), DescriptorPool.mem_services.mpr ⟨member, defined⟩, named⟩

theorem backfillWkts_defines (filled : backfillWkts crates pool = .ok after)
    (defined : (pool.getServiceByName serviceName).isSome) : (after.getServiceByName serviceName).isSome := by
  obtain ⟨new, grown, _⟩ := (DescriptorPool.foldlM_extends seedFile_adds filled).added
  rw [DescriptorPool.getServiceByName_isSome] at defined ⊢
  obtain ⟨⟨file, service⟩, listed, named⟩ := defined
  obtain ⟨member, defined⟩ := DescriptorPool.mem_services.mp listed
  refine ⟨(file, service), DescriptorPool.mem_services.mpr ⟨?_, defined⟩, named⟩
  rw [grown]
  exact List.mem_append_left new member

end Proto

namespace Calls
variable {crates : Crates} {surroundings : Surroundings} {tasks : State}

/-- A call resolved to a reflected entry uses a pool that came for its service from
the endpoint of the entry, which some call named: its own endpoint, if the calls for
the service name one host. -/
theorem reflected_from (reached : (machine crates).Reaches surroundings.Kept tasks) {resolution : Resolution}
    (member : resolution ∈ tasks.shared.resolved) {source : String} (reflected : resolution.origin = some (.reflection source)) :
    Fetched crates surroundings resolution.serviceName source resolution.pool ∧
      ((∀ other, surroundings.calls resolution.serviceName other →
        validateEndpoint other = validateEndpoint resolution.endpoint) →
      Fetched crates surroundings resolution.serviceName resolution.endpoint resolution.pool) := by
  obtain ⟨called, fetches⟩ := (reaches_safe reached).valid.resolved resolution member
  have fetched := fetches source reflected
  refine ⟨fetched, fun one => ⟨called, ?_⟩⟩
  obtain ⟨key, channel, valid, rest⟩ := fetched.assembled
  exact ⟨key, channel, (one source fetched.called).symm.trans valid, rest⟩

/-- Servers of one service name with two schemas. -/
private def echoSchema (type : String) : FileProto :=
  { FileProto.sample with messages := [{ fullName := type }], services := [⟨"pkg.Echo", [⟨"Say", type, type⟩]⟩] }

private def echoServers : Crates := .sample [echoSchema "pkg.Alpha", echoSchema "pkg.Beta"]

private def schemaOf (uri _ : String) : ReflectionStream :=
  ⟨[.fileDescriptorResponse [[if uri = "http://alpha:1" then 0 else 1]]], none⟩

private def calling (endpoint : String) (awaits : Nat) : List Event :=
  .spawn (plainCall endpoint "pkg.Echo/Say" true) :: List.replicate awaits (.poll 0 (network schemaOf))

private def shown : GrpcResult Json → Option String
  | .ok (.string text) => some text
  | _ => none

/-- After a call to one server, the call to the other is encoded with its schema,
and returns what it would not return alone. -/
theorem schema_of_other_server : ∃ after alone : State, (machine echoServers).Reachable after ∧
    (machine echoServers).Reachable alone ∧
    ⟨"beta:1", "pkg.Echo", ⟨[echoSchema "pkg.Alpha"]⟩, some (.reflection "alpha:1")⟩ ∈ after.shared.resolved ∧
    after.ended.map (fun call => (call.1.endpoint, shown call.2)) =
      [("alpha:1", some "pkg.Alpha"), ("beta:1", some "pkg.Alpha")] ∧
    alone.ended.map (fun call => (call.1.endpoint, shown call.2)) = [("beta:1", some "pkg.Beta")] := by
  obtain ⟨after, _, reached, checked⟩ := (machine echoServers).exists_of_run ⟨.fresh, rfl, rfl⟩
    (calling "alpha:1" 5 ++ calling "beta:1" 4) (fun tasks => decide (
      ⟨"beta:1", "pkg.Echo", ⟨[echoSchema "pkg.Alpha"]⟩, some (.reflection "alpha:1")⟩ ∈ tasks.shared.resolved ∧
      tasks.ended.map (fun call => (call.1.endpoint, shown call.2)) =
        [("alpha:1", some "pkg.Alpha"), ("beta:1", some "pkg.Alpha")])) (by decide)
  obtain ⟨alone, _, first, shows⟩ := (machine echoServers).exists_of_run ⟨.fresh, rfl, rfl⟩
    (calling "beta:1" 5) (fun tasks => decide (tasks.ended.map (fun call => (call.1.endpoint, shown call.2)) = [("beta:1", some "pkg.Beta")])) (by decide)
  have both := of_decide_eq_true checked
  exact ⟨after, alone, reached, first, both.1, both.2, of_decide_eq_true shows⟩

/-- What the two servers offer, and that calls go to the first only. -/
private def alphaOnly : Surroundings where
  connects uri _ channel := channel.uri = uri
  offers _ _ stream := ∃ index, stream = ⟨[.fileDescriptorResponse [[index]]], none⟩
  calls _ endpoint := endpoint = "alpha:1"

/-- Two calls, of which the second finds the pool of the first. -/
theorem reflected_from_alpha : ∃ tasks : State, tasks.ended.length = 2 ∧ tasks.shared.resolved.length = 2 ∧
    ∀ resolution ∈ tasks.shared.resolved, resolution.origin = some (.reflection "alpha:1") ∧
      Fetched echoServers alphaOnly resolution.serviceName resolution.endpoint resolution.pool := by
  let alpha : Resolution := ⟨"alpha:1", "pkg.Echo", ⟨[echoSchema "pkg.Alpha"]⟩, some (.reflection "alpha:1")⟩
  have executed : ((machine echoServers).run { shared := .fresh } (calling "alpha:1" 5 ++ calling "alpha:1" 3)).map
      (fun tasks => (tasks.ended.length, tasks.shared.resolved)) = some (2, List.replicate 2 alpha) := by decide
  obtain ⟨tasks, ran, same⟩ := Option.map_eq_some_iff.mp executed
  obtain ⟨ended, resolved⟩ := Prod.mk.inj same
  have reached : (machine echoServers).Reaches alphaOnly.Kept tasks := by
    apply network_reaches schemaOf ran
    · simp [calling, Surroundings.permits, alphaOnly, plainCall]
    · exact fun _ _ => rfl
    · exact fun _ _ => ⟨_, rfl⟩
  refine ⟨tasks, ended, by rw [resolved]; rfl, fun resolution member => ?_⟩
  have only := resolved ▸ member
  cases List.eq_of_mem_replicate only
  exact ⟨rfl, (reflected_from reached member rfl).2 fun other same => by rw [same]⟩

/-- Every key of the registry names a service of its pool. -/
def WellFormed (process : Process) : Prop :=
  ∀ serviceName entry, process.registry serviceName = some entry → (entry.pool.getServiceByName serviceName).isSome

/-- Every call to the service fails for want of it, and none asks reflection again. -/
def Stuck (serviceName : String) (process : Process) : Prop :=
  ∃ entry, process.registry serviceName = some entry ∧ ∀ methodName,
    resolveMethod entry.pool serviceName methodName = .error (.proto ("service not found: " ++ serviceName))

theorem WellFormed.not_stuck {process : Process} (wellFormed : WellFormed process) (serviceName : String) :
    ¬ Stuck serviceName process := by
  rintro ⟨entry, here, stuck⟩
  obtain ⟨service, found⟩ := Option.isSome_iff_exists.mp (wellFormed serviceName entry here)
  have failed := stuck ""
  simp only [resolveMethod, found] at failed
  split at failed
  next => simp [← String.toList_inj] at failed
  next => cases failed

/-- What is answered for a symbol, and accepted, defines a service of that name. -/
def Surroundings.defining (crates : Crates) : Surroundings where
  connects _ _ _ := True
  offers _ symbol stream := (Proto.readStream crates symbol stream).isOk → stream.Defines crates symbol
  calls _ _ := True

theorem Assembled.defines {channel : Channel} {serviceName : String} {pool : DescriptorPool}
    (assembled : Assembled crates (.defining crates) channel serviceName pool) :
    (pool.getServiceByName serviceName).isSome := by
  obtain ⟨stream, fetched, defines, read, filled⟩ := assembled
  apply Proto.backfillWkts_defines filled
  exact (Proto.readStream_defines read).mpr (defines (by rw [read]; rfl))

private theorem pinned_defined (reached : (machine crates).Reaches surroundings.Kept tasks) :
    ∀ serviceName entry, tasks.shared.registry serviceName = some entry → entry.pinned = true →
      (entry.pool.getServiceByName serviceName).isSome := by
  apply reached.invariant fun tasks => ∀ serviceName entry, tasks.shared.registry serviceName = some entry →
    entry.pinned = true → (entry.pool.getServiceByName serviceName).isSome
  · rintro _ ⟨_, rfl, rfl⟩ serviceName entry here
    cases here
  · intro before turn after reached kept taken defined serviceName entry here pinned
    rcases step_cases reached kept taken with ⟨operation, _, ran⟩ | ⟨_, keeps⟩
    · have frame : Operated before.shared after.shared := ran ▸ operation.run_operated
      rcases frame.registry serviceName entry here with old | made
      · exact defined serviceName entry old pinned
      · exact made.2
    · exact defined serviceName entry (keeps.unpinned serviceName entry here pinned) pinned

theorem registry_well_formed (reached : (machine crates).Reaches (Surroundings.defining crates).Kept tasks) :
    WellFormed tasks.shared ∧ ∀ serviceName, ¬ Stuck serviceName tasks.shared := by
  suffices wellFormed : WellFormed tasks.shared from ⟨wellFormed, wellFormed.not_stuck⟩
  intro serviceName entry here
  obtain ⟨pool, origin⟩ := entry
  cases origin with
  | userStaged filename source => exact pinned_defined reached serviceName _ here rfl
  | reflection endpoint =>
    obtain ⟨key, channel, _, _, assembled⟩ := ((reaches_safe reached).valid.registry serviceName pool endpoint here).assembled
    exact assembled.defines

private def echoReply (_ symbol : String) : ReflectionStream :=
  if symbol = "pkg.Echo" then ⟨[.fileDescriptorResponse [[0]]], none⟩ else ⟨[.errorResponse 5 "not found"], none⟩

private def echoEvents : List Event := .spawn (plainCall "localhost:50051" "pkg.Echo/Say" true) ::
  List.replicate 5 (.poll 0 (network echoReply))

theorem registry_well_formed_echo : ∃ tasks : State, (tasks.shared.registry "pkg.Echo").isSome ∧
    WellFormed tasks.shared ∧ ∀ serviceName, ¬ Stuck serviceName tasks.shared := by
  have offers (channel : Channel) (symbol : String) :
      (Surroundings.defining echoServers).offers channel symbol (echoReply channel.uri symbol) := by
    intro accepted
    by_cases same : symbol = "pkg.Echo"
    · subst same
      exact ⟨echoSchema "pkg.Alpha", List.mem_singleton_self _, _, List.mem_singleton_self _, rfl⟩
    · simp only [echoReply, if_neg same] at accepted
      cases accepted
  have executed : ((machine echoServers).run { shared := .fresh } echoEvents).map
      (fun tasks => (tasks.shared.registry "pkg.Echo").isSome) = some true := by decide
  obtain ⟨tasks, ran, registered⟩ := Option.map_eq_some_iff.mp executed
  have reached : (machine echoServers).Reaches (Surroundings.defining echoServers).Kept tasks := by
    apply network_reaches echoReply ran
    · simp [echoEvents, Surroundings.permits, Surroundings.defining]
    · exact fun _ _ => trivial
    · exact offers
  exact ⟨tasks, registered, registry_well_formed reached⟩

/-- A file with the message that is asked for and a service of another name. -/
private def textFile : FileProto := { FileProto.sample with services := [⟨"pkg.Echo", []⟩] }

private def textEvents : List Event :=
  .spawn (plainCall "localhost:50051" "pkg.Text/Say" true) ::
    List.replicate 3 (.poll 0 (network fun _ _ => ⟨[.fileDescriptorResponse [[0]]], none⟩))

/-- The name of a message as that of a service: the call fails, and its entry stays. -/
theorem not_well_formed : "pkg.Text" ∈ textFile.symbols ∧ ∃ tasks : State,
    (machine (.sample [textFile])).Reachable tasks ∧ tasks.running = [] ∧ ¬ WellFormed tasks.shared ∧
      Stuck "pkg.Text" tasks.shared := by
  refine ⟨by decide, ?_⟩
  obtain ⟨tasks, _, reached, checked⟩ := (machine (.sample [textFile])).exists_of_run ⟨.fresh, rfl, rfl⟩ textEvents
    (fun tasks => tasks.running.isEmpty &&
      decide (tasks.shared.registry "pkg.Text" = some ⟨⟨[textFile]⟩, .reflection "localhost:50051"⟩)) (by decide)
  rw [Bool.and_eq_true, List.isEmpty_iff, decide_eq_true_eq] at checked
  have stuck : Stuck "pkg.Text" tasks.shared := ⟨_, checked.2, fun _ => rfl⟩
  exact ⟨tasks, reached, checked.1, fun wellFormed => wellFormed.not_stuck _ stuck, stuck⟩

end Calls
end PgGrpc
