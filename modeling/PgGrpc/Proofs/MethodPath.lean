import PgGrpc.Library.Waits
import PgGrpc.Proofs.CallRuns
import PgGrpc.Proofs.Metadata
import PgGrpc.Proofs.Text

/-! A method text and the path of its request. The text names a service and a method,
the pool of the call has both, and the path says these two names and no others, unless
one of them has a `#`: the parser of the path takes that for the start of a fragment. -/

namespace PgGrpc
open Library

/-- One slash, and something to read on both sides of it. -/
structure Halves (m before after : String) : Prop where
  split : m = before ++ "/" ++ after
  serviceFree : '/' ∉ before.toList
  methodFree : '/' ∉ after.toList
  serviceNamed : ¬ Text.Blank before
  methodNamed : ¬ Text.Blank after

section Parsing
variable {m before after serviceName methodName : String}

private theorem slash_visible : Text.isWhitespace '/' = false := by decide

private theorem toList_split : (before ++ "/" ++ after).toList = before.toList ++ '/' :: after.toList := by
  simp

private theorem split_eq : m = before ++ "/" ++ after ↔ m.toList = before.toList ++ '/' :: after.toList := by
  rw [← String.toList_inj, toList_split]

private theorem slash_free {s : String} : Text.hasChar s '/' = false ↔ '/' ∉ s.toList := by
  simp [Text.hasChar]

theorem parseMethod_halves (halves : Halves m before after) :
    parseMethod m = .ok (Text.trim before, Text.trim after) := by
  have cut : Text.rsplitOnce m '/' = some (before, after) :=
    Text.rsplitOnce_some.mpr ⟨split_eq.mp halves.split, halves.methodFree⟩
  have service : (Text.trim before).isEmpty = false := by
    rw [← Bool.not_eq_true, Text.trim_isEmpty]
    exact halves.serviceNamed
  have method : (Text.trim after).isEmpty = false := by
    rw [← Bool.not_eq_true, Text.trim_isEmpty]
    exact halves.methodNamed
  have free : Text.hasChar (Text.trim before) '/' = false := by
    rw [slash_free, Text.mem_trim slash_visible]
    exact halves.serviceFree
  simp [parseMethod, cut, service, method, free]

theorem halves_of_parseMethod (parsed : parseMethod m = .ok (serviceName, methodName)) :
    ∃ before after, Halves m before after ∧ serviceName = Text.trim before ∧ methodName = Text.trim after := by
  unfold parseMethod at parsed
  cases cut : Text.rsplitOnce m '/' with
  | none => simp [cut] at parsed
  | some parts =>
    obtain ⟨before, after⟩ := parts
    simp only [cut] at parsed
    split at parsed
    next => cases parsed
    next kept =>
      cases parsed
      obtain ⟨split, free⟩ := Text.rsplitOnce_some.mp cut
      simp only [Bool.or_eq_true, not_or, Text.trim_isEmpty, Bool.not_eq_true, slash_free,
        Text.mem_trim slash_visible] at kept
      exact ⟨before, after, ⟨split_eq.mpr split, kept.2, free, kept.1.1, kept.1.2⟩, rfl, rfl⟩

theorem halves_trim (halves : Halves m before after) :
    Halves (Text.trim before ++ "/" ++ Text.trim after) (Text.trim before) (Text.trim after) where
  split := rfl
  serviceFree := by rw [Text.mem_trim slash_visible]; exact halves.serviceFree
  methodFree := by rw [Text.mem_trim slash_visible]; exact halves.methodFree
  serviceNamed := by rw [Text.blank_trim]; exact halves.serviceNamed
  methodNamed := by rw [Text.blank_trim]; exact halves.methodNamed

theorem parseMethod_ok : parseMethod m = .ok (serviceName, methodName) ↔
    ∃ before after, Halves m before after ∧ serviceName = Text.trim before ∧ methodName = Text.trim after := by
  constructor
  · exact halves_of_parseMethod
  · rintro ⟨before, after, halves, rfl, rfl⟩
    exact parseMethod_halves halves

theorem parseMethod_again (parsed : parseMethod m = .ok (serviceName, methodName)) :
    '/' ∉ serviceName.toList ∧ '/' ∉ methodName.toList ∧
      parseMethod (serviceName ++ "/" ++ methodName) = .ok (serviceName, methodName) := by
  obtain ⟨before, after, halves, rfl, rfl⟩ := parseMethod_ok.mp parsed
  have trimmed := halves_trim halves
  refine ⟨trimmed.serviceFree, trimmed.methodFree, ?_⟩
  rw [parseMethod_halves trimmed, Text.trim_trim, Text.trim_trim]

/-- A path of two names without a slash splits in no other way. -/
theorem path_unique {service method : String} (serviceFree : '/' ∉ serviceName.toList) (methodFree : '/' ∉ methodName.toList)
    (same : "/" ++ serviceName ++ "/" ++ methodName = "/" ++ service ++ "/" ++ method) :
    service = serviceName ∧ method = methodName := by
  rw [String.append_assoc, String.append_assoc, String.append_assoc, String.append_assoc, String.append_right_inj,
    ← String.append_assoc, ← String.append_assoc, split_eq, toList_split] at same
  obtain ⟨services, _, methods⟩ := (List.append_cons_inj_of_notMem serviceFree methodFree).mp same
  exact ⟨(String.toList_inj.mp services).symm, (String.toList_inj.mp methods).symm⟩

theorem hash_free (parsed : parseMethod m = .ok (serviceName, methodName)) :
    '#' ∉ ("/" ++ serviceName ++ "/" ++ methodName).toList ↔ '#' ∉ m.toList := by
  obtain ⟨before, after, halves, rfl, rfl⟩ := parseMethod_ok.mp parsed
  have visible : Text.isWhitespace '#' = false := by decide
  rw [halves.split]
  simp [mem_strip visible]

end Parsing

/-- The path is that of the two names, and of no others. -/
structure Names (path serviceName methodName : String) : Prop where
  spells : path = "/" ++ serviceName ++ "/" ++ methodName
  unique : ∀ s n, path = "/" ++ s ++ "/" ++ n → s = serviceName ∧ n = methodName

/-- A parsed path is the text up to a fragment. -/
def Crates.DropsFragments (crates : Crates) : Prop :=
  ∀ text path, crates.pathAndQuery text = .ok path → path = Text.before text '#'

theorem resolveMethod_ok {pool : DescriptorPool} {serviceName methodName : String} {desc : MethodDescriptor}
    (resolved : resolveMethod pool serviceName methodName = .ok desc) :
    ∃ service method, desc = ⟨pool, method⟩ ∧ (service ∈ pool.services.map Prod.snd ∧ service.fullName = serviceName) ∧
      method ∈ service.methods ∧ method.name = methodName := by
  unfold resolveMethod at resolved
  split at resolved
  next => cases resolved
  next service found =>
    split at resolved
    next => cases resolved
    next method named =>
      cases resolved
      have serviceNamed := List.find?_some found
      have methodNamed := List.find?_some named
      exact ⟨service, method, rfl, ⟨List.mem_of_find?_eq_some found, by simpa using serviceNamed⟩,
        List.mem_of_find?_eq_some named, by simpa using methodNamed⟩

def Recorded (before after : Process) : Prop := before.resolved <+: after.resolved

instance : Std.Refl Recorded := ⟨fun _ => List.prefix_rfl⟩

instance : IsTrans Process Recorded := ⟨fun _ _ _ => List.IsPrefix.trans⟩

abbrev Call.Waits (described : Fiber.Await Process Request Reply (GrpcResult α)) (call : Call α) (process : Process) : Prop :=
  call.run.Waits Recorded described process

namespace Call.Waits
variable {described : Fiber.Await Process Request Reply (GrpcResult β)} {process : Process}

theorem bind {asked : Request → Prop} {call : Call α} {next : α → Call β} (first : call.run.Within asked Recorded)
    (apart : ∀ state request rest, asked request → described state request rest)
    (rest : ∀ value later, Recorded process later → (next value).Waits described later) :
    (call >>= next).Waits described process := by
  rw [Call.Waits, run_bind]
  apply Fiber.Waits.bind first apart
  intro result later drifted
  cases result with
  | ok value => exact rest value later drifted
  | error e => exact .done

theorem ofResult_bind {result : GrpcResult α} {next : α → Call β}
    (rest : ∀ value, result = .ok value → (next value).Waits described process) :
    (Call.ofResult result >>= next).Waits described process := by
  cases result with
  | ok value => exact rest value rfl
  | error e => exact .done

theorem modify_bind {change : Process → Process} {next : Unit → Call β} (records : Recorded process (change process))
    (rest : (next ()).Waits described (change process)) : (Call.modify change >>= next).Waits described process :=
  .write records rest

end Call.Waits

namespace Calls

/-- What is settled once a call goes on to `unary_call`: the pool it has resolved
defines the service, the service offers the method, and the body is the method's input. -/
structure Prepared (crates : Crates) (args : CallArgs) (process : Process) (serviceName methodName : String)
    (pool : DescriptorPool) (service : ServiceProto) (method : MethodProto) (body : Bytes) : Prop where
  parsed : parseMethod args.method = .ok (serviceName, methodName)
  used : ∃ resolution ∈ process.resolved,
    resolution.endpoint = args.endpoint ∧ resolution.serviceName = serviceName ∧ resolution.pool = pool
  defined : service ∈ pool.services.map Prod.snd ∧ service.fullName = serviceName
  offered : method ∈ service.methods ∧ method.name = methodName
  encodes : encodeRequest crates (MethodDescriptor.mk pool method).input args.request = .ok body

/-- The path is what the parser makes of the two names, and the reply is read as the method's output. -/
structure Sent (crates : Crates) (args : CallArgs) (process : Process) (serviceName methodName : String)
    (pool : DescriptorPool) (service : ServiceProto) (method : MethodProto) (path : String) (body : Bytes)
    (next : Except Status Bytes → Async (GrpcResult Json)) : Prop extends
    Prepared crates args process serviceName methodName pool service method body where
  decodes : ∀ bytes, next (.ok bytes) = .done (decodeResponse crates (MethodDescriptor.mk pool method).output bytes)
  sends : crates.pathAndQuery ("/" ++ serviceName ++ "/" ++ methodName) = .ok path

theorem Sent.names_iff {crates : Crates} {args : CallArgs} {process : Process} {serviceName methodName path : String}
    {pool : DescriptorPool} {service : ServiceProto} {method : MethodProto} {body : Bytes}
    {next : Except Status Bytes → Async (GrpcResult Json)} (drops : crates.DropsFragments)
    (sent : Sent crates args process serviceName methodName pool service method path body next) :
    Names path serviceName methodName ↔ '#' ∉ args.method.toList := by
  obtain ⟨serviceFree, methodFree, _⟩ := parseMethod_again sent.parsed
  have cut := drops _ _ sent.sends
  rw [← hash_free sent.parsed, ← Text.before_eq_self, ← cut]
  constructor
  · exact Names.spells
  · exact fun spells => ⟨spells, fun _ _ same => path_unique serviceFree methodFree (spells.symm.trans same)⟩

def Described (crates : Crates) (args : CallArgs) : Fiber.Await Process Request Reply (GrpcResult Json) :=
  fun process request =>
    match request with
    | .ready _ => fun _ => ∃ serviceName methodName pool service method body,
        Prepared crates args process serviceName methodName pool service method body
    | .unary _ path _ body _ _ => fun next => ∃ serviceName methodName pool service method,
        Sent crates args process serviceName methodName pool service method path body next
    | .connect .. | .serverReflectionInfo .. => fun _ => True

section Path
variable {crates : Crates} {args : CallArgs}

private def Connects (request : Request) : Prop := ∃ uri tls, request = .connect uri tls

private theorem connect_within {uri : String} {tls : Option ClientTlsConfig} {next : Except String Channel → Call Channel}
    (failed : ∀ e, (next (.error e)).run.Within Connects Recorded)
    (opened : ∀ channel, (next (.ok channel)).run.Within Connects Recorded) :
    (Call.connect uri tls >>= next).run.Within Connects Recorded := by
  refine Call.within_bind ⟨⟨uri, tls, rfl⟩, fun _ => trivial⟩ fun reply => ?_
  cases reply with
  | error e => exact failed e
  | ok channel => exact opened channel

private theorem getOrConnect_within (endpoint : String) (tls : Option TlsConfig) :
    (getOrConnect crates endpoint tls).run.Within Connects Recorded := by
  have stored (channel : Channel) (key : Key) :
      (do Call.modify fun process => process.orInsertChannel key channel
          return ((← Call.process).channels key).getD channel : Call Channel).run.Within Connects Recorded :=
    ⟨fun _ => List.prefix_rfl, fun _ => trivial⟩
  unfold getOrConnect
  refine Call.within_bind ?_ fun host => Call.within_bind ?_ fun process => ?_
  · trivial
  · exact fun _ => trivial
  · dsimp only
    split
    next => trivial
    next =>
      refine Call.within_bind ?_ fun _ => ?_
      · trivial
      · cases tls with
        | none => exact connect_within (fun _ => trivial) fun channel => stored channel _
        | some config =>
          refine Call.within_bind ?_ fun _ => connect_within (fun _ => trivial) fun channel => stored channel _
          trivial

private theorem Prepared.later {process after : Process} {serviceName methodName : String} {pool : DescriptorPool}
    {service : ServiceProto} {method : MethodProto} {body : Bytes}
    (prepared : Prepared crates args process serviceName methodName pool service method body)
    (drifted : Recorded process after) : Prepared crates args after serviceName methodName pool service method body := by
  obtain ⟨resolution, recorded, same⟩ := prepared.used
  exact { prepared with used := ⟨resolution, drifted.subset recorded, same⟩ }

private theorem unaryCall_waits {channel : Channel} {serviceName methodName : String} {pool : DescriptorPool}
    {service : ServiceProto} {method : MethodProto} {body : Bytes} {process : Process}
    (prepared : Prepared crates args process serviceName methodName pool service method body) :
    (unaryCall crates channel serviceName methodName body args.metadata args.maxDecode args.maxEncode >>= fun bytes =>
      Call.ofResult (decodeResponse crates (MethodDescriptor.mk pool method).output bytes)).Waits
        (Described crates args) process := by
  rw [Call.Waits, Call.run_bind, Metadata.unaryCall_run]
  split
  next => exact .done
  next path parsed =>
    refine .await (fun ready drifted => ⟨_, _, _, _, _, _, prepared.later drifted⟩) fun ready reply readied => ?_
    cases reply with
    | error e => exact .done
    | ok =>
      dsimp only
      split
      next => exact .done
      next headers applied =>
        refine .await (fun sent drifted => ⟨serviceName, methodName, pool, service, method, ?_⟩) fun later answer _ => ?_
        · exact {
            toPrepared := (prepared.later readied).later drifted
            decodes := fun _ => rfl
            sends := parsed }
        · cases answer <;> exact .done

private theorem callOn_waits {serviceName methodName : String} {channel : Channel} {process : Process}
    (parsed : parseMethod args.method = .ok (serviceName, methodName)) :
    (callOn crates args serviceName methodName channel).Waits (Described crates args) process := by
  have reflects : (resolvePool crates args channel serviceName).run.Within (Reflects channel) Recorded :=
    (resolvePool_reflects crates args serviceName).weaken (fun _ asked => asked) fun before after changes => by
      rw [Recorded, changes.2]
  refine Call.Waits.bind reflects ?_ fun pool resolved _ => ?_
  · intro state request rest asked
    cases request with
    | serverReflectionInfo => trivial
    | connect | ready | unary => exact asked.elim
  · have records : Recorded resolved (resolved.recordResolution args.endpoint serviceName pool) := List.prefix_append _ _
    refine Call.Waits.modify_bind records ?_
    refine Call.Waits.ofResult_bind fun desc found => Call.Waits.ofResult_bind fun body encodes => ?_
    obtain ⟨service, method, rfl, defined, offered⟩ := resolveMethod_ok found
    have used := List.mem_append_right resolved.resolved (List.mem_singleton_self
      (Resolution.mk args.endpoint serviceName pool ((resolved.registry serviceName).map RegisteredService.origin)))
    exact unaryCall_waits ⟨parsed, ⟨_, used, rfl, rfl, rfl⟩, defined, offered, encodes⟩

theorem callAsync_waits (process : Process) : (callAsync crates args).Waits (Described crates args) process := by
  unfold callAsync
  apply Call.Waits.ofResult_bind
  intro names parsed
  obtain ⟨serviceName, methodName⟩ := names
  dsimp only
  refine Call.Waits.bind (@getOrConnect_within crates args.endpoint args.tls) ?_ fun channel later _ => callOn_waits parsed
  intro state request rest connects
  obtain ⟨uri, tls, rfl⟩ := connects
  trivial

/-- A method text is split as it should be, and what is sent names the method it was
split into exactly where the text has no `#`. -/
theorem method_path_iff (crates : Crates) (drops : crates.DropsFragments) :
    (∀ m serviceName methodName, parseMethod m = .ok (serviceName, methodName) ↔
      ∃ before after, Halves m before after ∧ serviceName = Text.trim before ∧ methodName = Text.trim after) ∧
    (∀ m serviceName methodName, parseMethod m = .ok (serviceName, methodName) →
      '/' ∉ serviceName.toList ∧ '/' ∉ methodName.toList ∧
        parseMethod (serviceName ++ "/" ++ methodName) = .ok (serviceName, methodName)) ∧
    ∀ state, (machine crates).Reachable state →
      (∀ args channel next, (args, .await (.ready channel) next) ∈ state.running →
        ∃ serviceName methodName pool service method body,
          Prepared crates args state.shared serviceName methodName pool service method body) ∧
      ∀ args channel path headers body maxDecode maxEncode next,
        (args, .await (.unary channel path headers body maxDecode maxEncode) next) ∈ state.running →
        ∃ serviceName methodName pool service method,
          Sent crates args state.shared serviceName methodName pool service method path body next ∧
            (Names path serviceName methodName ↔ '#' ∉ args.method.toList) := by
  refine ⟨fun m serviceName methodName => parseMethod_ok, fun m serviceName methodName => parseMethod_again, ?_⟩
  intro state reached
  have waits {args : CallArgs} {request : Request} {next : Reply request → Async (GrpcResult Json)}
      (waiting : (args, .await request next) ∈ state.running) : Described crates args state.shared request next :=
    Tasks.reachable_waits reached (fun args process => callAsync_waits process) waiting
  constructor
  · exact fun args channel next waiting => waits waiting
  · intro args channel path headers body maxDecode maxEncode next waiting
    obtain ⟨serviceName, methodName, pool, service, method, sent⟩ := waits waiting
    exact ⟨_, _, _, _, _, sent, sent.names_iff drops⟩

end Path

theorem sample_drops (files : List FileProto) : (Crates.sample files).DropsFragments := by
  intro text path parsed
  cases parsed
  rfl

/-- The paths that calls wait for an answer from, each with the method text of its call. -/
private def sentPaths (state : State) : List (String × String) :=
  state.running.filterMap fun task =>
    match task.2 with
    | .await (.unary _ path _ _ _ _) _ => some (task.1.method, path)
    | _ => none

private theorem mem_sentPaths {state : State} {text path : String} (sent : (text, path) ∈ sentPaths state) :
    ∃ args channel headers body maxDecode maxEncode next, args.method = text ∧
      (args, .await (.unary channel path headers body maxDecode maxEncode) next) ∈ state.running := by
  obtain ⟨⟨args, fiber⟩, running, waits⟩ := List.mem_filterMap.mp sent
  rcases fiber with _ | _ | _ | ⟨_ | _ | _ | ⟨channel, other, headers, body, maxDecode, maxEncode⟩, next⟩
  case await.unary =>
    cases waits
    exact ⟨args, channel, headers, body, maxDecode, maxEncode, next, rfl, running⟩
  all_goals cases waits

/-- A call up to the await of its RPC, with the schema of one file from reflection. -/
private def sending (method : String) : List Event :=
  .spawn (plainCall "localhost:50051" method true) ::
    List.replicate 4 (.poll 0 (network fun _ _ => ⟨[.fileDescriptorResponse [[0]]], none⟩))

theorem method_path_iff_echo : ∃ state args channel path headers body maxDecode maxEncode next,
    (machine .echo).Reachable state ∧ args.method = " pkg.Echo / Say " ∧
      (args, .await (.unary channel path headers body maxDecode maxEncode) next) ∈ state.running ∧
        ∃ serviceName methodName pool service method,
          Sent .echo args state.shared serviceName methodName pool service method path body next ∧
            (Names path serviceName methodName ↔ '#' ∉ args.method.toList) := by
  obtain ⟨state, _, reached, waits⟩ := (machine .echo).exists_of_run ⟨.fresh, rfl, rfl⟩ (sending " pkg.Echo / Say ")
    (fun state => (sentPaths state).contains (" pkg.Echo / Say ", "/pkg.Echo/Say")) (by decide)
  obtain ⟨args, channel, headers, body, maxDecode, maxEncode, next, text, running⟩ :=
    mem_sentPaths (List.contains_iff_mem.mp waits)
  refine ⟨state, args, channel, _, headers, body, maxDecode, maxEncode, next, reached, text, running, ?_⟩
  exact ((method_path_iff .echo (sample_drops _)).2.2 state reached).2 _ _ _ _ _ _ _ _ running

private def hashFile : FileProto :=
  { FileProto.sample with services := [⟨"pkg.Echo", [⟨"Say#x", "pkg.Text", "pkg.Text"⟩]⟩] }

/-- The RPC of one method goes out under the path of another. -/
theorem fragment_dropped : ∃ state args channel path headers body maxDecode maxEncode next,
    (machine (.sample [hashFile])).Reachable state ∧
      (args, .await (.unary channel path headers body maxDecode maxEncode) next) ∈ state.running ∧
        parseMethod args.method = .ok ("pkg.Echo", "Say#x") ∧ path = "/pkg.Echo/Say" ∧ ¬ Names path "pkg.Echo" "Say#x" := by
  obtain ⟨state, _, reached, waits⟩ := (machine (.sample [hashFile])).exists_of_run ⟨.fresh, rfl, rfl⟩
    (sending "pkg.Echo/Say#x") (fun state => (sentPaths state).contains ("pkg.Echo/Say#x", "/pkg.Echo/Say")) (by decide)
  obtain ⟨args, channel, headers, body, maxDecode, maxEncode, next, text, running⟩ :=
    mem_sentPaths (List.contains_iff_mem.mp waits)
  refine ⟨state, args, channel, _, headers, body, maxDecode, maxEncode, next, reached, running, ?_, rfl, ?_⟩
  · rw [text]
    decide
  · exact fun names => absurd names.spells (by decide)

end Calls
end PgGrpc
