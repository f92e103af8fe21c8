import PgGrpc.Proofs.PinnedSchemas

/-! What the two listings of a process say of its past. The staged files are what its
users have left there; a row of the registered services says where their schema is from. -/

namespace PgGrpc
open Library

/-- The entry holds the staged file that defines its service. -/
structure Declares (staged : String → String → Prop) (serviceName : String) (entry : RegisteredService) (file : FileProto)
    (source : String) : Prop where
  member : file ∈ entry.pool.files
  defines : ∃ service ∈ file.services, service.fullName = serviceName
  origin : entry.origin = .userStaged file.name source
  staged : staged file.name source

namespace PendingFiles
variable {files : PendingFiles} {filename source : String}

theorem mem_list : (filename, source) ∈ files.list ↔ files.get filename = some source :=
  (Keyed.lookup_eq_some files.distinct).symm

theorem get_stageFile (name : String) :
    (files.stageFile filename source).get name = if name = filename then some source else files.get name := by
  apply Option.ext
  intro text
  rw [← mem_list]
  split
  next same => simp [list, stageFile, remove, same, eq_comm]
  next other =>
    rw [← mem_list]
    simp [list, stageFile, remove, other]

theorem get_remove (name : String) : (files.remove filename).get name = if name = filename then none else files.get name := by
  apply Option.ext
  intro text
  rw [← mem_list]
  split
  next same => simp [list, remove, same]
  next other =>
    rw [← mem_list]
    simp [list, remove, other]

end PendingFiles

namespace Calls

/-- What an operation does to the staged files. -/
inductive Staging where
  | staged (filename source : String)
  | unstaged (filename : String)
  | emptied

def staging (crates : Crates) (tasks : State) : Event → Option Staging
  | .operate (.stage filename source) =>
    if (validateStageInput filename source).isOk then some (.staged filename source) else none
  | .operate (.unstage filename) => some (.unstaged filename)
  | .operate .unstageAll => some .emptied
  | .operate (.compile snapshot) =>
    if snapshot.Same tasks.shared.staged ∧ (Proto.compileProtoFiles crates snapshot).isOk then some .emptied else none
  | _ => none

/-- The source it leaves under a name. -/
def Staging.leaves (filename : String) (source : Option String) : Staging → Option String
  | .staged name text => if filename = name then some text else source
  | .unstaged name => if filename = name then none else source
  | .emptied => none

def stagings (crates : Crates) (tasks : State) (events : List Event) : List Staging :=
  (machine crates).observed (staging crates) tasks events

def Staged (events : List Event) (filename source : String) : Prop :=
  .operate (.stage filename source) ∈ events ∧ validateStageInput filename source = .ok ()

def Called (events : List Event) (serviceName endpoint : String) : Prop :=
  ∃ args, .spawn args ∈ events ∧ args.endpoint = endpoint ∧
    ∃ methodName, parseMethod args.method = .ok (serviceName, methodName)

/-- The row of a registered service, as the events before it account for it. -/
inductive Accounted (events : List Event) (process : Process) : RegisteredRow → Prop where
  | user {serviceName entry file source} (registered : process.registry serviceName = some entry)
      (declares : Declares (Staged events) serviceName entry file source) :
      Accounted events process ⟨serviceName, "user", some file.name, some source, none⟩
  | reflection {serviceName entry endpoint} (registered : process.registry serviceName = some entry)
      (called : Called events serviceName endpoint) (valid : (validateEndpoint endpoint).isOk) :
      Accounted events process ⟨serviceName, "reflection", none, none, some endpoint⟩

section Runs
variable {crates : Crates} {bundled : List FileProto} {tasks after : State} {events : List Event} {turn : Event}

/-- A compilation registers what the staged files declare, and keeps the rest. -/
theorem compile_declares (plain : Plain crates bundled) {process : Process} {snapshot : PendingFiles}
    (same : snapshot.Same process.staged) {serviceName : String} {entry : RegisteredService}
    (here : (grpcProtoCompile crates snapshot process).2.registry serviceName = some entry) :
    process.registry serviceName = some entry ∨
      ∃ file source, Declares (fun name text => process.staged.get name = some text) serviceName entry file source := by
  cases ran : Proto.compileProtoFiles crates snapshot with
  | error e =>
    simp only [grpcProtoCompile, ran] at here
    exact .inl here
  | ok pool =>
    simp only [grpcProtoCompile, ran] at here
    by_cases defined : ∃ entry ∈ pool.services, entry.2.fullName = serviceName
    · obtain ⟨⟨file, service⟩, listed, named, found⟩ :
        ∃ last ∈ pool.services, last.2.fullName = serviceName ∧
          (pool.services.foldl (registerService snapshot pool) process).registry serviceName =
            some ⟨pool, .userStaged last.1.name ((snapshot.get last.1.name).getD "")⟩ := register_some defined
      obtain ⟨member, owns⟩ := DescriptorPool.mem_services.mp listed
      obtain ⟨source, staged⟩ := plain.staged ran listed
      rw [staged, Option.getD_some] at found
      cases found.symm.trans here
      exact .inr ⟨file, source, member, ⟨service, owns, named⟩, rfl, (same.get file.name).symm.trans staged⟩
    · left
      rw [← here]
      exact (register_other fun entry listed same => defined ⟨entry, listed, same⟩).symm

/-- What the staged files and the compiled schemas of a process owe to the events before it. -/
structure Told (events : List Event) (process : Process) : Prop where
  staged : ∀ filename source, process.staged.get filename = some source → Staged events filename source
  registry : ∀ serviceName entry, process.registry serviceName = some entry → entry.pinned = true →
    ∃ file source, Declares (Staged events) serviceName entry file source
  few : ∃ names : List String, ∀ serviceName entry, process.registry serviceName = some entry → entry.pinned = true →
    serviceName ∈ names

theorem Told.fresh (events : List Event) : Told events .fresh where
  staged _ _ here := by cases here
  registry _ _ here := by cases here
  few := ⟨[], fun _ _ here => by cases here⟩

private theorem compile_told (plain : Plain crates bundled) {process : Process} {snapshot : PendingFiles}
    (same : snapshot.Same process.staged) (told : Told events process) :
    Told events (grpcProtoCompile crates snapshot process).2 where
  staged filename source here := by
    apply told.staged
    cases ran : Proto.compileProtoFiles crates snapshot with
    | error e => simpa only [grpcProtoCompile, ran] using here
    | ok pool =>
      simp only [grpcProtoCompile, ran] at here
      cases here
  registry serviceName entry here pinned := by
    rcases compile_declares plain same here with old | ⟨file, source, declares⟩
    · exact told.registry serviceName entry old pinned
    · exact ⟨file, source, { declares with staged := told.staged _ _ declares.staged }⟩
  few := by
    obtain ⟨names, few⟩ := told.few
    cases ran : Proto.compileProtoFiles crates snapshot with
    | error e =>
      simp only [grpcProtoCompile, ran]
      exact ⟨names, few⟩
    | ok pool =>
      refine ⟨names ++ pool.services.map fun defined => defined.2.fullName, fun serviceName entry here pinned => ?_⟩
      rw [List.mem_append, List.mem_map]
      by_cases defined : ∃ service ∈ pool.services, service.2.fullName = serviceName
      · exact .inr defined
      · refine .inl (few serviceName entry ?_ pinned)
        rw [← here]
        simp only [grpcProtoCompile, ran]
        exact (register_other fun service member same => defined ⟨service, member, same⟩).symm

private theorem operation_told (plain : Plain crates bundled) {operation : Operation}
    (listed : .operate operation ∈ events) {process : Process} (told : Told events process) :
    Told events (operation.run crates process) := by
  have fewer {registry : String → Option RegisteredService} {staged : PendingFiles}
      (files : ∀ filename source, staged.get filename = some source → Staged events filename source)
      (old : ∀ serviceName entry, registry serviceName = some entry → process.registry serviceName = some entry) :
      Told events { process with registry, staged } := by
    obtain ⟨names, few⟩ := told.few
    exact ⟨files, fun serviceName entry here => told.registry serviceName entry (old serviceName entry here),
      names, fun serviceName entry here => few serviceName entry (old serviceName entry here)⟩
  cases operation with
  | stage filename source =>
    simp only [Operation.run, grpcProtoStage]
    split
    next accepted =>
      refine fewer (fun name text here => ?_) fun _ _ => id
      rw [PendingFiles.get_stageFile] at here
      split at here
      next same =>
        cases here
        exact same ▸ ⟨listed, accepted⟩
      next => exact told.staged name text here
    next => exact told
  | unstage filename =>
    refine fewer (fun name text here => ?_) fun _ _ => id
    rw [PendingFiles.get_remove] at here
    split at here
    next => cases here
    next => exact told.staged name text here
  | unstageAll => exact fewer (fun _ _ here => by cases here) fun _ _ => id
  | compile snapshot =>
    simp only [Operation.run]
    split
    next same => exact compile_told plain same told
    next => exact told
  | unregister other =>
    refine fewer told.staged fun serviceName entry here => ?_
    split at here
    next => cases here
    next => exact here
  | unregisterAll => exact fewer told.staged fun _ _ here => by cases here

/-- The calls of a run as what the process meets outside. -/
def named (events : List Event) : Surroundings := ⟨fun _ _ _ => True, fun _ _ _ => True, Called events⟩

private theorem named_kept (listed : turn ∈ events) : (named events).Kept tasks turn := by
  cases turn with
  | spawn args => exact fun serviceName methodName parsed => ⟨args, listed, rfl, methodName, parsed⟩
  | poll index answer =>
    intro call request next _
    cases request with
    | connect | serverReflectionInfo => exact fun _ _ => trivial
    | ready | unary => trivial
  | cancel | operate => trivial

private theorem step_told (plain : Plain crates bundled) (reached : (machine crates).Reaches (named events).Kept tasks)
    (listed : turn ∈ events) (taken : (machine crates).step tasks turn = some after) (told : Told events tasks.shared) :
    Told events after.shared := by
  rcases step_cases reached (named_kept listed) taken with ⟨operation, rfl, ran⟩ | ⟨_, keeps⟩
  · rw [ran]
    exact operation_told plain listed told
  · obtain ⟨names, few⟩ := told.few
    refine ⟨keeps.staged ▸ told.staged, fun serviceName entry here pinned => ?_, names, fun serviceName entry here pinned => ?_⟩
    · exact told.registry serviceName entry (keeps.unpinned serviceName entry here pinned) pinned
    · exact few serviceName entry (keeps.unpinned serviceName entry here pinned) pinned

private theorem operation_staged {operation : Operation} (filename : String) :
    (operation.run crates tasks.shared).staged.get filename =
      (staging crates tasks (.operate operation)).toList.foldl (Staging.leaves filename) (tasks.shared.staged.get filename) := by
  cases operation with
  | stage name source =>
    simp only [Operation.run, grpcProtoStage, staging]
    cases checked : validateStageInput name source with
    | error e => rfl
    | ok => exact PendingFiles.get_stageFile filename
  | unstage name => exact PendingFiles.get_remove filename
  | unstageAll => rfl
  | compile snapshot =>
    simp only [Operation.run, staging]
    by_cases same : snapshot.Same tasks.shared.staged
    · rw [if_pos same]
      cases ran : Proto.compileProtoFiles crates snapshot with
      | error e =>
        rw [if_neg (by simp [Except.isOk, Except.toBool])]
        simp [grpcProtoCompile, ran]
      | ok pool =>
        rw [if_pos ⟨same, rfl⟩]
        simp only [grpcProtoCompile, ran]
        rfl
    · rw [if_neg same, if_neg fun both => same both.1]
      rfl
  | unregister | unregisterAll => rfl

private theorem step_staged (reached : (machine crates).Reaches (named events).Kept tasks) (listed : turn ∈ events)
    (taken : (machine crates).step tasks turn = some after) (filename : String) :
    after.shared.staged.get filename =
      (staging crates tasks turn).toList.foldl (Staging.leaves filename) (tasks.shared.staged.get filename) := by
  rcases step_cases reached (named_kept listed) taken with ⟨operation, rfl, ran⟩ | ⟨call, keeps⟩
  · rw [ran]
    exact operation_staged filename
  · rw [keeps.staged]
    cases turn with
    | operate operation => exact absurd rfl (call operation)
    | spawn | poll | cancel => rfl

private def service? : Event → Option String
  | .spawn args => (parseMethod args.method).toOption.map Prod.fst
  | _ => none

theorem lists_exists {process : Process} (names : List String)
    (few : ∀ serviceName entry, process.registry serviceName = some entry → serviceName ∈ names) :
    ∃ listed, process.Lists listed := by
  refine ⟨names.dedup.filterMap fun name => (process.registry name).map fun entry => (name, entry.origin), ?_, ?_⟩
  · rw [List.map_filterMap]
    refine names.nodup_dedup.filterMap fun first second name here there => ?_
    simp only [Option.mem_def, Option.map_map, Option.map_eq_some_iff, Function.comp_apply] at here there
    obtain ⟨_, _, same⟩ := here
    obtain ⟨_, _, same'⟩ := there
    exact same.trans same'.symm
  · intro serviceName origin
    rw [List.mem_filterMap]
    constructor
    · intro found
      obtain ⟨name, _, found⟩ := found
      obtain ⟨entry, here, same⟩ := Option.map_eq_some_iff.mp found
      cases same
      rw [here, Option.map_some]
    · intro found
      obtain ⟨entry, here, rfl⟩ := Option.map_eq_some_iff.mp found
      exact ⟨serviceName, List.mem_dedup.mpr (few serviceName entry here), by rw [here, Option.map_some]⟩

end Runs

private theorem listRegistered_names (listed : List (String × Origin)) :
    (grpcProtoListRegistered listed).map RegisteredRow.serviceName = listed.map Prod.fst := by
  rw [grpcProtoListRegistered, List.map_map]
  apply List.map_congr_left
  intro entry _
  obtain ⟨name, origin⟩ := entry
  cases origin <;> rfl

private theorem listed_iff {process : Process} {listed : List (String × Origin)} (lists : process.Lists listed)
    (serviceName : String) : serviceName ∈ (grpcProtoListRegistered listed).map RegisteredRow.serviceName ↔
      (process.getProto serviceName).isSome := by
  rw [listRegistered_names, List.mem_map]
  constructor
  · intro found
    obtain ⟨⟨name, origin⟩, member, rfl⟩ := found
    obtain ⟨entry, here, _⟩ := Option.map_eq_some_iff.mp ((lists.entries name origin).mp member)
    simp [Process.getProto, here]
  · intro found
    obtain ⟨entry, here⟩ : ∃ entry, process.registry serviceName = some entry := by
      simpa [Process.getProto, Option.isSome_iff_exists] using found
    exact ⟨(serviceName, entry.origin), (lists.entries _ _).mpr (by rw [here]; rfl), rfl⟩

/-- In every run of a process the staged listing is the last accepted source of each name that
was neither unstaged nor compiled since. The registered listing has one row for each service
that calls find in the registry, and the row names the staged file that defines the service,
or an endpoint that a call to the service has named. -/
theorem listings_exact {crates : Crates} {bundled : List FileProto} (plain : Plain crates bundled) {start final : State}
    {events : List Event} (initial : (machine crates).initial start)
    (executed : (machine crates).run start events = some final) :
    (((grpcProtoListStaged final.shared).map Prod.fst).Nodup ∧ ∀ filename source,
      (filename, source) ∈ grpcProtoListStaged final.shared ↔
        (stagings crates start events).foldl (Staging.leaves filename) none = some source) ∧
    (∃ listed, final.shared.Lists listed) ∧
    ∀ listed, final.shared.Lists listed →
      ((grpcProtoListRegistered listed).map RegisteredRow.serviceName).Nodup ∧
      (∀ serviceName, serviceName ∈ (grpcProtoListRegistered listed).map RegisteredRow.serviceName ↔
        (final.shared.getProto serviceName).isSome) ∧
      ∀ row ∈ grpcProtoListRegistered listed, Accounted events final.shared row := by
  obtain ⟨_, rfl, rfl⟩ := initial
  have path := Machine.path_of_run (· ∈ events) (fun _ => id) executed
  have kept : ((machine crates).Reaches (named events).Kept final ∧ Told events final.shared) ∧ ∀ filename,
      final.shared.staged.get filename = ([] ++ stagings crates { shared := .fresh } events).foldl (Staging.leaves filename) none := by
    refine path.observed (fun noted tasks => ((machine crates).Reaches (named events).Kept tasks ∧ Told events tasks.shared) ∧
      ∀ filename, tasks.shared.staged.get filename = noted.foldl (Staging.leaves filename) none) ?_ ?_
    · intro noted before turn after listed taken kept
      obtain ⟨⟨reached, told⟩, staged⟩ := kept
      refine ⟨⟨reached.next (named_kept listed) taken, step_told plain reached listed taken told⟩, fun filename => ?_⟩
      rw [List.foldl_append, ← staged filename]
      exact step_staged reached listed taken filename
    · exact ⟨⟨.start ⟨.fresh, rfl, rfl⟩, .fresh events⟩, fun _ => rfl⟩
  obtain ⟨⟨reached, told⟩, staged⟩ := kept
  have reflected {serviceName endpoint : String} {pool : DescriptorPool}
      (here : final.shared.registry serviceName = some ⟨pool, .reflection endpoint⟩) :
      Called events serviceName endpoint ∧ (validateEndpoint endpoint).isOk := by
    obtain ⟨called, key, channel, valid, _⟩ := (reaches_safe reached).valid.registry serviceName pool endpoint here
    exact ⟨called, by rw [valid]; rfl⟩
  refine ⟨⟨final.shared.staged.distinct, fun filename source => ?_⟩, ?_,
    fun listed lists => ⟨?_, fun serviceName => ?_, ?_⟩⟩
  · rw [grpcProtoListStaged, PendingFiles.mem_list, staged filename, List.nil_append]
  · obtain ⟨names, few⟩ := told.few
    refine lists_exists (names ++ events.filterMap service?) fun serviceName entry here => ?_
    obtain ⟨pool, origin⟩ := entry
    cases origin with
    | userStaged filename source => exact List.mem_append_left _ (few serviceName _ here rfl)
    | reflection endpoint =>
      obtain ⟨args, spawned, _, methodName, parsed⟩ := (reflected here).1
      refine List.mem_append_right _ (List.mem_filterMap.mpr ⟨_, spawned, ?_⟩)
      simp [service?, parsed, Except.toOption]
  · rw [listRegistered_names]
    exact lists.once
  · exact listed_iff lists serviceName
  · intro row member
    obtain ⟨⟨name, origin⟩, listed, rfl⟩ := List.mem_map.mp member
    obtain ⟨⟨pool, from_⟩, here, rfl⟩ := Option.map_eq_some_iff.mp ((lists.entries name origin).mp listed)
    cases from_ with
    | userStaged filename source =>
      obtain ⟨file, text, declares⟩ := told.registry name _ here rfl
      cases declares.origin
      exact .user here declares
    | reflection endpoint =>
      obtain ⟨called, valid⟩ := reflected here
      exact .reflection here called valid

private def postFile : FileProto where
  name := "post.proto"
  package := "mail"
  messages := [{ fullName := "mail.Letter" }]
  services := [⟨"mail.Post", [⟨"Send", "mail.Letter", "mail.Letter"⟩]⟩]

private def mailCrates : Crates := .sample [.sample, postFile]

/-- One file is compiled, a call reflects another service, and the next file is staged. -/
private def mailEvents : List Event :=
  [.operate echoStage, .operate echoCompile, .spawn (plainCall "localhost:50051" "mail.Post/Send" true)] ++
    List.replicate 5 (.poll 0 (network fun _ _ => ⟨[.fileDescriptorResponse [[1]]], none⟩)) ++
    [.operate (.stage "next.proto" "message Next")]

theorem listings_exact_mail : ∃ final : State, final.ended.length = 1 ∧
    ("next.proto", "message Next") ∈ grpcProtoListStaged final.shared ∧ ∃ listed, final.shared.Lists listed ∧
      ∃ user ∈ grpcProtoListRegistered listed, user.serviceName = "pkg.Echo" ∧
        user.source = some "service Echo" ∧ Accounted mailEvents final.shared user ∧
      ∃ reflected ∈ grpcProtoListRegistered listed, reflected.serviceName = "mail.Post" ∧
        reflected.endpoint = some "localhost:50051" ∧ Accounted mailEvents final.shared reflected := by
  obtain ⟨final, ran, reached, checked⟩ := (machine mailCrates).exists_of_run ⟨.fresh, rfl, rfl⟩ mailEvents
    (fun final => final.ended.length == 1 &&
      decide ((final.shared.registry "pkg.Echo").map RegisteredService.origin =
        some (.userStaged "echo.proto" "service Echo")) &&
      decide ((final.shared.registry "mail.Post").map RegisteredService.origin = some (.reflection "localhost:50051")))
    (by decide)
  simp only [Bool.and_eq_true, beq_iff_eq, decide_eq_true_eq] at checked
  obtain ⟨⟨ended, compiled⟩, reflected⟩ := checked
  obtain ⟨staged, ⟨listed, lists⟩, registered⟩ := listings_exact (.sample _) ⟨.fresh, rfl, rfl⟩ ran
  obtain ⟨_, _, accounts⟩ := registered listed lists
  have user : RegisteredRow.mk "pkg.Echo" "user" (some "echo.proto") (some "service Echo") none ∈
      grpcProtoListRegistered listed := List.mem_map.mpr ⟨_, (lists.entries _ _).mpr compiled, rfl⟩
  have found : RegisteredRow.mk "mail.Post" "reflection" none none (some "localhost:50051") ∈
      grpcProtoListRegistered listed := List.mem_map.mpr ⟨_, (lists.entries _ _).mpr reflected, rfl⟩
  have last : (stagings mailCrates { shared := .fresh } mailEvents).foldl (Staging.leaves "next.proto") none =
      some "message Next" := by decide
  exact ⟨final, ended, (staged.2 _ _).mpr last, listed, lists, _, user, rfl, rfl, accounts _ user,
    _, found, rfl, rfl, accounts _ found⟩

end Calls
end PgGrpc
