import PgGrpc.ProtoManagement
import PgGrpc.Proofs.Imports

/-! `grpc_proto_compile`: what it writes over the registry, and that it writes all of
it or nothing. -/

namespace PgGrpc
open Library

namespace Proto

/-- The part of the compilation that protox does. -/
def compiled (crates : Crates) (files : PendingFiles) : GrpcResult (List FileProto) :=
  ((files.entries.map Prod.fst).foldlM (openFile crates files.get) []).map (crates.fileDescriptorSet files.get)

theorem addCompiled_adds {crates : Crates} (pool : DescriptorPool) (file : FileProto) (after : DescriptorPool)
    (ran : addCompiled crates pool file = .ok after) : pool.addFileDescriptorProto file = .ok after := by
  simpa [addCompiled] using ran

theorem seedFile_adds {crates : Crates} (pool : DescriptorPool) (file : FileProto) (after : DescriptorPool)
    (ran : seedFile crates pool file = .ok after) : pool.addFileDescriptorProto file = .ok after := by
  unfold seedFile at ran
  split at ran
  next known => simpa [DescriptorPool.addFileDescriptorProto, known] using ran
  next => simpa using ran

theorem addCompiled_steps {crates : Crates} : Guarded.Steps (addCompiled crates) DescriptorPool.Takes DescriptorPool.keep := by
  intro pool file after
  rw [← DescriptorPool.addFileDescriptorProto_steps pool file after]
  exact mapErr_eq_ok

theorem seedFile_steps {crates : Crates} : Guarded.Steps (seedFile crates) DescriptorPool.Takes DescriptorPool.keep := by
  intro pool file after
  rw [← DescriptorPool.addFileDescriptorProto_steps pool file after]
  unfold seedFile
  split
  next known => simp [DescriptorPool.addFileDescriptorProto, known]
  next => exact mapErr_eq_ok

theorem addCompiled_ok {crates : Crates} {fds : List FileProto} {built : DescriptorPool}
    (once : (fds.map FileProto.name).Nodup) :
    fds.foldlM (addCompiled crates) .empty = .ok built ↔ Builds fds ∧ built = ⟨fds⟩ := by
  have kept : fds.foldl keepFirst [] = fds := foldl_keepFirst_nodup once
  have held : fds.foldl DescriptorPool.keep .empty = ⟨fds⟩ :=
    congrArg DescriptorPool.mk ((DescriptorPool.foldl_keep_files .empty fds).trans kept)
  have looped : fds.foldlM (addCompiled crates) .empty = .ok built ↔
      Guarded.Passes DescriptorPool.Takes DescriptorPool.keep .empty fds ∧ built = fds.foldl DescriptorPool.keep .empty :=
    addCompiled_steps.foldlM .empty fds built
  rw [looped, passes_iff_builds, kept, held]

/-- The seeding of a pool succeeds exactly when its files build a pool with those seeded. -/
theorem backfillWkts_builds {crates : Crates} {fds : List FileProto} (builds : Builds fds) :
    (∃ pool, backfillWkts crates ⟨fds⟩ = .ok pool) ↔ Builds (crates.globalFiles.foldl keepFirst fds) := by
  have kept : fds.foldl keepFirst [] = fds := foldl_keepFirst_nodup builds.once
  have held : fds.foldl DescriptorPool.keep .empty = ⟨fds⟩ :=
    congrArg DescriptorPool.mk ((DescriptorPool.foldl_keep_files .empty fds).trans kept)
  have whole : (fds ++ crates.globalFiles).foldl keepFirst [] = crates.globalFiles.foldl keepFirst fds := by
    rw [List.foldl_append, kept]
  rw [← whole, ← passes_iff_builds, Guarded.passes_append, passes_iff_builds, kept, held]
  have looped (pool : DescriptorPool) : backfillWkts crates ⟨fds⟩ = .ok pool ↔
      Guarded.Passes DescriptorPool.Takes DescriptorPool.keep ⟨fds⟩ crates.globalFiles ∧
        pool = crates.globalFiles.foldl DescriptorPool.keep ⟨fds⟩ := seedFile_steps.foldlM ⟨fds⟩ crates.globalFiles pool
  simp only [looped, exists_and_left, exists_eq, and_true]
  exact (and_iff_right builds).symm

inductive Failure (crates : Crates) (files : PendingFiles) : GrpcError → Prop where
  | unstaged (empty : files.entries = []) : Failure crates files (.protoCompile "no proto files supplied")
  /-- A staged file that protox cannot open, parse or resolve. -/
  | unopened {opened name text} (staged : name ∈ files.entries.map Prod.fst)
      (failed : crates.openFile files.get opened name = .error text) : Failure crates files (.protoCompile text)
  | rejected {fds before file rest built error} (compiled : compiled crates files = .ok fds)
      (listed : fds = before ++ file :: rest) (added : before.foldlM (addCompiled crates) .empty = .ok built)
      (refused : built.addFileDescriptorProto file = .error error) :
      Failure crates files (.protoCompile (crates.addErrorText file error))
  | serviceless {fds built} (compiled : compiled crates files = .ok fds)
      (added : fds.foldlM (addCompiled crates) .empty = .ok built) (none : built.services = []) :
      Failure crates files (.protoCompile "proto source defines no services")
  | unseeded {fds built before file rest seeded error} (compiled : compiled crates files = .ok fds)
      (added : fds.foldlM (addCompiled crates) .empty = .ok built) (listed : crates.globalFiles = before ++ file :: rest)
      (filled : before.foldlM (seedFile crates) built = .ok seeded) (refused : seeded.addFileDescriptorProto file = .error error) :
      Failure crates files (.protoCompile ("seed WKT " ++ file.name ++ ": " ++ crates.addErrorText file error))

private theorem mapErr_eq_error {error : ε → δ} {result : Except ε α} {e : δ} :
    mapErr error result = .error e ↔ ∃ cause, result = .error cause ∧ e = error cause := by
  cases result <;> simp [mapErr, eq_comm]

theorem Failure.of_error {crates : Crates} {files : PendingFiles} {e : GrpcError}
    (ran : compileProtoFiles crates files = .error e) : Failure crates files e := by
  unfold compileProtoFiles at ran
  split at ran
  next empty =>
    cases ran
    exact .unstaged (List.isEmpty_iff.mp empty)
  next =>
    simp only [bind, Except.bind] at ran
    cases opened : (files.entries.map Prod.fst).foldlM (openFile crates files.get) [] with
    | error failed =>
      rw [opened] at ran
      cases ran
      obtain ⟨before, name, rest, names, listed, _, broke⟩ := Guarded.foldlM_error opened
      have failed : mapErr .protoCompile (crates.openFile files.get names name) = .error e := by
        simp only [openFile, bind, Except.bind] at broke
        split at broke
        next refused => cases broke; exact refused
        next => cases broke
      obtain ⟨text, refused, rfl⟩ := mapErr_eq_error.mp failed
      exact .unopened (by rw [listed]; simp) refused
    | ok names =>
      have compiled : compiled crates files = .ok (crates.fileDescriptorSet files.get names) := by
        rw [compiled, opened]
        rfl
      rw [opened] at ran
      cases added : (crates.fileDescriptorSet files.get names).foldlM (addCompiled crates) .empty with
      | error failed =>
        simp only [added] at ran
        cases ran
        obtain ⟨before, file, rest, built, listed, so_far, broke⟩ := Guarded.foldlM_error added
        obtain ⟨error, refused, rfl⟩ := mapErr_eq_error.mp broke
        exact .rejected compiled listed so_far refused
      | ok built =>
        simp only [added] at ran
        split at ran
        next none =>
          cases ran
          exact .serviceless compiled added (List.isEmpty_iff.mp none)
        next =>
          obtain ⟨before, file, rest, seeded, listed, filled, broke⟩ := Guarded.foldlM_error ran
          unfold seedFile at broke
          split at broke
          next => cases broke
          next =>
            obtain ⟨error, refused, rfl⟩ := mapErr_eq_error.mp broke
            exact .unseeded compiled added listed filled refused

theorem compileProtoFiles_ok {crates : Crates} {files : PendingFiles} {pool : DescriptorPool} :
    compileProtoFiles crates files = .ok pool ↔ files.entries ≠ [] ∧ ∃ fds built,
      compiled crates files = .ok fds ∧ fds.foldlM (addCompiled crates) .empty = .ok built ∧ built.services ≠ [] ∧
        backfillWkts crates built = .ok pool := by
  unfold compileProtoFiles compiled
  simp only [List.isEmpty_iff]
  split
  next empty => simp [empty]
  next staged =>
    simp only [bind, Except.bind]
    cases opened : (files.entries.map Prod.fst).foldlM (openFile crates files.get) [] with
    | error e => simp [Except.map]
    | ok names =>
      cases built : (crates.fileDescriptorSet files.get names).foldlM (addCompiled crates) .empty with
      | error e => simp [Except.map, built]
      | ok pool => by_cases none : pool.services = [] <;> simp [Except.map, built, staged, none]

/-- The services of the compiled pool are those of protox's files. -/
theorem compiled_services {crates : Crates} {fds : List FileProto} {built pool : DescriptorPool}
    (plain : ∀ file ∈ crates.globalFiles, file.services = []) (added : fds.foldlM (addCompiled crates) .empty = .ok built)
    (filled : backfillWkts crates built = .ok pool) {file : FileProto} {service : ServiceProto}
    (defined : (file, service) ∈ pool.services) : file ∈ fds ∧ service ∈ file.services := by
  obtain ⟨new, all, own⟩ := (DescriptorPool.foldlM_extends addCompiled_adds added).added
  obtain ⟨extra, grown, global⟩ := (DescriptorPool.foldlM_extends seedFile_adds filled).added
  obtain ⟨member, owns⟩ := DescriptorPool.mem_services.mp defined
  rw [grown, all, DescriptorPool.empty, List.nil_append, List.mem_append] at member
  rcases member with compiled | seeded
  · exact ⟨own compiled, owns⟩
  · rw [plain file (global seeded)] at owns
    cases owns

theorem compiled_whole {crates : Crates} {fds : List FileProto} {built pool : DescriptorPool}
    (once : (fds.map FileProto.name).Nodup) (added : fds.foldlM (addCompiled crates) .empty = .ok built)
    (filled : backfillWkts crates built = .ok pool) : pool.symbols.Nodup ∧ fds ⊆ pool.files := by
  have first := DescriptorPool.foldlM_extends addCompiled_adds added
  have second := DescriptorPool.foldlM_extends seedFile_adds filled
  have files : built.files = fds := first.all once (by simp [DescriptorPool.empty])
  obtain ⟨extra, grown, _⟩ := second.added
  refine ⟨second.distinct (first.distinct List.nodup_nil), ?_⟩
  rw [grown, files]
  exact List.subset_append_left _ _

end Proto

section Register
variable {staged : PendingFiles} {pool : DescriptorPool} {defined : List (FileProto × ServiceProto)} {process : Process}
  {name : String}

theorem register_other (absent : ∀ entry ∈ defined, entry.2.fullName ≠ name) :
    (defined.foldl (registerService staged pool) process).registry name = process.registry name := by
  induction defined generalizing process with
  | nil => rfl
  | cons entry rest ih =>
    rw [List.foldl_cons, ih fun other member => absent other (by simp [member])]
    exact if_neg (Ne.symm (absent entry (by simp)))

/-- The last service of that name wins. -/
theorem register_some (named : ∃ entry ∈ defined, entry.2.fullName = name) :
    ∃ last ∈ defined, last.2.fullName = name ∧
      (defined.foldl (registerService staged pool) process).registry name =
        some ⟨pool, .userStaged last.1.name ((staged.get last.1.name).getD "")⟩ := by
  induction defined generalizing process with
  | nil => simp at named
  | cons head rest ih =>
    rw [List.foldl_cons]
    by_cases later : ∃ entry ∈ rest, entry.2.fullName = name
    · obtain ⟨last, member, same, found⟩ := ih later
      exact ⟨last, List.mem_cons_of_mem _ member, same, found⟩
    · have absent : ∀ entry ∈ rest, entry.2.fullName ≠ name := fun entry member same => later ⟨entry, member, same⟩
      have here : head.2.fullName = name := by
        obtain ⟨entry, member, same⟩ := named
        rcases List.mem_cons.mp member with rfl | inside
        · exact same
        · exact absurd same (absent entry inside)
      refine ⟨head, List.mem_cons_self, here, ?_⟩
      rw [register_other absent]
      exact if_pos here.symm

theorem register_frame : let after := defined.foldl (registerService staged pool) process
    after.channels = process.channels ∧ after.staged = process.staged ∧ after.resolved = process.resolved := by
  induction defined generalizing process with
  | nil => exact ⟨rfl, rfl, rfl⟩
  | cons entry rest ih => exact ih

end Register

theorem Proto.compiled_sample {files fds : List FileProto} {staged : PendingFiles} :
    Proto.compiled (.sample files) staged = .ok fds ↔
      (∀ name ∈ staged.entries.map Prod.fst, name ∈ files.map FileProto.name) ∧
        fds = files.filter fun file => (staged.get file.name).isSome := by
  have opens : Guarded.Steps (openFile (.sample files) staged.get) (fun _ name => name ∈ files.map FileProto.name)
      fun before name => before ++ [name] := by
    intro before name after
    have known : (files.any fun file => file.name == name) = true ↔ name ∈ files.map FileProto.name := by
      simp
    simp only [openFile, Crates.sample, bind_eq_ok, mapErr_eq_ok, ← known]
    split
    next listed => simp [listed, pure, Except.pure, eq_comm]
    next unlisted => simp [unlisted]
  have looped := opens.appends (staged.entries.map Prod.fst) []
  simp only [Proto.compiled]
  cases opened : (staged.entries.map Prod.fst).foldlM (openFile (.sample files) staged.get) [] with
  | error e =>
    refine iff_of_false (by simp [Except.map]) fun both => ?_
    cases opened.symm.trans ((looped _).mpr ⟨both.1, rfl⟩)
  | ok names =>
    have known := ((looped names).mp opened).1
    exact Except.ok.injEq .. |>.to_iff.trans (eq_comm.trans (and_iff_right known).symm)

/-- The bundled files of protox and prost-reflect define no service, and protox calls any
other file by the name that it was staged under. -/
structure Plain (crates : Crates) (bundled : List FileProto) : Prop where
  named : ∀ files fds, Proto.compiled crates files = .ok fds → ∀ file ∈ fds, (files.get file.name).isSome ∨ file ∈ bundled
  bundledPlain : ∀ file ∈ bundled, file.services = []
  globalPlain : ∀ file ∈ crates.globalFiles, file.services = []

theorem Plain.staged {crates : Crates} {bundled : List FileProto} (plain : Plain crates bundled) {files : PendingFiles}
    {pool : DescriptorPool} (ran : Proto.compileProtoFiles crates files = .ok pool) {file : FileProto}
    {service : ServiceProto} (defined : (file, service) ∈ pool.services) : ∃ source, files.get file.name = some source := by
  obtain ⟨_, fds, _, compiled, added, _, filled⟩ := Proto.compileProtoFiles_ok.mp ran
  obtain ⟨member, owns⟩ := Proto.compiled_services plain.globalPlain added filled defined
  rcases plain.named _ _ compiled file member with staged | bundled
  · exact Option.isSome_iff_exists.mp staged
  · rw [plain.bundledPlain file bundled] at owns
    cases owns

theorem Plain.sample (files : List FileProto) : Plain (.sample files) [] where
  named staged fds ran file member := by
    obtain ⟨_, rfl⟩ := Proto.compiled_sample.mp ran
    exact .inl (List.mem_filter.mp member).2
  bundledPlain := List.forall_mem_nil _
  globalPlain := List.forall_mem_nil _

/-- What else the extension relies on of protox. It compiles every staged file once, with its
imports first, to the same files in whatever order it opens them. -/
structure Protox (crates : Crates) (bundled : List FileProto) : Prop extends Plain crates bundled where
  order : ∀ files other fds, files.Same other → Proto.compiled crates files = .ok fds →
    ∃ others, others.Perm fds ∧ Proto.compiled crates other = .ok others
  sorted : ∀ files fds, Proto.compiled crates files = .ok fds → ImportsFirst fds
  staged : ∀ files fds, Proto.compiled crates files = .ok fds →
    ∀ filename, (files.get filename).isSome → filename ∈ fds.map FileProto.name
  once : ∀ files fds, Proto.compiled crates files = .ok fds → (fds.map FileProto.name).Nodup

/-- The registry after a compilation: at the name of every service of the compiled
files a user entry with the staged file that defines it, and as before elsewhere. -/
structure Registered (before : Process) (fds : List FileProto) (pool : DescriptorPool) (after : Process) : Prop where
  staged : after.staged = .empty
  channels : after.channels = before.channels
  compiled : ∀ filename source, before.staged.get filename = some source → ∃ file ∈ fds, file.name = filename
  defined : ∀ file ∈ fds, ∀ service ∈ file.services, ∃ source, before.staged.get file.name = some source ∧
    after.registry service.fullName = some ⟨pool, .userStaged file.name source⟩ ∧
    (pool.getServiceByName service.fullName).isSome
  others : ∀ name, (∀ file ∈ fds, ∀ service ∈ file.services, service.fullName ≠ name) →
    after.registry name = before.registry name

theorem Registered.perm {before after : Process} {fds others : List FileProto} {pool : DescriptorPool}
    (registered : Registered before fds pool after) (perm : fds.Perm others) : Registered before others pool after where
  staged := registered.staged
  channels := registered.channels
  compiled filename source here := by
    obtain ⟨file, member, named⟩ := registered.compiled filename source here
    exact ⟨file, perm.mem_iff.mp member, named⟩
  defined file member := registered.defined file (perm.mem_iff.mpr member)
  others name absent := registered.others name fun file member => absent file (perm.mem_iff.mp member)

theorem PendingFiles.Same.get {files other : PendingFiles} (same : files.Same other) (filename : String) :
    files.get filename = other.get filename := Keyed.lookup_perm files.distinct same filename

theorem Protox.sample {files : List FileProto} (once : (files.map FileProto.name).Nodup)
    (alone : ∀ file ∈ files, file.dependency = []) : Protox (.sample files) [] where
  toPlain := .sample files
  order staged other fds same ran := by
    obtain ⟨known, rfl⟩ := Proto.compiled_sample.mp ran
    refine ⟨_, .refl _, Proto.compiled_sample.mpr ⟨fun name member => known name ?_, ?_⟩⟩
    · exact (List.Perm.map _ same).mem_iff.mpr member
    · simp only [same.get]
  sorted staged fds ran := by
    obtain ⟨_, rfl⟩ := Proto.compiled_sample.mp ran
    intro before file rest same name imported
    have listed : file ∈ before ++ file :: rest := by simp
    have member : file ∈ files := List.mem_of_mem_filter (same ▸ listed)
    rw [alone file member] at imported
    cases imported
  staged staged fds ran filename here := by
    obtain ⟨known, rfl⟩ := Proto.compiled_sample.mp ran
    obtain ⟨source, found⟩ := Option.isSome_iff_exists.mp here
    have entry := (Keyed.lookup_eq_some staged.distinct).mp found
    obtain ⟨file, member, rfl⟩ := List.mem_map.mp (known filename (List.mem_map.mpr ⟨_, entry, rfl⟩))
    exact List.mem_map.mpr ⟨file, List.mem_filter.mpr ⟨member, here⟩, rfl⟩
  once staged fds ran := by
    obtain ⟨_, rfl⟩ := Proto.compiled_sample.mp ran
    exact Keyed.map_filter_nodup FileProto.name once _

theorem DescriptorPool.services_unique {pool : DescriptorPool} (distinct : pool.symbols.Nodup)
    {first second : FileProto × ServiceProto} (here : first ∈ pool.services) (there : second ∈ pool.services)
    (same : first.2.fullName = second.2.fullName) : first.1 = second.1 := by
  obtain ⟨member, defined⟩ := mem_services.mp here
  obtain ⟨other, twice⟩ := mem_services.mp there
  apply FileProto.eq_of_symbol distinct member other (FileProto.mem_symbols defined)
  rw [same]
  exact FileProto.mem_symbols twice

/-- Files that build a pool build it in any order that lists imports first, and what is seeded fits as before. -/
theorem compileProtoFiles_perm {crates : Crates} {bundled : List FileProto} (protox : Protox crates bundled)
    {files other : PendingFiles} (same : files.Same other) {pool : DescriptorPool}
    (ran : Proto.compileProtoFiles crates files = .ok pool) : ∃ after, Proto.compileProtoFiles crates other = .ok after := by
  obtain ⟨staged, fds, built, compiled, added, served, filled⟩ := Proto.compileProtoFiles_ok.mp ran
  obtain ⟨others, perm, again⟩ := protox.order _ _ _ same compiled
  have once := protox.once _ _ compiled
  obtain ⟨builds, rfl⟩ := (Proto.addCompiled_ok once).mp added
  have rebuilds : Builds others := builds.perm perm.symm (protox.sorted _ _ again)
  obtain ⟨extra, seeded, reseeded⟩ := foldl_keepFirst_same crates.globalFiles fun name => (perm.symm.map _).mem_iff
  have whole : Builds (fds ++ extra) := by
    rw [← seeded]
    exact (Proto.backfillWkts_builds builds).mp ⟨pool, filled⟩
  have rewhole : Builds (others ++ extra) := by
    refine whole.perm (perm.symm.append_right _) ?_
    exact whole.importsFirst.replace rebuilds.importsFirst fun name => (perm.symm.map _).mem_iff
  obtain ⟨after, refilled⟩ := (Proto.backfillWkts_builds rebuilds).mpr (reseeded ▸ rewhole)
  refine ⟨after, Proto.compileProtoFiles_ok.mpr ⟨fun empty => staged (List.perm_nil.mp (empty ▸ same)), others, ⟨others⟩,
    again, (Proto.addCompiled_ok rebuilds.once).mpr ⟨rebuilds, rfl⟩, fun none => served ?_, refilled⟩⟩
  have services : (DescriptorPool.mk others).services.Perm (DescriptorPool.mk fds).services := perm.flatMap_right _
  exact List.perm_nil.mp (none ▸ services.symm)

theorem grpcProtoCompile_registered {crates : Crates} {bundled : List FileProto} (protox : Protox crates bundled)
    {process : Process} {snapshot : PendingFiles} (same : snapshot.Same process.staged) {fds : List FileProto}
    {pool : DescriptorPool} (compiled : Proto.compiled crates snapshot = .ok fds)
    (ran : Proto.compileProtoFiles crates snapshot = .ok pool) :
    Registered process fds pool (grpcProtoCompile crates snapshot process).2 := by
  obtain ⟨_, others, built, again, added, _, filled⟩ := Proto.compileProtoFiles_ok.mp ran
  cases compiled.symm.trans again
  obtain ⟨distinct, whole⟩ := Proto.compiled_whole (protox.once _ _ compiled) added filled
  simp only [grpcProtoCompile, ran]
  refine ⟨rfl, register_frame.1, fun filename source here => ?_, ?_, ?_⟩
  · exact List.mem_map.mp (protox.staged _ _ compiled filename (by rw [same.get, here]; rfl))
  · intro file member service defined
    have here := DescriptorPool.mem_services.mpr ⟨whole member, defined⟩
    have registered : ∃ last ∈ pool.services, last.2.fullName = service.fullName ∧
        (pool.services.foldl (registerService snapshot pool) process).registry service.fullName =
          some ⟨pool, .userStaged last.1.name ((snapshot.get last.1.name).getD "")⟩ := register_some ⟨_, here, rfl⟩
    obtain ⟨last, among, named, found⟩ := registered
    rw [DescriptorPool.services_unique distinct among here named] at found
    obtain ⟨source, staged⟩ := protox.toPlain.staged ran here
    rw [staged, Option.getD_some] at found
    exact ⟨source, (same.get file.name).symm.trans staged, found, DescriptorPool.getServiceByName_isSome.mpr ⟨_, here, rfl⟩⟩
  · intro name absent
    apply register_other
    intro entry listed
    obtain ⟨member, owns⟩ := Proto.compiled_services protox.globalPlain added filled listed
    exact absent entry.1 member entry.2 owns

/-- A compilation raises one of these errors and changes nothing, or it succeeds and writes exactly the
services of the staged files. Which of the two, and which files, is one for all iterations of the staging map. -/
theorem grpcProtoCompile_exact {crates : Crates} {bundled : List FileProto} (protox : Protox crates bundled)
    (process : Process) :
    (∀ snapshot : PendingFiles, snapshot.Same process.staged → ∃ e, Proto.Failure crates snapshot e ∧
      grpcProtoCompile crates snapshot process = (.error e, process)) ∨
    ∃ fds, ∀ snapshot : PendingFiles, snapshot.Same process.staged → ∃ compiled pool after, compiled.Perm fds ∧
      Proto.compiled crates snapshot = .ok compiled ∧ grpcProtoCompile crates snapshot process = (.ok (), after) ∧
        Registered process fds pool after := by
  cases ran : Proto.compileProtoFiles crates process.staged with
  | error e =>
    refine .inl fun snapshot same => ?_
    cases again : Proto.compileProtoFiles crates snapshot with
    | error e => exact ⟨e, Proto.Failure.of_error again, by simp [grpcProtoCompile, again]⟩
    | ok pool =>
      obtain ⟨after, succeeds⟩ := compileProtoFiles_perm protox same again
      cases ran.symm.trans succeeds
  | ok first =>
    obtain ⟨_, fds, _, compiled, _⟩ := Proto.compileProtoFiles_ok.mp ran
    refine .inr ⟨fds, fun snapshot same => ?_⟩
    obtain ⟨others, perm, recompiled⟩ := protox.order _ _ _ same.symm compiled
    obtain ⟨pool, again⟩ := compileProtoFiles_perm protox same.symm ran
    have registered := grpcProtoCompile_registered protox same recompiled again
    refine ⟨others, pool, _, perm, recompiled, ?_, registered.perm perm⟩
    simp only [grpcProtoCompile, again]

private def twoFiles : List FileProto := [.sample, { name := "clock.proto", services := [⟨"pkg.Clock", []⟩] }]

private theorem twoFiles_protox : Protox (.sample twoFiles) [] := .sample (by decide) (by decide)

/-- Both are staged, over the schemas of an earlier compilation and of a reflected service. -/
private def twoStaged : Process :=
  let earlier := (grpcProtoStage "echo.proto" "service Echo, old" .fresh).2
  let registered := (grpcProtoCompile (.sample [.sample]) earlier.staged earlier).2
  let reflected := registered.insertProtoReflection "pkg.Mail" ⟨[]⟩ "localhost:50051"
  (grpcProtoStage "clock.proto" "service Clock" (grpcProtoStage "echo.proto" "service Echo" reflected).2).2

theorem grpcProtoCompile_exact_two : twoStaged.staged.entries.length = 2 ∧
    (twoStaged.registry "pkg.Echo").isSome = true ∧ (twoStaged.registry "pkg.Mail").isSome = true ∧
    ∃ fds, ∀ snapshot : PendingFiles, snapshot.Same twoStaged.staged → ∃ compiled pool after, compiled.Perm fds ∧
      Proto.compiled (.sample twoFiles) snapshot = .ok compiled ∧
      grpcProtoCompile (.sample twoFiles) snapshot twoStaged = (.ok (), after) ∧ Registered twoStaged fds pool after := by
  refine ⟨by decide, by decide, by decide, ?_⟩
  rcases grpcProtoCompile_exact twoFiles_protox twoStaged with refused | registered
  · obtain ⟨e, _, failed⟩ := refused _ (.refl _)
    have succeeds : (grpcProtoCompile (.sample twoFiles) twoStaged.staged twoStaged).1 = .ok () := by rfl
    rw [failed] at succeeds
    cases succeeds
  · exact registered

end PgGrpc
