import PgGrpc.Proofs.Compile
import PgGrpc.Proofs.CallEffects

/-! The seeding of a pool with the bundled files. A file of the pool replaces the
bundled one of its name; the others are added, and each has to fit. -/

namespace PgGrpc
open Library

namespace DescriptorPool

def missing (pool : DescriptorPool) (bundled : List FileProto) : List FileProto :=
  bundled.filter fun file => (pool.getFileByName file.name).isNone

def completed (pool : DescriptorPool) (bundled : List FileProto) : DescriptorPool := ⟨pool.files ++ pool.missing bundled⟩

/-- No file that would be seeded defines a name of the pool, and each sees what it refers to
through its own imports, of which the pool may have its own versions. -/
structure Compatible (pool : DescriptorPool) (bundled : List FileProto) : Prop where
  apart : ∀ file ∈ pool.missing bundled, ∀ name ∈ file.symbols, name ∉ pool.symbols ∧ name ∉ pool.packages
  packages : ∀ file ∈ pool.missing bundled, ∀ name ∈ file.packages, name ∉ pool.symbols
  resolved : ∀ file ∈ pool.missing bundled, ∀ type ∈ file.references, type ∈ (pool.completed bundled).scope file

/-- All that was in the pool still is, in its place, and every bundled name is there. -/
structure Seeded (pool : DescriptorPool) (bundled : List FileProto) (after : DescriptorPool) : Prop where
  files : pool.files <+: after.files
  services : pool.services <+: after.services
  messages : pool.messages <+: after.messages
  bundled : ∀ file ∈ bundled, (after.getFileByName file.name).isSome

variable {pool : DescriptorPool} {bundled files : List FileProto} {file : FileProto}

theorem mem_missing : file ∈ pool.missing files ↔ file ∈ files ∧ file.name ∉ pool.files.map FileProto.name := by
  rw [missing, List.mem_filter, Option.isNone_iff_eq_none, getFileByName_eq_none]

theorem missing_append (first last : List FileProto) :
    pool.missing (first ++ last) = pool.missing first ++ pool.missing last := List.filter_append ..

theorem foldl_keepFirst_missing (once : (files.map FileProto.name).Nodup) :
    files.foldl keepFirst pool.files = pool.files ++ pool.missing files := by
  induction files using List.reverseRecOn with
  | nil => exact (List.append_nil _).symm
  | append_singleton before file ih =>
    rw [List.map_append, List.nodup_append] at once
    have new : file.name ∉ before.map FileProto.name := fun early => once.2.2 _ early file.name (by simp) rfl
    have known : file.name ∈ (before.foldl keepFirst pool.files).map FileProto.name ↔
        file.name ∈ pool.files.map FileProto.name := by
      simp [foldl_keepFirst_names, new]
    rw [List.foldl_append, List.foldl_cons, List.foldl_nil, keepFirst, missing_append, ← List.append_assoc, ← ih once.1]
    by_cases there : file.name ∈ pool.files.map FileProto.name
    · have nothing : pool.missing [file] = [] := by
        rw [List.eq_nil_iff_forall_not_mem]
        intro other member
        obtain ⟨same, absent⟩ := mem_missing.mp member
        exact absent (List.mem_singleton.mp same ▸ there)
      rw [if_pos (known.mpr there), nothing, List.append_nil]
    · have alone : pool.missing [file] = [file] :=
        List.filter_eq_self.mpr fun other member => by
          rw [List.mem_singleton.mp member, Option.isNone_iff_eq_none, getFileByName_eq_none]
          exact there
      rw [if_neg (known.not.mpr there), alone]

end DescriptorPool

namespace DescriptorPool
variable {pool : DescriptorPool} {bundled before rest : List FileProto} {file : FileProto}

private theorem seeded_so_far (bundle : Builds bundled) (same : bundled = before ++ rest) :
    before.foldl keep pool = ⟨pool.files ++ pool.missing before⟩ := by
  have once := bundle.once
  rw [same, List.map_append, List.nodup_append] at once
  exact congrArg DescriptorPool.mk ((foldl_keep_files pool before).trans (foldl_keepFirst_missing once.1))

private theorem not_seeded (bundle : Builds bundled) (same : bundled = before ++ file :: rest)
    (absent : file.name ∉ pool.files.map FileProto.name) :
    file.name ∉ (pool.files ++ pool.missing before).map FileProto.name := by
  rw [List.map_append, List.mem_append]
  rintro (own | seeded)
  · exact absent own
  · exact (bundle before file rest same).1 (List.map_subset _ (List.filter_subset_self _) seeded)

private theorem seeded_imports (bundle : Builds bundled) (same : bundled = before ++ file :: rest) :
    ∀ name ∈ file.dependency, name ∈ (pool.files ++ pool.missing before).map FileProto.name := by
  intro name imported
  obtain ⟨other, inside, rfl⟩ := List.mem_map.mp ((bundle before file rest same).2.imports name imported)
  rw [List.map_append, List.mem_append]
  by_cases own : other.name ∈ pool.files.map FileProto.name
  · exact .inl own
  · exact .inr (List.mem_map_of_mem (mem_missing.mpr ⟨inside, own⟩))

/-- The imports of a bundled file are all there when it is added, so later files show it nothing more. -/
private theorem seeded_scope (bundle : Builds bundled) (same : bundled = before ++ file :: rest) :
    (pool.completed bundled).scope file = scope ⟨pool.files ++ pool.missing before⟩ file := by
  have whole : pool.completed bundled = ⟨(pool.files ++ pool.missing before) ++ pool.missing (file :: rest)⟩ := by
    rw [completed, same, missing_append, List.append_assoc]
  rw [whole, scope, scope, imported_before (fun later late => ?_) (seeded_imports bundle same)]
  obtain ⟨listed, absent⟩ := mem_missing.mp late
  obtain ⟨early, final, split⟩ := List.append_of_mem listed
  intro earlier
  rw [split, ← List.append_assoc] at same
  apply not_seeded bundle same absent
  rw [missing_append, ← List.append_assoc, List.map_append, List.mem_append]
  exact .inl earlier

private theorem mem_seeded {names : FileProto → List String} {name : String} :
    name ∈ (pool.files ++ pool.missing before).flatMap names ↔
      name ∈ pool.files.flatMap names ∨ name ∈ (pool.missing before).flatMap names := by
  rw [List.flatMap_append, List.mem_append]

private theorem missing_subset {names : FileProto → List String} : (pool.missing before).flatMap names ⊆ before.flatMap names := by
  intro name there
  obtain ⟨other, inside, also⟩ := List.mem_flatMap.mp there
  exact List.mem_flatMap.mpr ⟨other, (mem_missing.mp inside).1, also⟩

private theorem compatible_of_passes (bundle : Builds bundled) (passes : Guarded.Passes Takes keep pool bundled) :
    Compatible pool bundled := by
  have admits {file : FileProto} (member : file ∈ pool.missing bundled) : ∃ before rest,
      bundled = before ++ file :: rest ∧ Admits ⟨pool.files ++ pool.missing before⟩ file := by
    obtain ⟨listed, absent⟩ := mem_missing.mp member
    obtain ⟨before, rest, same⟩ := List.append_of_mem listed
    have taken := passes before file rest same
    rw [seeded_so_far bundle same] at taken
    exact ⟨before, rest, same, taken.resolve_left (not_seeded bundle same absent)⟩
  refine ⟨fun file member name defines => ?_, fun file member name shared there => ?_, fun file member type referred => ?_⟩
  · obtain ⟨before, rest, same, admitted⟩ := admits member
    exact ⟨fun there => admitted.apart name defines (mem_seeded.mpr (.inl there)),
      fun there => admitted.packages.2 name (mem_seeded.mpr (.inl there)) defines⟩
  · obtain ⟨before, rest, same, admitted⟩ := admits member
    exact (admitted.packages.1 name shared).1 (mem_seeded.mpr (.inl there))
  · obtain ⟨before, rest, same, admitted⟩ := admits member
    rw [seeded_scope bundle same]
    exact admitted.resolved type referred

private theorem Compatible.admits (compatible : Compatible pool bundled) (bundle : Builds bundled)
    (same : bundled = before ++ file :: rest) (absent : file.name ∉ pool.files.map FileProto.name) :
    Admits ⟨pool.files ++ pool.missing before⟩ file := by
  obtain ⟨_, admitted⟩ := bundle before file rest same
  have member : file ∈ pool.missing bundled := mem_missing.mpr ⟨by rw [same]; simp, absent⟩
  refine ⟨admitted.faultless, seeded_imports bundle same, fun type referred => ?_, admitted.distinct,
    fun name defines there => ?_, fun name shared => ⟨fun there => ?_, (admitted.packages.1 name shared).2⟩,
    fun name there defines => ?_⟩
  · rw [← seeded_scope bundle same]
    exact compatible.resolved file member type referred
  · exact (mem_seeded.mp there).elim (compatible.apart file member name defines).1 fun late =>
      admitted.apart name defines (missing_subset late)
  · exact (mem_seeded.mp there).elim (compatible.packages file member name shared) fun late =>
      (admitted.packages.1 name shared).1 (missing_subset late)
  · exact (mem_seeded.mp there).elim (compatible.apart file member name defines).2 fun late =>
      admitted.packages.2 name (missing_subset late) defines

/-- The bundled files fit when they are seeded exactly as they are compatible. -/
theorem passes_iff_compatible (bundle : Builds bundled) :
    Guarded.Passes Takes keep pool bundled ↔ Compatible pool bundled := by
  refine ⟨compatible_of_passes bundle, fun compatible before file rest same => ?_⟩
  rw [seeded_so_far bundle same]
  by_cases known : file.name ∈ pool.files.map FileProto.name
  · rw [Takes, List.map_append]
    exact .inl (List.mem_append_left _ known)
  · exact .inr (compatible.admits bundle same known)

end DescriptorPool

namespace Proto
variable {crates : Crates} {pool : DescriptorPool}

theorem backfillWkts_ok {after : DescriptorPool} (bundle : Builds crates.globalFiles) :
    backfillWkts crates pool = .ok after ↔
      pool.Compatible crates.globalFiles ∧ after.files = pool.files ++ pool.missing crates.globalFiles := by
  have seeded : (crates.globalFiles.foldl DescriptorPool.keep pool).files = pool.files ++ pool.missing crates.globalFiles := by
    rw [DescriptorPool.foldl_keep_files, DescriptorPool.foldl_keepFirst_missing bundle.once]
  rw [← DescriptorPool.passes_iff_compatible bundle, ← seeded]
  refine (seedFile_steps.foldlM pool crates.globalFiles after).trans (and_congr_right fun _ => ?_)
  obtain ⟨files⟩ := after
  exact DescriptorPool.mk.injEq .. |>.to_iff

theorem seeded_of_files {after : DescriptorPool} {bundled : List FileProto}
    (files : after.files = pool.files ++ pool.missing bundled) : pool.Seeded bundled after where
  files := ⟨_, files.symm⟩
  services := ⟨_, by rw [DescriptorPool.services, DescriptorPool.services, files, List.flatMap_append]⟩
  messages := ⟨_, by rw [DescriptorPool.messages, DescriptorPool.messages, files, List.flatMap_append]⟩
  bundled file member := by
    rw [Option.isSome_iff_ne_none, ne_eq, DescriptorPool.getFileByName_eq_none, not_not, files, List.map_append,
      List.mem_append]
    by_cases own : file.name ∈ pool.files.map FileProto.name
    · exact .inl own
    · exact .inr (List.mem_map_of_mem (DescriptorPool.mem_missing.mpr ⟨member, own⟩))

def Compiles (crates : Crates) (files : PendingFiles) (pool : DescriptorPool) : Prop :=
  files.entries ≠ [] ∧ ∃ fds, compiled crates files = .ok fds ∧ fds.foldlM (addCompiled crates) .empty = .ok pool ∧
    pool.services ≠ []

/-- The server answers a fetch with the stream, under v1 or, where it lacks that, under
v1alpha, by the time of the await given last. -/
def Offers (answer : Nat → (request : Request) → Option (Reply request)) (channel : Channel) (serviceName : String)
    (maxDecode maxEncode : Option Nat) (stream : ReflectionStream) (n m : Nat) : Prop :=
  (answer n (.serverReflectionInfo .v1 channel serviceName maxDecode maxEncode) = some (.ok stream) ∧ m = n + 1) ∨
    ∃ status : Status, status.code = .unimplemented ∧
      answer n (.serverReflectionInfo .v1 channel serviceName maxDecode maxEncode) = some (.error status) ∧
      answer (n + 1) (.serverReflectionInfo .v1alpha channel serviceName maxDecode maxEncode) = some (.ok stream) ∧
      m = n + 2

private theorem fetch_drive {answer : Nat → (request : Request) → Option (Reply request)} {version : ReflectionVersion}
    {channel : Channel} {serviceName : String} {maxDecode maxEncode : Option Nat} {reply : Except Status ReflectionStream}
    {n : Nat} (replied : answer n (.serverReflectionInfo version channel serviceName maxDecode maxEncode) = some reply)
    (next : Except Status DescriptorPool → Call α) (process : Process) :
    (ExceptT.lift (fetch crates version channel serviceName maxDecode maxEncode) >>= next).run.drive answer n process =
      (next (reply.bind (readStream crates serviceName))).run.drive answer (n + 1) process := by
  rw [Call.run_bind, Fiber.drive_bind]
  simp only [fetch, ask, Fiber.request, ExceptT.lift, ExceptT.run, ExceptT.mk, Fiber.map_eq, Fiber.bind_eq, Fiber.bind,
    Fiber.drive, Fiber.pure_eq, replied]

theorem fetchPool_drive {answer : Nat → (request : Request) → Option (Reply request)} {channel : Channel}
    {serviceName : String} {maxDecode maxEncode : Option Nat} {stream : ReflectionStream} {n m : Nat}
    (offers : Offers answer channel serviceName maxDecode maxEncode stream n m)
    (read : readStream crates serviceName stream = .ok pool) (process : Process) :
    ((fetchPool crates channel serviceName maxDecode maxEncode).run.drive answer n process).1 =
      some (backfillWkts crates pool, m) := by
  rcases offers with ⟨first, rfl⟩ | ⟨status, code, first, second, rfl⟩
  · rw [fetchPool, fetch_drive first]
    simp only [Except.bind, read]
    rfl
  · rw [fetchPool, fetch_drive first]
    simp only [Except.bind, code, if_true]
    rw [fetch_drive second]
    simp only [Except.bind, read]
    rfl

/-- Seeding keeps what a pool holds and completes it exactly when the bundled files
that it lacks fit it; and with the seeding fails the compilation or the fetch. -/
theorem seeding_exact (bundle : Builds crates.globalFiles) (pool : DescriptorPool) :
    ((∃ after, backfillWkts crates pool = .ok after ∧ pool.Seeded crates.globalFiles after) ↔
      pool.Compatible crates.globalFiles) ∧
    (∀ files, Compiles crates files pool →
      ((∃ after, compileProtoFiles crates files = .ok after) ↔ pool.Compatible crates.globalFiles)) ∧
    ∀ answer channel serviceName maxDecode maxEncode stream n m process,
      Offers answer channel serviceName maxDecode maxEncode stream n m → readStream crates serviceName stream = .ok pool →
      ((∃ after, ((fetchPool crates channel serviceName maxDecode maxEncode).run.drive answer n process).1 =
        some (.ok after, m)) ↔ pool.Compatible crates.globalFiles) := by
  have fills : (∃ after, backfillWkts crates pool = .ok after) ↔ pool.Compatible crates.globalFiles := by
    constructor
    · intro filled
      obtain ⟨after, ran⟩ := filled
      exact ((backfillWkts_ok bundle).mp ran).1
    · exact fun compatible => ⟨⟨_⟩, (backfillWkts_ok bundle).mpr ⟨compatible, rfl⟩⟩
  refine ⟨?_, ?_, ?_⟩
  · rw [← fills]
    constructor
    · intro filled
      obtain ⟨after, ran, _⟩ := filled
      exact ⟨after, ran⟩
    · intro filled
      obtain ⟨after, ran⟩ := filled
      exact ⟨after, ran, seeded_of_files ((backfillWkts_ok bundle).mp ran).2⟩
  · intro files compiles
    obtain ⟨staged, fds, compiled, added, services⟩ := compiles
    rw [← fills]
    refine exists_congr fun after => compileProtoFiles_ok.trans ⟨fun whole => ?_, fun filled => ?_⟩
    · obtain ⟨_, others, built, again, twice, _, filled⟩ := whole
      cases compiled.symm.trans again
      cases added.symm.trans twice
      exact filled
    · exact ⟨staged, fds, pool, compiled, added, services, filled⟩
  · intro answer channel serviceName maxDecode maxEncode stream n m process offers read
    rw [← fills]
    refine exists_congr fun after => ?_
    rw [fetchPool_drive offers read process]
    simp

/-- Two of the bundled files, as far as the one refers to the other. -/
private def anyFile : FileProto where
  name := "google/protobuf/any.proto"
  package := "google.protobuf"
  messages := [{ fullName := "google.protobuf.Any" }]

private def typeFile : FileProto where
  name := "google/protobuf/type.proto"
  package := "google.protobuf"
  dependency := ["google/protobuf/any.proto"]
  messages := [{ fullName := "google.protobuf.Option", fields := [⟨"value", 2, .named (.message "google.protobuf.Any")⟩] }]

/-- A service staged beside files of the user's own. -/
private def seeding (own : List FileProto) : Crates :=
  { Crates.sample (own ++ [.sample]) with globalFiles := [anyFile, typeFile] }

private def stagedWith (own : List FileProto) : PendingFiles :=
  own.foldr (fun file staged => staged.stageFile file.name "message") (PendingFiles.empty.stageFile "echo.proto" "service Echo")

private theorem bundle_seeding (own : List FileProto) : Builds (seeding own).globalFiles :=
  builds_of_adds (by decide : [anyFile, typeFile].foldlM DescriptorPool.addFileDescriptorProto .empty =
    .ok ⟨[anyFile, typeFile]⟩)

/-- The bundled file overridden with one that has a field more: the override is kept. -/
private def customAny : FileProto :=
  { anyFile with messages := [{ fullName := "google.protobuf.Any", fields := [⟨"custom", 1, .scalar "string"⟩] }] }

theorem seeding_exact_custom : ∃ after, backfillWkts (seeding [customAny]) ⟨[customAny, .sample]⟩ = .ok after ∧
    DescriptorPool.Seeded ⟨[customAny, .sample]⟩ [anyFile, typeFile] after := by
  refine (seeding_exact (bundle_seeding [customAny]) ⟨[customAny, .sample]⟩).1.mpr ⟨?_, ?_, ?_⟩
  · decide
  · decide
  · decide

/-- An override without the type that another bundled file refers to, the bundled type under
another file name, and an enum value under the name of a bundled type. -/
private def emptiedAny : FileProto := { anyFile with messages := [] }

private def vendoredAny : FileProto := { anyFile with name := "vendored/any.proto" }

private def valueAny : FileProto where
  name := "value.proto"
  package := "google.protobuf"
  enums := [⟨"google.protobuf", "Kind", ["Any"]⟩]

private def seedError (file : String) : GrpcResult DescriptorPool :=
  .error (.protoCompile ("seed WKT google/protobuf/" ++ file ++ ": google/protobuf/" ++ file))

/-- Each set of staged files compiles and defines a service, and the seeding refuses it, the first one also
where the user's own file has the missing type, which the bundled file does not import. -/
theorem seeding_refuses :
    (Compiles (seeding [emptiedAny]) (stagedWith [emptiedAny]) ⟨[emptiedAny, .sample]⟩ ∧
      compileProtoFiles (seeding [emptiedAny]) (stagedWith [emptiedAny]) = seedError "type.proto") ∧
    (Compiles (seeding [emptiedAny, vendoredAny]) (stagedWith [emptiedAny, vendoredAny]) ⟨[emptiedAny, vendoredAny, .sample]⟩ ∧
      compileProtoFiles (seeding [emptiedAny, vendoredAny]) (stagedWith [emptiedAny, vendoredAny]) = seedError "type.proto") ∧
    (Compiles (seeding [vendoredAny]) (stagedWith [vendoredAny]) ⟨[vendoredAny, .sample]⟩ ∧
      compileProtoFiles (seeding [vendoredAny]) (stagedWith [vendoredAny]) = seedError "any.proto") ∧
    Compiles (seeding [valueAny]) (stagedWith [valueAny]) ⟨[valueAny, .sample]⟩ ∧
      compileProtoFiles (seeding [valueAny]) (stagedWith [valueAny]) = seedError "any.proto" := by
  refine ⟨⟨⟨by decide, _, rfl, by decide, by decide⟩, by decide⟩, ⟨⟨by decide, _, rfl, by decide, by decide⟩, by decide⟩,
    ⟨⟨by decide, _, rfl, by decide, by decide⟩, by decide⟩, ⟨by decide, _, rfl, by decide, by decide⟩, by decide⟩

end Proto
end PgGrpc
