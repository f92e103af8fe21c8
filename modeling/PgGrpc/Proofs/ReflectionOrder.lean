import PgGrpc.Proofs.Imports

/-! The order of a reflection reply. The loop adds files as they arrive, so that a
file which comes before one of its imports is refused. -/

namespace PgGrpc
open Library

/-- A valid set of files that is closed under imports and has a service. -/
structure Closed (files : List FileProto) : Prop where
  once : (files.map FileProto.name).Nodup
  imports : ∀ file ∈ files, ∀ name ∈ file.dependency, name ∈ files.map FileProto.name
  acyclic : ∃ rank : String → Nat, ∀ file ∈ files, ∀ name ∈ file.dependency, rank name < rank file.name
  consistent : Consistent files
  service : ∃ file ∈ files, file.services ≠ []

/-- A file as it is sent. -/
structure Sent (crates : Crates) where
  bytes : Bytes
  file : FileProto
  decodes : crates.decodeFile bytes = .ok file

/-- A stream of FileDescriptorResponses that ends well. -/
def ReflectionStream.sending {crates : Crates} (replies : List (List (Sent crates))) : ReflectionStream where
  messages := replies.map fun reply => .fileDescriptorResponse (reply.map Sent.bytes)
  failure := none

def listed {crates : Crates} (replies : List (List (Sent crates))) : List FileProto := replies.flatten.map Sent.file

structure DescriptorPool.Same (pool other : DescriptorPool) : Prop where
  files : pool.files.Perm other.files
  services : pool.services.Perm other.services
  messages : pool.messages.Perm other.messages

namespace Closed
variable {files order before : List FileProto} {file : FileProto}

theorem eq_of_name (closed : Closed files) {other : FileProto} (member : file ∈ files) (there : other ∈ files)
    (same : file.name = other.name) : file = other :=
  List.inj_on_of_nodup_map closed.once member there same

/-- Some order lists every file after its imports. -/
theorem ordered (closed : Closed files) : ∃ order, order.Perm files ∧ ImportsFirst order := by
  obtain ⟨rank, lower⟩ := closed.acyclic
  let sorted := files.insertionSort fun file other => rank file.name ≤ rank other.name
  have perm : sorted.Perm files := List.perm_insertionSort _ files
  refine ⟨sorted, perm, fun before file rest same name imported => ?_⟩
  have member : file ∈ files := perm.mem_iff.mp (by simp [same])
  obtain ⟨other, there, rfl⟩ := List.mem_map.mp (closed.imports file member name imported)
  have placed := perm.mem_iff.mpr there
  have rising : sorted.Pairwise fun file other => rank file.name ≤ rank other.name :=
    List.pairwise_insertionSort _ files
  rw [same] at placed rising
  have below := lower file member other.name imported
  rcases List.mem_append.mp placed with early | late
  · exact List.mem_map_of_mem early
  · exfalso
    rcases List.mem_cons.mp late with rfl | later
    · omega
    · have after := (List.pairwise_cons.mp (List.pairwise_append.mp rising).2.1).1 other later
      omega

private theorem kept_iff (closed : Closed files) (among : before ⊆ files) :
    file ∈ before.foldl keepFirst [] ↔ file ∈ before := by
  constructor
  · exact fun kept => (foldl_keepFirst_mem kept).resolve_left List.not_mem_nil
  · intro member
    have named : file.name ∈ (before.foldl keepFirst []).map FileProto.name :=
      foldl_keepFirst_names.mpr (.inr (List.mem_map_of_mem member))
    obtain ⟨twin, kept, same⟩ := List.mem_map.mp named
    have there : twin ∈ before := (foldl_keepFirst_mem kept).resolve_left List.not_mem_nil
    rwa [← closed.eq_of_name (among there) (among member) same]

/-- A repetition stands after its imports where it was first listed. -/
private theorem keepFirst_importsFirst (closed : Closed files) (among : order ⊆ files) :
    ImportsFirst (order.foldl keepFirst []) ↔ ImportsFirst order := by
  induction order using List.reverseRecOn with
  | nil => rfl
  | append_singleton before file ih =>
    obtain ⟨inside, member⟩ := List.append_subset.mp among
    have names (name : String) : name ∈ (before.foldl keepFirst []).map FileProto.name ↔ name ∈ before.map FileProto.name := by
      simp [foldl_keepFirst_names]
    rw [List.foldl_append, List.foldl_cons, List.foldl_nil, keepFirst, importsFirst_concat]
    by_cases known : file.name ∈ before.map FileProto.name
    · rw [if_pos ((names _).mpr known), ih inside]
      refine ⟨fun first => ⟨first, ?_⟩, fun both => both.1⟩
      obtain ⟨twin, there, named⟩ := List.mem_map.mp known
      rw [closed.eq_of_name (inside there) (member List.mem_cons_self) named] at there
      obtain ⟨early, late, rfl⟩ := List.append_of_mem there
      intro name imported
      rw [List.map_append]
      exact List.mem_append_left _ (first early file late rfl name imported)
    · rw [if_neg ((names _).not.mpr known), importsFirst_concat, ih inside]
      simp only [names]

theorem kept_perm (closed : Closed files) (all : ∀ file, file ∈ order ↔ file ∈ files) :
    (order.foldl keepFirst []).Perm files := by
  have once : ((order.foldl keepFirst []).map FileProto.name).Nodup := foldl_keepFirst_once List.nodup_nil
  apply (List.perm_ext_iff_of_nodup (.of_map _ once) (.of_map _ closed.once)).mpr
  exact fun file => (closed.kept_iff fun file member => (all file).mp member).trans (all file)

theorem passes_iff (closed : Closed files) (all : ∀ file, file ∈ order ↔ file ∈ files) :
    Guarded.Passes DescriptorPool.Takes DescriptorPool.keep .empty order ↔ ImportsFirst order := by
  have perm := closed.kept_perm all
  rw [passes_iff_builds, builds_iff, closed.keepFirst_importsFirst fun file member => (all file).mp member]
  exact ⟨fun whole => whole.2.1, fun first =>
    ⟨(perm.map _).nodup_iff.mpr closed.once, first, closed.consistent.perm perm.symm⟩⟩

end Closed

namespace Proto
variable {crates : Crates} {files : List FileProto}

private theorem addFile_steps : Guarded.Steps (fun pool (sent : Sent crates) => addFile crates pool sent.bytes)
    (fun pool sent => pool.Takes sent.file) fun pool sent => pool.keep sent.file := by
  intro pool sent after
  rw [← DescriptorPool.addFileDescriptorProto_steps pool sent.file after]
  simp [addFile, sent.decodes, mapErr, bind, Except.bind]
  cases pool.addFileDescriptorProto sent.file <;> simp

private theorem messages_ok (replies : List (List (Sent crates))) (pool : DescriptorPool) :
    (ReflectionStream.sending replies).messages.foldlM (handleMessage crates) .empty = .ok pool ↔
      Guarded.Passes DescriptorPool.Takes DescriptorPool.keep .empty (listed replies) ∧
        pool = (listed replies).foldl DescriptorPool.keep .empty := by
  have looped : (ReflectionStream.sending replies).messages.foldlM (handleMessage crates) .empty =
      replies.foldlM (fun pool reply => reply.foldlM (fun pool (sent : Sent crates) => addFile crates pool sent.bytes) pool)
        .empty := by
    rw [ReflectionStream.sending, List.foldlM_map]
    refine congrArg (fun step => replies.foldlM step DescriptorPool.empty) (funext fun pool => funext fun reply => ?_)
    exact List.foldlM_map
  rw [looped, listed, List.foldl_map, ← Guarded.passes_map]
  exact addFile_steps.nested _ replies pool

/-- In whatever messages and with whatever repetitions the files come, the loop builds
the pool of their set exactly when each file comes after its imports. -/
theorem reflection_order_iff (closed : Closed files) (replies : List (List (Sent crates)))
    (all : ∀ file, file ∈ listed replies ↔ file ∈ files) (serviceName : String) :
    (∃ pool, readStream crates serviceName (.sending replies) = .ok pool ∧ pool.Same ⟨files⟩) ↔
      ImportsFirst (listed replies) := by
  rw [← closed.passes_iff all]
  constructor
  · intro fetched
    obtain ⟨pool, read, _⟩ := fetched
    obtain ⟨whole, looped, _⟩ := bind_eq_ok.mp read
    exact ((messages_ok replies whole).mp looped).1
  · intro passes
    let pool := (listed replies).foldl DescriptorPool.keep .empty
    have held : pool.files = (listed replies).foldl keepFirst [] := DescriptorPool.foldl_keep_files .empty _
    have perm : pool.files.Perm files := held ▸ closed.kept_perm all
    have served : pool.services ≠ [] := by
      obtain ⟨file, member, services⟩ := closed.service
      obtain ⟨service, defined⟩ := List.exists_mem_of_ne_nil _ services
      exact List.ne_nil_of_mem (DescriptorPool.mem_services.mpr ⟨perm.mem_iff.mpr member, defined⟩)
    refine ⟨pool, ?_, perm, perm.flatMap_right _, perm.flatMap_right _⟩
    refine bind_eq_ok.mpr ⟨pool, (messages_ok replies pool).mpr ⟨passes, rfl⟩, ?_⟩
    simp [ReflectionStream.sending, served]

/-- A service that imports its messages through a file which imports them publicly. -/
private def textFile : FileProto := { name := "text.proto", package := "pkg", messages := [{ fullName := "pkg.Text" }] }

private def allFile : FileProto := { name := "all.proto", dependency := ["text.proto"], publicDependency := [0] }

private def echoFile : FileProto :=
  { FileProto.sample with dependency := ["all.proto"], messages := [] }

private def echoFiles : List FileProto := [textFile, allFile, echoFile]

private theorem echoFiles_closed : Closed echoFiles := by
  have builds : Builds echoFiles := builds_of_adds (by decide)
  refine ⟨builds.once, fun file member name imported => ?_, ?_, builds.consistent, echoFile, by simp [echoFiles], by decide⟩
  · obtain ⟨before, rest, same⟩ := List.append_of_mem member
    rw [same, List.map_append]
    exact List.mem_append_left _ (builds.importsFirst before file rest same name imported)
  · refine ⟨fun name => if name = "echo.proto" then 2 else if name = "all.proto" then 1 else 0, ?_⟩
    simp [echoFiles, textFile, allFile, echoFile, FileProto.sample]

private def text : Sent (.sample echoFiles) := ⟨[0], textFile, rfl⟩

private def all : Sent (.sample echoFiles) := ⟨[1], allFile, rfl⟩

private def echo : Sent (.sample echoFiles) := ⟨[2], echoFile, rfl⟩

/-- Two messages, the first file once more in the second. -/
theorem reflection_order_echo : ∃ pool,
    readStream (.sample echoFiles) "pkg.Echo" (.sending [[text, all], [text, echo]]) = .ok pool ∧ pool.Same ⟨echoFiles⟩ := by
  refine (reflection_order_iff echoFiles_closed [[text, all], [text, echo]] ?_ _).mpr ?_
  · simp only [listed, text, all, echo, echoFiles, List.flatten_cons, List.flatten_nil, List.cons_append, List.nil_append,
      List.map_cons, List.map_nil, List.mem_cons, List.not_mem_nil, or_false]
    tauto
  · have repeated : listed [[text, all], [text, echo]] = [textFile, allFile] ++ [textFile] ++ [echoFile] := rfl
    have first : ImportsFirst ([textFile, allFile] ++ [echoFile]) := (builds_of_adds (by decide) : Builds echoFiles).importsFirst
    obtain ⟨start, last⟩ := importsFirst_concat.mp first
    rw [repeated, importsFirst_concat, importsFirst_concat]
    refine ⟨⟨start, by simp [textFile]⟩, fun name imported => ?_⟩
    rw [List.map_append]
    exact List.mem_append_left _ (last name imported)

/-- The service before its import: the same three files in one message, and the call fails. -/
theorem dependent_first_refused : Closed echoFiles ∧ (∀ file, file ∈ listed [[echo, all, text]] ↔ file ∈ echoFiles) ∧
    readStream (.sample echoFiles) "pkg.Echo" (.sending [[echo, all, text]]) =
      .error (.internal "add to descriptor pool: echo.proto") ∧
    (readStream (.sample echoFiles) "pkg.Echo" (.sending [[text, all, echo]])).toOption = some ⟨echoFiles⟩ := by
  refine ⟨echoFiles_closed, fun file => ?_, by decide, by decide⟩
  have listing : listed [[echo, all, text]] = echoFiles.reverse := rfl
  rw [listing, List.mem_reverse]

end Proto
end PgGrpc
