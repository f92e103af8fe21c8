import PgGrpc.Proofs.Pools

/-! What the imports of a file show, and which lists of files build a pool one after
the other: those that list imports first, of sets that are consistent in any order. -/

namespace PgGrpc
open Library

namespace FileProto

def ImportsPublicly (files : List FileProto) (file other : FileProto) : Prop :=
  other ∈ files ∧ other.name ∈ file.publicImports

/-- A file sees itself, what it imports, and what that in turn imports publicly. -/
def Sees (files : List FileProto) (file other : FileProto) : Prop :=
  other = file ∨ ∃ first ∈ files, first.name ∈ file.dependency ∧ Relation.ReflTransGen (ImportsPublicly files) first other

theorem ImportsPublicly.reaches_mono {files all : List FileProto} {file other : FileProto} (among : files ⊆ all)
    (reaches : Relation.ReflTransGen (ImportsPublicly files) file other) :
    Relation.ReflTransGen (ImportsPublicly all) file other :=
  Relation.ReflTransGen.mono (fun _ _ imports => ⟨among imports.1, imports.2⟩) _ _ reaches

theorem Sees.mono {files all : List FileProto} {file other : FileProto} (among : files ⊆ all)
    (sees : file.Sees files other) : file.Sees all other := by
  rcases sees with same | ⟨first, member, imported, reaches⟩
  · exact .inl same
  · exact .inr ⟨first, among member, imported, ImportsPublicly.reaches_mono among reaches⟩

theorem publicImports_subset (file : FileProto) : file.publicImports ⊆ file.dependency := by
  intro name listed
  obtain ⟨place, _, found⟩ := List.mem_filterMap.mp listed
  exact List.mem_of_getElem? found

end FileProto

/-- Every file is listed after all that it imports. -/
def ImportsFirst (listed : List FileProto) : Prop :=
  ∀ before file rest, listed = before ++ file :: rest → ∀ name ∈ file.dependency, name ∈ before.map FileProto.name

theorem ImportsFirst.init {before rest : List FileProto} (first : ImportsFirst (before ++ rest)) : ImportsFirst before :=
  fun early file late same => first early file (late ++ rest) (by simp [same])

theorem importsFirst_concat {files : List FileProto} {file : FileProto} :
    ImportsFirst (files ++ [file]) ↔ ImportsFirst files ∧ ∀ name ∈ file.dependency, name ∈ files.map FileProto.name := by
  refine ⟨fun first => ⟨first.init, first files file [] rfl⟩, fun both before other rest same => ?_⟩
  rcases List.eq_nil_or_concat rest with rfl | ⟨early, last, rfl⟩
  · obtain ⟨rfl, single⟩ := List.append_inj' same rfl
    cases single
    exact both.2
  · have shape : files ++ [file] = (before ++ other :: early) ++ [last] := by simpa using same
    obtain ⟨rfl, _⟩ := List.append_inj' shape rfl
    exact both.1 before other early rfl

theorem ImportsFirst.replace {before other rest : List FileProto} (first : ImportsFirst (before ++ rest))
    (begins : ImportsFirst other) (same : ∀ name, name ∈ before.map FileProto.name ↔ name ∈ other.map FileProto.name) :
    ImportsFirst (other ++ rest) := by
  induction rest using List.reverseRecOn with
  | nil => rwa [List.append_nil]
  | append_singleton rest file ih =>
    rw [← List.append_assoc, importsFirst_concat] at first ⊢
    refine ⟨ih first.1, fun name imported => ?_⟩
    have listed := first.2 name imported
    rw [List.map_append, List.mem_append] at listed ⊢
    exact listed.imp_left (same name).mp

/-- A set of files that fit together in any order: each is sound in itself and sees all that
it refers to, and no two define one name. -/
structure Consistent (files : List FileProto) : Prop where
  faultless : ∀ file ∈ files, file.faults = []
  resolved : ∀ file ∈ files, ∀ type ∈ file.references, ∃ other ∈ files, type ∈ other.types ∧ file.Sees files other
  symbols : (files.flatMap FileProto.symbols).Nodup
  packages : ∀ name ∈ files.flatMap FileProto.packages, name ∉ files.flatMap FileProto.symbols

theorem Consistent.perm {files other : List FileProto} (consistent : Consistent files) (perm : files.Perm other) :
    Consistent other where
  faultless file member := consistent.faultless file (perm.mem_iff.mpr member)
  resolved file member type referred := by
    obtain ⟨target, there, defines, sees⟩ := consistent.resolved file (perm.mem_iff.mpr member) type referred
    exact ⟨target, perm.mem_iff.mp there, defines, sees.mono perm.subset⟩
  symbols := (perm.flatMap_right _).nodup_iff.mp consistent.symbols
  packages name shared defined :=
    consistent.packages name ((perm.flatMap_right _).mem_iff.mpr shared) ((perm.flatMap_right _).mem_iff.mpr defined)

def Builds (files : List FileProto) : Prop :=
  ∀ before file rest, files = before ++ file :: rest →
    file.name ∉ before.map FileProto.name ∧ DescriptorPool.Admits ⟨before⟩ file

theorem Builds.init {before rest : List FileProto} (builds : Builds (before ++ rest)) : Builds before :=
  fun first other later same => builds first other (later ++ rest) (by simp [same])

theorem builds_concat {files : List FileProto} {file : FileProto} : Builds (files ++ [file]) ↔
    Builds files ∧ file.name ∉ files.map FileProto.name ∧ DescriptorPool.Admits ⟨files⟩ file := by
  refine ⟨fun builds => ⟨builds.init, builds files file [] rfl⟩, fun both before other rest same => ?_⟩
  rcases List.eq_nil_or_concat rest with rfl | ⟨early, last, rfl⟩
  · obtain ⟨rfl, single⟩ := List.append_inj' same rfl
    cases single
    exact both.2
  · have shape : files ++ [file] = (before ++ other :: early) ++ [last] := by simpa using same
    obtain ⟨rfl, _⟩ := List.append_inj' shape rfl
    exact both.1 before other early rfl

namespace DescriptorPool
variable {files all before rest : List FileProto} {file other : FileProto} {name : String}

theorem shows_skip (absent : name ∉ before.map FileProto.name) : shows (before ++ rest) name = shows rest name := by
  induction before with
  | nil => rfl
  | cons head tail ih =>
    obtain ⟨here, later⟩ := not_or.mp (List.mem_cons.not.mp absent)
    rw [List.cons_append, shows, if_neg (Ne.symm here), ih later]

/-- Files added later do not change what a name shows that was there before. -/
theorem shows_before (once : ∀ later ∈ rest, later.name ∉ before.map FileProto.name) (there : name ∈ before.map FileProto.name) :
    shows (before ++ rest).reverse name = shows before.reverse name := by
  rw [List.reverse_append]
  refine shows_skip fun late => ?_
  obtain ⟨later, member, rfl⟩ := List.mem_map.mp late
  exact once later (List.mem_reverse.mp member) there

theorem shows_at (new : file.name ∉ rest.map FileProto.name) : shows (before ++ file :: rest).reverse file.name =
    file.name :: file.publicImports.flatMap (shows before.reverse) := by
  rw [List.reverse_append, List.reverse_cons, List.append_assoc, shows_skip (by simpa using new)]
  simp [shows]

theorem of_mem_shows {shown : String} (listed : shown ∈ shows files name) : ∃ first ∈ files, first.name = name ∧
    ∃ last ∈ files, last.name = shown ∧ Relation.ReflTransGen (FileProto.ImportsPublicly files) first last := by
  induction files generalizing name with
  | nil => cases listed
  | cons file earlier ih =>
    have wider : earlier ⊆ file :: earlier := List.subset_cons_self _ _
    rw [shows] at listed
    split at listed
    next here =>
      rcases List.mem_cons.mp listed with rfl | later
      · exact ⟨file, List.mem_cons_self, here, file, List.mem_cons_self, here, .refl⟩
      · obtain ⟨imported, publicly, deeper⟩ := List.mem_flatMap.mp later
        obtain ⟨first, member, rfl, last, there, named, reaches⟩ := ih deeper
        exact ⟨file, List.mem_cons_self, here, last, wider there, named, .head ⟨wider member, publicly⟩ (FileProto.ImportsPublicly.reaches_mono wider reaches)⟩
    next =>
      obtain ⟨first, member, named, last, there, also, reaches⟩ := ih listed
      exact ⟨first, wider member, named, last, wider there, also, FileProto.ImportsPublicly.reaches_mono wider reaches⟩

/-- What a file reaches through public imports is before it, and its import shows it. -/
theorem mem_shows (among : files ⊆ all) (once : (all.map FileProto.name).Nodup) (first : ImportsFirst files)
    (distinct : (files.map FileProto.name).Nodup) (member : file ∈ files)
    (reaches : Relation.ReflTransGen (FileProto.ImportsPublicly all) file other) :
    other ∈ files ∧ other.name ∈ shows files.reverse file.name := by
  induction reaches using Relation.ReflTransGen.head_induction_on with
  | refl =>
    obtain ⟨before, rest, rfl⟩ := List.append_of_mem member
    rw [List.map_append, List.map_cons, List.nodup_append, List.nodup_cons] at distinct
    rw [shows_at distinct.2.1.1]
    exact ⟨member, List.mem_cons_self⟩
  | @head file middle imports _ ih =>
    obtain ⟨before, rest, rfl⟩ := List.append_of_mem member
    have named := first before file rest rfl middle.name (file.publicImports_subset imports.2)
    have earlier : middle ∈ before := by
      obtain ⟨twin, inside, same⟩ := List.mem_map.mp named
      rwa [← List.inj_on_of_nodup_map once (among (List.mem_append_left _ inside)) imports.1 same]
    obtain ⟨there, shown⟩ := ih (List.mem_append_left _ earlier)
    rw [List.map_append, List.nodup_append, List.map_cons, List.nodup_cons] at distinct
    have apart (later : FileProto) (late : later ∈ file :: rest) : later.name ∉ before.map FileProto.name :=
      fun early => distinct.2.2 _ early _ (List.mem_map_of_mem late) rfl
    rw [shows_before apart named] at shown
    rw [shows_at distinct.2.1.1]
    exact ⟨there, List.mem_cons_of_mem _ (List.mem_flatMap.mpr ⟨_, imports.2, shown⟩)⟩

theorem mem_imported : other ∈ imported ⟨files⟩ file ↔
    other ∈ files ∧ ∃ name ∈ file.dependency, other.name ∈ shows files.reverse name := by
  simp [imported]

theorem mem_scope {type : TypeName} : type ∈ scope ⟨files⟩ file ↔
    type ∈ file.types ∨ ∃ other ∈ imported ⟨files⟩ file, type ∈ other.types := by
  simp [scope]

theorem imported_before (once : ∀ later ∈ rest, later.name ∉ before.map FileProto.name)
    (there : ∀ name ∈ file.dependency, name ∈ before.map FileProto.name) :
    imported ⟨before ++ rest⟩ file = imported ⟨before⟩ file := by
  have same : file.dependency.flatMap (shows (before ++ rest).reverse) = file.dependency.flatMap (shows before.reverse) := by
    rw [List.flatMap_def, List.flatMap_def]
    exact congrArg _ (List.map_congr_left fun name member => shows_before once (there name member))
  simp only [imported, same, List.filter_append]
  refine (congrArg _ (List.filter_eq_nil_iff.mpr fun later late shown => ?_)).trans (List.append_nil _)
  obtain ⟨name, _, listed⟩ := List.mem_flatMap.mp (List.contains_iff_mem.mp shown)
  obtain ⟨_, _, _, last, inside, named, _⟩ := of_mem_shows listed
  exact once later late (List.mem_map.mpr ⟨last, List.mem_reverse.mp inside, named⟩)

theorem sees_of_mem_imported (once : (files.map FileProto.name).Nodup) (shown : other ∈ imported ⟨files⟩ file) :
    file.Sees files other := by
  obtain ⟨member, name, imported, listed⟩ := mem_imported.mp shown
  obtain ⟨first, inside, rfl, last, there, named, reaches⟩ := of_mem_shows listed
  rw [List.inj_on_of_nodup_map once (List.mem_reverse.mp there) member named] at reaches
  refine .inr ⟨first, List.mem_reverse.mp inside, imported, FileProto.ImportsPublicly.reaches_mono ?_ reaches⟩
  exact fun _ => List.mem_reverse.mp

theorem mem_scope_of_sees (among : files ⊆ all) (once : (all.map FileProto.name).Nodup) (first : ImportsFirst files)
    (distinct : (files.map FileProto.name).Nodup) (imports : ∀ name ∈ file.dependency, name ∈ files.map FileProto.name)
    (sees : file.Sees all other) {type : TypeName} (defines : type ∈ other.types) : type ∈ scope ⟨files⟩ file := by
  rw [mem_scope]
  rcases sees with rfl | ⟨start, member, imported, reaches⟩
  · exact .inl defines
  · obtain ⟨twin, inside, same⟩ := List.mem_map.mp (imports start.name imported)
    rw [List.inj_on_of_nodup_map once (among inside) member same] at inside
    obtain ⟨there, shown⟩ := mem_shows among once first distinct inside reaches
    exact .inr ⟨other, mem_imported.mpr ⟨there, start.name, imported, shown⟩, defines⟩

end DescriptorPool

namespace Builds
variable {files : List FileProto}

theorem once (builds : Builds files) : (files.map FileProto.name).Nodup := by
  induction files using List.reverseRecOn with
  | nil => exact List.nodup_nil
  | append_singleton before file ih =>
    obtain ⟨earlier, new, _⟩ := builds_concat.mp builds
    rw [List.map_append, List.nodup_append]
    refine ⟨ih earlier, by simp, ?_⟩
    rintro name there other here rfl
    rw [List.map_singleton, List.mem_singleton] at here
    exact new (here ▸ there)

theorem symbols (builds : Builds files) : (files.flatMap FileProto.symbols).Nodup := by
  induction files using List.reverseRecOn with
  | nil => exact List.nodup_nil
  | append_singleton before file ih =>
    obtain ⟨earlier, _, admitted⟩ := builds_concat.mp builds
    rw [List.flatMap_append, List.flatMap_singleton, List.nodup_append]
    refine ⟨ih earlier, admitted.distinct, ?_⟩
    rintro name there other here rfl
    exact admitted.apart name here there

private theorem packages (builds : Builds files) :
    ∀ name ∈ files.flatMap FileProto.packages, name ∉ files.flatMap FileProto.symbols := by
  induction files using List.reverseRecOn with
  | nil => simp
  | append_singleton before file ih =>
    obtain ⟨earlier, _, admitted⟩ := builds_concat.mp builds
    obtain ⟨own, others⟩ := admitted.packages
    intro name shared defined
    rw [List.flatMap_append, List.flatMap_singleton, List.mem_append] at shared defined
    rcases shared with old | new
    · exact defined.elim (ih earlier name old) (others name old)
    · exact defined.elim (own name new).1 (own name new).2

theorem importsFirst (builds : Builds files) : ImportsFirst files :=
  fun before file rest same => (builds before file rest same).2.imports

theorem consistent (builds : Builds files) : Consistent files where
  faultless file member := by
    obtain ⟨before, rest, rfl⟩ := List.append_of_mem member
    exact (builds before file rest rfl).2.faultless
  resolved file member type referred := by
    obtain ⟨before, rest, rfl⟩ := List.append_of_mem member
    rcases DescriptorPool.mem_scope.mp ((builds before file rest rfl).2.resolved type referred) with own | ⟨other, shown, defines⟩
    · exact ⟨file, member, own, .inl rfl⟩
    · have sees := DescriptorPool.sees_of_mem_imported builds.init.once shown
      exact ⟨other, List.mem_append_left _ (DescriptorPool.mem_imported.mp shown).1, defines,
        sees.mono (List.subset_append_left _ _)⟩
  symbols := builds.symbols
  packages := builds.packages

end Builds

/-- Files build a pool exactly when imports come first, no name comes twice and they are consistent. -/
theorem builds_iff {files : List FileProto} :
    Builds files ↔ (files.map FileProto.name).Nodup ∧ ImportsFirst files ∧ Consistent files := by
  refine ⟨fun builds => ⟨builds.once, builds.importsFirst, builds.consistent⟩, fun whole before file rest same => ?_⟩
  obtain ⟨once, first, consistent⟩ := whole
  subst same
  have imports := first before file rest rfl
  have member : file ∈ before ++ file :: rest := by simp
  have distinct := once
  rw [List.map_append, List.map_cons, List.nodup_append] at distinct
  refine ⟨fun early => distinct.2.2 _ early _ List.mem_cons_self rfl, consistent.faultless file member, imports, ?_, ?_, ?_, ?_, ?_⟩
  · intro type referred
    obtain ⟨other, _, defines, sees⟩ := consistent.resolved file member type referred
    exact DescriptorPool.mem_scope_of_sees (List.subset_append_left _ _) once first.init distinct.1 imports sees defines
  · exact (List.nodup_flatMap.mp consistent.symbols).1 file member
  · have apart := consistent.symbols
    rw [List.flatMap_append, List.flatMap_cons, List.nodup_append] at apart
    exact fun name here there => apart.2.2 name there name (List.mem_append_left _ here) rfl
  · intro name shared
    have free := consistent.packages name (List.mem_flatMap.mpr ⟨file, member, shared⟩)
    rw [List.flatMap_append, List.flatMap_cons, List.mem_append, List.mem_append, not_or, not_or] at free
    exact ⟨free.1, free.2.1⟩
  · intro name shared
    have free := consistent.packages name (by rw [List.flatMap_append]; exact List.mem_append_left _ shared)
    rw [List.flatMap_append, List.flatMap_cons, List.mem_append, List.mem_append, not_or, not_or] at free
    exact free.2.1

theorem Builds.perm {files other : List FileProto} (builds : Builds files) (perm : files.Perm other)
    (first : ImportsFirst other) : Builds other :=
  builds_iff.mpr ⟨(perm.map _).nodup_iff.mp builds.once, first, builds.consistent.perm perm⟩

/-- What an empty pool makes of a list of files: it builds from those it keeps. -/
theorem passes_iff_builds {order : List FileProto} :
    Guarded.Passes DescriptorPool.Takes DescriptorPool.keep .empty order ↔ Builds (order.foldl keepFirst []) := by
  induction order using List.reverseRecOn with
  | nil => exact iff_of_true Guarded.passes_nil fun before file rest same => absurd same (by simp)
  | append_singleton before file ih =>
    have held : before.foldl DescriptorPool.keep .empty = ⟨before.foldl keepFirst []⟩ :=
      congrArg DescriptorPool.mk (DescriptorPool.foldl_keep_files .empty before)
    rw [Guarded.passes_append, ih, Guarded.passes_cons, held, List.foldl_append, List.foldl_cons, List.foldl_nil]
    by_cases known : file.name ∈ (before.foldl keepFirst []).map FileProto.name
    · simp [DescriptorPool.Takes, keepFirst, known, Guarded.passes_nil]
    · simp only [DescriptorPool.Takes, keepFirst, known, if_false, false_or, Guarded.passes_nil, and_true, builds_concat,
        not_false_eq_true, true_and]

theorem builds_of_adds {files : List FileProto}
    (added : files.foldlM DescriptorPool.addFileDescriptorProto .empty = .ok ⟨files⟩) : Builds files := by
  obtain ⟨passes, held⟩ := (DescriptorPool.addFileDescriptorProto_steps.foldlM .empty files _).mp added
  have kept : files.foldl keepFirst [] = files :=
    (DescriptorPool.foldl_keep_files .empty files).symm.trans (congrArg DescriptorPool.files held).symm
  rw [← kept]
  exact passes_iff_builds.mp passes

theorem foldl_keepFirst_nodup {files before : List FileProto} (once : ((before ++ files).map FileProto.name).Nodup) :
    files.foldl keepFirst before = before ++ files := by
  induction files generalizing before with
  | nil => exact (List.append_nil _).symm
  | cons file rest ih =>
    have new : file.name ∉ before.map FileProto.name := by
      rw [List.map_append, List.nodup_append] at once
      exact fun early => once.2.2 _ early _ (List.mem_map_of_mem List.mem_cons_self) rfl
    rw [List.foldl_cons, keepFirst, if_neg new, ih (by simpa using once), List.append_assoc, List.singleton_append]

theorem foldl_keepFirst_same {before other : List FileProto} (files : List FileProto)
    (same : ∀ name, name ∈ before.map FileProto.name ↔ name ∈ other.map FileProto.name) :
    ∃ extra, files.foldl keepFirst before = before ++ extra ∧ files.foldl keepFirst other = other ++ extra := by
  induction files generalizing before other with
  | nil => exact ⟨[], by simp⟩
  | cons file rest ih =>
    rw [List.foldl_cons, List.foldl_cons, keepFirst, keepFirst]
    by_cases known : file.name ∈ before.map FileProto.name
    · rw [if_pos known, if_pos ((same _).mp known)]
      exact ih same
    · rw [if_neg known, if_neg ((same _).not.mp known)]
      have still (name : String) : name ∈ (before ++ [file]).map FileProto.name ↔ name ∈ (other ++ [file]).map FileProto.name := by
        simp [same]
      obtain ⟨extra, first, second⟩ := ih still
      exact ⟨file :: extra, by rw [first, List.append_assoc]; rfl, by rw [second, List.append_assoc]; rfl⟩

end PgGrpc
