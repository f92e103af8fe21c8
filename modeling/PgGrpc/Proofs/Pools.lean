import PgGrpc.Proto
import PgGrpc.Library.Guarded

/-! Descriptor pools grow by whole files, and no two services of a pool have one name. -/

namespace PgGrpc
open Library

theorem FileProto.mem_symbols {file : FileProto} {service : ServiceProto} (defined : service ∈ file.services) :
    service.fullName ∈ file.symbols := by
  simp only [FileProto.symbols, List.mem_append, List.mem_flatMap]
  exact .inr ⟨service, defined, List.mem_cons_self⟩

def keepFirst (files : List FileProto) (file : FileProto) : List FileProto :=
  if file.name ∈ files.map FileProto.name then files else files ++ [file]

theorem FileProto.eq_of_symbol {files : List FileProto} (distinct : (files.flatMap FileProto.symbols).Nodup)
    {file other : FileProto} (member : file ∈ files) (there : other ∈ files) {name : String}
    (defines : name ∈ file.symbols) (also : name ∈ other.symbols) : file = other := by
  by_contra different
  have apart := (List.nodup_flatMap.mp distinct).2
  have : Std.Symm (Function.onFun List.Disjoint FileProto.symbols) := ⟨fun _ _ clear => clear.symm⟩
  exact apart.forall member there different defines also

section KeepFirst
variable {files items : List FileProto} {file : FileProto} {name : String}

theorem keepFirst_names : name ∈ (keepFirst files file).map FileProto.name ↔
    name ∈ files.map FileProto.name ∨ name = file.name := by
  unfold keepFirst
  split
  next known => exact ⟨.inl, fun either => either.elim id fun same => same ▸ known⟩
  next => simp

theorem foldl_keepFirst_names : name ∈ (items.foldl keepFirst files).map FileProto.name ↔
    name ∈ files.map FileProto.name ∨ name ∈ items.map FileProto.name := by
  induction items generalizing files with
  | nil => simp
  | cons item rest ih => rw [List.foldl_cons, ih, keepFirst_names, List.map_cons, List.mem_cons, or_assoc]

theorem foldl_keepFirst_mem (member : file ∈ items.foldl keepFirst files) : file ∈ files ∨ file ∈ items := by
  induction items generalizing files with
  | nil => exact .inl member
  | cons item rest ih =>
    rcases ih member with kept | later
    · unfold keepFirst at kept
      split at kept
      · exact .inl kept
      · rcases List.mem_append.mp kept with old | new
        · exact .inl old
        · exact .inr (List.mem_cons.mpr (.inl (List.mem_singleton.mp new)))
    · exact .inr (List.mem_cons_of_mem _ later)

theorem foldl_keepFirst_once (once : (files.map FileProto.name).Nodup) :
    ((items.foldl keepFirst files).map FileProto.name).Nodup := by
  induction items generalizing files with
  | nil => exact once
  | cons item rest ih =>
    apply ih
    unfold keepFirst
    split
    next => exact once
    next new => simpa [List.nodup_append, once] using fun file member same => new (List.mem_map.mpr ⟨file, member, same⟩)

end KeepFirst

namespace DescriptorPool

def messages (pool : DescriptorPool) : List MessageProto := pool.files.flatMap FileProto.messages

theorem getFileByName_eq_none {pool : DescriptorPool} {name : String} :
    pool.getFileByName name = none ↔ name ∉ pool.files.map FileProto.name := by
  simp [getFileByName]

theorem mem_services {pool : DescriptorPool} {file : FileProto} {service : ServiceProto} :
    (file, service) ∈ pool.services ↔ file ∈ pool.files ∧ service ∈ file.services := by
  simp only [services, List.mem_flatMap, List.mem_map, Prod.mk.injEq]
  constructor
  · intro listed
    obtain ⟨_, member, _, defined, rfl, rfl⟩ := listed
    exact ⟨member, defined⟩
  · exact fun both => ⟨file, both.1, service, both.2, rfl, rfl⟩

theorem getServiceByName_isSome {pool : DescriptorPool} {name : String} :
    (pool.getServiceByName name).isSome ↔ ∃ defined ∈ pool.services, defined.2.fullName = name := by
  simp [getServiceByName]

/-- What a file with a new name is checked for: it is sound in itself, its imports are there,
they show what it refers to, and its names are new. -/
structure Admits (pool : DescriptorPool) (file : FileProto) : Prop where
  faultless : file.faults = []
  imports : ∀ name ∈ file.dependency, name ∈ pool.files.map FileProto.name
  resolved : ∀ type ∈ file.references, type ∈ pool.scope file
  distinct : file.symbols.Nodup
  apart : ∀ name ∈ file.symbols, name ∉ pool.symbols
  packages : (∀ name ∈ file.packages, name ∉ pool.symbols ∧ name ∉ file.symbols) ∧ ∀ name ∈ pool.packages, name ∉ file.symbols

/-- The pool has a file of that name, or admits this one. -/
def Takes (pool : DescriptorPool) (file : FileProto) : Prop :=
  file.name ∈ pool.files.map FileProto.name ∨ pool.Admits file

def keep (pool : DescriptorPool) (file : FileProto) : DescriptorPool := ⟨keepFirst pool.files file⟩

theorem foldl_keep_files (pool : DescriptorPool) (files : List FileProto) :
    (files.foldl keep pool).files = files.foldl keepFirst pool.files := by
  induction files generalizing pool with
  | nil => rfl
  | cons file rest ih => exact ih (pool.keep file)

theorem clash_eq_none {pool : DescriptorPool} {file : FileProto} : pool.clash file = none ↔
    file.symbols.Nodup ∧ (∀ name ∈ file.symbols, name ∉ pool.symbols) ∧
      (∀ name ∈ file.packages, name ∉ pool.symbols ∧ name ∉ file.symbols) ∧ ∀ name ∈ pool.packages, name ∉ file.symbols := by
  simp only [clash, Option.or_eq_none_iff, List.find?_eq_none, List.contains_iff_mem, Keyed.firstClash_eq_none,
    List.mem_append, not_or]
  grind

theorem addFileDescriptorProto_eq_ok {pool after : DescriptorPool} {file : FileProto}
    (new : file.name ∉ pool.files.map FileProto.name) :
    pool.addFileDescriptorProto file = .ok after ↔ pool.Admits file ∧ after = ⟨pool.files ++ [file]⟩ := by
  have absent : (pool.getFileByName file.name).isSome = false := by
    rwa [Option.isSome_eq_false_iff, Option.isNone_iff_eq_none, getFileByName_eq_none]
  have imports : (file.dependency.find? fun name => (pool.getFileByName name).isNone) = none ↔
      ∀ name ∈ file.dependency, name ∈ pool.files.map FileProto.name := by
    simp only [List.find?_eq_none, Option.isNone_iff_eq_none, getFileByName_eq_none, not_not]
  have resolved : (file.references.find? fun type => !(pool.scope file).contains type) = none ↔
      ∀ type ∈ file.references, type ∈ pool.scope file := by
    simp [List.find?_eq_none]
  have whole : pool.Admits file ↔ pool.clash file = none ∧
      (file.dependency.find? fun name => (pool.getFileByName name).isNone) = none ∧
      (file.references.find? fun type => !(pool.scope file).contains type) = none ∧ file.faults.head? = none := by
    rw [imports, resolved, clash_eq_none, List.head?_eq_none_iff]
    exact ⟨fun admits => ⟨⟨admits.distinct, admits.apart, admits.packages⟩, admits.imports, admits.resolved, admits.faultless⟩,
      fun checks => ⟨checks.2.2.2, checks.2.1, checks.2.2.1, checks.1.1, checks.1.2.1, checks.1.2.2⟩⟩
  rw [whole, addFileDescriptorProto, if_neg (by simp [absent])]
  cases pool.clash file with
  | some name => simp
  | none =>
    cases file.dependency.find? fun name => (pool.getFileByName name).isNone with
    | some name => simp
    | none =>
      cases file.references.find? fun type => !(pool.scope file).contains type with
      | some type => simp
      | none => cases file.faults.head? <;> simp [eq_comm]

theorem addFileDescriptorProto_steps : Guarded.Steps addFileDescriptorProto Takes keep := by
  intro pool file after
  by_cases known : file.name ∈ pool.files.map FileProto.name
  · have found : (pool.getFileByName file.name).isSome := by
      rwa [Option.isSome_iff_ne_none, ne_eq, getFileByName_eq_none, not_not]
    simp only [addFileDescriptorProto, Takes, found, if_true, known, true_or, true_and, keep, keepFirst, Except.ok.injEq]
    exact eq_comm
  · simp only [addFileDescriptorProto_eq_ok known, Takes, known, false_or, keep, keepFirst, if_false]

/-- One file is added, or ignored because its name is there. -/
theorem addFileDescriptorProto_ok {pool after : DescriptorPool} {file : FileProto}
    (added : pool.addFileDescriptorProto file = .ok after) :
    (file.name ∈ pool.files.map FileProto.name ∧ after = pool) ∨
      (file.name ∉ pool.files.map FileProto.name ∧ after.files = pool.files ++ [file] ∧
        (pool.symbols.Nodup → after.symbols.Nodup)) := by
  obtain ⟨passed, rfl⟩ := (addFileDescriptorProto_steps pool file after).mp added
  by_cases known : file.name ∈ pool.files.map FileProto.name
  · exact .inl ⟨known, by rw [keep, keepFirst, if_pos known]⟩
  · have admits := passed.resolve_left known
    have grown : (pool.keep file).files = pool.files ++ [file] := if_neg known
    refine .inr ⟨known, grown, fun old => ?_⟩
    simp only [symbols, grown, List.flatMap_append, List.flatMap_singleton]
    refine List.nodup_append.mpr ⟨old, admits.distinct, ?_⟩
    rintro name there other here rfl
    exact admits.apart name here there

structure Extends (pool after : DescriptorPool) (files : List FileProto) : Prop where
  added : ∃ new, after.files = pool.files ++ new ∧ new ⊆ files
  all : (files.map FileProto.name).Nodup → (∀ file ∈ files, file.name ∉ pool.files.map FileProto.name) →
    after.files = pool.files ++ files
  distinct : pool.symbols.Nodup → after.symbols.Nodup

theorem foldlM_extends {ε : Type} {add : DescriptorPool → FileProto → Except ε DescriptorPool}
    (adds : ∀ pool file after, add pool file = .ok after → pool.addFileDescriptorProto file = .ok after)
    {files : List FileProto} {pool after : DescriptorPool} (folded : files.foldlM add pool = .ok after) :
    Extends pool after files := by
  induction files generalizing pool with
  | nil =>
    cases folded
    exact ⟨⟨[], by simp⟩, fun _ _ => by simp, id⟩
  | cons file rest ih =>
    rw [List.foldlM_cons] at folded
    obtain ⟨next, first, remaining⟩ := bind_eq_ok.mp folded
    have later := ih remaining
    rcases addFileDescriptorProto_ok (adds _ _ _ first) with ⟨known, rfl⟩ | ⟨fresh, files, distinct⟩
    · obtain ⟨new, grown, among⟩ := later.added
      refine ⟨⟨new, grown, fun file member => List.mem_cons_of_mem _ (among member)⟩, ?_, later.distinct⟩
      exact fun _ apart => absurd known (apart file (by simp))
    · obtain ⟨new, grown, among⟩ := later.added
      refine ⟨⟨file :: new, by simp [grown, files], ?_⟩, ?_, fun old => later.distinct (distinct old)⟩
      · exact List.cons_subset_cons file among
      · intro names apart
        obtain ⟨once, names⟩ := List.nodup_cons.mp names
        rw [later.all names ?_, files, List.append_assoc, List.singleton_append]
        intro other member
        simp only [files, List.map_append, List.mem_append, List.map_cons, List.map_nil, List.mem_singleton, not_or]
        refine ⟨apart other (by simp [member]), fun same => once ?_⟩
        exact List.mem_map.mpr ⟨other, member, same⟩

end DescriptorPool
end PgGrpc
