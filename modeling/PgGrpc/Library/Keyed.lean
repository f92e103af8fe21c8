import Mathlib

/-! Tables as lists of rows with a key: the rows an ordered and limited select
picks, the rows a delete removes, and the check of a primary key at an insert. -/

namespace PgGrpc.Library.Keyed
variable {ρ : Type u} {κ : Type v}

theorem map_filter_nodup (key : ρ → κ) {rows : List ρ} (distinct : (rows.map key).Nodup) (keep : ρ → Bool) :
    ((rows.filter keep).map key).Nodup :=
  distinct.sublist (List.filter_sublist.map key)

/-- Deleting by their keys the rows a condition selects leaves the rows it does not select. -/
theorem filter_without [BEq κ] [LawfulBEq κ] (key : ρ → κ) {rows : List ρ} (distinct : (rows.map key).Nodup)
    (old : ρ → Bool) :
    (rows.filter fun row => !((rows.filter old).map key).contains (key row)) = rows.filter fun row => !old row := by
  apply List.filter_congr
  intro row member
  apply congrArg
  rw [Bool.eq_iff_iff, List.contains_iff_mem, List.mem_map]
  constructor
  · intro selects
    obtain ⟨other, selected, same⟩ := selects
    obtain ⟨among, isOld⟩ := List.mem_filter.mp selected
    rwa [← List.inj_on_of_nodup_map distinct among member same]
  · exact fun isOld => ⟨row, List.mem_filter.mpr ⟨member, isOld⟩, rfl⟩

theorem lookup_eq_some [BEq κ] [LawfulBEq κ] {entries : List (κ × ρ)} (distinct : (entries.map Prod.fst).Nodup) {k : κ}
    {row : ρ} : entries.lookup k = some row ↔ (k, row) ∈ entries := by
  induction entries with
  | nil => simp
  | cons head rest ih =>
    obtain ⟨key, first⟩ := head
    obtain ⟨fresh, distinct⟩ := List.nodup_cons.mp distinct
    by_cases same : k = key
    · subst same
      have absent : (k, row) ∉ rest := fun member => fresh (List.mem_map.mpr ⟨(k, row), member, rfl⟩)
      simp [absent, eq_comm]
    · simp [List.lookup_cons, beq_eq_false_iff_ne.mpr same, ih distinct, same]

theorem lookup_perm [BEq κ] [LawfulBEq κ] {entries other : List (κ × ρ)} (distinct : (entries.map Prod.fst).Nodup)
    (same : entries.Perm other) (k : κ) : entries.lookup k = other.lookup k := by
  have distinct' := (same.map Prod.fst).nodup_iff.mp distinct
  apply Option.ext
  intro row
  rw [lookup_eq_some distinct, lookup_eq_some distinct', same.mem_iff]

variable [LinearOrder κ]

def smallest (n : Nat) (keys : List κ) : List κ := (keys.insertionSort (· ≤ ·)).take n

/-- The first key of the new ones that is already present, or new twice. -/
def firstClash (present : List κ) : List κ → Option κ
  | [] => none
  | key :: rest => if present.contains key then some key else firstClash (key :: present) rest

theorem smallest_subset {n : Nat} {keys : List κ} {k : κ} (member : k ∈ smallest n keys) : k ∈ keys :=
  (List.mem_insertionSort _).mp (List.mem_of_mem_take member)

theorem smallest_nodup {keys : List κ} (distinct : keys.Nodup) (n : Nat) : (smallest n keys).Nodup :=
  ((List.perm_insertionSort _ keys).nodup_iff.mpr distinct).sublist (List.take_sublist _ _)

@[simp] theorem length_smallest (n : Nat) (keys : List κ) : (smallest n keys).length = min n keys.length := by
  simp [smallest]

theorem smallest_eq_nil {n : Nat} (positive : 1 ≤ n) {keys : List κ} : smallest n keys = [] ↔ keys = [] := by
  rw [← List.length_eq_zero_iff, ← List.length_eq_zero_iff (l := keys), length_smallest]
  omega

/-- Every key picked is at most every key left behind. -/
theorem smallest_le {n : Nat} {keys : List κ} {picked left : κ} (member : picked ∈ smallest n keys)
    (present : left ∈ keys) (behind : left ∉ smallest n keys) : picked ≤ left := by
  have sorted : (keys.insertionSort (· ≤ ·)).Pairwise (· ≤ ·) := List.pairwise_insertionSort _ keys
  rw [← List.take_append_drop n (keys.insertionSort (· ≤ ·))] at sorted
  have later : left ∈ (keys.insertionSort (· ≤ ·)).drop n := by
    have split := (List.mem_insertionSort (· ≤ ·)).mpr present
    rw [← List.take_append_drop n (keys.insertionSort (· ≤ ·)), List.mem_append] at split
    exact split.resolve_left behind
  exact (List.pairwise_append.mp sorted).2.2 picked member left later

theorem firstClash_eq_none {present new : List κ} :
    firstClash present new = none ↔ new.Nodup ∧ ∀ k ∈ new, k ∉ present := by
  induction new generalizing present with
  | nil => simp [firstClash]
  | cons key rest ih =>
    by_cases member : key ∈ present
    · simp [firstClash, member]
    · simp only [firstClash, List.contains_eq_mem, member, decide_false, Bool.false_eq_true, if_false, ih,
        List.mem_cons, List.nodup_cons]
      constructor
      · intro both
        obtain ⟨distinct, apart⟩ := both
        refine ⟨⟨fun again => (apart key again) (.inl rfl), distinct⟩, ?_⟩
        intro k new
        rcases new with rfl | later
        · exact member
        · exact fun old => apart k later (.inr old)
      · intro both
        obtain ⟨⟨once, distinct⟩, apart⟩ := both
        refine ⟨distinct, ?_⟩
        intro k later there
        rcases there with rfl | old
        · exact once later
        · exact apart k (.inr later) old

theorem map_filter_perm (key : ρ → κ) {rows : List ρ} {keys : List κ} (distinct : (rows.map key).Nodup)
    (once : keys.Nodup) (present : ∀ k ∈ keys, k ∈ rows.map key) :
    ((rows.filter fun row => keys.contains (key row)).map key).Perm keys := by
  have picked : (rows.filter fun row => keys.contains (key row)).map key = (rows.map key).filter keys.contains := by
    simp only [List.filter_map, Function.comp_def]
  rw [picked]
  apply (List.perm_ext_iff_of_nodup (distinct.filter _) once).mpr
  intro k
  simp only [List.mem_filter, List.contains_eq_mem, decide_eq_true_eq]
  exact ⟨fun both => both.2, fun member => ⟨present k member, member⟩⟩

theorem mem_map_without (key : ρ → κ) {rows : List ρ} {keys : List κ} {k : κ} :
    k ∈ (rows.filter fun row => !keys.contains (key row)).map key ↔ k ∈ rows.map key ∧ k ∉ keys := by
  simp only [List.mem_map, List.mem_filter, List.contains_eq_mem, Bool.not_eq_true', decide_eq_false_iff_not]
  constructor
  · intro left
    obtain ⟨row, ⟨member, kept⟩, rfl⟩ := left
    exact ⟨⟨row, member, rfl⟩, kept⟩
  · intro both
    obtain ⟨⟨row, member, rfl⟩, kept⟩ := both
    exact ⟨row, ⟨member, kept⟩, rfl⟩

end PgGrpc.Library.Keyed
