import Mathlib

/-! Lists without the elements of one kind at their two ends, and lists cut at the
last separator. -/

namespace PgGrpc.Library
variable {α : Type u} {p : α → Bool} {l : List α} {a : α}

/-- Without its leading and its trailing elements of the kind. -/
def strip (p : α → Bool) (l : List α) : List α := (l.dropWhile p).rdropWhile p

theorem strip_eq_nil : strip p l = [] ↔ ∀ a ∈ l, p a = true := by
  rw [strip, List.rdropWhile_eq_nil_iff]
  constructor
  · intro dropped
    rw [← List.dropWhile_eq_nil_iff]
    by_contra nonempty
    have head := List.head_dropWhile_not p nonempty
    rw [dropped _ (List.head_mem nonempty)] at head
    cases head
  · exact fun all a member => all a ((List.dropWhile_suffix p).subset member)

theorem strip_strip : strip p (strip p l) = strip p l := by
  have start : (strip p l).dropWhile p = strip p l := by
    rw [List.dropWhile_eq_self_iff]
    intro some_
    have nonempty : l.dropWhile p ≠ [] := by
      intro empty
      simp [strip, empty] at some_
    have same := (List.rdropWhile_prefix p (l.dropWhile p)).getElem some_
    change ¬ p (strip p l)[0] = true
    rw [show (strip p l)[0] = _ from same]
    exact List.dropWhile_get_zero_not p l _
  rw [strip, start]
  exact List.rdropWhile_idempotent p (l.dropWhile p)

/-- Elements of another kind stay. -/
theorem mem_strip (other : p a = false) : a ∈ strip p l ↔ a ∈ l := by
  have kept {l : List α} : a ∈ l.dropWhile p ↔ a ∈ l := by
    refine ⟨fun member => (List.dropWhile_suffix p).subset member, fun member => ?_⟩
    rw [← List.takeWhile_append_dropWhile (p := p) (l := l), List.mem_append] at member
    refine member.resolve_left fun dropped => ?_
    rw [List.mem_takeWhile_imp dropped] at other
    cases other
  rw [strip, List.rdropWhile, List.mem_reverse, kept, List.mem_reverse, kept]

variable [DecidableEq α]

/-- The parts before and after the last separator. -/
def cutLast (separator : α) (l : List α) : Option (List α × List α) :=
  match l.reverse.dropWhile (· != separator) with
  | [] => none
  | _ :: before => some (before.reverse, (l.reverse.takeWhile (· != separator)).reverse)

theorem cutLast_eq_some {separator : α} {before after : List α} :
    cutLast separator l = some (before, after) ↔ l = before ++ separator :: after ∧ separator ∉ after := by
  constructor
  · intro cut
    unfold cutLast at cut
    split at cut
    next => cases cut
    next first rest dropped =>
      cases cut
      have head := List.head_dropWhile_not (· != separator) (l := l.reverse) (by simp [dropped])
      have same : first = separator := by simpa [dropped] using head
      constructor
      · have whole := congrArg List.reverse (List.takeWhile_append_dropWhile (p := (· != separator)) (l := l.reverse))
        rw [dropped, same] at whole
        simpa using whole.symm
      · intro member
        have kept := List.mem_takeWhile_imp (List.mem_reverse.mp member)
        simp at kept
  · intro both
    obtain ⟨rfl, absent⟩ := both
    have apart : ∀ a ∈ after.reverse, (a != separator) = true := by
      intro a member
      exact bne_iff_ne.mpr fun same => absent (same ▸ List.mem_reverse.mp member)
    have taken : (after.reverse ++ separator :: before.reverse).takeWhile (· != separator) = after.reverse := by
      rw [List.takeWhile_append_of_pos apart]
      simp
    have dropped : (after.reverse ++ separator :: before.reverse).dropWhile (· != separator) = separator :: before.reverse := by
      rw [List.dropWhile_append_of_pos apart]
      simp
    have reversed : (before ++ separator :: after).reverse = after.reverse ++ separator :: before.reverse := by simp
    simp only [cutLast, reversed, taken, dropped, List.reverse_reverse]

end PgGrpc.Library
