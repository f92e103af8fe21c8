import PgGrpc.Library.Strip
import PgGrpc.Text

/-! The string functions on the lists of their characters: what trimming leaves, and
where `rsplit_once` cuts. -/

namespace PgGrpc.Text
open Library

def Blank (s : String) : Prop := ∀ c ∈ s.toList, isWhitespace c = true

@[simp] theorem toList_trim (s : String) : (trim s).toList = strip isWhitespace s.toList := by
  rw [trim, String.toList_ofList]
  rfl

theorem isEmpty_iff {s : String} : s.isEmpty = true ↔ s.toList = [] := by
  rw [String.isEmpty_iff, ← String.toList_inj]
  rfl

theorem trim_isEmpty {s : String} : (trim s).isEmpty = true ↔ Blank s := by
  rw [isEmpty_iff, toList_trim, strip_eq_nil]
  rfl

theorem trim_trim (s : String) : trim (trim s) = trim s := by
  rw [← String.toList_inj, toList_trim, toList_trim, strip_strip]

theorem mem_trim {s : String} {c : Char} (visible : isWhitespace c = false) : c ∈ (trim s).toList ↔ c ∈ s.toList := by
  rw [toList_trim, mem_strip visible]

theorem blank_trim {s : String} : Blank (trim s) ↔ Blank s := by
  rw [← trim_isEmpty, trim_trim, trim_isEmpty]

theorem before_eq_self {s : String} {c : Char} : before s c = s ↔ c ∉ s.toList := by
  rw [before, ← String.toList_inj, String.toList_ofList, List.takeWhile_eq_self_iff]
  simp only [bne_iff_ne]
  exact ⟨fun differ member => differ c member rfl, fun free other member same => free (same ▸ member)⟩

theorem rsplitOnce_eq {s : String} {separator : Char} :
    rsplitOnce s separator = (cutLast separator s.toList).map fun parts => (String.ofList parts.1, String.ofList parts.2) := by
  unfold rsplitOnce cutLast
  split
  next empty => simp only [empty]; rfl
  next cut => simp only [cut]; rfl

theorem rsplitOnce_some {s before after : String} {separator : Char} :
    rsplitOnce s separator = some (before, after) ↔
      s.toList = before.toList ++ separator :: after.toList ∧ separator ∉ after.toList := by
  rw [rsplitOnce_eq, ← cutLast_eq_some, Option.map_eq_some_iff]
  constructor
  · intro cut
    obtain ⟨parts, found, same⟩ := cut
    cases same
    rw [String.toList_ofList, String.toList_ofList, found]
  · exact fun found => ⟨_, found, by rw [String.ofList_toList, String.ofList_toList]⟩

end PgGrpc.Text
