import Mathlib

/-! Loops that check each item and break off at the first one refused. Such a loop
ends well exactly when every item passes its check at what the items before it
have built, and loops of such loops are of the same kind. -/

namespace PgGrpc.Library.Guarded
variable {σ α β ε : Type*}

/-- The step fails exactly where its check does, and otherwise has the effect given. -/
def Steps (step : σ → α → Except ε σ) (guard : σ → α → Prop) (next : σ → α → σ) : Prop :=
  ∀ state item after, step state item = .ok after ↔ guard state item ∧ after = next state item

/-- Every item passes its check at what the items before it have made of the state. -/
def Passes (guard : σ → α → Prop) (next : σ → α → σ) (state : σ) (items : List α) : Prop :=
  ∀ before item rest, items = before ++ item :: rest → guard (before.foldl next state) item

variable {step : σ → α → Except ε σ} {guard : σ → α → Prop} {next : σ → α → σ} {state : σ}

theorem passes_nil : Passes guard next state [] := fun before item rest same => absurd same (by simp)

theorem passes_cons {item : α} {rest : List α} :
    Passes guard next state (item :: rest) ↔ guard state item ∧ Passes guard next (next state item) rest := by
  constructor
  · intro all
    refine ⟨all [] item rest rfl, fun before other later same => ?_⟩
    exact all (item :: before) other later (congrArg (item :: ·) same)
  · intro both before other later same
    cases before with
    | nil =>
      cases same
      exact both.1
    | cons head tail =>
      obtain ⟨rfl, shifted⟩ := List.cons.inj same
      exact both.2 tail other later shifted

theorem passes_append {first last : List α} :
    Passes guard next state (first ++ last) ↔
      Passes guard next state first ∧ Passes guard next (first.foldl next state) last := by
  induction first generalizing state with
  | nil => simp [passes_nil]
  | cons item rest ih => rw [List.cons_append, passes_cons, passes_cons, ih, List.foldl_cons, and_assoc]

/-- A check that does not look at the state is made of each item on its own. -/
theorem passes_const {check : α → Prop} {items : List α} :
    Passes (fun _ => check) next state items ↔ ∀ item ∈ items, check item := by
  induction items generalizing state with
  | nil => simp [passes_nil]
  | cons item rest ih => rw [passes_cons, ih, List.forall_mem_cons]

theorem passes_map {item : β → α} {messages : List β} :
    Passes (fun state message => guard state (item message)) (fun state message => next state (item message)) state messages ↔
      Passes guard next state (messages.map item) := by
  induction messages generalizing state with
  | nil => simp [passes_nil]
  | cons message rest ih => rw [passes_cons, ih, List.map_cons, passes_cons]

/-- How the items are split over inner loops plays no part. -/
theorem passes_flatten {chunks : List (List α)} :
    Passes (Passes guard next) (fun state chunk => chunk.foldl next state) state chunks ↔
      Passes guard next state chunks.flatten := by
  induction chunks generalizing state with
  | nil => simp [passes_nil]
  | cons chunk rest ih => rw [passes_cons, ih, List.flatten_cons, passes_append]

theorem Steps.foldlM (steps : Steps step guard next) :
    Steps (fun state (items : List α) => items.foldlM step state) (Passes guard next)
      fun state items => items.foldl next state := by
  intro state items after
  change items.foldlM step state = .ok after ↔ _ ∧ after = items.foldl next state
  induction items generalizing state with
  | nil => simp [passes_nil, pure, Except.pure, eq_comm]
  | cons item rest ih =>
    rw [List.foldlM_cons, passes_cons, List.foldl_cons]
    cases ran : step state item with
    | ok middle =>
      obtain ⟨passed, rfl⟩ := (steps state item middle).mp ran
      simpa [bind, Except.bind, passed] using ih (next state item)
    | error failed =>
      have refused : ¬ guard state item := by
        intro passes
        rw [(steps state item (next state item)).mpr ⟨passes, rfl⟩] at ran
        cases ran
      simp [bind, Except.bind, refused]

/-- A loop over chunks, each of which it loops over, is one over the items of all of them. -/
theorem Steps.nested (steps : Steps step guard next) :
    Steps (fun state (chunks : List (List α)) => chunks.foldlM (fun state chunk => chunk.foldlM step state) state)
      (fun state chunks => Passes guard next state chunks.flatten) fun state chunks => chunks.flatten.foldl next state := by
  intro state chunks after
  change _ ↔ Passes guard next state chunks.flatten ∧ after = chunks.flatten.foldl next state
  rw [← passes_flatten, List.foldl_flatten]
  exact steps.foldlM.foldlM state chunks after

/-- A loop that looks at each item on its own and appends what it makes of it. -/
theorem Steps.appends {check : α → Prop} {made : α → List β} {step : List β → α → Except ε (List β)}
    (steps : Steps step (fun _ => check) fun before item => before ++ made item) (items : List α) (before after : List β) :
    items.foldlM step before = .ok after ↔ (∀ item ∈ items, check item) ∧ after = before ++ items.flatMap made := by
  have looped := steps.foldlM before items after
  simp only [passes_const, List.foldl_append_eq_append, ← List.flatMap_def] at looped
  exact looped

/-- A loop that breaks off does so at one of its items, with what the items before it have built. -/
theorem foldlM_error {items : List α} {error : ε} (broke : items.foldlM step state = .error error) :
    ∃ before item rest middle, items = before ++ item :: rest ∧ before.foldlM step state = .ok middle ∧
      step middle item = .error error := by
  induction items generalizing state with
  | nil => cases broke
  | cons item rest ih =>
    rw [List.foldlM_cons] at broke
    cases first : step state item with
    | error failed =>
      rw [first] at broke
      cases broke
      exact ⟨[], item, rest, state, rfl, rfl, first⟩
    | ok middle =>
      rw [first] at broke
      obtain ⟨before, other, later, last, rfl, built, failed⟩ := ih broke
      refine ⟨item :: before, other, later, last, rfl, ?_, failed⟩
      rw [List.foldlM_cons, first]
      exact built

/-- What each round of such a loop preserves the loop preserves. -/
theorem foldlM_preserves {kept : σ → Prop}
    (round : ∀ state item after, step state item = .ok after → kept state → kept after) {items : List α} {after : σ}
    (ran : items.foldlM step state = .ok after) (holds : kept state) : kept after := by
  induction items generalizing state with
  | nil => cases ran; exact holds
  | cons item rest ih =>
    rw [List.foldlM_cons] at ran
    cases first : step state item with
    | error failed =>
      rw [first] at ran
      cases ran
    | ok middle =>
      rw [first] at ran
      exact ih ran (round state item middle first holds)

end PgGrpc.Library.Guarded
