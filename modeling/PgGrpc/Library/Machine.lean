import Mathlib

/-! Machines driven by events. The step is an executable partial function, so a
concrete run can be evaluated; nondeterminism is the choice of the next event. -/

namespace PgGrpc.Library

structure Machine (σ : Type u) (ε : Type v) where
  initial : σ → Prop
  step : σ → ε → Option σ

namespace Machine
variable {σ : Type u} {ε : Type v}

def run (m : Machine σ ε) : σ → List ε → Option σ
  | state, [] => some state
  | state, event :: rest => (m.step state event).bind fun next => m.run next rest

/-- A run whose every step satisfies a condition on the state before the step
and on the event taken there. -/
inductive Path (m : Machine σ ε) (allowed : σ → ε → Prop) : σ → List ε → σ → Prop where
  | nil {state} : Path m allowed state [] state
  | cons {state event next rest final} (permitted : allowed state event)
      (taken : m.step state event = some next) (remaining : Path m allowed next rest final) :
      Path m allowed state (event :: rest) final

/-- The states of all runs from an initial state whose steps are all allowed. -/
inductive Reaches (m : Machine σ ε) (allowed : σ → ε → Prop) : σ → Prop where
  | start {state} (initial : m.initial state) : Reaches m allowed state
  | next {state event after} (before : Reaches m allowed state) (permitted : allowed state event)
      (taken : m.step state event = some after) : Reaches m allowed after

def Any (_ : σ) (_ : ε) : Prop := True

abbrev Reachable (m : Machine σ ε) : σ → Prop := m.Reaches Any

variable {m : Machine σ ε} {allowed other : σ → ε → Prop}

@[simp] theorem run_nil (state : σ) : m.run state [] = some state := rfl

@[simp] theorem run_cons (state : σ) (event : ε) (rest : List ε) :
    m.run state (event :: rest) = (m.step state event).bind fun next => m.run next rest := rfl

theorem Path.append {state middle final : σ} {first last : List ε} (before : m.Path allowed state first middle)
    (after : m.Path allowed middle last final) : m.Path allowed state (first ++ last) final := by
  induction before with
  | nil => exact after
  | cons permitted taken _ ih => exact .cons permitted taken (ih after)

theorem Path.weaken {state final : σ} {events : List ε} (path : m.Path allowed state events final)
    (implies : ∀ before event, allowed before event → other before event) : m.Path other state events final := by
  induction path with
  | nil => exact .nil
  | cons permitted taken _ ih => exact .cons (implies _ _ permitted) taken ih

/-- A condition that speaks of events alone is checked on the list of events. -/
theorem path_of_run (condition : ε → Prop) {state final : σ} {events : List ε}
    (permitted : ∀ event ∈ events, condition event) (executed : m.run state events = some final) :
    m.Path (fun _ event => condition event) state events final := by
  induction events generalizing state with
  | nil => cases executed; exact .nil
  | cons event rest ih =>
    obtain ⟨next, taken, remaining⟩ := Option.bind_eq_some_iff.mp executed
    exact .cons (permitted event (by simp)) taken (ih (fun later member => permitted later (by simp [member])) remaining)

theorem run_append (first last : List ε) (state : σ) :
    m.run state (first ++ last) = (m.run state first).bind fun middle => m.run middle last := by
  induction first generalizing state with
  | nil => rfl
  | cons event rest ih =>
    simp only [List.cons_append, run_cons, Option.bind_assoc]
    exact Option.bind_congr fun next _ => ih next

theorem Path.run {state final : σ} {events : List ε} (path : m.Path allowed state events final) :
    m.run state events = some final := by
  induction path with
  | nil => rfl
  | cons _ taken _ ih => rw [run_cons, taken, Option.bind_some, ih]

/-- A run is a path when each of its steps is allowed where it is taken. -/
theorem path_iff {state final : σ} {events : List ε} :
    m.Path allowed state events final ↔ m.run state events = some final ∧
      ∀ before event rest middle, events = before ++ event :: rest → m.run state before = some middle →
        allowed middle event := by
  constructor
  · intro path
    refine ⟨path.run, ?_⟩
    induction path with
    | nil => exact fun before event rest _ same => absurd same (by simp)
    | @cons state event next rest final permitted taken _ ih =>
      intro before other later middle same executed
      cases before with
      | nil =>
        cases same
        cases executed
        exact permitted
      | cons head tail =>
        obtain ⟨rfl, shifted⟩ := List.cons.inj same
        rw [run_cons, taken, Option.bind_some] at executed
        exact ih tail other later middle shifted executed
  · intro both
    obtain ⟨executed, each⟩ := both
    induction events generalizing state with
    | nil => cases executed; exact .nil
    | cons event rest ih =>
      obtain ⟨next, taken, remaining⟩ := Option.bind_eq_some_iff.mp executed
      refine .cons (each [] event rest state rfl rfl) taken (ih remaining ?_)
      intro before other later middle same ran
      refine each (event :: before) other later middle (congrArg (event :: ·) same) ?_
      rw [run_cons, taken, Option.bind_some, ran]

/-- One step lemma gives the run lemma. -/
theorem Path.preserves {state final : σ} {events : List ε} (path : m.Path allowed state events final) (kept : σ → Prop)
    (step : ∀ before event after, allowed before event → m.step before event = some after → kept before → kept after)
    (holds : kept state) : kept final := by
  induction path with
  | nil => exact holds
  | cons permitted taken _ ih => exact ih (step _ _ _ permitted taken holds)

theorem Path.and {state final : σ} {events : List ε} (path : m.Path allowed state events final)
    (too : m.Path other state events final) :
    m.Path (fun before event => allowed before event ∧ other before event) state events final := by
  refine path_iff.mpr ⟨path.run, fun before event rest middle same executed => ?_⟩
  exact ⟨(path_iff.mp path).2 before event rest middle same executed,
    (path_iff.mp too).2 before event rest middle same executed⟩

theorem Path.all {condition : ε → Prop} {state final : σ} {events : List ε}
    (path : m.Path (fun _ event => condition event) state events final) : ∀ event ∈ events, condition event := by
  induction path with
  | nil => exact List.forall_mem_nil _
  | cons permitted _ _ ih => exact List.forall_mem_cons.mpr ⟨permitted, ih⟩

/-- The last step of a run that satisfies a condition, if any does. -/
theorem run_last (condition : σ → ε → Prop) {state final : σ} {events : List ε} (executed : m.run state events = some final) :
    m.Path (fun before event => ¬ condition before event) state events final ∨
    ∃ first event last middle next, events = first ++ event :: last ∧ m.run state first = some middle ∧
      condition middle event ∧ m.step middle event = some next ∧
      m.Path (fun before event => ¬ condition before event) next last final := by
  induction events generalizing state with
  | nil => cases executed; exact .inl .nil
  | cons event rest ih =>
    obtain ⟨next, taken, remaining⟩ := Option.bind_eq_some_iff.mp executed
    rcases ih remaining with quiet | ⟨first, other, last, middle, after, same, ran, holds, moved, path⟩
    · by_cases holds : condition state event
      · exact .inr ⟨[], event, rest, state, next, rfl, rfl, holds, taken, quiet⟩
      · exact .inl (.cons holds taken quiet)
    · refine .inr ⟨event :: first, other, last, middle, after, congrArg (event :: ·) same, ?_, holds, moved, path⟩
      rw [run_cons, taken, Option.bind_some, ran]

/-- Where each step that counts lowers a rank by one, the rank says how many of them are left. -/
theorem Path.ranked {state final : σ} {events : List ε} (path : m.Path allowed state events final) (rank : σ → Nat)
    (counts : ε → Bool) (kept : σ → Prop)
    (step : ∀ before event after, allowed before event → m.step before event = some after → kept before →
      kept after ∧ rank after + (if counts event then 1 else 0) = rank before)
    (holds : kept state) : rank final + events.countP counts = rank state := by
  induction path with
  | nil => rfl
  | cons permitted taken _ ih =>
    obtain ⟨kept, lower⟩ := step _ _ _ permitted taken holds
    rw [List.countP_cons, ← lower, ← ih kept, Nat.add_assoc]

/-- Where each step that counts spends one of a rank that no step raises, the rank bounds them. -/
theorem Path.spends {state final : σ} {events : List ε} (path : m.Path allowed state events final) (rank : σ → Nat)
    (counts : ε → Bool) (kept : σ → Prop)
    (step : ∀ before event after, allowed before event → m.step before event = some after → kept before →
      kept after ∧ rank after + (if counts event then 1 else 0) ≤ rank before)
    (holds : kept state) : rank final + events.countP counts ≤ rank state := by
  induction path with
  | nil => exact Nat.le_refl _
  | cons permitted taken _ ih =>
    obtain ⟨kept, lower⟩ := step _ _ _ permitted taken holds
    have later := ih kept
    rw [List.countP_cons]
    omega

/-- Where every state short of the goal has a step that lowers a rank, some path leads to the goal. -/
theorem leads_to (rank : σ → Nat) (kept goal : σ → Prop)
    (step : ∀ state, kept state → ¬ goal state → ∃ event after, allowed state event ∧ m.step state event = some after ∧
      kept after ∧ rank after < rank state)
    {state : σ} (holds : kept state) : ∃ events final, m.Path allowed state events final ∧ goal final := by
  induction size : rank state using Nat.strong_induction_on generalizing state with
  | _ size ih =>
    by_cases there : goal state
    · exact ⟨[], state, .nil, there⟩
    · obtain ⟨event, after, permitted, taken, kept, lower⟩ := step state holds there
      obtain ⟨events, final, path, reached⟩ := ih (rank after) (size ▸ lower) kept rfl
      exact ⟨event :: events, final, .cons permitted taken path, reached⟩

/-- What an observer of the steps notes down in the course of a run. -/
def observed (m : Machine σ ε) (observe : σ → ε → Option ω) : σ → List ε → List ω
  | _, [] => []
  | state, event :: rest =>
    (observe state event).toList ++ (m.step state event).elim [] fun next => m.observed observe next rest

/-- The run rule for what has been noted so far. -/
theorem Path.observed {observe : σ → ε → Option ω} {state final : σ} {events : List ε}
    (path : m.Path allowed state events final) (kept : List ω → σ → Prop)
    (step : ∀ noted before event after, allowed before event → m.step before event = some after → kept noted before →
      kept (noted ++ (observe before event).toList) after)
    {noted : List ω} (holds : kept noted state) : kept (noted ++ m.observed observe state events) final := by
  induction path generalizing noted with
  | nil => rwa [Machine.observed, List.append_nil]
  | cons permitted taken _ ih =>
    have later := ih (step noted _ _ _ permitted taken holds)
    rw [List.append_assoc] at later
    rwa [Machine.observed, taken, Option.elim_some]

theorem Reaches.path {state final : σ} {events : List ε} (reached : m.Reaches allowed state)
    (path : m.Path allowed state events final) : m.Reaches allowed final :=
  path.preserves (m.Reaches allowed) (fun _ _ _ permitted taken before => .next before permitted taken) reached

theorem Reaches.weaken {state : σ} (reached : m.Reaches allowed state)
    (implies : ∀ before event, allowed before event → other before event) : m.Reaches other state := by
  induction reached with
  | start initial => exact .start initial
  | next _ permitted taken ih => exact .next ih (implies _ _ permitted) taken

/-- The invariant rule. The step case may use that its state is itself reached,
so that an invariant can rest on one proved before it. -/
theorem Reaches.invariant {state : σ} (reached : m.Reaches allowed state) (kept : σ → Prop)
    (initial : ∀ start, m.initial start → kept start)
    (step : ∀ before event after, m.Reaches allowed before → allowed before event →
      m.step before event = some after → kept before → kept after) : kept state := by
  induction reached with
  | start begins => exact initial _ begins
  | next before permitted taken ih => exact step _ _ _ before permitted taken ih

theorem reachable_of_run {state final : σ} {events : List ε} (initial : m.initial state)
    (executed : m.run state events = some final) : m.Reachable final :=
  (Reaches.start initial).path (path_of_run (fun _ => True) (fun _ _ => trivial) executed)

theorem exists_of_run (m : Machine σ ε) {start : σ} (initial : m.initial start) (events : List ε) (check : σ → Bool)
    (executed : (m.run start events).map check = some true) :
    ∃ final, m.run start events = some final ∧ m.Reachable final ∧ check final = true := by
  obtain ⟨final, found, checked⟩ := Option.map_eq_some_iff.mp executed
  exact ⟨final, found, reachable_of_run initial found, checked⟩

/-- The machine that refuses the steps a test does not let through. -/
def guarded (m : Machine σ ε) (check : σ → ε → Bool) : Machine σ ε where
  initial := m.initial
  step state event := if check state event then m.step state event else none

theorem path_of_guarded {check : σ → ε → Bool} {state final : σ} {events : List ε}
    (executed : (m.guarded check).run state events = some final) :
    m.Path (fun state event => check state event = true) state events final := by
  induction events generalizing state with
  | nil => cases executed; exact .nil
  | cons event rest ih =>
    obtain ⟨next, taken, remaining⟩ := Option.bind_eq_some_iff.mp executed
    obtain ⟨permitted, moved⟩ := Option.ite_none_right_eq_some.mp taken
    exact .cons permitted moved (ih remaining)

/-- An evaluated run whose steps pass a test that allows them. -/
theorem exists_allowed (m : Machine σ ε) (check : σ → ε → Bool)
    (permits : ∀ state event, check state event = true → allowed state event) {start : σ} (initial : m.initial start)
    (events : List ε) (goal : σ → Bool) (executed : ((m.guarded check).run start events).map goal = some true) :
    ∃ final, m.Path (fun state event => check state event = true) start events final ∧ m.Reaches allowed final ∧
      goal final = true := by
  obtain ⟨final, found, reaches⟩ := Option.map_eq_some_iff.mp executed
  have path := path_of_guarded found
  exact ⟨final, path, (Reaches.start initial).path (path.weaken permits), reaches⟩

/-- A view of a concrete machine whose every step is a run of an abstract one. -/
structure Simulates (concrete : Machine σ ε) (abstract : Machine τ δ) (view : σ → τ) : Prop where
  initial : ∀ state, concrete.initial state → abstract.initial (view state)
  step : ∀ before event after, concrete.step before event = some after →
    ∃ events, abstract.run (view before) events = some (view after)

theorem Simulates.reachable {concrete : Machine σ ε} {abstract : Machine τ δ} {view : σ → τ}
    (simulates : concrete.Simulates abstract view) {state : σ} (reached : concrete.Reaches allowed state) :
    abstract.Reachable (view state) := by
  induction reached with
  | start initial => exact .start (simulates.initial _ initial)
  | next _ _ taken ih =>
    obtain ⟨events, executed⟩ := simulates.step _ _ _ taken
    exact ih.path (path_of_run (fun _ => True) (fun _ _ => trivial) executed)

end Machine
end PgGrpc.Library
