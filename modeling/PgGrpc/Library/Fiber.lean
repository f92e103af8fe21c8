import Mathlib

/-! Cooperative fibers over shared state. Between two awaits a fiber runs without
interruption, as on a single-threaded executor; at an await the environment
either answers the request or abandons the fiber, as an expired timeout does. -/

namespace PgGrpc.Library

inductive Fiber (σ ρ : Type) (reply : ρ → Type) (α : Type) where
  | done (value : α)
  | read (next : σ → Fiber σ ρ reply α)
  | write (change : σ → σ) (next : Fiber σ ρ reply α)
  | await (request : ρ) (next : reply request → Fiber σ ρ reply α)

namespace Fiber
variable {σ ρ : Type} {reply : ρ → Type} {α β γ : Type}

def bind (fiber : Fiber σ ρ reply α) (next : α → Fiber σ ρ reply β) : Fiber σ ρ reply β :=
  match fiber with
  | .done value => next value
  | .read rest => .read fun state => (rest state).bind next
  | .write change rest => .write change (rest.bind next)
  | .await request rest => .await request fun value => (rest value).bind next

instance : Monad (Fiber σ ρ reply) where
  pure := .done
  bind := .bind

def get : Fiber σ ρ reply σ := .read .done

def modify (change : σ → σ) : Fiber σ ρ reply Unit := .write change (.done ())

def request (r : ρ) : Fiber σ ρ reply (reply r) := .await r .done

/-- Run to the end or to the first await the environment does not answer. The
awaits are numbered, so that one answer function describes a whole run. -/
def drive (answer : Nat → (r : ρ) → Option (reply r)) : Fiber σ ρ reply α → Nat → σ → Option (α × Nat) × σ
  | .done value, asked, state => (some (value, asked), state)
  | .read next, asked, state => drive answer (next state) asked state
  | .write change next, asked, state => drive answer next asked (change state)
  | .await request next, asked, state =>
    match answer asked request with
    | none => (none, state)
    | some value => drive answer (next value) (asked + 1) state

/-- The environment leaves an await of the run unanswered. -/
def Abandoned (answer : Nat → (r : ρ) → Option (reply r)) : Fiber σ ρ reply α → Nat → σ → Prop
  | .done _, _, _ => False
  | .read next, asked, state => (next state).Abandoned answer asked state
  | .write change next, asked, state => next.Abandoned answer asked (change state)
  | .await request next, asked, state => ∀ value, answer asked request = some value →
      (next value).Abandoned answer (asked + 1) state

/-- Whatever state and replies it is given, the fiber awaits only requests of one
kind and makes only permitted changes. -/
def Within (asked : ρ → Prop) (permitted : σ → σ → Prop) : Fiber σ ρ reply α → Prop
  | .done _ => True
  | .read next => ∀ state, (next state).Within asked permitted
  | .write change next => (∀ state, permitted state (change state)) ∧ next.Within asked permitted
  | .await request next => asked request ∧ ∀ value, (next value).Within asked permitted

variable {answer other : Nat → (r : ρ) → Option (reply r)} {asked : ρ → Prop} {permitted : σ → σ → Prop}

@[simp] theorem pure_eq (value : α) : (Pure.pure value : Fiber σ ρ reply α) = .done value := rfl

@[simp] theorem bind_eq (fiber : Fiber σ ρ reply α) (next : α → Fiber σ ρ reply β) :
    fiber >>= next = fiber.bind next := rfl

@[simp] theorem done_bind (value : α) (next : α → Fiber σ ρ reply β) :
    (Fiber.done value).bind next = next value := rfl

@[simp] theorem map_eq (f : α → β) (fiber : Fiber σ ρ reply α) :
    f <$> fiber = fiber.bind fun value => .done (f value) := rfl

/-- A run of a sequence is the run of its first part and, if that ends, of the rest. -/
theorem drive_bind (fiber : Fiber σ ρ reply α) (next : α → Fiber σ ρ reply β) (asked : Nat) (state : σ) :
    drive answer (fiber.bind next) asked state =
      match drive answer fiber asked state with
      | (none, final) => (none, final)
      | (some (value, later), middle) => drive answer (next value) later middle := by
  induction fiber generalizing asked state with
  | done value => rfl
  | read rest ih => exact ih state asked state
  | write change rest ih => exact ih asked (change state)
  | await request rest ih =>
    simp only [bind, drive]
    cases answer asked request with
    | none => rfl
    | some value => exact ih value (asked + 1) state

theorem drive_eq_none {fiber : Fiber σ ρ reply α} {n : Nat} {state : σ} :
    (fiber.drive answer n state).1 = none ↔ fiber.Abandoned answer n state := by
  induction fiber generalizing n state with
  | done value => simp [drive, Abandoned]
  | read next ih => exact ih state
  | write change next ih => exact ih
  | await request next ih =>
    simp only [drive, Abandoned]
    cases answer n request with
    | none => simp
    | some value => simp [ih]

theorem Within.bind {fiber : Fiber σ ρ reply α} {next : α → Fiber σ ρ reply β}
    (first : fiber.Within asked permitted) (rest : ∀ value, (next value).Within asked permitted) :
    (fiber.bind next).Within asked permitted := by
  induction fiber with
  | done value => exact rest value
  | read next ih => exact fun state => ih state (first state)
  | write change next ih => exact ⟨first.1, ih first.2⟩
  | await request next ih => exact ⟨first.1, fun value => ih value (first.2 value)⟩

theorem Within.weaken {fiber : Fiber σ ρ reply α} {other : ρ → Prop} {allowed : σ → σ → Prop}
    (within : fiber.Within asked permitted) (asks : ∀ request, asked request → other request)
    (changes : ∀ before after, permitted before after → allowed before after) : fiber.Within other allowed := by
  induction fiber with
  | done value => trivial
  | read next ih => exact fun state => ih state (within state)
  | write change next ih => exact ⟨fun state => changes _ _ (within.1 state), ih within.2⟩
  | await request next ih => exact ⟨asks request within.1, fun value => ih value (within.2 value)⟩

/-- The changes of a run, finished or abandoned, compose to a permitted one. -/
theorem Within.changes {fiber : Fiber σ ρ reply α} (within : fiber.Within asked permitted)
    (refl : ∀ state, permitted state state)
    (trans : ∀ {a b c}, permitted a b → permitted b c → permitted a c) (n : Nat) (state : σ) :
    permitted state (fiber.drive answer n state).2 := by
  induction fiber generalizing n state with
  | done value => exact refl state
  | read next ih => exact ih state (within state) n state
  | write change next ih => exact trans (within.1 state) (ih within.2 n (change state))
  | await request next ih =>
    simp only [Fiber.drive]
    cases answer n request with
    | none => exact refl state
    | some value => exact ih value (within.2 value) (n + 1) state

/-- Two environments that answer the fiber's kind of requests alike drive it alike. -/
theorem Within.drive_congr {fiber : Fiber σ ρ reply α} (within : fiber.Within asked permitted)
    (same : ∀ n request, asked request → answer n request = other n request) (n : Nat) (state : σ) :
    fiber.drive answer n state = fiber.drive other n state := by
  induction fiber generalizing n state with
  | done value => rfl
  | read next ih => exact ih state (within state) n state
  | write change next ih => exact ih within.2 n (change state)
  | await request next ih =>
    simp only [Fiber.drive, same n request within.1]
    cases other n request with
    | none => rfl
    | some value => exact ih value (within.2 value) (n + 1) state

end Fiber
end PgGrpc.Library
