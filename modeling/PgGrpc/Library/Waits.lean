import PgGrpc.Library.Tasks

/-! What a task waits for, and what it will do with the reply. A description of its
awaits that holds of every task on its own, however the state drifts while it is
suspended, holds of all the tasks in flight. -/

namespace PgGrpc.Library
variable {σ ρ : Type} {reply : ρ → Type} {κ α β ω : Type} {drift : σ → σ → Prop}

section Preorder
variable [Std.Refl drift] [IsTrans σ drift]

namespace Fiber

/-- A description of an await: of the state, the request, and the rest of the fiber. -/
abbrev Await (σ ρ : Type) (reply : ρ → Type) (α : Type) :=
  σ → (request : ρ) → (reply request → Fiber σ ρ reply α) → Prop

/-- Every await the fiber comes to is as described, whatever it is replied and however
the state drifts until then. The fiber itself changes the state no other way. -/
inductive Waits (drift : σ → σ → Prop) (described : Await σ ρ reply α) : Fiber σ ρ reply α → σ → Prop where
  | done {value state} : Waits drift described (.done value) state
  | read {next state} (rest : Waits drift described (next state) state) : Waits drift described (.read next) state
  | write {change next state} (drifts : drift state (change state)) (rest : Waits drift described next (change state)) :
      Waits drift described (.write change next) state
  | await {request next state} (here : ∀ later, drift state later → described later request next)
      (rest : ∀ later value, drift state later → Waits drift described (next value) later) :
      Waits drift described (.await request next) state

/-- A first part of which nothing is described may come before. -/
theorem Waits.bind {described : Await σ ρ reply β} {asked : ρ → Prop} {fiber : Fiber σ ρ reply α}
    {next : α → Fiber σ ρ reply β} {state : σ} (first : fiber.Within asked drift)
    (apart : ∀ state request rest, asked request → described state request rest)
    (rest : ∀ value later, drift state later → (next value).Waits drift described later) :
    (fiber.bind next).Waits drift described state := by
  induction fiber generalizing state with
  | done value => exact rest value state (Std.Refl.refl state)
  | read more ih => exact .read (ih state (first state) rest)
  | write change more ih =>
    refine .write (first.1 state) (ih first.2 fun value later further => ?_)
    exact rest value later (IsTrans.trans _ _ _ (first.1 state) further)
  | await request more ih =>
    refine .await (fun later _ => apart later request _ first.1) fun later value drifted => ?_
    exact ih value (first.2 value) fun answer final further => rest answer final (IsTrans.trans _ _ _ drifted further)

omit [Std.Refl drift] in
/-- A fiber that waits may wait longer. -/
theorem Waits.later {described : Await σ ρ reply α} {request : ρ} {next : reply request → Fiber σ ρ reply α}
    {state after : σ} (waits : (Fiber.await request next).Waits drift described state) (drifted : drift state after) :
    (Fiber.await request next).Waits drift described after := by
  cases waits with
  | await here rest =>
    exact .await (fun final further => here final (IsTrans.trans _ _ _ drifted further))
      fun final value further => rest final value (IsTrans.trans _ _ _ drifted further)

theorem Waits.advance {described : Await σ ρ reply α} {fiber : Fiber σ ρ reply α} {state : σ}
    (waits : fiber.Waits drift described state) :
    drift state (fiber.advance state).2 ∧ (fiber.advance state).1.Waits drift described (fiber.advance state).2 := by
  induction waits with
  | done => exact ⟨Std.Refl.refl _, .done⟩
  | read rest ih => exact ih
  | write drifts rest ih => exact ⟨IsTrans.trans _ _ _ drifts ih.1, ih.2⟩
  | await here rest => exact ⟨Std.Refl.refl _, .await here rest⟩

theorem Waits.resume {described : Await σ ρ reply α} {fiber : Fiber σ ρ reply α} {state : σ}
    (waits : fiber.Waits drift described state) (answer : (r : ρ) → reply r) :
    drift state (fiber.resume answer state).2 ∧
      (fiber.resume answer state).1.Waits drift described (fiber.resume answer state).2 := by
  cases waits with
  | await here rest => exact (rest state _ (Std.Refl.refl state)).advance
  | done => exact Waits.done.advance
  | read rest => exact (Waits.read rest).advance
  | write drifts rest => exact (Waits.write drifts rest).advance

end Fiber

namespace Tasks
variable {body : κ → Fiber σ ρ reply α} {operate : ω → σ → σ} {described : κ → Fiber.Await σ ρ reply α}
  {tasks after : Tasks σ ρ reply κ α} {turn : Turn ρ reply κ ω}

def AllWait (drift : σ → σ → Prop) (described : κ → Fiber.Await σ ρ reply α) (tasks : Tasks σ ρ reply κ α) : Prop :=
  ∀ task ∈ tasks.running, ∀ later, drift tasks.shared later → task.2.Waits drift (described task.1) later

theorem AllWait.advances (waits : AllWait drift described tasks)
    (bodies : ∀ call state, (body call).Waits drift (described call) state)
    (taken : step body operate tasks turn = some after) : AllWait drift described after := by
  have others {shared : σ} (drifted : drift tasks.shared shared) (task) (member : task ∈ tasks.running) :
      ∀ later, drift shared later → task.2.Waits drift (described task.1) later :=
    fun later further => waits task member later (IsTrans.trans _ _ _ drifted further)
  cases step_cases taken with
  | @spawn call =>
    intro task member
    rcases List.mem_append.mp member with before | new
    · exact others (Std.Refl.refl _) task before
    · cases List.mem_singleton.mp new
      exact fun later _ => bodies call later
  | @finish index answer call fiber value shared found ran =>
    have resumed := (waits _ (List.mem_of_getElem? found) tasks.shared (Std.Refl.refl _)).resume answer
    rw [ran] at resumed
    exact fun task member => others resumed.1 task (List.mem_of_mem_eraseIdx member)
  | @wait index answer call fiber request next shared found ran =>
    have resumed := (waits _ (List.mem_of_getElem? found) tasks.shared (Std.Refl.refl _)).resume answer
    rw [ran] at resumed
    intro task member
    rcases List.mem_or_eq_of_mem_set member with before | rfl
    · exact others resumed.1 task before
    · exact fun later further => resumed.2.later further
  | cancel => exact fun task member => others (Std.Refl.refl _) task (List.mem_of_mem_eraseIdx member)
  | operate idle =>
    rw [AllWait, idle]
    exact List.forall_mem_nil _

/-- In every run, a task that waits does so as described. -/
theorem reachable_waits {start : σ → Prop} (reached : (machine start body operate).Reachable tasks)
    (bodies : ∀ call state, (body call).Waits drift (described call) state)
    {call : κ} {request : ρ} {next : reply request → Fiber σ ρ reply α}
    (waiting : (call, .await request next) ∈ tasks.running) : described call tasks.shared request next := by
  have waits : AllWait drift described tasks := by
    apply reached.invariant (AllWait drift described)
    · intro begins start
      obtain ⟨shared, _, rfl⟩ := start
      exact List.forall_mem_nil _
    · exact fun before turn after _ _ taken waits => waits.advances bodies taken
  cases waits _ waiting tasks.shared (Std.Refl.refl _) with
  | await here rest => exact here tasks.shared (Std.Refl.refl _)

end Tasks
end Preorder
end PgGrpc.Library
