import PgGrpc.Library.Fiber
import PgGrpc.Library.Machine

/-! Tasks are fibers that share one state and take turns at their awaits. A task
is safe under a contract when it keeps the contract at whatever later state it is
resumed; tasks that are safe one by one are safe together. -/

namespace PgGrpc.Library

namespace Fiber
variable {σ ρ : Type} {reply : ρ → Type} {α β : Type}

/-- Run to the next await, or to the end. -/
def advance : Fiber σ ρ reply α → σ → Fiber σ ρ reply α × σ
  | .done value, state => (.done value, state)
  | .read next, state => (next state).advance state
  | .write change next, state => next.advance (change state)
  | .await request next, state => (.await request next, state)

/-- Deliver the reply to the request that is pending, if one is. -/
def resume (answer : (r : ρ) → reply r) : Fiber σ ρ reply α → σ → Fiber σ ρ reply α × σ
  | .await request next, state => (next (answer request)).advance state
  | fiber, state => fiber.advance state

/-- At its end, or at an await. -/
def Suspended : Fiber σ ρ reply α → Prop
  | .done _ | .await _ _ => True
  | .read _ | .write _ _ => False

theorem advance_suspended (fiber : Fiber σ ρ reply α) (state : σ) : (fiber.advance state).1.Suspended := by
  induction fiber generalizing state with
  | done value => trivial
  | read next ih => exact ih state state
  | write change next ih => exact ih (change state)
  | await request next => trivial

theorem resume_suspended (answer : (r : ρ) → reply r) (fiber : Fiber σ ρ reply α) (state : σ) :
    (fiber.resume answer state).1.Suspended := by
  cases fiber with
  | await request next => exact advance_suspended _ _
  | done value => trivial
  | read next => exact advance_suspended _ _
  | write change next => exact advance_suspended _ _

end Fiber

/-- What the tasks of one state may rely on, and what each of them must keep. -/
structure Contract (σ ρ : Type) (reply : ρ → Type) where
  valid : σ → Prop
  /-- What may become of the state while a task is suspended. -/
  grows : σ → σ → Prop
  /-- What the environment may reply. -/
  replies : (r : ρ) → reply r → Prop
  /-- What a task may have asked for, at every state while it waits for the reply. -/
  asks : σ → ρ → Prop
  refl : ∀ state, grows state state
  trans : ∀ {a b c}, grows a b → grows b c → grows a c

namespace Fiber
variable {σ ρ : Type} {reply : ρ → Type} {α β : Type} {contract : Contract σ ρ reply}

/-- The fiber keeps the contract from here to its end, and ends in the postcondition. -/
def Safe (contract : Contract σ ρ reply) (post : α → σ → Prop) : Fiber σ ρ reply α → σ → Prop
  | .done value, state => post value state
  | .read next, state => (next state).Safe contract post state
  | .write change next, state =>
    contract.valid (change state) ∧ contract.grows state (change state) ∧ next.Safe contract post (change state)
  | .await request next, state => ∀ later, contract.valid later → contract.grows state later →
    contract.asks later request ∧ ∀ value, contract.replies request value → (next value).Safe contract post later

theorem Safe.weaken {post other : α → σ → Prop} {fiber : Fiber σ ρ reply α} {state : σ}
    (safe : fiber.Safe contract post state) (implies : ∀ value later, post value later → other value later) :
    fiber.Safe contract other state := by
  induction fiber generalizing state with
  | done value => exact implies value state safe
  | read next ih => exact ih state safe
  | write change next ih => exact ⟨safe.1, safe.2.1, ih safe.2.2⟩
  | await request next ih =>
    intro later valid growth
    obtain ⟨asks, resumes⟩ := safe later valid growth
    exact ⟨asks, fun value law => ih value (resumes value law)⟩

/-- A sequence is safe if its rest is safe from every state the first part can end in. -/
theorem Safe.bind {first : α → σ → Prop} {post : β → σ → Prop} {fiber : Fiber σ ρ reply α}
    {next : α → Fiber σ ρ reply β} {state : σ} (safe : fiber.Safe contract first state) (valid : contract.valid state)
    (rest : ∀ value later, contract.valid later → contract.grows state later → first value later →
      (next value).Safe contract post later) : (fiber.bind next).Safe contract post state := by
  induction fiber generalizing state with
  | done value => exact rest value state valid (contract.refl state) safe
  | read more ih => exact ih state safe valid rest
  | write change more ih =>
    obtain ⟨kept, growth, safe⟩ := safe
    refine ⟨kept, growth, ih safe kept ?_⟩
    exact fun value later valid further => rest value later valid (contract.trans growth further)
  | await request more ih =>
    intro later kept growth
    obtain ⟨asks, resumes⟩ := safe later kept growth
    refine ⟨asks, fun value law => ih value (resumes value law) kept ?_⟩
    exact fun answer final valid further => rest answer final valid (contract.trans growth further)

theorem Safe.advance {post : α → σ → Prop} {fiber : Fiber σ ρ reply α} {state : σ} (safe : fiber.Safe contract post state)
    (valid : contract.valid state) : contract.valid (fiber.advance state).2 ∧
      contract.grows state (fiber.advance state).2 ∧ (fiber.advance state).1.Safe contract post (fiber.advance state).2 := by
  induction fiber generalizing state with
  | done value => exact ⟨valid, contract.refl state, safe⟩
  | read next ih => exact ih state safe valid
  | write change next ih =>
    obtain ⟨kept, growth, rest⟩ := ih safe.2.2 safe.1
    exact ⟨kept, contract.trans safe.2.1 growth, rest⟩
  | await request next => exact ⟨valid, contract.refl state, safe⟩

theorem Safe.resume {post : α → σ → Prop} {answer : (r : ρ) → reply r} {fiber : Fiber σ ρ reply α} {state : σ}
    (safe : fiber.Safe contract post state) (valid : contract.valid state)
    (answers : ∀ request next, fiber = .await request next → contract.replies request (answer request)) :
    contract.valid (fiber.resume answer state).2 ∧ contract.grows state (fiber.resume answer state).2 ∧
      (fiber.resume answer state).1.Safe contract post (fiber.resume answer state).2 := by
  cases fiber with
  | await request next =>
    have resumed := (safe state valid (contract.refl state)).2 (answer request) (answers request next rfl)
    exact resumed.advance valid
  | done value => exact Safe.advance safe valid
  | read next => exact Safe.advance safe valid
  | write change next => exact Safe.advance safe valid

end Fiber

/-- The shared state, the tasks in flight with the calls they run, and the results so far. -/
structure Tasks (σ ρ : Type) (reply : ρ → Type) (κ α : Type) where
  shared : σ
  running : List (κ × Fiber σ ρ reply α) := []
  ended : List (κ × α) := []

inductive Turn (ρ : Type) (reply : ρ → Type) (κ ω : Type) where
  | spawn (call : κ)
  /-- The reply of the environment arrives, if the task waits for one, and the task runs on. -/
  | poll (index : Nat) (answer : (r : ρ) → reply r)
  /-- The task is dropped where it waits. -/
  | cancel (index : Nat)
  /-- A change of the shared state by other code, which runs while no task is in flight. -/
  | operate (operation : ω)

namespace Tasks
variable {σ ρ : Type} {reply : ρ → Type} {κ α ω : Type}

def step (body : κ → Fiber σ ρ reply α) (operate : ω → σ → σ) (tasks : Tasks σ ρ reply κ α) :
    Turn ρ reply κ ω → Option (Tasks σ ρ reply κ α)
  | .spawn call => some { tasks with running := tasks.running ++ [(call, body call)] }
  | .poll index answer =>
    match tasks.running[index]? with
    | none => none
    | some (call, fiber) =>
      match fiber.resume answer tasks.shared with
      | (.done value, shared) =>
        some { shared, running := tasks.running.eraseIdx index, ended := tasks.ended ++ [(call, value)] }
      | (rest, shared) => some { tasks with shared, running := tasks.running.set index (call, rest) }
  | .cancel index =>
    if index < tasks.running.length then some { tasks with running := tasks.running.eraseIdx index } else none
  | .operate operation =>
    if tasks.running.isEmpty then some { tasks with shared := operate operation tasks.shared } else none

def machine (start : σ → Prop) (body : κ → Fiber σ ρ reply α) (operate : ω → σ → σ) :
    Machine (Tasks σ ρ reply κ α) (Turn ρ reply κ ω) where
  initial tasks := ∃ shared, start shared ∧ tasks = { shared }
  step := step body operate

inductive Move (body : κ → Fiber σ ρ reply α) (operate : ω → σ → σ) (tasks : Tasks σ ρ reply κ α) :
    Turn ρ reply κ ω → Tasks σ ρ reply κ α → Prop where
  | spawn {call} : Move body operate tasks (.spawn call) { tasks with running := tasks.running ++ [(call, body call)] }
  | finish {index answer call fiber value shared} (found : tasks.running[index]? = some (call, fiber))
      (ran : fiber.resume answer tasks.shared = (.done value, shared)) :
      Move body operate tasks (.poll index answer)
        { shared, running := tasks.running.eraseIdx index, ended := tasks.ended ++ [(call, value)] }
  | wait {index answer call fiber request next shared} (found : tasks.running[index]? = some (call, fiber))
      (ran : fiber.resume answer tasks.shared = (.await request next, shared)) :
      Move body operate tasks (.poll index answer)
        { tasks with shared, running := tasks.running.set index (call, .await request next) }
  | cancel {index} : Move body operate tasks (.cancel index) { tasks with running := tasks.running.eraseIdx index }
  | operate {operation} (idle : tasks.running = []) :
      Move body operate tasks (.operate operation) { tasks with shared := operate operation tasks.shared }

theorem step_cases {body : κ → Fiber σ ρ reply α} {operate : ω → σ → σ} {tasks after : Tasks σ ρ reply κ α}
    {turn : Turn ρ reply κ ω} (taken : step body operate tasks turn = some after) :
    Move body operate tasks turn after := by
  cases turn with
  | spawn call => cases taken; exact .spawn
  | poll index answer =>
    simp only [step] at taken
    split at taken
    next => cases taken
    next call fiber found =>
      have suspended := fiber.resume_suspended answer tasks.shared
      split at taken
      next value shared ran => cases taken; exact .finish found ran
      next rest shared open_ ran =>
        cases taken
        rw [ran] at suspended
        cases rest with
        | done value => exact absurd rfl (open_ value)
        | read next => exact suspended.elim
        | write change next => exact suspended.elim
        | await request next => exact .wait found ran
  | cancel index =>
    simp only [step] at taken
    split at taken
    next => cases taken; exact .cancel
    next => cases taken
  | operate operation =>
    simp only [step] at taken
    split at taken
    next idle => cases taken; exact .operate (List.isEmpty_iff.mp idle)
    next => cases taken

section Alone
variable (start : σ → Prop) (body : κ → Fiber σ ρ reply α) (operate : ω → σ → σ)

/-- A task alone, after it has run. -/
private def alone (call : κ) (ended : List (κ × α)) : Fiber σ ρ reply α × σ → Tasks σ ρ reply κ α
  | (.done value, shared) => { shared, ended := ended ++ [(call, value)] }
  | (rest, shared) => { shared, running := [(call, rest)], ended }

private theorem run_poll (call : κ) (ended : List (κ × α)) (answer : (r : ρ) → reply r) (fiber : Fiber σ ρ reply α)
    (shared : σ) (turns : List (Turn ρ reply κ ω)) :
    (machine start body operate).run { shared, running := [(call, fiber)], ended } (.poll 0 answer :: turns) =
      (machine start body operate).run (alone call ended (fiber.resume answer shared)) turns := by
  have polled : step body operate { shared, running := [(call, fiber)], ended } (.poll 0 answer) =
      some (alone call ended (fiber.resume answer shared)) := by
    simp only [step, List.getElem?_cons_zero]
    rcases fiber.resume answer shared with ⟨_ | _ | _ | _, _⟩ <;> rfl
  simp only [Machine.run_cons, machine, polled, Option.bind_some]

/-- A run to the end, or to the await where the environment gives no answer. -/
def driven (call : κ) (ended : List (κ × α)) : Option (α × Nat) × σ → Tasks σ ρ reply κ α
  | (none, shared) => { shared, ended }
  | (some (value, _), shared) => { shared, ended := ended ++ [(call, value)] }

variable [∀ r, Inhabited (reply r)]

private theorem drive_advanced (answer : Nat → (r : ρ) → Option (reply r)) (call : κ) (ended : List (κ × α))
    (fiber : Fiber σ ρ reply α) (asked : Nat) (shared : σ) :
    ∃ turns, (machine start body operate).run (alone call ended (fiber.advance shared)) turns =
      some (driven call ended (fiber.drive answer asked shared)) := by
  induction fiber generalizing asked shared with
  | done value => exact ⟨[], rfl⟩
  | read next ih => exact ih shared asked shared
  | write change next ih => exact ih asked (change shared)
  | await request next ih =>
    simp only [Fiber.drive]
    cases given : answer asked request with
    | none => exact ⟨[.cancel 0], rfl⟩
    | some value =>
      obtain ⟨turns, executed⟩ := ih value (asked + 1) shared
      refine ⟨.poll 0 (fun r => (answer asked r).getD default) :: turns, ?_⟩
      change (machine start body operate).run { shared, running := [(call, .await request next)], ended } _ = _
      rw [run_poll, Fiber.resume, given, Option.getD_some, executed]

/-- A call that runs alone is a run of the tasks. -/
theorem drive_run (answer : Nat → (r : ρ) → Option (reply r)) (call : κ) (ended : List (κ × α)) (shared : σ) :
    ∃ turns, (machine start body operate).run { shared, ended } (.spawn call :: turns) =
      some (driven call ended ((body call).drive answer 0 shared)) := by
  obtain ⟨turns, executed⟩ := drive_advanced start body operate answer call ended (body call) 0 shared
  have spawned (turns : List (Turn ρ reply κ ω)) :
      (machine start body operate).run { shared, ended } (.spawn call :: turns) =
        (machine start body operate).run { shared, running := [(call, body call)], ended } turns := rfl
  cases same : body call with
  | await request next =>
    rw [same] at executed
    exact ⟨turns, by rw [spawned, same]; exact executed⟩
  | done value | read next | write change next =>
    rw [same] at executed
    exact ⟨.poll 0 (fun _ => default) :: turns, by rw [spawned, same, run_poll]; exact executed⟩

theorem drive_reaches (answer : Nat → (r : ρ) → Option (reply r)) (call : κ) {ended : List (κ × α)} {shared : σ}
    (reached : (machine start body operate).Reachable { shared, ended }) :
    ∃ later, (machine start body operate).Reachable { shared := ((body call).drive answer 0 shared).2, ended := later } := by
  obtain ⟨turns, executed⟩ := drive_run start body operate answer call ended shared
  have further := reached.path (Machine.path_of_run (fun _ => True) (fun _ _ => trivial) executed)
  rcases final : (body call).drive answer 0 shared with ⟨_ | ⟨value, asked⟩, after⟩
  · exact ⟨_, by rw [final] at further; exact further⟩
  · exact ⟨_, by rw [final] at further; exact further⟩

end Alone

section Safety
variable {start : σ → Prop} {body : κ → Fiber σ ρ reply α} {operate : ω → σ → σ} {contract : Contract σ ρ reply}
  {post : κ → α → σ → Prop} {permits : κ → Prop} {tasks after : Tasks σ ρ reply κ α} {turn : Turn ρ reply κ ω}

/-- The environment keeps its side in this turn: it spawns what is permitted, and
replies what the contract says. -/
def Answers (replies : (r : ρ) → reply r → Prop) (permits : κ → Prop) (tasks : Tasks σ ρ reply κ α) :
    Turn ρ reply κ ω → Prop
  | .spawn call => permits call
  | .poll index answer => ∀ call request next, tasks.running[index]? = some (call, .await request next) →
      replies request (answer request)
  | _ => True

theorem Answers.of_all {replies : (r : ρ) → reply r → Prop} {permits : κ → Prop} (any : ∀ request value, replies request value)
    (all : ∀ call, permits call) (tasks : Tasks σ ρ reply κ α) (turn : Turn ρ reply κ ω) :
    Answers replies permits tasks turn := by
  cases turn with
  | spawn call => exact all call
  | poll index answer => exact fun _ request _ _ => any request _
  | cancel | operate => trivial

/-- The state is valid, and every task in flight is safe at whatever state it will find. -/
structure AllSafe (contract : Contract σ ρ reply) (post : κ → α → σ → Prop) (tasks : Tasks σ ρ reply κ α) : Prop where
  valid : contract.valid tasks.shared
  running : ∀ task ∈ tasks.running, ∀ later, contract.valid later → contract.grows tasks.shared later →
    task.2.Safe contract (post task.1) later

/-- What a pending request says of the state it waits in. -/
theorem AllSafe.asks (safe : AllSafe contract post tasks) {call : κ} {request : ρ}
    {next : reply request → Fiber σ ρ reply α} (waits : (call, .await request next) ∈ tasks.running) :
    contract.asks tasks.shared request :=
  (safe.running _ waits tasks.shared safe.valid (contract.refl _) tasks.shared safe.valid (contract.refl _)).1

/-- What a turn of the tasks makes of a safe state: it stays safe, the shared state
has grown, and a task that ended has met its postcondition. -/
structure Advances (contract : Contract σ ρ reply) (post : κ → α → σ → Prop) (tasks after : Tasks σ ρ reply κ α) : Prop where
  safe : AllSafe contract post after
  grows : contract.grows tasks.shared after.shared
  ended : ∀ entry ∈ after.ended, entry ∈ tasks.ended ∨ post entry.1 entry.2 after.shared

theorem AllSafe.advances
    (bodies : ∀ call state, permits call → contract.valid state → (body call).Safe contract (post call) state)
    (safe : AllSafe contract post tasks) (answers : Answers contract.replies permits tasks turn)
    (taken : step body operate tasks turn = some after) (calm : ∀ operation, turn ≠ .operate operation) :
    Advances contract post tasks after := by
  have later {shared : σ} (growth : contract.grows tasks.shared shared) (task) (member : task ∈ tasks.running) :
      ∀ later, contract.valid later → contract.grows shared later → task.2.Safe contract (post task.1) later :=
    fun later valid further => safe.running task member later valid (contract.trans growth further)
  have old {entry} (member : entry ∈ tasks.ended) : entry ∈ tasks.ended ∨ post entry.1 entry.2 tasks.shared := .inl member
  cases step_cases taken with
  | @spawn call =>
    refine ⟨⟨safe.valid, ?_⟩, contract.refl _, fun _ => old⟩
    intro task member
    rcases List.mem_append.mp member with before | new
    · exact later (contract.refl _) task before
    · cases List.mem_singleton.mp new
      exact fun later valid _ => bodies call later answers valid
  | @finish index answer call fiber value shared found ran =>
    have member := List.mem_of_getElem? found
    have resumed := (safe.running _ member tasks.shared safe.valid (contract.refl _)).resume safe.valid
      fun request next same => answers call request next (same ▸ found)
    rw [ran] at resumed
    refine ⟨⟨resumed.1, ?_⟩, resumed.2.1, ?_⟩
    · exact fun task member => later resumed.2.1 task (List.mem_of_mem_eraseIdx member)
    · intro entry member
      rcases List.mem_append.mp member with before | new
      · exact .inl before
      · cases List.mem_singleton.mp new
        exact .inr resumed.2.2
  | @wait index answer call fiber request next shared found ran =>
    have member := List.mem_of_getElem? found
    have resumed := (safe.running _ member tasks.shared safe.valid (contract.refl _)).resume safe.valid
      fun request next same => answers call request next (same ▸ found)
    rw [ran] at resumed
    refine ⟨⟨resumed.1, ?_⟩, resumed.2.1, fun entry member => .inl member⟩
    intro task member
    rcases List.mem_or_eq_of_mem_set member with before | rfl
    · exact later resumed.2.1 task before
    · exact fun later valid growth final kept further => resumed.2.2 final kept (contract.trans growth further)
  | cancel =>
    exact ⟨⟨safe.valid, fun task member => later (contract.refl _) task (List.mem_of_mem_eraseIdx member)⟩,
      contract.refl _, fun _ => old⟩
  | @operate operation idle => exact absurd rfl (calm operation)

/-- Tasks that are safe one by one are safe together, in every run in which the
environment and the other operations keep their side. -/
theorem reaches_safe {allowed : Tasks σ ρ reply κ α → Turn ρ reply κ ω → Prop}
    (reached : (machine start body operate).Reaches allowed tasks)
    (initial : ∀ shared, start shared → contract.valid shared)
    (bodies : ∀ call state, permits call → contract.valid state → (body call).Safe contract (post call) state)
    (answers : ∀ before turn, allowed before turn → Answers contract.replies permits before turn)
    (operates : ∀ before operation, allowed before (.operate operation) → contract.valid before.shared →
      contract.valid (operate operation before.shared)) : AllSafe contract post tasks := by
  apply reached.invariant (AllSafe contract post)
  · intro begins start
    obtain ⟨shared, started, rfl⟩ := start
    exact ⟨initial shared started, List.forall_mem_nil _⟩
  · intro before turn after _ permitted taken safe
    change step body operate before turn = some after at taken
    cases turn with
    | operate operation =>
      cases step_cases taken with
      | operate idle =>
        refine ⟨operates before operation permitted safe.valid, ?_⟩
        rw [idle]
        exact List.forall_mem_nil _
    | spawn | poll | cancel => exact (safe.advances bodies (answers _ _ permitted) taken (by simp)).safe

end Safety

end Tasks
end PgGrpc.Library
