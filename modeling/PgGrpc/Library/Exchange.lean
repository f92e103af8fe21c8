import PgGrpc.Library.Guarded
import PgGrpc.Library.Tasks

/-! What the tasks of one state say and hear. Each task keeps the log of its requests
with their replies, and a protocol says which logs are allowed. Fibers that follow a
protocol one by one follow it in every interleaving. -/

namespace PgGrpc.Library
variable {σ ρ : Type} {reply : ρ → Type} {π κ α β ω : Type}

/-- The requests of a phase, and the phase that a reply leads to. -/
structure Protocol (ρ : Type) (reply : ρ → Type) (π : Type) where
  start : π
  allows : π → ρ → Prop
  after : π → (request : ρ) → reply request → π

abbrev Log (ρ : Type) (reply : ρ → Type) := List (Sigma reply)

namespace Protocol
variable (protocol : Protocol ρ reply π)

def advance (phase : π) (exchange : Sigma reply) : π := protocol.after phase exchange.1 exchange.2

def phase (log : Log ρ reply) : π := log.foldl protocol.advance protocol.start

/-- Every request is one of the phase in which it was made. -/
def Accepts (log : Log ρ reply) : Prop :=
  Guarded.Passes (fun phase exchange => protocol.allows phase exchange.1) protocol.advance protocol.start log

variable {protocol}

theorem accepts_nil : protocol.Accepts [] := Guarded.passes_nil

theorem Accepts.snoc {log : Log ρ reply} {request : ρ} (accepts : protocol.Accepts log)
    (allowed : protocol.allows (protocol.phase log) request) (value : reply request) :
    protocol.Accepts (log ++ [⟨request, value⟩]) :=
  Guarded.passes_append.mpr ⟨accepts, Guarded.passes_cons.mpr ⟨allowed, Guarded.passes_nil⟩⟩

@[simp] theorem phase_snoc (log : Log ρ reply) (request : ρ) (value : reply request) :
    protocol.phase (log ++ [⟨request, value⟩]) = protocol.after (protocol.phase log) request value := by
  simp [phase, advance]

/-- The rule for accepted logs: what holds of the empty one and is kept by an allowed request. -/
theorem Accepts.rule {log : Log ρ reply} (accepts : protocol.Accepts log) (kept : Log ρ reply → π → Prop)
    (initial : kept [] protocol.start)
    (step : ∀ log phase request value, kept log phase → protocol.allows phase request →
      kept (log ++ [⟨request, value⟩]) (protocol.after phase request value)) : kept log (protocol.phase log) := by
  induction log using List.reverseRecOn with
  | nil => exact initial
  | append_singleton log exchange ih =>
    obtain ⟨before, last⟩ := Guarded.passes_append.mp accepts
    obtain ⟨request, value⟩ := exchange
    rw [phase_snoc]
    exact step log _ request value (ih before) (Guarded.passes_cons.mp last).1

/-- Phases that only ever get lower bound the length of a log. -/
theorem Accepts.length_le {log : Log ρ reply} (accepts : protocol.Accepts log) (rank : π → Nat)
    (lowers : ∀ phase request value, protocol.allows phase request → rank (protocol.after phase request value) < rank phase) :
    log.length + rank (protocol.phase log) ≤ rank protocol.start := by
  apply accepts.rule fun log phase => log.length + rank phase ≤ rank protocol.start
  · simp
  · intro log phase request value bounded allowed
    have lower := lowers phase request value allowed
    simp only [List.length_append, List.length_singleton]
    omega

/-- A phase that says how many exchanges of one kind there were. -/
theorem Accepts.countP_eq {log : Log ρ reply} (accepts : protocol.Accepts log) (kind : Sigma reply → Bool) (made : π → Nat)
    (initial : made protocol.start = 0)
    (counts : ∀ phase request value, protocol.allows phase request →
      made (protocol.after phase request value) = made phase + if kind ⟨request, value⟩ then 1 else 0) :
    log.countP kind = made (protocol.phase log) := by
  apply accepts.rule fun log phase => log.countP kind = made phase
  · exact initial.symm
  · intro log phase request value same allowed
    rw [List.countP_append, same, counts phase request value allowed, List.countP_singleton]

end Protocol

namespace Fiber

/-- From this phase on the fiber asks only what the protocol allows, whatever state it
finds and whatever it is replied, and ends in the postcondition. -/
inductive Follows (protocol : Protocol ρ reply π) (post : α → π → Prop) : Fiber σ ρ reply α → π → Prop where
  | done {value phase} (ends : post value phase) : Follows protocol post (.done value) phase
  | read {next phase} (rest : ∀ state, Follows protocol post (next state) phase) : Follows protocol post (.read next) phase
  | write {change next phase} (rest : Follows protocol post next phase) : Follows protocol post (.write change next) phase
  | await {request next phase} (allowed : protocol.allows phase request)
      (rest : ∀ value, Follows protocol post (next value) (protocol.after phase request value)) :
      Follows protocol post (.await request next) phase

variable {protocol : Protocol ρ reply π}

theorem Follows.bind {first : α → π → Prop} {post : β → π → Prop} {fiber : Fiber σ ρ reply α}
    {next : α → Fiber σ ρ reply β} {phase : π} (follows : fiber.Follows protocol first phase)
    (rest : ∀ value later, first value later → (next value).Follows protocol post later) :
    (fiber.bind next).Follows protocol post phase := by
  induction follows with
  | done ends => exact rest _ _ ends
  | read _ ih => exact .read fun state => ih state
  | write _ ih => exact .write ih
  | await allowed _ ih => exact .await allowed fun value => ih value

theorem Follows.advance {post : α → π → Prop} {fiber : Fiber σ ρ reply α} {phase : π}
    (follows : fiber.Follows protocol post phase) (state : σ) : (fiber.advance state).1.Follows protocol post phase := by
  induction follows generalizing state with
  | done ends => exact .done ends
  | read _ ih => exact ih state state
  | write _ ih => exact ih _
  | await allowed rest _ => exact .await allowed rest

/-- The exchange of one turn, if a request was pending. -/
def heard (answer : (r : ρ) → reply r) : Fiber σ ρ reply α → Log ρ reply
  | .await request _ => [⟨request, answer request⟩]
  | .done _ | .read _ | .write _ _ => []

/-- The fiber waits for the reply to a request of this kind. -/
def asks (kind : ρ → Bool) : Fiber σ ρ reply α → Bool
  | .await request _ => kind request
  | .done _ | .read _ | .write _ _ => false

theorem heard_countP (kind : ρ → Bool) (answer : (r : ρ) → reply r) (fiber : Fiber σ ρ reply α) :
    (fiber.heard answer).countP (fun exchange => kind exchange.1) = if fiber.asks kind then 1 else 0 := by
  cases fiber with
  | await request next => rw [heard, List.countP_singleton, asks]
  | done | read | write => rfl

/-- What a turn adds to a log is allowed, and the fiber goes on from the phase it leads to. -/
theorem Follows.resume {post : α → π → Prop} {fiber : Fiber σ ρ reply α} {log : Log ρ reply}
    (follows : fiber.Follows protocol post (protocol.phase log)) (accepts : protocol.Accepts log)
    (answer : (r : ρ) → reply r) (state : σ) : protocol.Accepts (log ++ fiber.heard answer) ∧
      (fiber.resume answer state).1.Follows protocol post (protocol.phase (log ++ fiber.heard answer)) := by
  cases fiber with
  | await request next =>
    cases follows with
    | await allowed rest =>
      refine ⟨accepts.snoc allowed _, ?_⟩
      rw [heard, Protocol.phase_snoc]
      exact (rest (answer request)).advance state
  | done value | read next | write change next =>
    rw [heard, List.append_nil]
    exact ⟨accepts, follows.advance state⟩

/-- The turns a fiber may have left: one for each request, and one to begin with. -/
def turns (rank : π → Nat) (phase : π) : Fiber σ ρ reply α → Nat
  | .await _ _ => rank phase
  | .done _ | .read _ | .write _ _ => rank phase + 1

theorem Follows.turns_pos [∀ request, Nonempty (reply request)] {post : α → π → Prop} {rank : π → Nat}
    {fiber : Fiber σ ρ reply α} {phase : π} (follows : fiber.Follows protocol post phase)
    (lowers : ∀ phase request value, protocol.allows phase request → rank (protocol.after phase request value) < rank phase) :
    0 < fiber.turns rank phase := by
  cases follows with
  | @await request next phase allowed rest => exact Nat.zero_lt_of_lt (lowers phase request (Classical.arbitrary _) allowed)
  | done | read | write => exact Nat.succ_pos _

/-- A turn that does not end the fiber leaves it fewer. -/
theorem Follows.resume_turns {post : α → π → Prop} {rank : π → Nat} {fiber : Fiber σ ρ reply α} {log : Log ρ reply}
    (follows : fiber.Follows protocol post (protocol.phase log))
    (lowers : ∀ phase request value, protocol.allows phase request → rank (protocol.after phase request value) < rank phase)
    (answer : (r : ρ) → reply r) (state : σ) (waits : ∀ value, (fiber.resume answer state).1 ≠ .done value) :
    (fiber.resume answer state).1.turns rank (protocol.phase (log ++ fiber.heard answer)) <
      fiber.turns rank (protocol.phase log) := by
  have suspended := resume_suspended answer fiber state
  cases resumed : (fiber.resume answer state).1 with
  | done value => exact absurd resumed (waits value)
  | read | write => rw [resumed] at suspended; exact suspended.elim
  | await =>
    cases follows with
    | @await request next phase allowed rest =>
      rw [heard, Protocol.phase_snoc]
      exact lowers _ request _ allowed
    | done | read | write => simp only [heard, List.append_nil, turns, Nat.lt_succ_self]

end Fiber

namespace Tasks

/-- The tasks without their logs. -/
def unlogged (tasks : Tasks σ ρ reply (κ × Log ρ reply) α) : Tasks σ ρ reply κ α where
  shared := tasks.shared
  running := tasks.running.map fun task => (task.1.1, task.2)
  ended := tasks.ended.map fun entry => (entry.1.1, entry.2)

/-- A step of the tasks that also writes their logs. -/
def logStep (body : κ → Fiber σ ρ reply α) (operate : ω → σ → σ) (tasks : Tasks σ ρ reply (κ × Log ρ reply) α) :
    Turn ρ reply κ ω → Option (Tasks σ ρ reply (κ × Log ρ reply) α)
  | .spawn call => some { tasks with running := tasks.running ++ [((call, []), body call)] }
  | .poll index answer =>
    match tasks.running[index]? with
    | none => none
    | some ((call, log), fiber) =>
      let log := log ++ fiber.heard answer
      match fiber.resume answer tasks.shared with
      | (.done value, shared) =>
        some { shared, running := tasks.running.eraseIdx index, ended := tasks.ended ++ [((call, log), value)] }
      | (rest, shared) => some { tasks with shared, running := tasks.running.set index ((call, log), rest) }
  | .cancel index =>
    if index < tasks.running.length then some { tasks with running := tasks.running.eraseIdx index } else none
  | .operate operation =>
    if tasks.running.isEmpty then some { tasks with shared := operate operation tasks.shared } else none

def logged (start : σ → Prop) (body : κ → Fiber σ ρ reply α) (operate : ω → σ → σ) :
    Machine (Tasks σ ρ reply (κ × Log ρ reply) α) (Turn ρ reply κ ω) where
  initial tasks := ∃ shared, start shared ∧ tasks = { shared }
  step := logStep body operate

variable {body : κ → Fiber σ ρ reply α} {operate : ω → σ → σ} {tasks after : Tasks σ ρ reply (κ × Log ρ reply) α}
  {turn : Turn ρ reply κ ω}

/-- The logs neither add nor forbid a step. -/
theorem logStep_unlogged (tasks : Tasks σ ρ reply (κ × Log ρ reply) α) (turn : Turn ρ reply κ ω) :
    step body operate tasks.unlogged turn = (logStep body operate tasks turn).map unlogged := by
  cases turn with
  | spawn call => simp [step, logStep, unlogged]
  | poll index answer =>
    simp only [step, logStep, unlogged, List.getElem?_map]
    cases found : tasks.running[index]? with
    | none => simp
    | some task =>
      obtain ⟨⟨call, log⟩, fiber⟩ := task
      simp only [Option.map_some]
      rcases fiber.resume answer tasks.shared with ⟨_ | _ | _ | _, shared⟩ <;>
        simp [unlogged, List.map_set, List.eraseIdx_map]
  | cancel index => simp [step, logStep, unlogged, List.eraseIdx_map, apply_ite]
  | operate operation => simp [step, logStep, unlogged, apply_ite]

theorem logged_run (start : σ → Prop) (body : κ → Fiber σ ρ reply α) (operate : ω → σ → σ)
    (tasks : Tasks σ ρ reply (κ × Log ρ reply) α) (turns : List (Turn ρ reply κ ω)) :
    (machine start body operate).run tasks.unlogged turns = ((logged start body operate).run tasks turns).map unlogged := by
  induction turns generalizing tasks with
  | nil => rfl
  | cons turn rest ih =>
    rw [Machine.run_cons, Machine.run_cons]
    change (step body operate tasks.unlogged turn).bind _ = ((logStep body operate tasks turn).bind _).map unlogged
    rw [logStep_unlogged]
    cases logStep body operate tasks turn with
    | none => rfl
    | some next => exact ih next

variable {protocol : κ → Protocol ρ reply π} {post : κ → α → π → Prop}

/-- Every log is one the protocol of its call accepts, every task goes on from where its
log leads, and every result is one its log leads to. -/
structure Obeys (protocol : κ → Protocol ρ reply π) (post : κ → α → π → Prop)
    (tasks : Tasks σ ρ reply (κ × Log ρ reply) α) : Prop where
  running : ∀ call log fiber, ((call, log), fiber) ∈ tasks.running →
    (protocol call).Accepts log ∧ fiber.Follows (protocol call) (post call) ((protocol call).phase log)
  ended : ∀ call log value, ((call, log), value) ∈ tasks.ended →
    (protocol call).Accepts log ∧ post call value ((protocol call).phase log)

theorem Obeys.advances (obeys : Obeys protocol post tasks)
    (bodies : ∀ call, (body call).Follows (protocol call) (post call) (protocol call).start)
    (taken : logStep body operate tasks turn = some after) : Obeys protocol post after := by
  cases turn with
  | spawn call =>
    cases taken
    refine ⟨fun other log fiber member => ?_, obeys.ended⟩
    rcases List.mem_append.mp member with before | new
    · exact obeys.running other log fiber before
    · cases List.mem_singleton.mp new
      exact ⟨Protocol.accepts_nil, bodies call⟩
  | poll index answer =>
    simp only [logStep] at taken
    split at taken
    next => cases taken
    next call log fiber found =>
      obtain ⟨accepts, follows⟩ := obeys.running call log fiber (List.mem_of_getElem? found)
      have resumed := follows.resume accepts answer tasks.shared
      split at taken
      next value shared ran =>
        cases taken
        rw [ran] at resumed
        refine ⟨fun other others rest member => ?_, fun other others result member => ?_⟩
        · exact obeys.running other others rest (List.mem_of_mem_eraseIdx member)
        · rcases List.mem_append.mp member with before | new
          · exact obeys.ended other others result before
          · cases List.mem_singleton.mp new
            cases resumed.2 with
            | done ends => exact ⟨resumed.1, ends⟩
      next rest shared _ ran =>
        cases taken
        rw [ran] at resumed
        refine ⟨fun other others fiber member => ?_, obeys.ended⟩
        rcases List.mem_or_eq_of_mem_set member with before | same
        · exact obeys.running other others fiber before
        · cases same
          exact resumed
  | cancel index =>
    obtain ⟨_, same⟩ := Option.ite_none_right_eq_some.mp taken
    cases same
    exact ⟨fun call log fiber member => obeys.running call log fiber (List.mem_of_mem_eraseIdx member), obeys.ended⟩
  | operate operation =>
    obtain ⟨_, same⟩ := Option.ite_none_right_eq_some.mp taken
    cases same
    exact ⟨obeys.running, obeys.ended⟩

/-- The turns that all running tasks may have left. -/
def turns (protocol : κ → Protocol ρ reply π) (rank : π → Nat) (tasks : Tasks σ ρ reply (κ × Log ρ reply) α) : Nat :=
  (tasks.running.map fun task => task.2.turns rank ((protocol task.1.1).phase task.1.2)).sum

private theorem sum_erase {values : List γ} {weight : γ → Nat} {index : Nat} {value : γ} (found : values[index]? = some value) :
    (values.map weight).sum = weight value + ((values.eraseIdx index).map weight).sum := by
  obtain ⟨inside, rfl⟩ := List.getElem?_eq_some_iff.mp found
  rw [← ((List.getElem_cons_eraseIdx_perm inside).map weight).sum_eq, List.map_cons, List.sum_cons]

private theorem sum_set {values : List γ} {weight : γ → Nat} {index : Nat} {value : γ} (found : values[index]? = some value)
    (other : γ) : ((values.set index other).map weight).sum = weight other + ((values.eraseIdx index).map weight).sum := by
  obtain ⟨inside, _⟩ := List.getElem?_eq_some_iff.mp found
  rw [((List.set_perm_cons_eraseIdx inside other).map weight).sum_eq, List.map_cons, List.sum_cons]

/-- A poll, or the end of a task by other means, spends at least one of the turns that are left. -/
theorem Obeys.spends [∀ request, Nonempty (reply request)] (obeys : Obeys protocol post tasks) {rank : π → Nat}
    (lowers : ∀ call phase request value, (protocol call).allows phase request →
      rank ((protocol call).after phase request value) < rank phase)
    (taken : logStep body operate tasks turn = some after) (calm : ∀ operation, turn ≠ .operate operation)
    (spawns : ∀ call, turn ≠ .spawn call) : after.turns protocol rank < tasks.turns protocol rank := by
  have left {index : Nat} {task : (κ × Log ρ reply) × Fiber σ ρ reply α} (found : tasks.running[index]? = some task) :
      0 < task.2.turns rank ((protocol task.1.1).phase task.1.2) :=
    (obeys.running _ _ _ (List.mem_of_getElem? found)).2.turns_pos (lowers task.1.1)
  cases turn with
  | spawn call => exact absurd rfl (spawns call)
  | operate operation => exact absurd rfl (calm operation)
  | poll index answer =>
    simp only [logStep] at taken
    split at taken
    next => cases taken
    next call log fiber found =>
      split at taken
      next value shared ran =>
        cases taken
        rw [turns, turns, sum_erase found]
        exact Nat.lt_add_of_pos_left (left found)
      next rest shared waits ran =>
        cases taken
        have follows := (obeys.running call log fiber (List.mem_of_getElem? found)).2
        have fewer := follows.resume_turns (lowers call) answer tasks.shared fun value same => waits value (by rwa [ran] at same)
        rw [ran] at fewer
        rw [turns, turns, sum_erase found, sum_set found]
        exact Nat.add_lt_add_right fewer _
  | cancel index =>
    obtain ⟨inside, same⟩ := Option.ite_none_right_eq_some.mp taken
    cases same
    have found := List.getElem?_eq_getElem inside
    rw [turns, turns, sum_erase found]
    exact Nat.lt_add_of_pos_left (left found)

/-- Fibers that follow their protocols one by one follow them together, in every run. -/
theorem reachable_obeys {start : σ → Prop} (reached : (logged start body operate).Reachable tasks)
    (bodies : ∀ call, (body call).Follows (protocol call) (post call) (protocol call).start) : Obeys protocol post tasks := by
  apply reached.invariant (Obeys protocol post)
  · intro begins start
    obtain ⟨shared, _, rfl⟩ := start
    exact ⟨fun _ _ _ member => absurd member List.not_mem_nil, fun _ _ _ member => absurd member List.not_mem_nil⟩
  · exact fun before turn after _ _ taken obeys => obeys.advances bodies taken

end Tasks
end PgGrpc.Library
