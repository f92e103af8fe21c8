import PgGrpc.Proofs.StoredAnswers

/-! A batch under way comes to its end. Its calls have a bounded number of turns, whatever
they are replied, and as long as one is left the worker can take it. -/

namespace PgGrpc.JoinSet
open Library Worker Calls

/-- The step is one of the worker's between the spawns and the end of its joins. -/
def Event.turns : Event → Bool
  | .cluster _ | .spawn _ => false
  | .poll _ _ | .expire _ | .panic _ | .join _ | .collect => true

/-- The turns that the batch may have left: those of its running calls, a join for each
of them and for each that has ended, and the end of the joins. -/
def State.turns (crates : Crates) (state : State) : Nat :=
  match state.batch with
  | none => 0
  | some batch => state.tasks.turns (fun task : Task => protocol crates task.row.args) Phase.rank +
      state.tasks.running.length + batch.finished.length + 1

/-- A step before the end of the batch that the worker survives. -/
def InBatch (pg : Postgres) (before : State) (event : Event) : Prop :=
  before.batch.isSome = true ∧ ∀ own after, event = .cluster own → Cluster.step pg before.cluster own = some after →
    dies after own = false

instance (request : Request) : Nonempty (Reply request) := ⟨network (fun _ _ => ⟨[], none⟩) request⟩

section Turns
variable {pg : Postgres} {crates : Crates} {noted : List QueueRow} {state after : State}

private theorem rank_spent (call : Task) (phase : Phase) (request : Request) (reply : Reply request)
    (allowed : (protocol crates call.row.args).allows phase request) :
    ((protocol crates call.row.args).after phase request reply).rank < phase.rank :=
  rank_lowers request reply allowed

/-- What a turn of the tasks does to the turns left: a call that ends, or is dropped, leaves a report in its place. -/
private theorem turn_spends {tasks : Running} {turned : Turn Request Reply Task Empty} {batch : Batch} {ends : List JoinNext}
    (valid : Valid pg crates noted state) (opened : state.batch = some batch)
    (taken : turn crates state.tasks turned = some tasks) (spawns : ∀ call, turned ≠ .spawn call)
    (same : tasks.running.length + ends.length = state.tasks.running.length) :
    State.turns crates { state with tasks, batch := some (batch.report ends) } + 1 ≤ state.turns crates := by
  have fewer := valid.obeys.spends rank_spent taken (fun operation => operation.elim) spawns
  simp only [State.turns, opened, Batch.report, List.length_append]
  omega

private theorem erased_length {values : List α} {index : Nat} {value : α} (found : values[index]? = some value) :
    (values.eraseIdx index).length + 1 = values.length := by
  obtain ⟨inside, _⟩ := List.getElem?_eq_some_iff.mp found
  rw [List.length_eraseIdx_of_lt inside]
  omega

private theorem step_spends {event : Event} (valid : Valid pg crates noted state) (opened : state.batch.isSome = true)
    (taken : step pg crates state event = some after) :
    after.turns crates + (if event.turns then 1 else 0) ≤ state.turns crates := by
  cases step_cases taken with
  | cluster => exact Nat.le_refl _
  | die => exact Nat.zero_le _
  | spawn free => rw [free] at opened; cases opened
  | poll batched turned =>
    apply turn_spends valid batched turned (by simp)
    cases turn_poll turned with
    | ended found => simpa using erased_length found
    | waits found => simp
  | expire batched found turned | panic batched found turned =>
    apply turn_spends valid batched turned (by simp)
    rw [turn_cancel turned]
    exact erased_length found
  | join batched found =>
    have length := erased_length found
    simp only [State.turns, batched, Event.turns, if_true]
    omega
  | collect batched =>
    simp only [State.turns, batched, Event.turns, if_true]
    omega

theorem turn_ready {batch : Batch} (valid : Valid pg crates noted state) (opened : state.batch = some batch)
    (answer : (request : Request) → Reply request) :
    ∃ event ∈ [Event.poll 0 answer, .join 0, .collect], (step pg crates state event).isSome := by
  cases running : state.tasks.running with
  | cons task rest =>
    refine ⟨.poll 0 answer, by simp, ?_⟩
    obtain ⟨⟨task, log⟩, fiber⟩ := task
    obtain ⟨tasks, turned⟩ : ∃ tasks, turn crates state.tasks (.poll 0 answer) = some tasks := by
      simp only [turn, Tasks.logStep, running, List.getElem?_cons_zero]
      split <;> exact ⟨_, rfl⟩
    simp only [step, opened, turned, Option.isSome_some]
  | nil =>
    cases finished : batch.finished with
    | cons next rest =>
      refine ⟨.join 0, by simp, ?_⟩
      simp only [step, opened, finished, List.getElem?_cons_zero, Option.map_some, Option.isSome_some]
    | nil =>
      refine ⟨.collect, by simp, ?_⟩
      obtain ⟨tx, rows, dequeued, _, _⟩ := valid.underway batch opened
      simp [step, opened, dequeued, running, finished]

private theorem turns_six (fiber : Fiber Process Request Reply (GrpcResult Json)) (phase : Phase) :
    fiber.turns Phase.rank phase ≤ 6 := by
  have rank : phase.rank ≤ 5 := by cases phase <;> simp [Phase.rank]
  cases fiber <;> simp only [Fiber.turns] <;> omega

theorem turns_le {batch : Batch} (valid : Valid pg crates noted state) (opened : state.batch = some batch) :
    state.turns crates ≤ 7 * batch.handles.length + 1 := by
  obtain ⟨tx, rows, dequeued, calls, underway⟩ := valid.underway batch opened
  have all := underway.all.length_eq
  simp only [List.length_append, List.length_map] at all
  have most : state.tasks.turns (fun task : Task => protocol crates task.row.args) Phase.rank ≤
      state.tasks.running.length * 6 := by
    rw [Tasks.turns, ← List.length_map]
    apply List.sum_le_card_nsmul
    intro left member
    obtain ⟨task, _, rfl⟩ := List.mem_map.mp member
    exact turns_six task.2 _
  simp only [State.turns, opened]
  omega

/-- The batch is still open, or its joins have ended with a result of each row. -/
inductive Outlook (tx : Tx) (rows : List QueueRow) (state : State) : Prop where
  | opened {batch} (opened : state.batch = some batch) (dequeued : state.cluster.worker = .dequeued tx rows)
  | ended {results} (closed : state.batch = none) (executed : state.cluster.worker = .executed tx results)
      (each : (results.map CallResult.id).Perm (rows.map QueueRow.id))

private theorem step_outlook {event : Event} {tx : Tx} {rows : List QueueRow} (valid : Valid pg crates noted state)
    (permitted : InBatch pg state event) (taken : step pg crates state event = some after) (outlook : Outlook tx rows state) :
    Outlook tx rows after := by
  obtain ⟨isOpen, survives⟩ := permitted
  cases outlook with
  | ended closed => rw [closed] at isOpen; cases isOpen
  | @opened batch opened dequeued =>
    obtain ⟨_, _, stands, calls, underway⟩ := valid.underway batch opened
    cases dequeued.symm.trans stands
    cases step_cases taken with
    | @cluster event cluster other moved lives =>
      exact .opened opened (cluster_waits other moved lives dequeued calls)
    | @die event cluster other moved ends => cases (survives event cluster rfl moved).symm.trans ends
    | spawn free => rw [free] at opened; cases opened
    | poll | expire | panic | join => exact .opened rfl dequeued
    | collect batched stands ran joined =>
      cases opened.symm.trans batched
      cases dequeued.symm.trans stands
      exact .ended rfl rfl (underway.complete ran joined).ids

end Turns

/-- A batch with its calls under way has at most seven turns for each row and one more, in any order, with
any replies, timeouts and panics, and with whatever else goes on. It can always take one of them, so it ends,
and then there is a result for each row. -/
theorem batch_ends {pg : Postgres} {crates : Crates} {state : State} {batch : Batch} {tx : Tx} {rows : List QueueRow}
    (reached : (machine pg crates).Reachable state) (opened : state.batch = some batch)
    (dequeued : state.cluster.worker = .dequeued tx rows) :
    (∀ events final, (machine pg crates).Path (InBatch pg) state events final →
      events.countP Event.turns ≤ 7 * rows.length + 1 ∧
      (final.batch = none → ∃ results, final.cluster.worker = .executed tx results ∧
        (results.map CallResult.id).Perm (rows.map QueueRow.id)) ∧
      (final.batch.isSome = true → ∀ answer, ∃ event ∈ [Event.poll 0 answer, .join 0, .collect],
        (step pg crates final event).isSome)) ∧
    ∃ events final, (machine pg crates).Path (InBatch pg) state events final ∧ final.batch = none := by
  have kept {before : State} {event : Event} {after : State} (permitted : InBatch pg before event)
      (taken : (machine pg crates).step before event = some after)
      (holds : (machine pg crates).Reachable before ∧ Outlook tx rows before) :
      ((machine pg crates).Reachable after ∧ Outlook tx rows after) ∧
        after.turns crates + (if event.turns then 1 else 0) ≤ before.turns crates := by
    obtain ⟨noted, valid⟩ := reachable_valid holds.1
    exact ⟨⟨holds.1.next trivial taken, step_outlook valid permitted taken holds.2⟩, step_spends valid permitted.1 taken⟩
  have start : (machine pg crates).Reachable state ∧ Outlook tx rows state := ⟨reached, .opened opened dequeued⟩
  have stays {events : List Event} {final : State} (path : (machine pg crates).Path (InBatch pg) state events final) :
      (machine pg crates).Reachable final ∧ Outlook tx rows final :=
    path.preserves (fun state => (machine pg crates).Reachable state ∧ Outlook tx rows state)
      (fun _ _ _ permitted taken holds => (kept permitted taken holds).1) start
  refine ⟨fun events final path => ⟨?_, fun closed => ?_, fun isOpen answer => ?_⟩, ?_⟩
  · obtain ⟨noted, valid⟩ := reachable_valid reached
    obtain ⟨_, _, stands, _, underway⟩ := valid.underway batch opened
    cases dequeued.symm.trans stands
    have spent := path.spends (State.turns crates) Event.turns
      (fun state => (machine pg crates).Reachable state ∧ Outlook tx rows state)
      (fun _ _ _ permitted taken holds => kept permitted taken holds) start
    have most := turns_le valid opened
    rw [underway.spawned] at most
    omega
  · cases (stays path).2 with
    | opened isOpen => rw [closed] at isOpen; cases isOpen
    | ended _ executed each => exact ⟨_, executed, each⟩
  · obtain ⟨noted, valid⟩ := reachable_valid (stays path).1
    obtain ⟨last, isOpen⟩ := Option.isSome_iff_exists.mp isOpen
    exact turn_ready valid isOpen answer
  · apply Machine.leads_to (State.turns crates) (fun state => (machine pg crates).Reachable state ∧ Outlook tx rows state)
      (fun state => state.batch = none) ?_ start
    intro before holds unfinished
    obtain ⟨noted, valid⟩ := reachable_valid holds.1
    obtain ⟨last, isOpen⟩ := Option.ne_none_iff_exists'.mp unfinished
    obtain ⟨event, listed, ready⟩ := turn_ready valid isOpen (network fun _ _ => ⟨[], none⟩)
    obtain ⟨after, taken⟩ := Option.isSome_iff_exists.mp ready
    have own : event.turns = true ∧ ∀ other, event ≠ .cluster other := by
      simp only [List.mem_cons, List.not_mem_nil, or_false] at listed
      rcases listed with rfl | rfl | rfl <;> simp [Event.turns]
    have permitted : InBatch pg before event := ⟨by rw [isOpen]; rfl, fun other _ same => absurd same (own.2 other)⟩
    obtain ⟨holds, lower⟩ := kept permitted taken holds
    rw [own.1, if_pos rfl] at lower
    exact ⟨event, after, permitted, taken, holds, lower⟩

private def twoSpawned : List Event :=
  let dequeue : List Cluster.Event := [.worker .begin, .worker (.dequeue .default)]
  (Cluster.enqueue 0 .sample ++ Cluster.enqueue 1 .sample ++ dequeue).map Event.cluster ++ [.spawn [7, 9]]

private def underWay (state : State) : Bool :=
  match state.cluster.worker with
  | .dequeued _ rows => state.batch.isSome && rows.map QueueRow.id == [1, 2]
  | _ => false

theorem batch_ends_two : ∃ state tx, ∃ rows : List QueueRow, (machine .sample .echo).Reachable state ∧
    state.batch.isSome = true ∧ state.cluster.worker = .dequeued tx rows ∧ rows.map QueueRow.id = [1, 2] ∧
    ∃ events final results, (machine .sample .echo).Path (InBatch .sample) state events final ∧
      events.countP Event.turns ≤ 15 ∧ final.cluster.worker = .executed tx results ∧
      (results.map CallResult.id).Perm [1, 2] := by
  obtain ⟨state, _, reached, checked⟩ :=
    (machine .sample .echo).exists_of_run ⟨0, rfl⟩ twoSpawned underWay (by decide)
  unfold underWay at checked
  split at checked
  next tx rows dequeued =>
    obtain ⟨isOpen, ids⟩ := Bool.and_eq_true_iff.mp checked
    have ids : rows.map QueueRow.id = [1, 2] := eq_of_beq ids
    obtain ⟨batch, opened⟩ := Option.isSome_iff_exists.mp isOpen
    obtain ⟨every, events, final, path, closed⟩ := batch_ends reached opened dequeued
    obtain ⟨bound, ended, _⟩ := every events final path
    obtain ⟨results, executed, each⟩ := ended closed
    have two : rows.length = 2 := by rw [← List.length_map, ids]; rfl
    rw [two] at bound
    rw [ids] at each
    exact ⟨state, tx, rows, reached, isOpen, dequeued, ids, events, final, results, path, bound, executed, each⟩
  next => cases checked

end PgGrpc.JoinSet
