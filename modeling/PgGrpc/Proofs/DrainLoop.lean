import PgGrpc.Proofs.Drain
import PgGrpc.Proofs.Retention
import PgGrpc.Proofs.ServerSteps

/-! The worker's inner loop. Each pass takes the smallest ids that are left, so that
the number of passes is known when the loop begins; it ends on an empty queue only. -/

namespace PgGrpc.Queue

theorem insertResults_frame {pg : Postgres} {committed : Tables} {tx after : Tx} {results : List CallResult}
    (ran : insertResults pg committed tx results = .ok after) : after.deleted = tx.deleted ∧ after.start = tx.start := by
  by_cases empty : results = []
  · subst empty
    cases ran
    exact ⟨rfl, rfl⟩
  · obtain ⟨_, _, _, rfl⟩ := (insertResults_ok pg committed tx empty after).mp ran
    exact ⟨rfl, rfl⟩

end PgGrpc.Queue

namespace PgGrpc.Cluster
open Library Queue

/-- The ids that the worker's transaction has deleted. -/
def Stage.taken (stage : Stage) : List Int := stage.tx?.elim [] Tx.deleted

/-- The queue without the rows that the worker has in hand. -/
def State.left (state : State) : List QueueRow :=
  state.tables.queue.filter fun row => !state.worker.taken.contains row.id

/-- The batches with calls that are still to be dequeued. -/
def State.rounds (state : State) (batchSize : BatchSize) : Nat := state.left.length ⌈/⌉ batchSize.value

section Left
variable {pg : Postgres} {state after : State}

theorem left_untaken (none : state.worker.taken = []) : state.left = state.tables.queue := by
  rw [State.left, none]
  exact List.filter_true _

theorem left_opened {tx : Tx} (opened : state.worker.tx? = some tx) : state.left = (tx.view state.tables).queue := by
  rw [State.left, Stage.taken, opened]
  rfl

theorem left_congr (queue : after.tables.queue = state.tables.queue) (taken : after.worker.taken = state.worker.taken) :
    after.left = state.left := by
  rw [State.left, State.left, queue, taken]

theorem left_distinct (sound : state.tables.Sound) : (state.left.map QueueRow.id).Nodup :=
  Keyed.map_filter_nodup _ sound.queueOnce _

private theorem ceil_step {n size : Nat} (positive : 1 ≤ size) (some_ : 0 < n) :
    (n - min size n) ⌈/⌉ size + 1 = n ⌈/⌉ size := by
  rw [Nat.ceilDiv_eq_add_pred_div, Nat.ceilDiv_eq_add_pred_div]
  rcases Nat.le_total size n with full | last
  · rw [Nat.min_eq_left full, ← Nat.add_div_right _ positive]
    congr 1
    omega
  · rw [Nat.min_eq_right last, Nat.sub_self, Nat.zero_add, Nat.div_eq_of_lt (by omega), Nat.zero_add]
    exact (Nat.div_eq_of_lt_le (by omega) (by omega)).symm

/-- As many rows as the batch size allows, all of them before every row that is left. -/
structure Takes (batchSize : BatchSize) (found rows : List QueueRow) : Prop where
  among : rows ⊆ found
  many : rows.length = min batchSize.value found.length
  first : ∀ row ∈ rows, ∀ other ∈ found, other ∉ rows → row.id < other.id

theorem dequeue_takes (batchSize : BatchSize) {tx : Tx} (begun : state.worker = .begun tx) (sound : state.tables.Sound) :
    Takes batchSize state.left (Queue.dequeue batchSize state.tables tx).1 ∧
      ((Queue.dequeue batchSize state.tables tx).2.view state.tables).queue.length =
        state.left.length - (Queue.dequeue batchSize state.tables tx).1.length := by
  have distinct := left_distinct sound
  have found : state.left = (tx.view state.tables).queue := left_opened (by rw [begun]; rfl)
  let ids := Keyed.smallest batchSize.value (state.left.map QueueRow.id)
  have rows : (Queue.dequeue batchSize state.tables tx).1 = state.left.filter fun row => ids.contains row.id := by
    simp only [Queue.dequeue, ids, found]
  have left : ((Queue.dequeue batchSize state.tables tx).2.view state.tables).queue =
      state.left.filter fun row => !ids.contains row.id := by
    simp only [ids, found, Queue.dequeue, Tx.view, List.filter_filter]
    apply List.filter_congr
    intro row _
    rw [List.contains_append, Bool.not_or, Bool.and_comm]
  have many : (Queue.dequeue batchSize state.tables tx).1.length = ids.length := by
    rw [← List.length_map (f := QueueRow.id), rows]
    exact (Keyed.map_filter_perm QueueRow.id distinct (Keyed.smallest_nodup distinct _) fun _ => Keyed.smallest_subset).length_eq
  refine ⟨⟨?_, ?_, ?_⟩, ?_⟩
  · rw [rows]
    exact List.filter_subset_self _
  · rw [many, Keyed.length_smallest, List.length_map]
  · intro row member other there behind
    rw [rows, List.mem_filter, List.contains_iff_mem] at member behind
    have apart : other.id ∉ ids := fun taken => behind ⟨there, taken⟩
    have le := Keyed.smallest_le member.2 (List.mem_map_of_mem there) apart
    exact lt_of_le_of_ne le fun same => apart (same ▸ member.2)
  · rw [left, rows, List.length_eq_length_filter_add (l := state.left) fun row => ids.contains row.id, Nat.add_sub_cancel_left]

/-- A dequeue finds nothing, or takes one of the batches that are left. -/
theorem dequeue_rounds (batchSize : BatchSize) {tx : Tx} (begun : state.worker = .begun tx) (sound : state.tables.Sound) :
    (if (Queue.dequeue batchSize state.tables tx).1.isEmpty then 0 else 1) +
      State.rounds { state with
        worker := .dequeued (Queue.dequeue batchSize state.tables tx).2 (Queue.dequeue batchSize state.tables tx).1 }
          batchSize = state.rounds batchSize := by
  have positive := batchSize.positive
  obtain ⟨takes, rest⟩ := dequeue_takes batchSize begun sound
  rw [State.rounds, State.rounds, left_opened rfl, rest]
  have many := takes.many
  cases rows : (Queue.dequeue batchSize state.tables tx).1 with
  | nil => exact Nat.zero_add _
  | cons row others =>
    rw [rows, List.length_cons] at many
    have found : 0 < state.left.length := by omega
    rw [List.length_cons, many, Nat.add_comm]
    exact ceil_step positive found

theorem dequeue_nothing (batchSize : BatchSize) {tx : Tx} (begun : state.worker = .begun tx) (sound : state.tables.Sound)
    (empty : (Queue.dequeue batchSize state.tables tx).1 = []) : state.left = [] ∧ state.rounds batchSize = 0 := by
  have positive := batchSize.positive
  have many := (dequeue_takes batchSize begun sound).1.many
  rw [empty, List.length_nil] at many
  have nothing : state.left.length = 0 := by omega
  refine ⟨List.length_eq_zero_iff.mp nothing, ?_⟩
  rw [State.rounds, nothing, zero_ceilDiv]

end Left
end PgGrpc.Cluster

namespace PgGrpc.Server
open Library Queue
open Cluster (Stage)

/-- What a dequeue found in the queue, and what it took. -/
structure Batch where
  found : List QueueRow
  rows : List QueueRow

def batch? (state : State) : Event → Option Batch
  | .statement .dequeue =>
    match state.worker.pc, state.cluster.worker with
    | .passing batchSize, .begun tx =>
      some ⟨state.cluster.tables.queue, (Queue.dequeue batchSize state.cluster.tables tx).1⟩
    | _, _ => none
  | _ => none

def batches (pg : Postgres) (state : State) (events : List Event) : List Batch :=
  (machine pg).observed batch? state events

def Pc.captured : Pc → Option BatchSize
  | .draining batchSize | .passing batchSize => some batchSize
  | _ => none

def Event.works : Event → Bool
  | .run | .statement _ => true
  | _ => false

/-- The worker is in its inner loop, and no SIGTERM arrives. -/
structure Drains (before : State) (event : Event) : Prop where
  inner : before.worker.pc.captured.isSome
  calm : event ≠ .sigterm

/-- The step is no error of the worker's, and puts nothing into the queue. -/
structure Unhindered (pg : Postgres) (before : State) (event : Event) : Prop where
  raises : ∀ after, step pg before event = some after → after.worker.pc ≠ .exiting
  enqueues : ∀ after, step pg before event = some after →
    after.cluster.tables.queueIds ⊆ before.cluster.tables.queueIds

/-- What a step in the inner loop can be. -/
inductive Turn (pg : Postgres) (state : State) : Event → State → Prop where
  | quiet {event after rows} (idle : event.works = false) (pc : after.worker.pc = state.worker.pc)
      (stage : after.cluster.worker = state.cluster.worker)
      (queue : after.cluster.tables.queue = state.cluster.tables.queue ++ rows) : Turn pg state event after
  | raise {event after} (exits : after.worker.pc = .exiting) : Turn pg state event after
  | pass {batchSize} (draining : state.worker.pc = .draining batchSize) (idle : state.cluster.worker = .idle) :
      Turn pg state .run { state with worker := { state.worker with pc := .passing batchSize, sigterm := false } }
  | begin {batchSize} (passing : state.worker.pc = .passing batchSize) (idle : state.cluster.worker = .idle) :
      Turn pg state (.statement .begin) ({ state with
        cluster := { state.cluster with worker := .begun (.begin state.cluster.clock) } }.goto (.passing batchSize))
  | dequeue {batchSize tx} (passing : state.worker.pc = .passing batchSize) (begun : state.cluster.worker = .begun tx) :
      Turn pg state (.statement .dequeue) ({ state with
        cluster := { state.cluster with
          worker := .dequeued (Queue.dequeue batchSize state.cluster.tables tx).2
            (Queue.dequeue batchSize state.cluster.tables tx).1 } }.goto (.passing batchSize))
  | execute {batchSize joins tx rows} (passing : state.worker.pc = .passing batchSize)
      (dequeued : state.cluster.worker = .dequeued tx rows) (calls : rows ≠ []) :
      Turn pg state (.statement (.execute joins)) ({ state with
        cluster := { state.cluster with worker := .executed tx (Worker.collect rows joins) } }.goto (.passing batchSize))
  | insert {batchSize tx results stored} (passing : state.worker.pc = .passing batchSize)
      (executed : state.cluster.worker = .executed tx results)
      (ran : Queue.insertResults pg state.cluster.tables tx results = .ok stored) :
      Turn pg state (.statement .insert) ({ state with
        cluster := { state.cluster with worker := .inserted stored } }.goto (.passing batchSize))
  | cleanup {batchSize tx drained cleaned warning} (passing : state.worker.pc = .passing batchSize)
      (ready : Cluster.Cleanable state.cluster tx drained)
      (ran : Queue.ttlCleanup pg state.cluster.tables tx state.worker.loaded.ttl = .ok (cleaned, warning)) :
      Turn pg state (.statement .cleanup) ({ state with
        cluster := { state.cluster with worker := .cleaned cleaned drained } }.goto (.passing batchSize))
  | commit {batchSize tx drained} (passing : state.worker.pc = .passing batchSize)
      (cleaned : state.cluster.worker = .cleaned tx drained) :
      Turn pg state (.statement .commit) ({ state with cluster := state.cluster.commitWorker tx }.goto
        (if drained then .waiting else .draining batchSize))

section Turns
variable {pg : Postgres} {state after : State} {event : Event}

private theorem statement_turn {batchSize : BatchSize} {statement : Statement} {cluster : Cluster.State}
    (passing : state.worker.pc = .passing batchSize)
    (moved : Cluster.WorkerMove pg state.cluster (statement.event batchSize state.worker.loaded.ttl) cluster) :
    Turn pg state (.statement statement)
      ({ state with cluster }.goto (afterStatement batchSize state.cluster.worker cluster.worker)) := by
  have stays : cluster.worker ≠ .idle → afterStatement batchSize state.cluster.worker cluster.worker = .passing batchSize :=
    afterStatement_open
  cases statement with
  | begin =>
    cases moved with
    | begin idle => rw [stays (by simp)]; exact .begin passing idle
  | dequeue =>
    cases moved with
    | dequeue begun => rw [stays (by simp)]; exact .dequeue passing begun
  | execute joins =>
    cases moved with
    | execute dequeued nonempty covers => rw [stays (by simp)]; exact .execute passing dequeued nonempty
  | insert =>
    cases moved with
    | insert executed ran => rw [stays (by simp)]; exact .insert passing executed ran
    | insertError executed failed => exact .raise (by rw [executed]; rfl)
  | cleanup =>
    cases moved with
    | cleanup ready ran => rw [stays (by simp)]; exact .cleanup passing ready ran
    | cleanupError ready failed =>
      refine .raise ?_
      cases ready with
      | drained stands | stored stands => rw [stands]; rfl
  | commit =>
    cases moved with
    | @commit tx drained cleaned =>
      have turn : Turn pg state (.statement .commit) _ := .commit passing cleaned
      rw [cleaned]
      cases drained <;> exact turn

theorem turn_cases (settled : Settled state) (flag : state.worker.sigterm = false) (drains : Drains state event)
    (taken : step pg state event = some after) : Turn pg state event after := by
  obtain ⟨inner, calm⟩ := drains
  have same : state.cluster.tables.queue = state.cluster.tables.queue ++ [] := (List.append_nil _).symm
  cases step_cases taken with
  | session idle moved =>
    obtain ⟨rows, queue⟩ := (Cluster.sessionStep_frame moved).queue
    exact .quiet rfl rfl (Cluster.sessionStep_frame moved).worker queue
  | start dead wanted => rw [dead] at inner; cases inner
  | run ran =>
    cases ran with
    | pass draining clear => exact .pass draining (settled.stage (by simp [draining]))
    | break_ draining raised => cases raised.symm.trans flag
    | clearLatch stands | connect stands | hook stands | storeLatch stands | wake stands | leave stands | stay stands
    | reload stands | take stands | skip stands | release stands | storeFlag stands | vanish stands | clear stands =>
      rw [stands] at inner
      cases inner
  | statement passing moved => exact statement_turn passing (Cluster.workerStep_cases moved)
  | fail alive => exact .raise rfl
  | sigterm attached => exact absurd rfl calm
  | reread dead | restart dead => rw [dead] at inner; cases inner
  | storeFlag | readLatch | setLatch | lockWait | sighup | configure | tick => exact .quiet rfl rfl rfl same

private theorem quiet_rows {rows : List QueueRow} (unhindered : Unhindered pg state event)
    (taken : step pg state event = some after) (sound : after.cluster.tables.Sound)
    (queue : after.cluster.tables.queue = state.cluster.tables.queue ++ rows) : rows = [] := by
  have once := sound.queueOnce
  have old := unhindered.enqueues after taken
  rw [Tables.queueIds, queue, List.map_append] at once old
  refine List.eq_nil_iff_forall_not_mem.mpr fun row new => ?_
  have id : row.id ∈ rows.map QueueRow.id := List.mem_map_of_mem new
  exact List.disjoint_of_nodup_append once (old (List.mem_append_right _ id)) id

def Batch.calls (batch : Batch) : Bool := !batch.rows.isEmpty

private theorem batch?_idle (idle : event.works = false) : batch? state event = none := by
  cases event with
  | statement statement => cases idle
  | _ => rfl

private theorem batch?_dequeue {batchSize : BatchSize} {tx : Tx} (passing : state.worker.pc = .passing batchSize)
    (begun : state.cluster.worker = .begun tx) : batch? state (.statement .dequeue) =
      some ⟨state.cluster.tables.queue, (Queue.dequeue batchSize state.cluster.tables tx).1⟩ := by
  simp only [batch?, passing, begun]

/-- Without new rows the batches to come are those of before, less the one that is dequeued. -/
theorem Turn.rounds {batchSize : BatchSize} (turn : Turn pg state event after) (reached : (machine pg).Reachable state)
    (taken : step pg state event = some after) (unhindered : Unhindered pg state event)
    (sized : ∀ size, state.worker.pc.captured = some size → size = batchSize) :
    (batch? state event).toList.countP Batch.calls + after.cluster.rounds batchSize = state.cluster.rounds batchSize := by
  have sound := Cluster.reachable_sound (reachable_cluster reached)
  have same (left : after.cluster.left = state.cluster.left) (none : batch? state event = none) :
      (batch? state event).toList.countP Batch.calls + after.cluster.rounds batchSize =
        state.cluster.rounds batchSize := by
    rw [none, Cluster.State.rounds, Cluster.State.rounds, left]
    exact Nat.zero_add _
  cases turn with
  | quiet idle pc stage queue =>
    have later := Cluster.reachable_sound (reachable_cluster (reached.next trivial taken))
    have none := quiet_rows unhindered taken later queue
    refine same (Cluster.left_congr ?_ (by rw [stage])) (batch?_idle idle)
    rw [queue, none, List.append_nil]
  | raise exits => exact absurd exits (unhindered.raises after taken)
  | pass draining idle => exact same rfl rfl
  | begin passing idle => exact same (Cluster.left_congr rfl (by rw [idle]; rfl)) rfl
  | @dequeue size tx passing begun =>
    obtain rfl := sized size (by rw [passing]; rfl)
    rw [batch?_dequeue passing begun, ← Cluster.dequeue_rounds size begun sound]
    congr 1
    cases rows : (Queue.dequeue size state.cluster.tables tx).1 <;>
      simp only [Option.toList_some, List.countP_singleton, Batch.calls, List.isEmpty] <;> rfl
  | execute passing dequeued calls => exact same (Cluster.left_congr rfl (by rw [dequeued]; rfl)) rfl
  | insert passing executed ran =>
    refine same (Cluster.left_congr rfl ?_) rfl
    rw [executed]
    exact (insertResults_frame ran).1
  | @cleanup size tx drained cleaned warning passing ready ran =>
    obtain ⟨bound, _, rest⟩ := (Queue.ttlCleanup_ok ..).mp ran
    have deleted : cleaned.deleted = tx.deleted := by rw [(Prod.mk.inj rest).1]
    refine same (Cluster.left_congr rfl ?_) rfl
    cases ready with
    | drained stands | stored stands => rw [stands]; exact deleted
  | commit passing cleaned =>
    exact same ((Cluster.left_untaken rfl).trans (Cluster.left_opened (by rw [cleaned]; rfl)).symm) rfl

def rank (state : State) : Nat :=
  match state.worker.pc, state.cluster.worker with
  | .draining batchSize, _ => 7 * state.cluster.rounds batchSize + 5
  | .passing batchSize, .idle => 7 * state.cluster.rounds batchSize + 4
  | .passing batchSize, .begun _ => 7 * state.cluster.rounds batchSize + 3
  | .passing batchSize, .dequeued _ rows => if rows.isEmpty then 2 else 7 * state.cluster.rounds batchSize + 9
  | .passing batchSize, .executed _ _ => 7 * state.cluster.rounds batchSize + 8
  | .passing batchSize, .inserted _ => 7 * state.cluster.rounds batchSize + 7
  | .passing batchSize, .cleaned _ drained => if drained then 1 else 7 * state.cluster.rounds batchSize + 6
  | _, _ => 0

theorem Turn.lowers {batchSize : BatchSize} (turn : Turn pg state event after) (reached : (machine pg).Reachable state)
    (taken : step pg state event = some after) (unhindered : Unhindered pg state event)
    (sized : ∀ size, state.worker.pc.captured = some size → size = batchSize) :
    rank after + (if event.works then 1 else 0) = rank state := by
  have rounds := turn.rounds reached taken unhindered sized
  have sized {size} (inner : state.worker.pc.captured = some size) : size = batchSize := sized size inner
  cases turn with
  | quiet idle pc stage queue =>
    rw [batch?_idle idle, Option.toList_none, List.countP_nil, Nat.zero_add] at rounds
    rw [idle]
    cases stands : state.worker.pc with
    | draining size =>
      obtain rfl := sized (by rw [stands]; rfl)
      simp only [rank, pc, stands, rounds, Bool.false_eq_true, if_false, Nat.add_zero]
    | passing size =>
      obtain rfl := sized (by rw [stands]; rfl)
      simp only [rank, pc, stage, stands]
      cases state.cluster.worker <;> simp only [rounds, Bool.false_eq_true, if_false, Nat.add_zero]
    | _ => simp only [rank, pc, stage, stands, Bool.false_eq_true, if_false]
  | raise exits => exact absurd exits (unhindered.raises after taken)
  | pass draining idle => simp only [rank, draining, idle, Event.works, if_true]
  | begin passing idle =>
    obtain rfl := sized (by rw [passing]; rfl)
    simp only [batch?, Option.toList_none, List.countP_nil, Nat.zero_add, State.goto] at rounds
    simp only [rank, State.goto, passing, idle, Event.works, if_true, rounds]
  | dequeue passing begun =>
    have sound := Cluster.reachable_sound (reachable_cluster reached)
    obtain rfl := sized (by rw [passing]; rfl)
    rw [batch?_dequeue passing begun, Option.toList_some, List.countP_singleton] at rounds
    simp only [rank, State.goto, passing, begun, Event.works, if_true]
    split
    next empty =>
      have none := (Cluster.dequeue_nothing _ begun sound (List.isEmpty_iff.mp empty)).2
      omega
    next calls =>
      simp only [Batch.calls, State.goto, calls, Bool.not_false, if_true] at rounds
      omega
  | execute passing dequeued calls =>
    obtain rfl := sized (by rw [passing]; rfl)
    simp only [batch?, Option.toList_none, List.countP_nil, Nat.zero_add, State.goto] at rounds
    simp only [rank, State.goto, passing, dequeued, List.isEmpty_iff, calls, Event.works, if_true, if_false, rounds]
  | insert passing executed ran =>
    obtain rfl := sized (by rw [passing]; rfl)
    simp only [batch?, Option.toList_none, List.countP_nil, Nat.zero_add, State.goto] at rounds
    simp only [rank, State.goto, passing, executed, Event.works, if_true, rounds]
  | cleanup passing ready ran =>
    obtain rfl := sized (by rw [passing]; rfl)
    simp only [batch?, Option.toList_none, List.countP_nil, Nat.zero_add, State.goto] at rounds
    cases ready with
    | drained stands | stored stands =>
      simp only [rank, State.goto, passing, stands, List.isEmpty_nil, Event.works, if_true, Bool.false_eq_true, if_false,
        rounds]
  | @commit _ tx drained passing cleaned =>
    obtain rfl := sized (by rw [passing]; rfl)
    simp only [batch?, Option.toList_none, List.countP_nil, Nat.zero_add, State.goto] at rounds
    cases drained <;>
      simp only [rank, State.goto, passing, cleaned, Event.works, if_true, Bool.false_eq_true, if_false, rounds]

theorem step_flag (taken : step pg state event = some after) (calm : event ≠ .sigterm)
    (flag : state.worker.sigterm = false) : after.worker.sigterm = false := by
  cases step_cases taken with
  | run ran => cases ran <;> first | exact flag | rfl
  | start | restart => rfl
  | sigterm => exact absurd rfl calm
  | _ => exact flag

/-- The last dequeue has found nothing. -/
def ending (state : State) : Bool :=
  match state.worker.pc, state.cluster.worker with
  | .waiting, _ => true
  | .passing _, .dequeued _ rows => rows.isEmpty
  | .passing _, .cleaned _ drained => drained
  | _, _ => false

/-- Batches with calls, and at the end a dequeue on an empty queue. -/
def Ends : Bool → List Batch → Prop
  | false, noted => ∀ batch ∈ noted, batch.calls = true
  | true, noted => ∃ earlier, noted = earlier ++ [⟨[], []⟩] ∧ ∀ batch ∈ earlier, batch.calls = true

/-- What is known of the batches so far, and of the worker. -/
structure Noted (pg : Postgres) (batchSize : BatchSize) (noted : List Batch) (state : State) : Prop where
  reached : (machine pg).Reachable state
  flag : state.worker.sigterm = false
  sized : ∀ size, state.worker.pc.captured = some size → size = batchSize
  takes : ∀ batch ∈ noted, Cluster.Takes batchSize batch.found batch.rows
  ends : state.worker.pc ≠ .exiting → Ends (ending state) noted

theorem Turn.sized {batchSize : BatchSize} (turn : Turn pg state event after)
    (sized : ∀ size, state.worker.pc.captured = some size → size = batchSize) :
    ∀ size, after.worker.pc.captured = some size → size = batchSize := by
  cases turn with
  | quiet idle pc stage queue => rwa [pc]
  | raise exits => rw [exits]; exact nofun
  | pass stands => rw [stands] at sized; exact sized
  | begin stands | dequeue stands | execute stands | insert stands | cleanup stands => rw [stands] at sized; exact sized
  | @commit size tx drained stands cleaned =>
    rw [stands] at sized
    cases drained with
    | true => exact nofun
    | false => exact sized

/-- A dequeue takes from the whole queue, since it comes first in its transaction. -/
private theorem dequeue_noted {batchSize : BatchSize} {tx : Tx} (reached : (machine pg).Reachable state)
    (begun : state.cluster.worker = .begun tx) :
    Cluster.Takes batchSize state.cluster.tables.queue (Queue.dequeue batchSize state.cluster.tables tx).1 ∧
      ((Queue.dequeue batchSize state.cluster.tables tx).1 = [] → state.cluster.tables.queue = []) := by
  obtain ⟨phases, tracks⟩ := Cluster.reachable_tracks (reachable_cluster reached)
  have stage := tracks.worker
  rw [begun] at stage
  have whole : state.cluster.left = state.cluster.tables.queue :=
    Cluster.left_untaken (by rw [begun]; exact stage.1)
  rw [← whole]
  exact ⟨(Cluster.dequeue_takes batchSize begun tracks.sound).1,
    fun empty => (Cluster.dequeue_nothing batchSize begun tracks.sound empty).1⟩

private theorem batch?_takes {batchSize : BatchSize} {batch : Batch} (reached : (machine pg).Reachable state)
    (sized : ∀ size, state.worker.pc.captured = some size → size = batchSize) (seen : batch? state event = some batch) :
    Cluster.Takes batchSize batch.found batch.rows := by
  unfold batch? at seen
  split at seen
  next =>
    split at seen
    next size tx passing begun =>
      obtain rfl := sized size (by rw [passing]; rfl)
      cases seen
      exact (dequeue_noted reached begun).1
    next => cases seen
  next => cases seen

/-- Whether the last dequeue has found nothing changes at a dequeue only. -/
theorem Turn.notes (turn : Turn pg state event after) :
    after.worker.pc = .exiting ∨ (batch? state event = none ∧ ending after = ending state) ∨
    ∃ size tx, state.worker.pc = .passing size ∧ state.cluster.worker = .begun tx ∧ ending state = false ∧
      batch? state event = some ⟨state.cluster.tables.queue, (Queue.dequeue size state.cluster.tables tx).1⟩ ∧
      ending after = (Queue.dequeue size state.cluster.tables tx).1.isEmpty := by
  cases turn with
  | quiet idle pc stage queue => exact .inr (.inl ⟨batch?_idle idle, by simp only [ending, pc, stage]⟩)
  | raise raised => exact .inl raised
  | pass draining idle => exact .inr (.inl ⟨rfl, by simp only [ending, draining, idle]⟩)
  | begin passing idle => exact .inr (.inl ⟨rfl, by simp only [ending, State.goto, passing, idle]⟩)
  | @dequeue size tx passing begun =>
    refine .inr (.inr ⟨size, tx, passing, begun, ?_, batch?_dequeue passing begun, rfl⟩)
    simp only [ending, passing, begun]
  | execute passing dequeued calls =>
    exact .inr (.inl ⟨rfl, by simp [ending, State.goto, passing, dequeued, calls]⟩)
  | insert passing executed ran => exact .inr (.inl ⟨rfl, by simp only [ending, State.goto, passing, executed]⟩)
  | cleanup passing ready ran =>
    cases ready with
    | drained stands | stored stands => exact .inr (.inl ⟨rfl, by simp [ending, State.goto, passing, stands]⟩)
  | @commit size tx drained passing cleaned =>
    cases drained <;> exact .inr (.inl ⟨rfl, by simp [ending, State.goto, passing, cleaned]⟩)

theorem Turn.ends {noted : List Batch} (turn : Turn pg state event after) (reached : (machine pg).Reachable state)
    (ends : Ends (ending state) noted) (exits : after.worker.pc ≠ .exiting) :
    Ends (ending after) (noted ++ (batch? state event).toList) := by
  rcases turn.notes with raised | ⟨quiet, kept⟩ | ⟨size, tx, passing, begun, before, dequeued, later⟩
  · exact absurd raised exits
  · rw [quiet, kept, Option.toList_none, List.append_nil]
    exact ends
  · rw [before] at ends
    rw [dequeued, later]
    cases rows : (Queue.dequeue size state.cluster.tables tx).1 with
    | nil =>
      rw [(dequeue_noted reached begun).2 rows]
      exact ⟨noted, rfl, ends⟩
    | cons row others =>
      intro batch member
      rcases List.mem_append.mp member with old | new
      · exact ends batch old
      · cases List.mem_singleton.mp new
        rfl

/-- Without new rows, a dequeue that finds nothing has emptied the queue for good. -/
theorem Turn.cleared {batchSize : BatchSize} (turn : Turn pg state event after) (reached : (machine pg).Reachable state)
    (taken : step pg state event = some after) (unhindered : Unhindered pg state event)
    (sized : ∀ size, state.worker.pc.captured = some size → size = batchSize)
    (cleared : ending state = true → state.cluster.rounds batchSize = 0) (last : ending after = true) :
    after.cluster.rounds batchSize = 0 := by
  have rounds := turn.rounds reached taken unhindered sized
  have before : state.cluster.rounds batchSize = 0 := by
    rcases turn.notes with raised | ⟨_, kept⟩ | ⟨size, tx, passing, begun, _, _, later⟩
    · exact absurd raised (unhindered.raises after taken)
    · exact cleared (kept ▸ last)
    · obtain rfl := sized size (by rw [passing]; rfl)
      have empty := List.isEmpty_iff.mp (later.symm.trans last)
      have sound := Cluster.reachable_sound (reachable_cluster reached)
      exact (Cluster.dequeue_nothing size begun sound empty).2
  omega

/-- The inner loop is left to wait, or by an error. -/
theorem Turn.stands (turn : Turn pg state event after) (inner : state.worker.pc.captured.isSome) :
    after.worker.pc.captured.isSome ∨ after.worker.pc = .waiting ∨ after.worker.pc = .exiting := by
  cases turn with
  | quiet idle pc stage queue => exact .inl (by rwa [pc])
  | raise exits => exact .inr (.inr exits)
  | pass | begin | dequeue | execute | insert | cleanup => exact .inl rfl
  | @commit size tx drained passing cleaned =>
    cases drained with
    | true => exact .inr (.inl rfl)
    | false => exact .inl rfl

theorem Noted.step {batchSize : BatchSize} {noted : List Batch} (before : Noted pg batchSize noted state)
    (drains : Drains state event) (taken : step pg state event = some after) :
    Noted pg batchSize (noted ++ (batch? state event).toList) after := by
  have turn := turn_cases (reachable_settled before.reached) before.flag drains taken
  have inner : state.worker.pc ≠ .exiting := by
    intro exits
    have inner := drains.inner
    rw [exits] at inner
    cases inner
  refine ⟨before.reached.next trivial taken, step_flag taken drains.calm before.flag, turn.sized before.sized, ?_,
    turn.ends before.reached (before.ends inner)⟩
  intro batch member
  rcases List.mem_append.mp member with old | new
  · exact before.takes batch old
  · exact batch?_takes before.reached before.sized (Option.mem_toList.mp new)

/-- What is known where nothing comes into the queue: how many batches it has given and still holds. -/
structure Counted (pg : Postgres) (batchSize : BatchSize) (all : Nat) (noted : List Batch) (state : State) : Prop where
  known : Noted pg batchSize noted state
  stands : state.worker.pc.captured.isSome ∨ state.worker.pc = .waiting
  rounds : noted.countP Batch.calls + state.cluster.rounds batchSize = all
  cleared : ending state = true → state.cluster.rounds batchSize = 0

theorem Counted.step {batchSize : BatchSize} {all : Nat} {noted : List Batch}
    (before : Counted pg batchSize all noted state) (drains : Drains state event) (unhindered : Unhindered pg state event)
    (taken : step pg state event = some after) :
    Counted pg batchSize all (noted ++ (batch? state event).toList) after := by
  obtain ⟨known, _, rounds, cleared⟩ := before
  have turn := turn_cases (reachable_settled known.reached) known.flag drains taken
  refine ⟨known.step drains taken, ?_, ?_, turn.cleared known.reached taken unhindered known.sized cleared⟩
  · rcases turn.stands drains.inner with inner | waits | exits
    · exact .inl inner
    · exact .inr waits
    · exact absurd exits (unhindered.raises after taken)
  · have less := turn.rounds known.reached taken unhindered known.sized
    rw [List.countP_append]
    omega

theorem rank_pos (inner : state.worker.pc.captured.isSome) : 0 < rank state := by
  unfold rank
  cases stands : state.worker.pc with
  | draining size => simp only; omega
  | passing size =>
    cases state.cluster.worker <;> simp only
    all_goals first | omega | (split <;> omega)
  | _ => rw [stands] at inner; cases inner

theorem rank_waiting (waits : state.worker.pc = .waiting) : rank state = 0 := by
  simp only [rank, waits]

theorem inner_enabled (pg : Postgres) {batchSize : BatchSize} (inner : state.worker.pc.captured = some batchSize) :
    ∃ event, event.works = true ∧ (step pg state event).isSome := by
  cases stands : state.worker.pc with
  | draining size => exact ⟨.run, rfl, by simp only [step, run, stands]; rfl⟩
  | passing size =>
    have enabled (statement : Statement)
        (moves : (Cluster.workerStep pg state.cluster (statement.event size state.worker.loaded.ttl)).isSome) :
        ∃ event, event.works = true ∧ (step pg state event).isSome := by
      refine ⟨.statement statement, rfl, ?_⟩
      simp only [step, stands, Option.isSome_map]
      exact moves
    cases stage : state.cluster.worker with
    | idle => exact enabled .begin (by simp only [Statement.event, Cluster.workerStep, stage]; rfl)
    | begun tx => exact enabled .dequeue (by simp only [Statement.event, Cluster.workerStep, stage]; rfl)
    | dequeued tx rows =>
      by_cases empty : rows = []
      · subst empty
        refine enabled .cleanup ?_
        simp only [Statement.event, Cluster.workerStep, stage]
        split <;> rfl
      · refine enabled (.execute (Cluster.unavailable rows)) ?_
        simp only [Statement.event, Cluster.workerStep, stage]
        rw [if_pos ⟨empty, Cluster.unavailable_covers rows⟩]
        rfl
    | executed tx results =>
      refine enabled .insert ?_
      simp only [Statement.event, Cluster.workerStep, stage]
      split <;> rfl
    | inserted tx =>
      refine enabled .cleanup ?_
      simp only [Statement.event, Cluster.workerStep, stage]
      split <;> rfl
    | cleaned tx drained => exact enabled .commit (by simp only [Statement.event, Cluster.workerStep, stage]; rfl)
  | _ => rw [stands] at inner; cases inner

end Turns

section Runs
variable {pg : Postgres} {batchSize : BatchSize} {state final : State} {events : List Event}

theorem noted_start (reached : (machine pg).Reachable state) (draining : state.worker.pc = .draining batchSize)
    (flag : state.worker.sigterm = false) : Noted pg batchSize [] state where
  reached := reached
  flag := flag
  sized size inner := by
    rw [draining] at inner
    exact (Option.some.inj inner).symm
  takes := List.forall_mem_nil _
  ends _ := by
    have calls : ending state = false := by simp only [ending, draining]
    rw [calls]
    exact List.forall_mem_nil _

theorem counted_start (reached : (machine pg).Reachable state) (draining : state.worker.pc = .draining batchSize)
    (flag : state.worker.sigterm = false) :
    Counted pg batchSize (state.cluster.tables.queue.length ⌈/⌉ batchSize.value) [] state where
  known := noted_start reached draining flag
  stands := .inl (by rw [draining]; rfl)
  rounds := by
    have idle := (reachable_settled reached).stage (by simp [draining])
    rw [List.countP_nil, Nat.zero_add, Cluster.State.rounds, Cluster.left_untaken (by rw [idle]; rfl)]
  cleared last := by simp [ending, draining] at last

theorem batches_noted (reached : (machine pg).Reachable state) (draining : state.worker.pc = .draining batchSize)
    (flag : state.worker.sigterm = false) (path : (machine pg).Path Drains state events final) :
    Noted pg batchSize (batches pg state events) final :=
  path.observed (Noted pg batchSize) (fun _ _ _ _ drains taken before => before.step drains taken)
    (noted_start reached draining flag)

theorem batches_counted (reached : (machine pg).Reachable state) (draining : state.worker.pc = .draining batchSize)
    (flag : state.worker.sigterm = false)
    (path : (machine pg).Path (fun before event => Drains before event ∧ Unhindered pg before event) state events final) :
    Counted pg batchSize (state.cluster.tables.queue.length ⌈/⌉ batchSize.value) (batches pg state events) final :=
  path.observed (Counted pg batchSize _) (fun _ _ _ _ both taken before => before.step both.1 both.2 taken)
    (counted_start reached draining flag)

theorem ranked (reached : (machine pg).Reachable state) (draining : state.worker.pc = .draining batchSize)
    (flag : state.worker.sigterm = false)
    (path : (machine pg).Path (fun before event => Drains before event ∧ Unhindered pg before event) state events final) :
    rank final + events.countP Event.works = 7 * (state.cluster.tables.queue.length ⌈/⌉ batchSize.value) + 5 := by
  have start : rank state = 7 * (state.cluster.tables.queue.length ⌈/⌉ batchSize.value) + 5 := by
    have idle := (reachable_settled reached).stage (by simp [draining])
    simp only [rank, draining, Cluster.State.rounds, Cluster.left_untaken (by rw [idle]; rfl : state.cluster.worker.taken = [])]
  rw [← start]
  refine path.ranked rank Event.works (fun state => ∃ noted, Noted pg batchSize noted state) ?_
    ⟨[], noted_start reached draining flag⟩
  intro before event after both taken known
  obtain ⟨noted, known⟩ := known
  have turn := turn_cases (reachable_settled known.reached) known.flag both.1 taken
  exact ⟨⟨_, known.step both.1 taken⟩, turn.lowers known.reached taken both.2 known.sized⟩

end Runs
end PgGrpc.Server
