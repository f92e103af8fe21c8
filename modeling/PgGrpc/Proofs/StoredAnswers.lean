import PgGrpc.JoinSet
import PgGrpc.Proofs.CallProtocol
import PgGrpc.Proofs.IssuedRows
import PgGrpc.Proofs.Outcomes
import PgGrpc.Proofs.Refinement

/-! From a committed call to its stored answer. The calls of a batch, run as tasks, do
what the cluster says a batch does, and each answer in the table is that of an exchange
with the server which the caller's own arguments account for. -/

namespace PgGrpc
open Library

def QueueRow.args (row : QueueRow) : CallArgs := row.callArgs ((OptionsConfig.ofArgument row.options).toOption.getD {})

namespace JoinSet
open Worker Queue Calls

/-- What is on record of the tasks: the calls that have ended, and those that were dropped. -/
structure Record where
  ended : List ((Task × Log Request Reply) × GrpcResult Json)
  dropped : List (Task × Drop)

structure Record.Grows (said more : Record) : Prop where
  ended : said.ended ⊆ more.ended
  dropped : said.dropped ⊆ more.dropped

theorem Record.Grows.refl (said : Record) : said.Grows said := ⟨List.Subset.refl _, List.Subset.refl _⟩

def State.record (state : State) : Record := ⟨state.tasks.ended, state.dropped⟩

/-- How the outcome of a row came about: a call of it that has ended is on record, with an
exchange that decides it, or one that was dropped as its time was up or its task panicked. -/
inductive Explained (crates : Crates) (said : Record) (row : QueueRow) : CallOutcome → Prop where
  | returned {id log opts result} (spoken : ((⟨id, row⟩, log), result) ∈ said.ended)
      (options : OptionsConfig.ofArgument row.options = .ok opts) (lawful : Lawful crates (row.callArgs opts) log)
      (concludes : Concludes crates (row.callArgs opts) result ((protocol crates (row.callArgs opts)).phase log)) :
      Explained crates said row (rowOutcome row (some result))
  | expired {id} (dropped : (⟨id, row⟩, .expired) ∈ said.dropped) : Explained crates said row (rowOutcome row none)
  | panicked {id} (dropped : (⟨id, row⟩, .panicked) ∈ said.dropped) : Explained crates said row (.error "task panicked")

theorem Explained.mono {crates : Crates} {said more : Record} {row : QueueRow} {outcome : CallOutcome}
    (explained : Explained crates said row outcome) (grown : said.Grows more) : Explained crates more row outcome := by
  cases explained with
  | returned spoken options lawful concludes => exact .returned (grown.ended spoken) options lawful concludes
  | expired dropped => exact .expired (grown.dropped dropped)
  | panicked dropped => exact .panicked (grown.dropped dropped)

/-- What a report says of its task is the outcome of the row that the task was spawned for. -/
inductive Told (crates : Crates) (said : Record) (spawned : List (TaskId × QueueRow)) : JoinNext → Prop where
  | ok {task row ended} (own : (task, row) ∈ spawned) (explained : Explained crates said row (rowOutcome row ended)) :
      Told crates said spawned (.ok task (rowResult row ended))
  | err {task row} (own : (task, row) ∈ spawned) (dropped : (⟨task, row⟩, .panicked) ∈ said.dropped) :
      Told crates said spawned (.err task)

theorem Told.mono {crates : Crates} {said more : Record} {spawned : List (TaskId × QueueRow)} {next : JoinNext}
    (told : Told crates said spawned next) (grown : said.Grows more) : Told crates more spawned next := by
  cases told with
  | ok own explained => exact .ok own (explained.mono grown)
  | err own dropped => exact .err own (grown.dropped dropped)

def taskId (entry : (Task × Log Request Reply) × Fiber Process Request Reply (GrpcResult Json)) : TaskId := entry.1.1.id

/-- Each task of the batch runs, has ended or has been joined, on behalf of its own row. -/
structure Underway (crates : Crates) (rows : List QueueRow) (batch : Batch) (tasks : Running) (said : Record) : Prop where
  spawned : batch.handles.length = rows.length
  once : batch.handles.Nodup
  all : (tasks.running.map taskId ++ (batch.finished ++ batch.joined).map JoinNext.task).Perm batch.handles
  own : ∀ entry ∈ tasks.running, (entry.1.1.id, entry.1.1.row) ∈ batch.handles.zip rows
  told : ∀ next ∈ batch.finished ++ batch.joined, Told crates said (batch.handles.zip rows) next

section Turns
variable {crates : Crates} {rows : List QueueRow} {batch : Batch} {tasks after : Running} {said more : Record}

inductive Polled (index : Nat) (tasks : Running) : Running → Prop where
  | ended {task log more fiber value shared} (found : tasks.running[index]? = some ((task, log), fiber)) :
      Polled index tasks
        { shared, running := tasks.running.eraseIdx index, ended := tasks.ended ++ [((task, more), value)] }
  | waits {task log more fiber rest shared} (found : tasks.running[index]? = some ((task, log), fiber)) :
      Polled index tasks { tasks with shared, running := tasks.running.set index ((task, more), rest) }

theorem turn_poll {index : Nat} {answer : (request : Request) → Reply request}
    (turned : turn crates tasks (.poll index answer) = some after) : Polled index tasks after := by
  simp only [turn, Tasks.logStep] at turned
  split at turned
  next => cases turned
  next task log fiber found =>
    split at turned
    next => cases turned; exact .ended found
    next => cases turned; exact .waits found

theorem turn_cancel {index : Nat} (turned : turn crates tasks (.cancel index) = some after) :
    after = { tasks with running := tasks.running.eraseIdx index } := by
  simp only [turn, Tasks.logStep] at turned
  split at turned
  next => cases turned; rfl
  next => cases turned

/-- One task leaves the set, and its report joins those that wait for a join. -/
theorem Underway.reports (underway : Underway crates rows batch tasks said) {index : Nat} {task : Task} {log : Log Request Reply}
    {fiber : Fiber Process Request Reply (GrpcResult Json)} (found : tasks.running[index]? = some ((task, log), fiber))
    (running : after.running = tasks.running.eraseIdx index) (grown : said.Grows more) {next : JoinNext}
    (same : next.task = task.id) (told : Told crates more (batch.handles.zip rows) next) :
    Underway crates rows (batch.report [next]) after more where
  spawned := underway.spawned
  once := underway.once
  all := by
    obtain ⟨inside, here⟩ := List.getElem?_eq_some_iff.mp found
    have left := (List.getElem_cons_eraseIdx_perm inside).map taskId
    refine List.Perm.trans ?_ ((left.append_right _).trans underway.all)
    rw [here, running, List.perm_iff_count]
    intro id
    simp only [Batch.report, List.map_append, List.map_cons, List.map_nil, same, taskId, List.count_append, List.count_cons,
      List.count_nil]
    omega
  own entry member := underway.own entry (List.mem_of_mem_eraseIdx (running ▸ member))
  told other member := by
    simp only [Batch.report, List.append_assoc, List.mem_append, List.mem_singleton] at member
    rcases member with old | rfl | old
    · exact (underway.told other (List.mem_append_left _ old)).mono grown
    · exact told
    · exact (underway.told other (List.mem_append_right _ old)).mono grown

theorem Underway.waits (underway : Underway crates rows batch tasks said) {index : Nat} {task : Task}
    {log longer : Log Request Reply} {fiber rest : Fiber Process Request Reply (GrpcResult Json)} {shared : Process}
    (found : tasks.running[index]? = some ((task, log), fiber)) :
    Underway crates rows batch { tasks with shared, running := tasks.running.set index ((task, longer), rest) } said where
  spawned := underway.spawned
  once := underway.once
  all := by
    have same : (tasks.running.set index ((task, longer), rest)).map taskId = tasks.running.map taskId := by
      obtain ⟨inside, here⟩ := List.getElem?_eq_some_iff.mp found
      have mapped : index < (tasks.running.map taskId).length := by rwa [List.length_map]
      have id : (tasks.running.map taskId)[index] = task.id := by
        rw [List.getElem_map, here]
        rfl
      rw [List.map_set]
      change List.set _ index task.id = _
      rw [← id]
      exact List.set_getElem_self mapped
    rw [same]
    exact underway.all
  own entry member := by
    rcases List.mem_or_eq_of_mem_set member with old | rfl
    · exact underway.own entry old
    · exact underway.own ((task, log), fiber) (List.mem_of_getElem? found)
  told := underway.told

theorem Underway.joins (underway : Underway crates rows batch tasks said) {index : Nat} {next : JoinNext}
    (found : batch.finished[index]? = some next) :
    Underway crates rows { batch with finished := batch.finished.eraseIdx index, joined := batch.joined ++ [next] }
      tasks said := by
  obtain ⟨inside, here⟩ := List.getElem?_eq_some_iff.mp found
  have moved : (batch.finished.eraseIdx index ++ (batch.joined ++ [next])).Perm (batch.finished ++ batch.joined) := by
    have left := List.getElem_cons_eraseIdx_perm inside
    rw [here] at left
    rw [← List.append_assoc]
    exact (List.perm_append_singleton _ _).trans (left.append_right _)
  exact { underway with
    all := ((moved.map _).append_left _).trans underway.all
    told := fun other member => underway.told other (moved.mem_iff.mp member) }

theorem Underway.complete (underway : Underway crates rows batch tasks said) (ran : tasks.running = [])
    (joined : batch.finished = []) : Reports rows batch.handles batch.joined where
  spawned := underway.spawned
  once := underway.once
  all := by
    have all := underway.all
    rwa [ran, joined] at all
  own task row result own listed := by
    cases underway.told _ (List.mem_append_right _ listed) with
    | @ok _ other ended spawned explained =>
      have names : ((batch.handles.zip rows).map Prod.fst).Nodup := by
        rw [List.map_fst_zip underway.spawned.le]
        exact underway.once
      cases List.inj_on_of_nodup_map names spawned own rfl
      exact ⟨ended, rfl⟩

theorem Underway.explains (underway : Underway crates rows batch tasks said) (reports : Reports rows batch.handles batch.joined)
    {result : CallResult} (member : result ∈ blockOn rows batch.handles batch.joined) :
    ∃ row ∈ rows, row.id = result.id ∧ Explained crates said row result.outcome := by
  obtain ⟨next, listed, rfl⟩ := List.mem_map.mp member
  cases underway.told next (List.mem_append_right _ listed) with
  | @ok task row ended spawned explained => exact ⟨row, (List.of_mem_zip spawned).2, rfl, explained⟩
  | @err task row spawned dropped =>
    refine ⟨row, (List.of_mem_zip spawned).2, ?_, .panicked dropped⟩
    have known : (batch.handles.zip (rows.map QueueRow.id)).lookup task = some row.id := reports.id_known spawned
    change row.id = ((batch.handles.zip (rows.map QueueRow.id)).lookup task).getD 0
    rw [known]
    rfl

end Turns

inductive Move (pg : Postgres) (crates : Crates) (state : State) : Event → State → Prop where
  | cluster {event cluster} (other : ∀ joins, event ≠ .worker (.execute joins))
      (taken : Cluster.step pg state.cluster event = some cluster) (lives : dies cluster event = false) :
      Move pg crates state (.cluster event) { state with cluster }
  | die {event cluster} (other : ∀ joins, event ≠ .worker (.execute joins))
      (taken : Cluster.step pg state.cluster event = some cluster) (ends : dies cluster event = true) :
      Move pg crates state (.cluster event)
        { cluster, tasks := { shared := .fresh, ended := state.tasks.ended }, dropped := state.dropped }
  | spawn {handles tx rows} (free : state.batch = none) (dequeued : state.cluster.worker = .dequeued tx rows)
      (calls : rows ≠ []) (each : handles.length = rows.length) (once : handles.Nodup) :
      Move pg crates state (.spawn handles) { state with
        tasks := spawnAll crates state.tasks ((handles.zip rows).map fun (id, row) => ⟨id, row⟩)
        batch := some { handles } }
  | poll {index answer batch tasks} (opened : state.batch = some batch)
      (turned : turn crates state.tasks (.poll index answer) = some tasks) :
      Move pg crates state (.poll index answer) { state with
        tasks, batch := some (batch.report ((tasks.ended.drop state.tasks.ended.length).map report)) }
  | expire {index batch task log request next tasks} (opened : state.batch = some batch)
      (found : state.tasks.running[index]? = some ((task, log), .await request next))
      (turned : turn crates state.tasks (.cancel index) = some tasks) :
      Move pg crates state (.expire index) { state with
        tasks
        batch := some (batch.report [.ok task.id (rowResult task.row none)])
        dropped := state.dropped ++ [(task, .expired)] }
  | panic {index batch task log fiber tasks} (opened : state.batch = some batch)
      (found : state.tasks.running[index]? = some ((task, log), fiber))
      (turned : turn crates state.tasks (.cancel index) = some tasks) :
      Move pg crates state (.panic index) { state with
        tasks, batch := some (batch.report [.err task.id]), dropped := state.dropped ++ [(task, .panicked)] }
  | join {index batch next} (opened : state.batch = some batch) (found : batch.finished[index]? = some next) :
      Move pg crates state (.join index) { state with batch := some { batch with
        finished := batch.finished.eraseIdx index, joined := batch.joined ++ [next] } }
  | collect {batch tx rows} (opened : state.batch = some batch) (dequeued : state.cluster.worker = .dequeued tx rows)
      (ran : state.tasks.running = []) (joined : batch.finished = []) :
      Move pg crates state .collect { state with
        cluster := { state.cluster with worker := .executed tx (blockOn rows batch.handles batch.joined) }
        batch := none }

theorem step_cases {pg : Postgres} {crates : Crates} {state after : State} {event : Event}
    (taken : step pg crates state event = some after) : Move pg crates state event after := by
  unfold step at taken
  split at taken
  next => cases taken
  next event other =>
    obtain ⟨cluster, moved, rfl⟩ := Option.map_eq_some_iff.mp taken
    have calm : ∀ joins, event ≠ .worker (.execute joins) := fun joins same => other joins same
    split
    next ends => exact .die calm moved ends
    next lives => exact .cluster calm moved (by simpa using lives)
  next =>
    split at taken
    next free dequeued =>
      split at taken
      next ready => cases taken; exact .spawn free dequeued ready.1 ready.2.1 ready.2.2
      next => cases taken
    next => cases taken
  next =>
    split at taken
    next opened turned => cases taken; exact .poll opened turned
    next => cases taken
  next =>
    split at taken
    next opened found turned => cases taken; exact .expire opened found turned
    next => cases taken
  next =>
    split at taken
    next opened found turned => cases taken; exact .panic opened found turned
    next => cases taken
  next =>
    split at taken
    next => cases taken
    next opened =>
      obtain ⟨next, found, rfl⟩ := Option.map_eq_some_iff.mp taken
      exact .join opened found
  next =>
    split at taken
    next opened dequeued =>
      split at taken
      next ready => cases taken; exact .collect opened dequeued (by simpa using ready.1) (by simpa using ready.2)
      next => cases taken
    next => cases taken

def issued (state : State) : Event → Option QueueRow
  | .cluster event => Cluster.issued state.cluster event
  | _ => none

/-- The answer leads back to the row of its call, and to what became of it. -/
def Traced (crates : Crates) (noted : List QueueRow) (said : Record) (answer : ResultRow) : Prop :=
  ∃ row ∈ noted, ∃ outcome, Explained crates said row outcome ∧ answer = outcome.row row.id answer.created

theorem Traced.mono {crates : Crates} {noted rows : List QueueRow} {said more : Record} {answer : ResultRow}
    (traced : Traced crates noted said answer) (known : noted ⊆ rows) (grown : said.Grows more) :
    Traced crates rows more answer := by
  obtain ⟨row, listed, outcome, explained, same⟩ := traced
  exact ⟨row, known listed, outcome, explained.mono grown, same⟩

structure StageTraced (crates : Crates) (noted : List QueueRow) (said : Record) (stage : Cluster.Stage) : Prop where
  inserted : ∀ tx, stage.tx? = some tx → ∀ row ∈ tx.inserted, Traced crates noted said row
  executed : ∀ tx results, stage = .executed tx results → ∀ result ∈ results,
    ∃ row ∈ noted, row.id = result.id ∧ Explained crates said row result.outcome

theorem StageTraced.mono {crates : Crates} {noted rows : List QueueRow} {said more : Record} {stage : Cluster.Stage}
    (traced : StageTraced crates noted said stage) (known : noted ⊆ rows) (grown : said.Grows more) :
    StageTraced crates rows more stage where
  inserted tx same row member := (traced.inserted tx same row member).mono known grown
  executed tx results same result member := by
    obtain ⟨row, listed, own, explained⟩ := traced.executed tx results same result member
    exact ⟨row, known listed, own, explained.mono grown⟩

structure Valid (pg : Postgres) (crates : Crates) (noted : List QueueRow) (state : State) : Prop where
  cluster : (Cluster.machine pg).Reachable state.cluster
  records : Cluster.Records noted state.cluster
  obeys : Tasks.Obeys (fun task : Task => protocol crates task.row.args) (fun task => Concludes crates task.row.args) state.tasks
  empty : state.batch = none → state.tasks.running = []
  underway : ∀ batch, state.batch = some batch → ∃ tx rows, state.cluster.worker = .dequeued tx rows ∧ rows ≠ [] ∧
    Underway crates rows batch state.tasks state.record
  stage : StageTraced crates noted state.record state.cluster.worker
  results : ∀ answer ∈ state.cluster.tables.results, Traced crates noted state.record answer

section Steps
variable {pg : Postgres} {crates : Crates} {noted : List QueueRow} {state after : State}

theorem body_follows (crates : Crates) (task : Task) : (body crates task).Follows (protocol crates task.row.args)
    (Concludes crates task.row.args) (protocol crates task.row.args).start := by
  cases options : OptionsConfig.ofArgument task.row.options with
  | error e =>
    have refused : body crates task = .done (.error e) := by
      rw [body, callRow, options]
      rfl
    rw [refused]
    exact .done ⟨e, rfl⟩
  | ok opts =>
    have args : task.row.args = task.row.callArgs opts := by rw [QueueRow.args, options]; rfl
    have called : body crates task = (callAsync crates (task.row.callArgs opts)).run := by
      rw [body, callRow, options]
      rfl
    rw [called, args]
    exact callAsync_follows crates _

private theorem idle_traced {said : Record} : StageTraced crates noted said .idle where
  inserted _ same := by cases same
  executed _ _ same := by cases same

/-- The table and the worker's transaction hold no other rows than before, and those of the results inserted. -/
private theorem cluster_traced {cluster later : Cluster.State} {event : Cluster.Event} {said : Record}
    (other : ∀ joins, event ≠ .worker (.execute joins)) (taken : Cluster.step pg cluster event = some later)
    (stage : StageTraced crates noted said cluster.worker)
    (results : ∀ row ∈ cluster.tables.results, Traced crates noted said row) :
    StageTraced crates noted said later.worker ∧ ∀ row ∈ later.tables.results, Traced crates noted said row := by
  cases event with
  | session backend event =>
    rw [Cluster.step] at taken
    have frame := Cluster.sessionStep_frame taken
    rw [frame.worker, frame.results]
    exact ⟨stage, results⟩
  | tick elapsed => cases taken; exact ⟨stage, results⟩
  | restart => cases taken; exact ⟨idle_traced, results⟩
  | worker event =>
    cases Cluster.workerStep_cases taken with
    | begin =>
      refine ⟨⟨fun tx same row member => ?_, fun _ _ same => by cases same⟩, results⟩
      cases same
      cases member
    | @dequeue _ tx begun =>
      refine ⟨⟨fun tx' same row member => ?_, fun _ _ same => by cases same⟩, results⟩
      cases same
      exact stage.inserted tx (by rw [begun]; rfl) row member
    | execute => exact absurd rfl (other _)
    | @insert tx answers stored executed ran =>
      refine ⟨⟨fun tx' same row member => ?_, fun _ _ same => by cases same⟩, results⟩
      cases same
      have old := stage.inserted tx (by rw [executed]; rfl)
      by_cases empty : answers = []
      · subst empty
        cases ran
        exact old row member
      · obtain ⟨_, _, _, rfl⟩ := (insertResults_ok pg cluster.tables tx empty stored).mp ran
        rcases List.mem_append.mp member with before | new
        · exact old row before
        · obtain ⟨result, listed, rfl⟩ := List.mem_map.mp new
          obtain ⟨row, known, own, explained⟩ := stage.executed tx answers executed result listed
          exact ⟨row, known, result.outcome, explained, by rw [own]; rfl⟩
    | @cleanup _ tx drained cleaned _ ready ran =>
      obtain ⟨bound, _, same⟩ := (ttlCleanup_ok ..).mp ran
      cases same
      refine ⟨⟨fun tx' same row member => ?_, fun _ _ same => by cases same⟩, results⟩
      cases same
      cases ready with
      | drained stands | stored stands => exact stage.inserted tx (by rw [stands]; rfl) row member
    | @commit tx drained cleaned =>
      refine ⟨idle_traced, fun row member => ?_⟩
      rcases List.mem_append.mp (List.mem_of_mem_filter member) with old | new
      · exact results row old
      · exact stage.inserted tx (by rw [cleaned]; rfl) row new
    | insertError | cleanupError | fail => exact ⟨idle_traced, results⟩

/-- While the calls of a batch run, the rest of the cluster leaves its transaction alone. -/
theorem cluster_waits {cluster later : Cluster.State} {event : Cluster.Event} {tx : Tx} {rows : List QueueRow}
    (other : ∀ joins, event ≠ .worker (.execute joins)) (taken : Cluster.step pg cluster event = some later)
    (lives : dies later event = false) (dequeued : cluster.worker = .dequeued tx rows) (calls : rows ≠ []) :
    later.worker = .dequeued tx rows := by
  cases event with
  | session backend event =>
    rw [Cluster.step] at taken
    rw [(Cluster.sessionStep_frame taken).worker, dequeued]
  | tick elapsed => cases taken; exact dequeued
  | restart => cases lives
  | worker event =>
    cases Cluster.workerStep_cases taken with
    | begin stands | dequeue stands | insert stands | insertError stands | commit stands => cases dequeued.symm.trans stands
    | execute => exact absurd rfl (other _)
    | cleanup ready | cleanupError ready =>
      cases ready with
      | drained stands => cases dequeued.symm.trans stands; exact absurd rfl calls
      | stored stands => cases dequeued.symm.trans stands
    | fail => cases lives

private theorem Valid.moves {event : Cluster.Event} {cluster : Cluster.State} (valid : Valid pg crates noted state)
    (other : ∀ joins, event ≠ .worker (.execute joins)) (taken : Cluster.step pg state.cluster event = some cluster)
    (lives : dies cluster event = false) :
    Valid pg crates (noted ++ (Cluster.issued state.cluster event).toList) { state with cluster } := by
  obtain ⟨stage, results⟩ := cluster_traced other taken valid.stage valid.results
  have known := List.subset_append_left noted (Cluster.issued state.cluster event).toList
  refine ⟨valid.cluster.next trivial taken, valid.records.step taken, valid.obeys, valid.empty, fun batch opened => ?_,
    stage.mono known (.refl _), fun answer member => (results answer member).mono known (.refl _)⟩
  obtain ⟨tx, rows, dequeued, calls, underway⟩ := valid.underway batch opened
  exact ⟨tx, rows, cluster_waits other taken lives dequeued calls, calls, underway⟩

private theorem Valid.dies {event : Cluster.Event} {cluster : Cluster.State} (valid : Valid pg crates noted state)
    (other : ∀ joins, event ≠ .worker (.execute joins)) (taken : Cluster.step pg state.cluster event = some cluster) :
    Valid pg crates (noted ++ (Cluster.issued state.cluster event).toList)
      { cluster, tasks := { shared := .fresh, ended := state.tasks.ended }, dropped := state.dropped } := by
  obtain ⟨stage, results⟩ := cluster_traced other taken valid.stage valid.results
  have known := List.subset_append_left noted (Cluster.issued state.cluster event).toList
  refine ⟨valid.cluster.next trivial taken, valid.records.step taken, ⟨fun _ _ _ member => ?_, valid.obeys.ended⟩,
    fun _ => rfl, fun batch opened => ?_, stage.mono known (.refl _),
    fun answer member => (results answer member).mono known (.refl _)⟩
  · cases member
  · cases opened

private theorem Valid.spawns {handles : List TaskId} {tx : Tx} {rows : List QueueRow} (valid : Valid pg crates noted state)
    (free : state.batch = none) (dequeued : state.cluster.worker = .dequeued tx rows) (calls : rows ≠ [])
    (each : handles.length = rows.length) (once : handles.Nodup) : Valid pg crates noted { state with
      tasks := spawnAll crates state.tasks ((handles.zip rows).map fun (id, row) => ⟨id, row⟩)
      batch := some { handles } } := by
  have none : state.tasks.running = [] := valid.empty free
  refine ⟨valid.cluster, valid.records, ⟨fun task log fiber member => ?_, valid.obeys.ended⟩, fun opened => ?_,
    fun batch opened => ?_, valid.stage, valid.results⟩
  · rcases List.mem_append.mp member with before | new
    · exact valid.obeys.running task log fiber before
    · obtain ⟨own, _, same⟩ := List.mem_map.mp new
      cases same
      exact ⟨Protocol.accepts_nil, body_follows crates _⟩
  · cases opened
  · cases opened
    refine ⟨tx, rows, dequeued, calls, each, once, ?_, fun entry member => ?_, List.forall_mem_nil _⟩
    · simp only [spawnAll, none, List.nil_append, List.append_nil, List.map_nil, List.map_map]
      exact List.Perm.of_eq (List.map_fst_zip each.le)
    · simp only [spawnAll, none, List.nil_append, List.map_map] at member
      obtain ⟨pair, listed, rfl⟩ := List.mem_map.mp member
      exact listed

private theorem Valid.explains {task : Task} {log : Log Request Reply} {value : GrpcResult Json} {batch : Batch}
    {tx : Tx} {rows : List QueueRow} {tasks : Running} (valid : Valid pg crates noted state)
    (obeys : Tasks.Obeys (fun task : Task => protocol crates task.row.args) (fun task => Concludes crates task.row.args) tasks)
    (ended : ((task, log), value) ∈ tasks.ended) (dequeued : state.cluster.worker = .dequeued tx rows)
    (own : (task.id, task.row) ∈ batch.handles.zip rows) :
    Told crates ⟨tasks.ended, state.dropped⟩ (batch.handles.zip rows) (report ((task, log), value)) := by
  have issued := (Cluster.reachable_provenance valid.cluster).worker tx rows dequeued task.row (List.of_mem_zip own).2
  obtain ⟨opts, options, _, _⟩ := issued.runnable.calls
  have args : task.row.args = task.row.callArgs opts := by rw [QueueRow.args, options]; rfl
  obtain ⟨accepts, concludes⟩ := obeys.ended task log value ended
  rw [args] at accepts concludes
  exact .ok own (.returned ended options (lawful_of_accepts accepts) concludes)

private theorem Valid.polls {index : Nat} {answer : (request : Request) → Reply request} {batch : Batch} {tasks : Running}
    (valid : Valid pg crates noted state) (opened : state.batch = some batch)
    (turned : turn crates state.tasks (.poll index answer) = some tasks) : Valid pg crates noted { state with
      tasks, batch := some (batch.report ((tasks.ended.drop state.tasks.ended.length).map report)) } := by
  obtain ⟨tx, rows, dequeued, calls, underway⟩ := valid.underway batch opened
  have obeys := valid.obeys.advances (body_follows crates) turned
  have grown : state.record.Grows ⟨tasks.ended, state.dropped⟩ := by
    cases turn_poll turned with
    | ended => exact ⟨List.subset_append_left _ _, List.Subset.refl _⟩
    | waits => exact .refl _
  refine ⟨valid.cluster, valid.records, obeys, fun none => absurd none (Option.some_ne_none _), fun later same => ?_,
    valid.stage.mono (List.Subset.refl _) grown,
    fun answer member => (valid.results answer member).mono (List.Subset.refl _) grown⟩
  cases same
  refine ⟨tx, rows, dequeued, calls, ?_⟩
  cases turn_poll turned with
  | @ended task log more fiber value shared found =>
    rw [List.drop_left]
    have own := underway.own _ (List.mem_of_getElem? found)
    exact underway.reports found rfl grown rfl
      (valid.explains obeys (List.mem_append_right _ (List.mem_singleton_self _)) dequeued own)
  | waits found =>
    rw [List.drop_length, List.map_nil, Batch.report, List.append_nil]
    exact underway.waits found

/-- A call that is dropped leaves the set with a report, for which that is on record. -/
private theorem Valid.drops {index : Nat} {batch : Batch} {tasks : Running} {task : Task} {log : Log Request Reply}
    {fiber : Fiber Process Request Reply (GrpcResult Json)} {next : JoinNext} (valid : Valid pg crates noted state)
    (opened : state.batch = some batch) (found : state.tasks.running[index]? = some ((task, log), fiber))
    (turned : turn crates state.tasks (.cancel index) = some tasks) {drop : Drop} (same : next.task = task.id)
    (told : ∀ spawned said, (task.id, task.row) ∈ spawned → (task, drop) ∈ said.dropped → Told crates said spawned next) :
    Valid pg crates noted { state with
      tasks, batch := some (batch.report [next]), dropped := state.dropped ++ [(task, drop)] } := by
  obtain ⟨tx, rows, dequeued, calls, underway⟩ := valid.underway batch opened
  have obeys := valid.obeys.advances (body_follows crates) turned
  cases turn_cancel turned
  have grown : state.record.Grows ⟨state.tasks.ended, state.dropped ++ [(task, drop)]⟩ :=
    ⟨List.Subset.refl _, List.subset_append_left _ _⟩
  refine ⟨valid.cluster, valid.records, obeys, fun none => absurd none (Option.some_ne_none _), fun later own => ?_,
    valid.stage.mono (List.Subset.refl _) grown,
    fun answer member => (valid.results answer member).mono (List.Subset.refl _) grown⟩
  cases own
  have own := underway.own _ (List.mem_of_getElem? found)
  refine ⟨tx, rows, dequeued, calls, ?_⟩
  apply underway.reports found
  · rfl
  · exact grown
  · exact same
  · exact told _ _ own (List.mem_append_right _ (List.mem_singleton_self _))

private theorem Valid.joins {index : Nat} {batch : Batch} {next : JoinNext} (valid : Valid pg crates noted state)
    (opened : state.batch = some batch) (found : batch.finished[index]? = some next) :
    Valid pg crates noted { state with batch := some { batch with
      finished := batch.finished.eraseIdx index, joined := batch.joined ++ [next] } } := by
  obtain ⟨tx, rows, dequeued, calls, underway⟩ := valid.underway batch opened
  refine ⟨valid.cluster, valid.records, valid.obeys, fun none => absurd none (Option.some_ne_none _),
    fun later same => ?_, valid.stage, valid.results⟩
  cases same
  exact ⟨tx, rows, dequeued, calls, underway.joins found⟩

/-- The end of the joins is the step of the cluster that runs a batch. -/
private theorem Valid.executes {batch : Batch} {tx : Tx} {rows : List QueueRow} (valid : Valid pg crates noted state)
    (opened : state.batch = some batch) (dequeued : state.cluster.worker = .dequeued tx rows)
    (ran : state.tasks.running = []) (joined : batch.finished = []) :
    Underway crates rows batch state.tasks state.record ∧ Reports rows batch.handles batch.joined ∧
      Cluster.step pg state.cluster (.worker (.execute (joinsOf batch.handles batch.joined))) =
        some { state.cluster with worker := .executed tx (blockOn rows batch.handles batch.joined) } := by
  obtain ⟨other, batched, stands, calls, underway⟩ := valid.underway batch opened
  cases dequeued.symm.trans stands
  have reports := underway.complete ran joined
  refine ⟨underway, reports, ?_⟩
  rw [reports.blockOn_eq]
  simp only [Cluster.step, Cluster.workerStep, dequeued]
  exact if_pos ⟨calls, reports.covers⟩

private theorem Valid.collects {batch : Batch} {tx : Tx} {rows : List QueueRow} (valid : Valid pg crates noted state)
    (opened : state.batch = some batch) (dequeued : state.cluster.worker = .dequeued tx rows)
    (ran : state.tasks.running = []) (joined : batch.finished = []) : Valid pg crates noted { state with
      cluster := { state.cluster with worker := .executed tx (blockOn rows batch.handles batch.joined) }
      batch := none } := by
  obtain ⟨underway, reports, executed⟩ := valid.executes opened dequeued ran joined
  have taken : (Cluster.machine pg).step state.cluster (.worker (.execute (joinsOf batch.handles batch.joined))) = _ := executed
  have records := valid.records.step executed
  change Cluster.Records (noted ++ []) _ at records
  rw [List.append_nil] at records
  refine ⟨valid.cluster.next trivial taken, records, valid.obeys, fun _ => ran,
    fun _ none => absurd none.symm (Option.some_ne_none _), ?_, valid.results⟩
  refine ⟨fun own same row member => ?_, fun own results same result member => ?_⟩
  · cases same
    exact valid.stage.inserted tx (by rw [dequeued]; rfl) row member
  · cases same
    obtain ⟨row, among, own, explained⟩ := underway.explains reports member
    exact ⟨row, valid.records.worker tx rows dequeued row among, own, explained⟩

private theorem Valid.quiet {event : Event} (valid : Valid pg crates noted after) (none : issued state event = none) :
    Valid pg crates (noted ++ (issued state event).toList) after := by
  rwa [none, Option.toList_none, List.append_nil]

theorem Valid.step {event : Event} (valid : Valid pg crates noted state) (taken : step pg crates state event = some after) :
    Valid pg crates (noted ++ (issued state event).toList) after := by
  cases step_cases taken with
  | cluster other moved lives => exact valid.moves other moved lives
  | die other moved ends => exact valid.dies other moved
  | spawn free dequeued calls each once => exact (valid.spawns free dequeued calls each once).quiet rfl
  | poll opened turned => exact (valid.polls opened turned).quiet rfl
  | expire opened found turned => exact (valid.drops opened found turned rfl fun _ _ own dropped => .ok own (.expired dropped)).quiet rfl
  | panic opened found turned => exact (valid.drops opened found turned rfl fun _ _ own dropped => .err own dropped).quiet rfl
  | join opened found => exact (valid.joins opened found).quiet rfl
  | collect opened dequeued ran joined => exact (valid.collects opened dequeued ran joined).quiet rfl

/-- A step of the cluster, whatever the joins of its batch. -/
def shape : Cluster.Event → Option Cluster.Event
  | .worker (.execute _) => none
  | event => some event

/-- What the cluster sees of a step: itself, or a batch run at once where its joins end. -/
def Event.shape? : Event → Option (Option Cluster.Event)
  | .cluster event => some (some event)
  | .collect => some none
  | .spawn _ | .poll _ _ | .expire _ | .panic _ | .join _ => none

private theorem shape_other {event : Cluster.Event} (other : ∀ joins, event ≠ .worker (.execute joins)) :
    shape event = some event := by
  unfold shape
  split
  next joins => exact absurd rfl (other joins)
  next => rfl

private theorem step_refines {event : Event} (valid : Valid pg crates noted state)
    (taken : step pg crates state event = some after) :
    ∃ steps, (Cluster.machine pg).run state.cluster steps = some after.cluster ∧ steps.map shape = event.shape?.toList := by
  cases step_cases taken with
  | @cluster event cluster other moved | @die event cluster other moved =>
    refine ⟨[event], ?_, by rw [List.map_singleton, shape_other other]; rfl⟩
    rw [Machine.run_cons]
    exact Option.bind_eq_some_iff.mpr ⟨cluster, moved, rfl⟩
  | spawn | poll | expire | panic | join => exact ⟨[], rfl, rfl⟩
  | @collect batch tx rows opened dequeued ran joined =>
    obtain ⟨_, _, executed⟩ := valid.executes opened dequeued ran joined
    refine ⟨[.worker (.execute (joinsOf batch.handles batch.joined))], ?_, rfl⟩
    rw [Machine.run_cons]
    exact Option.bind_eq_some_iff.mpr ⟨_, executed, rfl⟩

private theorem run_refines {events : List Event} {final : State} (valid : Valid pg crates noted state)
    (executed : (machine pg crates).run state events = some final) :
    ∃ steps, (Cluster.machine pg).run state.cluster steps = some final.cluster ∧
      steps.map shape = events.filterMap Event.shape? := by
  induction events generalizing noted state with
  | nil =>
    cases executed
    exact ⟨[], rfl, rfl⟩
  | cons event rest ih =>
    obtain ⟨next, taken, ran⟩ := Option.bind_eq_some_iff.mp executed
    obtain ⟨first, moved, seen⟩ := step_refines valid taken
    obtain ⟨later, reached, others⟩ := ih (valid.step taken) ran
    refine ⟨first ++ later, ?_, ?_⟩
    · rw [Machine.run_append, moved]
      exact reached
    · rw [List.map_append, seen, others]
      cases shown : event.shape? with
      | none => rw [List.filterMap_cons_none shown]; rfl
      | some seen => rw [List.filterMap_cons_some shown]; rfl

end Steps

theorem fresh_valid (pg : Postgres) (crates : Crates) (clock : Timestamp) :
    Valid pg crates [] { cluster := { clock } } where
  cluster := .start ⟨clock, rfl⟩
  records := .fresh clock
  obeys := ⟨fun _ _ _ member => absurd member List.not_mem_nil, fun _ _ _ member => absurd member List.not_mem_nil⟩
  empty _ := rfl
  underway _ opened := by cases opened
  stage := idle_traced
  results := List.forall_mem_nil _

theorem reachable_valid {pg : Postgres} {crates : Crates} {state : State} (reached : (machine pg crates).Reachable state) :
    ∃ noted, Valid pg crates noted state := by
  apply reached.invariant fun state => ∃ noted, Valid pg crates noted state
  · intro start begins
    obtain ⟨clock, rfl⟩ := begins
    exact ⟨[], fresh_valid pg crates clock⟩
  · intro before event after _ _ taken kept
    obtain ⟨noted, valid⟩ := kept
    exact ⟨_, valid.step taken⟩

/-- Calls that run as tasks are no more than the batches of the cluster. Every run is one of the cluster
with the same other steps in the same order, where each batch runs at once as its joins end. -/
theorem batches_refine {pg : Postgres} {crates : Crates} {clock : Timestamp} {events : List Event} {final : State}
    (executed : (machine pg crates).run { cluster := { clock } } events = some final) :
    ∃ steps, (Cluster.machine pg).run { clock } steps = some final.cluster ∧ steps.map shape = events.filterMap Event.shape? :=
  run_refines (fresh_valid pg crates clock) executed

private def twoCalls : List Event :=
  let answer : Event := .poll 0 (network fun _ _ => ⟨[.fileDescriptorResponse [[0]]], none⟩)
  let dequeue : List Cluster.Event := [.worker .begin, .worker (.dequeue .default)]
  let calls : List Event := [.spawn [7, 9], .poll 1 (network fun _ _ => ⟨[], none⟩), answer, answer, answer, answer, answer,
    .expire 0, .join 1, .join 0, .collect]
  let store : List Cluster.Event := [.worker .insert, .worker (.cleanup "6 hours"), .worker .commit]
  (Cluster.enqueue 0 .sample ++ Cluster.enqueue 1 .sample ++ dequeue).map Event.cluster ++ calls ++ store.map Event.cluster

theorem batches_refine_two : ∃ final steps,
    (machine .sample .echo).run { cluster := { clock := 0 } } twoCalls = some final ∧
    (Cluster.machine .sample).run { clock := 0 } steps = some final.cluster ∧ (steps.map shape).countP Option.isNone = 1 := by
  have executed : ((machine .sample .echo).run { cluster := { clock := 0 } } twoCalls).isSome = true := by decide
  obtain ⟨final, ran⟩ := Option.isSome_iff_exists.mp executed
  obtain ⟨steps, reached, same⟩ := batches_refine ran
  refine ⟨final, steps, ran, reached, ?_⟩
  rw [same]
  rfl

/-- Over a whole run no two calls share an id, and each stored answer is that of the
call with its id: of an exchange that a task of its row has had, or of the timeout or the
panic of such a task. -/
theorem answers_explained {pg : Postgres} {crates : Crates} {clock : Timestamp} {events : List Event} {final : State}
    (executed : (machine pg crates).run { cluster := { clock } } events = some final) :
    let calls := (machine pg crates).observed issued { cluster := { clock } } events
    (calls.map QueueRow.id).Nodup ∧ ∀ answer ∈ final.cluster.tables.results,
      answer.id ∈ final.cluster.ledger.called ∧ Traced crates calls final.record answer := by
  intro calls
  have path := Machine.path_of_run (fun _ => True) (fun _ _ => trivial) executed
  have valid : Valid pg crates ([] ++ calls) final := by
    refine path.observed (Valid pg crates) ?_ (fresh_valid pg crates clock)
    exact fun noted before event after _ taken valid => valid.step taken
  refine ⟨valid.records.once, fun answer member => ⟨?_, valid.results answer member⟩⟩
  obtain ⟨phases, tracks⟩ := Cluster.reachable_tracks valid.cluster
  have stored : phases answer.id = .stored :=
    (tracks.located.at_ .stored ⟨by simp, by simp⟩ answer.id).mp (List.mem_map_of_mem member)
  exact (tracks.called answer.id).mpr (by rw [stored]; rfl)

/-- The call of the first of two rows ends and that of the second expires, whose task is joined first. -/
theorem answers_explained_two : ∃ final,
    (machine .sample .echo).run { cluster := { clock := 0 } } twoCalls = some final ∧
    final.cluster.tables.results.map (fun answer => (answer.id, answer.errorMsg)) =
      [(2, some "timeout after 30000ms"), (1, none)] ∧
    ∀ answer ∈ final.cluster.tables.results, answer.id ∈ final.cluster.ledger.called ∧
      Traced .echo ((machine .sample .echo).observed issued { cluster := { clock := 0 } } twoCalls) final.record answer := by
  have executed : ((machine .sample .echo).run { cluster := { clock := 0 } } twoCalls).map
      (fun final => final.cluster.tables.results.map fun answer => (answer.id, answer.errorMsg)) =
        some [(2, some "timeout after 30000ms"), (1, none)] := by decide
  obtain ⟨final, ran, answers⟩ := Option.map_eq_some_iff.mp executed
  exact ⟨final, ran, answers, (answers_explained ran).2⟩

end JoinSet
end PgGrpc
