import PgGrpc.Proofs.StoredAnswers

/-! How often a call is made. Every task that the worker spawns for a call ends as a
stored result, is lost with its batch, or is of the batch in the worker's hands; and
what is sent to a server is sent by such a task, which sends it once. -/

namespace PgGrpc.Cluster
open Library Lifecycle

/-- The calls that the open transaction has made. -/
def Stage.made : Stage → List Int
  | .idle | .begun _ | .dequeued _ _ => []
  | .executed _ results => results.map CallResult.id
  | .inserted tx | .cleaned tx _ => tx.inserted.map ResultRow.id

section Ledgers
variable {pg : Postgres} {state after : State} {phases : Phases} {event : Event}

theorem sessionStep_stored {backend : BackendId} {event : SessionEvent}
    (taken : sessionStep state backend event = some after) : after.ledger.stored = state.ledger.stored := by
  cases event <;> simp only [sessionStep] at taken
  all_goals
    repeat' split at taken
    all_goals cases taken
    all_goals rfl

/-- The transaction has made no call where the clean-up follows an empty dequeue. -/
private theorem Cleanable.made {tx : Tx} {drained : Bool} (ready : Cleanable state tx drained)
    (tracks : Tracks state phases) : state.worker.made = tx.inserted.map ResultRow.id := by
  have stage := tracks.worker
  cases ready with
  | drained empty =>
    rw [empty] at stage ⊢
    rw [stage.2.1]
    rfl
  | stored inserted => rw [inserted]; rfl

/-- A worker that survives a step stores what it has made or still has it in hand. -/
theorem step_keeps (tracks : Tracks state phases) (taken : step pg state event = some after)
    (other : ∀ joins, event ≠ .worker (.execute joins)) (lives : JoinSet.dies after event = false) (id : Int) :
    after.ledger.stored.count id + after.worker.made.count id =
      state.ledger.stored.count id + state.worker.made.count id := by
  cases event with
  | session backend event =>
    rw [step] at taken
    rw [sessionStep_stored taken, (sessionStep_frame taken).worker]
  | tick elapsed => cases taken; rfl
  | restart => cases lives
  | worker event =>
    have stage := tracks.worker
    cases workerStep_cases taken with
    | begin stands | dequeue stands => rw [stands]; rfl
    | execute => exact absurd rfl (other _)
    | @insert tx results stored executed ran =>
      rw [executed] at stage
      have same : (Stage.inserted stored).made = state.worker.made := by
        rw [executed]
        by_cases empty : results = []
        · subst empty
          cases ran
          simp [Stage.made, stage.2.1]
        · obtain ⟨_, _, _, rfl⟩ := (Queue.insertResults_ok pg state.tables tx empty stored).mp ran
          simp [Stage.made, stage.2.1, Function.comp_def]
      rw [← same]
    | cleanup ready ran =>
      obtain ⟨bound, _, same⟩ := (Queue.ttlCleanup_ok ..).mp ran
      cases same
      rw [ready.made tracks]
      rfl
    | commit cleaned =>
      rw [cleaned]
      simp only [State.commitWorker, Stage.made, List.count_append, List.count_nil, Nat.add_zero]
    | insertError | cleanupError | fail => cases lives

/-- A worker that ends in a step has stored nothing by it. -/
theorem step_loses (taken : step pg state event = some after) (ends : JoinSet.dies after event = true) :
    after.ledger.stored = state.ledger.stored ∧ after.worker = .idle := by
  cases event with
  | session | tick => cases ends
  | restart => cases taken; exact ⟨rfl, rfl⟩
  | worker event =>
    cases workerStep_cases taken with
    | begin | dequeue | execute | insert | cleanup | commit => cases ends
    | insertError | cleanupError | fail => exact ⟨rfl, rfl⟩

end Ledgers
end PgGrpc.Cluster

namespace PgGrpc.JoinSet
open Library Worker Calls

/-- The calls that have been spawned under the open transaction. -/
def State.made (state : State) : List Int :=
  match state.batch, state.cluster.worker with
  | some _, .dequeued _ rows => rows.map QueueRow.id
  | _, stage => stage.made

def Rpc : Request → Bool
  | .unary _ _ _ _ _ _ => true
  | .connect _ _ | .serverReflectionInfo _ _ _ _ _ | .ready _ => false

inductive Note where
  /-- A task is spawned for each call of a batch. -/
  | spawned (ids : List Int)
  /-- The RPC of a call goes out to the server. -/
  | sent (id : Int)
  /-- The transaction under which these calls were spawned ends without its commit. -/
  | lost (ids : List Int)

/-- What a step does to the calls, beside storing them. -/
def note (pg : Postgres) (state : State) : Event → Option Note
  | .cluster event => (Cluster.step pg state.cluster event).bind fun cluster =>
    if dies cluster event then some (.lost state.made) else none
  | .spawn _ =>
    match state.cluster.worker with
    | .dequeued _ rows => some (.spawned (rows.map QueueRow.id))
    | _ => none
  | .poll index answer => state.tasks.running[index]?.bind fun entry =>
    if (entry.2.resume answer state.tasks.shared).1.asks Rpc then some (.sent entry.1.1.row.id) else none
  | .expire _ | .panic _ | .join _ | .collect => none

def spawned (noted : List Note) : List Int := noted.flatMap fun
  | .spawned ids => ids
  | .sent _ | .lost _ => []

def sent (noted : List Note) : List Int := noted.flatMap fun
  | .sent id => [id]
  | .spawned _ | .lost _ => []

def lost (noted : List Note) : List Int := noted.flatMap fun
  | .lost ids => ids
  | .spawned _ | .sent _ => []

/-- The task is one of the call, and has not sent its RPC. -/
def Unsent (id : Int) (entry : (Task × Log Request Reply) × Fiber Process Request Reply (GrpcResult Json)) : Bool :=
  entry.1.1.row.id == id && entry.1.2.countP Sends == 0 && !entry.2.asks Rpc

/-- The balance of the calls so far, one id at a time. -/
structure Accounted (noted : List Note) (state : State) : Prop where
  balance : ∀ id, (spawned noted).count id =
    state.cluster.ledger.stored.count id + (lost noted).count id + state.made.count id
  once : ∀ id, (sent noted).count id + state.tasks.running.countP (Unsent id) ≤ (spawned noted).count id
  known : spawned noted ⊆ state.cluster.ledger.called

section Sending
variable {crates : Crates} {args : CallArgs} {log : Log Request Reply}
  {fiber : Fiber Process Request Reply (GrpcResult Json)} {tasks after : Running}

private theorem sends_heard (answer : (request : Request) → Reply request) :
    (fiber.heard answer).countP Sends = if fiber.asks Rpc then 1 else 0 := by
  have same : Sends = fun exchange => Rpc exchange.1 := by
    funext exchange
    obtain ⟨request, reply⟩ := exchange
    cases request <;> rfl
  rw [same]
  exact fiber.heard_countP Rpc answer

private theorem asks_unsent {post : GrpcResult Json → Phase → Prop} (accepts : (protocol crates args).Accepts log)
    (follows : fiber.Follows (protocol crates args) post ((protocol crates args).phase log)) (asks : fiber.asks Rpc = true) :
    log.countP Sends = 0 := by
  cases follows with
  | await allowed => rw [(lawful_of_accepts accepts).sends, allows_unsent _ allowed]
  | done | read | write => cases asks

/-- Where a task sends its RPC in a turn, or has yet to send it after the turn, it had not sent it before. -/
private theorem resume_unsent {index : Nat} (answer : (request : Request) → Reply request) {task : Task}
    (obeys : Tasks.Obeys (fun task : Task => protocol crates task.row.args) (fun task => Concludes crates task.row.args) tasks)
    (found : tasks.running[index]? = some ((task, log), fiber)) (id : Int) :
    let rest := (fiber.resume answer tasks.shared).1
    (if rest.asks Rpc then [task.row.id] else []).count id + (Unsent id ((task, log ++ fiber.heard answer), rest)).toNat ≤
      (Unsent id ((task, log), fiber)).toNat := by
  intro rest
  obtain ⟨accepts, follows⟩ := obeys.running task log fiber (List.mem_of_getElem? found)
  obtain ⟨longer, goes⟩ := follows.resume accepts answer tasks.shared
  have heard : (log ++ fiber.heard answer).countP Sends = log.countP Sends + if fiber.asks Rpc then 1 else 0 := by
    rw [List.countP_append, sends_heard]
  have none : rest.asks Rpc = true → (log ++ fiber.heard answer).countP Sends = 0 := asks_unsent longer goes
  rw [heard] at none
  simp only [Unsent, heard]
  generalize log.countP Sends = made at none ⊢
  cases own : task.row.id == id <;> cases now : rest.asks Rpc <;> cases before : fiber.asks Rpc <;>
    simp_all

private theorem countP_erase {values : List α} (kind : α → Bool) {index : Nat} {value : α}
    (found : values[index]? = some value) :
    values.countP kind = (kind value).toNat + (values.eraseIdx index).countP kind := by
  obtain ⟨inside, rfl⟩ := List.getElem?_eq_some_iff.mp found
  rw [← (List.getElem_cons_eraseIdx_perm inside).countP_eq, List.countP_cons, Nat.add_comm]
  cases kind values[index] <;> rfl

private theorem countP_set {values : List α} (kind : α → Bool) {index : Nat} {value : α}
    (found : values[index]? = some value) (other : α) :
    (values.set index other).countP kind = (kind other).toNat + (values.eraseIdx index).countP kind := by
  obtain ⟨inside, _⟩ := List.getElem?_eq_some_iff.mp found
  rw [(List.set_perm_cons_eraseIdx inside other).countP_eq, List.countP_cons, Nat.add_comm]
  cases kind other <;> rfl

/-- What is sent in a turn is sent by a task that had it still to send. -/
private theorem turn_unsent {index : Nat} {answer : (request : Request) → Reply request}
    (obeys : Tasks.Obeys (fun task : Task => protocol crates task.row.args) (fun task => Concludes crates task.row.args) tasks)
    (turned : turn crates tasks (.poll index answer) = some after) :
    ∃ entry, tasks.running[index]? = some entry ∧ ∀ id,
      (if (entry.2.resume answer tasks.shared).1.asks Rpc then [entry.1.1.row.id] else []).count id +
        after.running.countP (Unsent id) ≤ tasks.running.countP (Unsent id) := by
  simp only [turn, Tasks.logStep] at turned
  split at turned
  next => cases turned
  next task log fiber found =>
    refine ⟨_, found, fun id => ?_⟩
    have spends := resume_unsent answer obeys found id
    rw [countP_erase (Unsent id) found]
    split at turned
    next value shared ran =>
      cases turned
      rw [ran] at spends ⊢
      dsimp only at spends ⊢
      omega
    next rest shared waits ran =>
      cases turned
      rw [ran] at spends ⊢
      rw [countP_set (Unsent id) found]
      dsimp only at spends ⊢
      omega

end Sending

section Accounts
variable {pg : Postgres} {crates : Crates} {rows : List QueueRow} {state after : State} {noted : List Note}

theorem State.made_closed (closed : state.batch = none) : state.made = state.cluster.worker.made := by
  rw [State.made, closed]

theorem State.made_open {batch : Batch} {tx : Tx} {rows : List QueueRow} (opened : state.batch = some batch)
    (dequeued : state.cluster.worker = .dequeued tx rows) : state.made = rows.map QueueRow.id := by
  rw [State.made, opened, dequeued]

theorem State.made_same (batch : after.batch.isSome = state.batch.isSome) (worker : after.cluster.worker = state.cluster.worker) :
    after.made = state.made := by
  rw [State.made, State.made, worker]
  cases former : state.batch <;> cases later : after.batch <;> simp only [former, later, Option.isSome] at batch ⊢
  case some.some => cases state.cluster.worker <;> rfl
  all_goals cases batch

private theorem Accounted.quiet (accounted : Accounted noted state)
    (keeps : ∀ id, after.cluster.ledger.stored.count id + after.made.count id =
      state.cluster.ledger.stored.count id + state.made.count id)
    (unsent : ∀ id, after.tasks.running.countP (Unsent id) ≤ state.tasks.running.countP (Unsent id))
    (called : state.cluster.ledger.called ⊆ after.cluster.ledger.called) : Accounted noted after where
  balance id := by
    have before := accounted.balance id
    have same := keeps id
    omega
  once id := by
    have before := accounted.once id
    have fewer := unsent id
    omega
  known := List.Subset.trans accounted.known called

private theorem Accounted.turns (accounted : Accounted noted state) (cluster : after.cluster = state.cluster)
    (batch : after.batch.isSome = state.batch.isSome)
    (unsent : ∀ id, after.tasks.running.countP (Unsent id) ≤ state.tasks.running.countP (Unsent id)) : Accounted noted after := by
  refine accounted.quiet (fun id => ?_) unsent (by rw [cluster]; exact List.Subset.refl _)
  rw [State.made_same batch (by rw [cluster]), cluster]

private theorem spawned_unsent {handles : List TaskId} {batched : List QueueRow} {tasks : Running} (idle : tasks.running = [])
    (each : handles.length = batched.length) (id : Int) :
    (spawnAll crates tasks ((handles.zip batched).map fun (id, row) => ⟨id, row⟩)).running.countP (Unsent id) ≤
      (batched.map QueueRow.id).count id := by
  rw [spawnAll, idle, List.nil_append, List.countP_map, List.countP_map]
  have own := List.map_snd_zip each.ge
  calc
    _ ≤ (handles.zip batched).countP fun pair => pair.2.id == id := by
      apply List.countP_mono_left
      intro pair _ unsent
      simp only [Unsent, Function.comp_apply, Bool.and_eq_true] at unsent
      exact unsent.1.1
    _ = batched.countP fun row => row.id == id := by
      conv_rhs => rw [← own, List.countP_map]
      rfl
    _ = (batched.map QueueRow.id).count id := by
      rw [List.count_eq_countP, List.countP_map]
      rfl

private theorem Accounted.spawns {ids : List Int} (accounted : Accounted noted state) (free : state.made = [])
    (cluster : after.cluster = state.cluster) (made : after.made = ids)
    (unsent : ∀ id, after.tasks.running.countP (Unsent id) ≤ ids.count id) (issued : ids ⊆ state.cluster.ledger.called) :
    Accounted (noted ++ [.spawned ids]) after where
  balance id := by
    have before := accounted.balance id
    rw [made, cluster]
    simp only [spawned, lost, List.flatMap_append, List.flatMap_singleton, List.count_append, List.append_nil, free,
      List.count_nil] at before ⊢
    omega
  once id := by
    have before := accounted.once id
    have fresh := unsent id
    simp only [spawned, sent, List.flatMap_append, List.flatMap_singleton, List.count_append, List.append_nil] at before ⊢
    omega
  known := by
    rw [spawned, List.flatMap_append, List.flatMap_singleton, cluster]
    exact List.append_subset.mpr ⟨accounted.known, issued⟩

private theorem Accounted.loses (accounted : Accounted noted state) (stored : after.cluster.ledger.stored = state.cluster.ledger.stored)
    (made : after.made = []) (none : after.tasks.running = []) (called : state.cluster.ledger.called ⊆ after.cluster.ledger.called) :
    Accounted (noted ++ [.lost state.made]) after where
  balance id := by
    have before := accounted.balance id
    rw [stored, made]
    simp only [spawned, lost, List.flatMap_append, List.flatMap_singleton, List.count_append, List.append_nil,
      List.count_nil] at before ⊢
    omega
  once id := by
    have before := accounted.once id
    rw [none, List.countP_nil]
    simp only [spawned, sent, List.flatMap_append, List.flatMap_singleton, List.append_nil] at before ⊢
    omega
  known := by
    rw [spawned, List.flatMap_append, List.flatMap_singleton, List.append_nil]
    exact List.Subset.trans accounted.known called

private theorem Accounted.sends {entry : (Task × Log Request Reply) × Fiber Process Request Reply (GrpcResult Json)}
    {sends : Bool} (accounted : Accounted noted state) (cluster : after.cluster = state.cluster) (made : after.made = state.made)
    (spends : ∀ id, (if sends then [entry.1.1.row.id] else []).count id + after.tasks.running.countP (Unsent id) ≤
      state.tasks.running.countP (Unsent id)) :
    Accounted (noted ++ (if sends then some (Note.sent entry.1.1.row.id) else none).toList) after where
  balance id := by
    have before := accounted.balance id
    rw [cluster, made]
    cases sends <;> simpa [spawned, lost] using before
  once id := by
    have before := accounted.once id
    have fewer := spends id
    cases sends <;> simp [spawned, sent] at before fewer ⊢ <;> omega
  known := by
    rw [cluster]
    cases sends <;> simpa [spawned] using accounted.known

/-- What the cluster does while the worker lives leaves an open batch alone, and of a closed one it stores what it takes. -/
private theorem Accounted.moves {event : Cluster.Event} {cluster : Cluster.State} (accounted : Accounted noted state)
    (valid : Valid pg crates rows state) (other : ∀ joins, event ≠ .worker (.execute joins))
    (moved : Cluster.step pg state.cluster event = some cluster) (lives : dies cluster event = false) :
    Accounted noted { state with cluster } := by
  obtain ⟨phases, tracks⟩ := Cluster.reachable_tracks valid.cluster
  have keeps := Cluster.step_keeps tracks moved other lives
  refine accounted.quiet (fun id => ?_) (fun id => Nat.le_refl _) (Cluster.called_grows moved)
  cases opened : state.batch with
  | none =>
    have closed : ({ state with cluster } : State).made = cluster.worker.made := State.made_closed opened
    rw [← opened, closed, state.made_closed opened]
    exact keeps id
  | some batch =>
    obtain ⟨tx, batched, dequeued, calls, _⟩ := valid.underway batch opened
    have waits : cluster.worker = state.cluster.worker :=
      (cluster_waits other moved lives dequeued calls).trans dequeued.symm
    have same : ({ state with cluster } : State).made = state.made := State.made_same rfl waits
    have stored := keeps id
    rw [waits] at stored
    rw [← opened, same]
    exact congrArg (· + _) (Nat.add_right_cancel stored)

private theorem Accounted.step {event : Event} (accounted : Accounted noted state) (valid : Valid pg crates rows state)
    (taken : step pg crates state event = some after) : Accounted (noted ++ (note pg state event).toList) after := by
  have silent {event : Event} (none : note pg state event = none) (keeps : Accounted noted after) :
      Accounted (noted ++ (note pg state event).toList) after := by rwa [none, Option.toList_none, List.append_nil]
  obtain ⟨phases, tracks⟩ := Cluster.reachable_tracks valid.cluster
  cases step_cases taken with
  | @cluster event cluster other moved lives =>
    exact silent (by simp [note, moved, lives]) (accounted.moves valid other moved lives)
  | @die event cluster other moved ends =>
    obtain ⟨stored, idle⟩ := Cluster.step_loses moved ends
    have lost : note pg state (.cluster event) = some (.lost state.made) := by simp [note, moved, ends]
    rw [lost]
    exact accounted.loses stored ((State.made_closed rfl).trans (by rw [idle]; rfl)) rfl (Cluster.called_grows moved)
  | @spawn handles tx batched free dequeued calls each once =>
    have noted : note pg state (.spawn handles) = some (.spawned (batched.map QueueRow.id)) := by rw [note, dequeued]
    rw [noted]
    refine accounted.spawns ?_ rfl (State.made_open rfl dequeued) (spawned_unsent (valid.empty free) each) fun id member => ?_
    · rw [state.made_closed free, dequeued]
      rfl
    · have stage := tracks.worker
      rw [dequeued] at stage
      rw [tracks.called, stage.1.queued id (stage.1.same.mem_iff.mp member)]
      rfl
  | @poll index answer batch tasks opened turned =>
    obtain ⟨entry, found, spends⟩ := turn_unsent valid.obeys turned
    have noted : note pg state (.poll index answer) = if (entry.2.resume answer state.tasks.shared).1.asks Rpc
        then some (.sent entry.1.1.row.id) else none := by rw [note, found, Option.bind_some]
    rw [noted]
    exact accounted.sends rfl (State.made_same (by rw [opened]; rfl) rfl) spends
  | expire opened found turned | panic opened found turned =>
    refine silent rfl (accounted.turns rfl (by rw [opened]; rfl) fun id => ?_)
    rw [turn_cancel turned]
    exact (List.eraseIdx_sublist _ _).countP_le
  | join opened found =>
    exact silent rfl (accounted.turns rfl (by rw [opened]; rfl) fun id => Nat.le_refl _)
  | @collect batch tx batched opened dequeued ran joined =>
    apply silent rfl
    obtain ⟨_, _, stands, _, underway⟩ := valid.underway batch opened
    cases dequeued.symm.trans stands
    have reports := underway.complete ran joined
    refine accounted.quiet (fun id => ?_) (fun id => Nat.le_refl _) (List.Subset.refl _)
    rw [state.made_open opened dequeued, ← reports.ids.count_eq]
    rfl

/-- What has been made is in the worker's hands, once each, and its row is still queued for the others. -/
private theorem made_queued {phases : Lifecycle.Phases} (tracks : Cluster.Tracks state.cluster phases) :
    state.made.Nodup ∧ ∀ id ∈ state.made, phases id = .queued := by
  have stage := tracks.worker
  have held {ids : List Int} {tx : Tx} (hand : Cluster.InHand tx ids phases) :
      ids.Nodup ∧ ∀ id ∈ ids, phases id = .queued :=
    ⟨hand.same.nodup_iff.mpr hand.once, fun id member => hand.queued id (hand.same.mem_iff.mp member)⟩
  rw [State.made]
  split
  next opened dequeued =>
    rw [dequeued] at stage
    exact held stage.1
  next =>
    cases stands : state.cluster.worker with
    | idle | begun | dequeued => exact ⟨.nil, List.forall_mem_nil _⟩
    | executed | inserted | cleaned =>
      rw [stands] at stage
      exact held stage.1

private theorem made_once {phases : Lifecycle.Phases} (tracks : Cluster.Tracks state.cluster phases) (id : Int) :
    state.cluster.ledger.stored.count id + state.made.count id ≤ 1 := by
  obtain ⟨distinct, queued⟩ := made_queued tracks
  have first := List.nodup_iff_count_le_one.mp tracks.storedOnce id
  have second := List.nodup_iff_count_le_one.mp distinct id
  by_cases stored : id ∈ state.cluster.ledger.stored
  · have apart : id ∉ state.made := by
      intro made
      have answered := (tracks.stored id).mp stored
      rw [queued id made] at answered
      cases answered
    rw [List.count_eq_zero.mpr apart]
    exact first
  · rw [List.count_eq_zero.mpr stored]
    omega

end Accounts

private theorem fresh_accounted (clock : Timestamp) : Accounted [] { cluster := { clock } } where
  balance _ := rfl
  once _ := Nat.le_refl _
  known := List.nil_subset _

/-- Over a whole run, every task spawned for a call is accounted for: by its stored result, by a batch whose
transaction did not commit, or by the batch in the worker's hands. The RPC of a call is sent at most once by each
of its tasks, wherever its batch ends, so it is sent again only after a batch of it was lost. -/
theorem calls_accounted {pg : Postgres} {crates : Crates} {clock : Timestamp} {events : List Event} {final : State}
    (executed : (machine pg crates).run { cluster := { clock } } events = some final) (id : Int) :
    let noted := (machine pg crates).observed (note pg) { cluster := { clock } } events
    (spawned noted).count id =
        final.cluster.ledger.stored.count id + (lost noted).count id + final.made.count id ∧
      (sent noted).count id ≤ (spawned noted).count id ∧ (spawned noted).count id ≤ (lost noted).count id + 1 ∧
      (id ∈ final.cluster.ledger.stored → id ∈ spawned noted) ∧ (id ∈ spawned noted → id ∈ final.cluster.ledger.called) := by
  intro noted
  have path := Machine.path_of_run (fun _ => True) (fun _ _ => trivial) executed
  have kept : (∃ rows, Valid pg crates rows final) ∧ Accounted ([] ++ noted) final := by
    refine path.observed (fun noted state => (∃ rows, Valid pg crates rows state) ∧ Accounted noted state) ?_ ?_
    · intro noted before event after _ taken holds
      obtain ⟨⟨rows, valid⟩, accounted⟩ := holds
      exact ⟨⟨_, valid.step taken⟩, accounted.step valid taken⟩
    · exact ⟨⟨[], fresh_valid pg crates clock⟩, fresh_accounted clock⟩
  obtain ⟨⟨rows, valid⟩, accounted⟩ := kept
  obtain ⟨phases, tracks⟩ := Cluster.reachable_tracks valid.cluster
  have balance : (spawned noted).count id = _ := accounted.balance id
  have once := made_once tracks id
  refine ⟨balance, Nat.le_of_add_right_le (accounted.once id), ?_, fun stored => ?_, fun made => accounted.known made⟩
  · rw [balance]
    change _ ≤ (lost ([] ++ noted)).count id + 1
    omega
  · have positive := List.count_pos_iff.mpr stored
    apply List.count_pos_iff.mp
    rw [balance]
    omega

/-- The RPC of the only call is answered, and the worker fails before the joins end; the next batch is stored. -/
private def retried : List Event :=
  let answer : Event := .poll 0 (network fun _ _ => ⟨[.fileDescriptorResponse [[0]]], none⟩)
  let batch : List Event := [.cluster (.worker .begin), .cluster (.worker (.dequeue .default)), .spawn [7]] ++
    List.replicate 5 answer
  let store : List Cluster.Event := [.worker .insert, .worker (.cleanup "6 hours"), .worker .commit]
  (Cluster.enqueue 0 .sample).map Event.cluster ++ batch ++ [.cluster (.worker .fail)] ++ batch ++ [.join 0, .collect] ++
    store.map Event.cluster

theorem calls_accounted_retried : ∃ final, (machine .sample .echo).run { cluster := { clock := 0 } } retried = some final ∧
    final.cluster.ledger.stored = [1] ∧
    let noted := (machine .sample .echo).observed (note .sample) { cluster := { clock := 0 } } retried
    sent noted = [1, 1] ∧ (spawned noted).count 1 = 1 + (lost noted).count 1 + final.made.count 1 ∧
      (sent noted).count 1 ≤ (lost noted).count 1 + 1 := by
  have ran : ((machine .sample .echo).run { cluster := { clock := 0 } } retried).map
      (fun final => final.cluster.ledger.stored) = some [1] := by decide
  obtain ⟨final, executed, stored⟩ := Option.map_eq_some_iff.mp ran
  obtain ⟨balance, once, again, _⟩ := calls_accounted executed 1
  rw [stored] at balance
  exact ⟨final, executed, stored, by decide, balance, once.trans again⟩

end PgGrpc.JoinSet
