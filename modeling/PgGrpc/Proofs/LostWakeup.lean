import PgGrpc.Proofs.ServerSteps
import PgGrpc.Proofs.Wake

/-! Lost wake-ups. The flag says that there may be work, the latch makes the worker
look at the flag; as long as nobody takes the latch away, every committed row has
one of them, the drain itself, or a backend still on its way, behind it. -/

namespace PgGrpc.Server
open Library Queue
open Cluster (BackendId SessionEvent Stage)

/-- The worker blocks although there is work and nobody is left to wake it. -/
structure Lost (state : State) : Prop where
  waiting : state.worker.pc = .waiting
  latch : state.worker.latch = false
  quiet : ∀ backend, state.waking backend = .idle
  queue : state.cluster.tables.queue ≠ []

/-- One server lifetime in which no SIGTERM comes and every commit of calls wakes
the worker, as only COMMIT PREPARED may fail to do. -/
def Lifetime (state : State) : Event → Prop
  | .sigterm | .restart => False
  | .session backend (.commitPrepared _) => (state.cluster.sessions backend).wakeCbActive = true
  | _ => True

def Waking.comes (slot : Slot) : Waking → Bool
  | .committed | .stored => true
  | .read latch => latch == some slot
  | .idle => false

/-- A lock wait at this point takes no wake-up away: the worker is not just starting,
and if it has already found its queue empty then the queue is empty still, the
latch was not set, or somebody sets it again. -/
def Spares (state : State) : Prop :=
  state.worker.pc ≠ .connecting ∧ ∀ tx, state.cluster.worker = .dequeued tx [] →
    state.cluster.tables.queue = [] ∨ state.worker.latch = false ∨
      ∃ backend, (state.waking backend).comes state.worker.slot = true

def Sparing (state : State) (event : Event) : Prop := Lifetime state event ∧ (event = .lockWait → Spares state)

def drains : Pc → Stage → Bool
  | .passing _, .dequeued _ [] | .passing _, .cleaned _ true => false
  | .draining _, _ | .passing _, _ => true
  | _, _ => false

/-- The worker comes to its `compare_exchange` without any latch, or must start anew. -/
def Pc.restless : Pc → Bool
  | .waiting | .draining _ | .passing _ => false
  | _ => true

def Alert (state : State) : Prop :=
  state.worker.pc.restless = true ∨ state.worker.latch = true ∨
    ∃ backend, (state.waking backend).comes state.worker.slot = true

/-- What stands behind the rows of the queue. -/
inductive Cover (state : State) : Prop where
  | drains (again : drains state.worker.pc state.cluster.worker = true)
  | committed {backend} (committed : state.waking backend = .committed)
  | rises (leaves : state.worker.pc = .exiting ∨ state.worker.pc = .released) (hooked : state.worker.exitHook = true)
  | alert (pending : state.shouldWake = true) (alert : Alert state)

structure Covered (state : State) : Prop where
  noSigterm : state.worker.sigterm = false
  /-- The latch of a fresh process stays set until its first wait. -/
  fresh : state.worker.pc.alive = true → state.worker.pc.serves = false → state.worker.latch = true
  cover : state.cluster.tables.queue ≠ [] → Cover state

theorem Covered.not_lost {state : State} (covered : Covered state) : ¬ Lost state := by
  intro lost
  obtain ⟨waiting, latch, quiet, queue⟩ := lost
  cases covered.cover queue with
  | drains again => simp [drains, waiting] at again
  | committed committed => cases (quiet _).symm.trans committed
  | rises leaves hooked => simp [waiting] at leaves
  | alert pending alert => simp [Alert, waiting, Pc.restless, latch, quiet, Waking.comes] at alert

theorem Pc.serves_of_restless {pc : Pc} (busy : pc.restless = false) : pc.serves = true := by
  cases pc <;> first | rfl | cases busy

theorem Pc.holdsSlot_of_serves {pc : Pc} (serves : pc.serves = true) : pc.holdsSlot = true := by
  cases pc <;> first | rfl | cases serves

theorem drains_of_serves {pc : Pc} {stage : Stage} (outside : pc.serves = false) : drains pc stage = false := by
  cases pc <;> first | rfl | cases outside

/-- A statement after which the worker does not dequeue again is the clean-up of an empty pass. -/
theorem last_query {pc : Pc} {stage : Stage} {batchSize : BatchSize} (passing : pc = .passing batchSize)
    (runs : querying stage = true) (last : drains pc stage = false) : ∃ tx, stage = .dequeued tx [] := by
  subst passing
  cases stage with
  | dequeued tx rows =>
    cases rows with
    | nil => exact ⟨tx, rfl⟩
    | cons row rest => cases runs
  | begun | executed | inserted => cases last
  | idle | cleaned => cases runs

theorem afterStatement_serves {batchSize : BatchSize} {before after : Stage}
    (alive : (afterStatement batchSize before after).alive = true) :
    (afterStatement batchSize before after).serves = true := by
  revert alive
  unfold afterStatement
  split <;> simp [Pc.alive, Pc.serves]

theorem setWaking_same {state : State} {backend : BackendId} {waking : Waking} (same : state.waking backend = waking) :
    state.setWaking backend waking = state := by
  have unchanged : (fun other => if other = backend then waking else state.waking other) = state.waking := by
    funext other
    split
    next here => rw [here, same]
    next => rfl
  rw [State.setWaking, unchanged]

section Steps
variable {pg : Postgres} {state : State}

private theorem Cover.carry {after : State} (cover : Cover state) (stands : after.worker.pc = state.worker.pc)
    (stage : after.cluster.worker = state.cluster.worker) (hook : after.worker.exitHook = state.worker.exitHook)
    (waking : after.waking = state.waking) (flag : after.shouldWake = state.shouldWake)
    (alert : Alert state → Alert after) : Cover after := by
  cases cover with
  | drains again => exact .drains (by rw [stands, stage]; exact again)
  | committed committed => exact .committed (waking ▸ committed)
  | rises leaves hooked => exact .rises (stands ▸ leaves) (hook ▸ hooked)
  | alert pending before => exact .alert (flag ▸ pending) (alert before)

/-- A commit of calls signals, so what makes the queue non-empty signals. -/
private theorem silent_queue {cluster : Cluster.State} {backend : BackendId} {event : SessionEvent}
    (reached : (Cluster.machine pg).Reachable state.cluster) (lifetime : Lifetime state (.session backend event))
    (taken : Cluster.sessionStep state.cluster backend event = some cluster)
    (silent : Cluster.signals state.cluster (.session backend event) = false)
    (calls : cluster.tables.queue ≠ []) : state.cluster.tables.queue ≠ [] := by
  intro empty
  obtain ⟨row, appears⟩ := List.exists_mem_of_ne_nil _ calls
  have moved : Cluster.step pg state.cluster (.session backend event) = some cluster := taken
  cases Cluster.step_publishes moved appears (by simp [empty]) with
  | commit own =>
    have flag := Cluster.reachable_flagged reached backend (List.ne_nil_of_mem own)
    simp [Cluster.signals, Cluster.SessionEvent.xactEvent, wakeWorkerOnCommit, flag] at silent
  | commitPrepared held member =>
    simp [Cluster.signals, Cluster.SessionEvent.xactEvent, wakeWorkerOnCommit, show _ = true from lifetime] at silent

private theorem session_covered {cluster : Cluster.State} {backend : BackendId} {event : SessionEvent}
    (reached : (Cluster.machine pg).Reachable state.cluster) (lifetime : Lifetime state (.session backend event))
    (idle : state.waking backend = .idle) (taken : Cluster.sessionStep state.cluster backend event = some cluster)
    (covered : Covered state) : Covered ({ state with cluster }.setWaking backend
      (if Cluster.signals state.cluster (.session backend event) then .committed else .idle)) := by
  refine { covered with cover := fun calls => ?_ }
  cases signals : Cluster.signals state.cluster (.session backend event) with
  | true => exact .committed (show (if backend = backend then _ else _) = _ by simp)
  | false =>
    have same : ({ state with cluster } : State).setWaking backend .idle = { state with cluster } := setWaking_same idle
    rw [if_neg (by simp), same]
    exact (covered.cover (silent_queue reached lifetime taken signals calls)).carry rfl
      (Cluster.sessionStep_frame taken).worker rfl rfl rfl id

private theorem readLatch_covered {backend : BackendId} (settled : Settled state)
    (stored : state.waking backend = .stored) (covered : Covered state) :
    Covered (state.setWaking backend (.read state.workerLatch)) := by
  refine { covered with cover := fun calls => ?_ }
  cases covered.cover calls with
  | drains again => exact .drains again
  | @committed other committed =>
    have apart : other ≠ backend := by rintro rfl; cases stored.symm.trans committed
    exact .committed ((setWaking_other _ apart).trans committed)
  | rises leaves hooked => exact .rises leaves hooked
  | alert pending alert =>
    refine .alert pending ?_
    cases busy : state.worker.pc.restless with
    | true => exact .inl busy
    | false =>
      have published := settled.published (Pc.serves_of_restless busy)
      exact .inr (.inr ⟨backend, by simp [State.setWaking, Waking.comes, published]⟩)

private theorem setLatch_covered {backend : BackendId} {latch : Option Slot}
    (read : state.waking backend = .read latch) (covered : Covered state) :
    Covered ((state.setLatch latch).setWaking backend .idle) := by
  refine ⟨covered.noSigterm, fun alive loops => ?_, fun calls => ?_⟩
  · simp [State.setWaking, State.setLatch, covered.fresh alive loops]
  cases covered.cover calls with
  | drains again => exact .drains again
  | @committed other committed =>
    have apart : other ≠ backend := by rintro rfl; cases read.symm.trans committed
    exact .committed ((setWaking_other _ apart).trans committed)
  | rises leaves hooked => exact .rises leaves hooked
  | alert pending alert =>
    refine .alert pending ?_
    obtain restless | set | ⟨other, comes⟩ := alert
    · exact .inl restless
    · exact .inr (.inl (by simp [State.setWaking, State.setLatch, set]))
    · by_cases same : other = backend
      · subst same
        cases busy : state.worker.pc.restless with
        | true => exact .inl busy
        | false =>
          -- The pointer is the worker's own, and the worker still has the slot.
          have held : state.worker.pc.holdsSlot = true := Pc.holdsSlot_of_serves (Pc.serves_of_restless busy)
          simp only [read, Waking.comes] at comes
          exact .inr (.inl (by simp [State.setWaking, State.setLatch, held, comes]))
      · exact .inr (.inr ⟨other, by rw [setWaking_other _ same]; exact comes⟩)

/-- Away from the drain and from the exit, the flag and somebody who looks at it are what is left. -/
private theorem Cover.keep {after : State} (cover : Cover state)
    (still : Server.drains state.worker.pc state.cluster.worker = false)
    (stays : state.worker.exitHook = true → state.worker.pc ≠ .exiting ∧ state.worker.pc ≠ .released)
    (waking : after.waking = state.waking) (flag : after.shouldWake = state.shouldWake)
    (alert : Alert state → Alert after) : Cover after := by
  cases cover with
  | drains again => cases again.symm.trans still
  | committed committed => exact .committed (waking ▸ committed)
  | rises leaves hooked => exact absurd leaves (not_or.mpr (stays hooked))
  | alert pending before => exact .alert (flag ▸ pending) (alert before)

private theorem run_cover {after : State} (settled : Settled state) (covered : Covered state) (ran : Run state after)
    (cover : Cover state) : Cover after := by
  have idle : state.cluster.worker = .idle := settled.stage ran.outside
  have restless (now : after.worker.pc.restless = true) : Alert state → Alert after := fun _ => .inl now
  cases ran with
  | clearLatch pc | connect pc | hook pc | wake pc _ | stay pc _ | reload pc | clear pc =>
    exact cover.keep (by rw [pc]; rfl) (by simp [pc]) rfl rfl (restless rfl)
  | vanish pc bare => exact cover.keep (by rw [pc]; rfl) (by simp [bare]) rfl rfl (restless rfl)
  | storeLatch pc =>
    have latch : state.worker.latch = true := covered.fresh (by rw [pc]; rfl) (by rw [pc]; rfl)
    exact cover.keep (by rw [pc]; rfl) (by simp [pc]) rfl rfl fun _ => .inr (.inl latch)
  | leave pc flag | break_ pc flag => cases flag.symm.trans covered.noSigterm
  | take pc pending => exact .drains rfl
  | skip pc nothing =>
    cases cover with
    | drains again => simp [drains, pc] at again
    | committed committed => exact .committed committed
    | rises leaves hooked => simp [pc] at leaves
    | alert pending alert => cases pending.symm.trans nothing
  | pass pc clear => exact .drains (by simp [drains, idle])
  | release pc =>
    cases hooked : state.worker.exitHook with
    | true => exact .rises (.inr rfl) hooked
    | false => exact cover.keep (by rw [pc]; rfl) (by simp [hooked]) rfl rfl (restless rfl)
  | storeFlag pc hooked => exact .alert rfl (.inl rfl)

private theorem run_covered {after : State} (settled : Settled state) (ran : Run state after)
    (covered : Covered state) : Covered after where
  noSigterm := by
    have clear := covered.noSigterm
    cases ran <;> first | exact clear | rfl
  fresh := by
    have before := covered.fresh
    cases ran <;> simp_all [State.goto, Pc.alive, Pc.serves]
  cover calls := run_cover settled covered ran (covered.cover (ran.cluster ▸ calls))

private theorem empty_dequeue {cluster : Cluster.State} (reached : (Cluster.machine pg).Reachable cluster) {tx : Tx}
    (begun : cluster.worker = .begun tx) (batchSize : BatchSize) (empty : (dequeue batchSize cluster.tables tx).1 = []) :
    cluster.tables.queue = [] := by
  obtain ⟨phases, tracks⟩ := Cluster.reachable_tracks reached
  obtain ⟨deleted, inserted, expired⟩ : Cluster.StageTracks phases (.begun tx) := begun ▸ tracks.worker
  have view : (tx.view cluster.tables).queue = cluster.tables.queue := by simp [Tx.view, deleted]
  have distinct : (tx.view cluster.tables).queueIds.Nodup := by
    rw [Tables.queueIds, view]
    exact tracks.sound.queueOnce
  rw [← view]
  exact (dequeue_empty batchSize cluster.tables tx distinct).mp empty

private theorem statement_cover {cluster : Cluster.State} {batchSize : BatchSize} {event : Cluster.WorkerEvent}
    (reached : (Cluster.machine pg).Reachable state.cluster) (settled : Settled state)
    (passing : state.worker.pc = .passing batchSize) (healthy : event ≠ .fail)
    (taken : Cluster.workerStep pg state.cluster event = some cluster) (calls : cluster.tables.queue ≠ [])
    (cover : Cover state) :
    Cover (({ state with cluster } : State).goto (afterStatement batchSize state.cluster.worker cluster.worker)) := by
  have serves : state.worker.pc.serves = true := by rw [passing]; rfl
  have stays : state.worker.exitHook = true → state.worker.pc ≠ .exiting ∧ state.worker.pc ≠ .released := by simp [passing]
  cases Cluster.workerStep_cases taken with
  | begin idle => exact .drains (by simp [State.goto, afterStatement, drains])
  | dequeue begun =>
    cases batch : (dequeue _ state.cluster.tables _).1 with
    | nil => exact absurd (empty_dequeue reached begun _ batch) calls
    | cons row rest => exact .drains (by simp [State.goto, afterStatement, drains])
  | execute dequeued nonempty covers => exact .drains (by simp [State.goto, afterStatement, drains])
  | insert executed ran => exact .drains (by simp [State.goto, afterStatement, drains])
  | insertError executed failed =>
    exact .rises (.inl (by simp [State.goto, afterStatement, executed])) (settled.exitHook (.inl serves))
  | cleanup ready ran =>
    cases ready with
    | stored inserted => exact .drains (by simp [State.goto, afterStatement, drains])
    | drained empty =>
      refine cover.keep (by rw [passing, empty]; rfl) stays rfl rfl fun alert => ?_
      simpa [Alert, State.goto, afterStatement, passing] using alert
  | cleanupError ready failed =>
    refine .rises (.inl ?_) (settled.exitHook (.inl serves))
    cases ready with
    | drained opened | stored opened => simp [State.goto, afterStatement, opened]
  | @commit tx drained cleaned =>
    cases drained with
    | false => exact .drains (by simp [State.goto, afterStatement, cleaned, Cluster.State.commitWorker, drains])
    | true =>
      refine cover.keep (by rw [passing, cleaned]; rfl) stays rfl rfl fun alert => ?_
      simpa [Alert, State.goto, afterStatement, cleaned, Cluster.State.commitWorker, Pc.restless, passing] using alert
  | fail opened => exact absurd rfl healthy

private theorem statement_covered {cluster : Cluster.State} {batchSize : BatchSize} {statement : Statement}
    (reached : (Cluster.machine pg).Reachable state.cluster) (settled : Settled state)
    (passing : state.worker.pc = .passing batchSize)
    (taken : Cluster.workerStep pg state.cluster (statement.event batchSize state.worker.loaded.ttl) = some cluster)
    (covered : Covered state) :
    Covered (({ state with cluster } : State).goto (afterStatement batchSize state.cluster.worker cluster.worker)) := by
  have healthy : statement.event batchSize state.worker.loaded.ttl ≠ .fail := by cases statement <;> nofun
  refine ⟨covered.noSigterm, fun alive loops => ?_, fun calls => ?_⟩
  · exact absurd (afterStatement_serves alive) (Bool.eq_false_iff.mp loops)
  · refine statement_cover reached settled passing healthy taken calls (covered.cover ?_)
    exact List.ne_nil_of_mem ((Cluster.workerStep_frame taken).queue (List.getElem_mem (List.length_pos_of_ne_nil calls)))

private theorem fail_covered (settled : Settled state) (covered : Covered state) :
    Covered (({ state with cluster := { state.cluster with worker := .idle } } : State).goto .exiting) := by
  refine ⟨covered.noSigterm, nofun, fun calls => ?_⟩
  cases hooked : state.worker.exitHook with
  | true => exact .rises (.inl rfl) hooked
  | false =>
    have loops : state.worker.pc.serves = false := by
      by_contra serves
      simp [settled.exitHook (.inl (by simpa using serves))] at hooked
    exact (covered.cover calls).keep (drains_of_serves loops) (by simp [hooked]) rfl rfl fun _ => .inl rfl

private theorem lockWait_covered (spares : Spares state)
    (waits : state.worker.pc = .connecting ∨
      (∃ batchSize, state.worker.pc = .passing batchSize) ∧ querying state.cluster.worker = true)
    (covered : Covered state) : Covered { state with worker := { state.worker with latch := false } } := by
  obtain ⟨⟨batchSize, passing⟩, runs⟩ := waits.resolve_left spares.1
  refine ⟨covered.noSigterm, fun _ loops => by simp [passing, Pc.serves] at loops, fun calls => ?_⟩
  cases again : drains state.worker.pc state.cluster.worker with
  | true => exact .drains again
  | false =>
    -- What is left of the transaction is the clean-up after an empty dequeue.
    obtain ⟨tx, empty⟩ := last_query passing runs again
    refine (covered.cover calls).keep again (by simp [passing]) rfl rfl fun alert => ?_
    obtain none | clear | comes := spares.2 tx empty
    · exact absurd none calls
    · simpa [Alert, clear] using alert
    · exact .inr (.inr comes)

theorem step_covered {after : State} {event : Event} (reached : (Cluster.machine pg).Reachable state.cluster)
    (settled : Settled state) (lifetime : Lifetime state event) (spares : event = .lockWait → Spares state)
    (taken : step pg state event = some after) (covered : Covered state) : Covered after := by
  cases step_cases taken with
  | session idle moved => exact session_covered reached lifetime idle moved covered
  | @storeFlag backend committed =>
    exact { covered with cover := fun _ => .alert rfl (.inr (.inr ⟨backend, by simp [State.setWaking, Waking.comes]⟩)) }
  | readLatch stored => exact readLatch_covered settled stored covered
  | setLatch read => exact setLatch_covered read covered
  | start dead wanted =>
    refine ⟨rfl, fun _ _ => rfl, fun calls => ?_⟩
    exact (covered.cover calls).keep (by rw [dead]; rfl) (by simp [dead]) rfl rfl fun _ => .inl rfl
  | run ran => exact run_covered settled ran covered
  | statement passing moved => exact statement_covered reached settled passing moved covered
  | fail alive => exact fail_covered settled covered
  | lockWait waits => exact lockWait_covered (spares rfl) waits covered
  | sigterm attached | restart dead => exact lifetime.elim
  | sighup =>
    exact ⟨covered.noSigterm, fun _ _ => rfl, fun calls => (covered.cover calls).carry rfl rfl rfl rfl rfl
      fun _ => .inr (.inl rfl)⟩
  | reread | configure | tick =>
    exact { covered with cover := fun calls => (covered.cover calls).carry rfl rfl rfl rfl rfl id }

end Steps

/-- In one lifetime of the server no wake-up is lost as long as no lock wait takes
the latch of a starting worker, or of one that has found its queue empty and
since been woken. -/
theorem wakeup_kept {pg : Postgres} {state : State} (reached : (machine pg).Reaches Sparing state) : ¬ Lost state := by
  refine Covered.not_lost (reached.invariant Covered ?_ ?_)
  · intro start begins
    obtain ⟨clock, file, rfl⟩ := begins
    exact ⟨rfl, nofun, fun calls => absurd rfl calls⟩
  · intro before event after reached sparing taken covered
    exact step_covered (reachable_cluster reached) (reachable_settled reached) sparing.1 sparing.2 taken covered

/-- Backend 0 alone is at work, and nobody stops the server. -/
private def ordinary : Event → Bool
  | .sigterm | .restart | .session _ (.commitPrepared _) => false
  | event => event.backend? = none || event.backend? = some 0

private theorem ordinary_lifetime (state : State) (event : Event) (simple : ordinary event = true) :
    Lifetime state event := by
  unfold Lifetime
  split <;> trivial

private theorem ordinary_backend {event : Event} (simple : ordinary event = true) {backend : BackendId}
    (other : backend ≠ 0) : event.backend? ≠ some backend := by
  unfold ordinary at simple
  split at simple
  iterate 3
    next => cases simple
  next =>
    simp only [Bool.or_eq_true, decide_eq_true_eq] at simple
    intro same
    simp [same, other] at simple

private theorem ordinary_quiet {pg : Postgres} {start final : State} {events : List Event}
    (path : (machine pg).Path (fun _ event => ordinary event = true) start events final)
    (quiet : ∀ backend, start.waking backend = .idle) (own : final.waking 0 = .idle) (backend : BackendId) :
    final.waking backend = .idle := by
  by_cases zero : backend = 0
  · rw [zero, own]
  · refine path.preserves (fun state => state.waking backend = .idle) ?_ (quiet backend)
    intro before event after plain taken idle
    exact step_waking taken (ordinary_backend plain zero) idle

private def calm (state : State) (event : Event) : Bool :=
  match event, state.worker.pc, state.cluster.worker with
  | .lockWait, .passing _, .begun _ => true
  | .lockWait, _, _ => false
  | event, _, _ => ordinary event

private theorem calm_sparing (state : State) (event : Event) (check : calm state event = true) : Sparing state event := by
  unfold calm at check
  split at check
  next passing begun => exact ⟨trivial, fun _ => ⟨by simp [passing], by simp [begun]⟩⟩
  next => cases check
  next other _ => exact ⟨ordinary_lifetime state _ check, fun same => (other same).elim⟩

private def single (id : Worker.TaskId) : Worker.Joins := ⟨[id], [(id, .finished (.success .null))]⟩

theorem wakeup_kept_dequeue : ∃ state, (machine .sample).Reaches Sparing state ∧ state.worker.pc = .waiting ∧
    state.worker.latch = false ∧ state.cluster.tables.queueIds = [2] ∧ ¬ Lost state := by
  obtain ⟨state, _, reached, checked⟩ := (machine .sample).exists_allowed calm calm_sparing ⟨0, .default, rfl⟩
    (boot 7 ++ enqueue 0 .sample ++ awaken ++
      [.run, .statement .begin, .lockWait, .statement .dequeue, .statement (.execute (single 1)),
        .statement .insert, .statement .cleanup, .statement .commit] ++
      pass true (single 1) ++ (enqueue 0 .sample).take 5)
    (fun state => state.worker.pc = .waiting && !state.worker.latch && state.cluster.tables.queueIds = [2]) (by decide)
  simp only [Bool.and_eq_true, decide_eq_true_eq, Bool.not_eq_true'] at checked
  obtain ⟨⟨waiting, latch⟩, queue⟩ := checked
  exact ⟨state, reached, waiting, latch, queue, wakeup_kept reached⟩

private theorem lost_of_run (events : List Event) (stored : List Int)
    (executed : (((machine .sample).guarded fun _ => ordinary).run (.fresh 0 .default) events).map
      (fun state => state.worker.pc = .waiting && !state.worker.latch && state.waking 0 = .idle &&
        !state.cluster.tables.queue.isEmpty && state.cluster.ledger.stored = stored) = some true) :
    ∃ state, (machine .sample).Reaches Lifetime state ∧ Lost state ∧ state.cluster.ledger.stored = stored := by
  obtain ⟨state, path, reached, checked⟩ := (machine .sample).exists_allowed _ (fun state => ordinary_lifetime state)
    ⟨0, .default, rfl⟩ events _ executed
  simp only [Bool.and_eq_true, decide_eq_true_eq, Bool.not_eq_true', List.isEmpty_eq_false_iff] at checked
  obtain ⟨⟨⟨⟨waiting, latch⟩, own⟩, calls⟩, same⟩ := checked
  exact ⟨state, reached, ⟨waiting, latch, ordinary_quiet path (fun _ => rfl) own, calls⟩, same⟩

/-- A lock wait of the connection takes the latch a fresh process starts with, and
the first call of the server stays in the queue. A lock wait of the last clean-up
takes the latch set for a call the drain has not seen. -/
theorem wakeup_lost :
    (∃ state, (machine .sample).Reaches Lifetime state ∧ Lost state ∧ state.cluster.ledger.stored = []) ∧
    ∃ state, (machine .sample).Reaches Lifetime state ∧ Lost state ∧ state.cluster.ledger.stored = [1] := by
  constructor
  · exact lost_of_run ([.start 7, .run] ++ enqueue 0 .sample ++ [.lockWait, .run, .run, .run]) [] (by decide)
  · exact lost_of_run
      (boot 7 ++ enqueue 0 .sample ++ awaken ++ pass false (single 1) ++
        [.run, .statement .begin, .statement .dequeue] ++ enqueue 0 .sample ++
        [.lockWait, .statement .cleanup, .statement .commit]) [1] (by decide)

end PgGrpc.Server
