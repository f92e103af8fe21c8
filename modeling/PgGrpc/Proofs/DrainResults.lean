import PgGrpc.Proofs.DrainLoop

/-! What a drain leaves: an empty queue, and for every call one result, which the
clean-up of a later pass can already have deleted. -/

namespace PgGrpc.Cluster
open Library Queue

/-- No clean-up deletes what was stored from then on. -/
def Spares (pg : Postgres) (start : Timestamp) (state : State) : Event → Prop
  | .worker (.cleanup ttl) =>
    ∀ tx, state.worker.tx? = some tx → ∀ bound, pg.cutoff tx.start ttl = some bound → bound ≤ start
  | _ => True

/-- The calls with these ids are in the queue, or have a result that was stored since. -/
structure Lasting (start : Timestamp) (ids : List Int) (state : State) : Prop where
  clock : start ≤ state.clock
  opened : ∀ tx, state.worker.tx? = some tx → start ≤ tx.start
  kept : ∀ tx drained, state.worker = .cleaned tx drained → ∀ row ∈ state.tables.results ++ tx.inserted,
    start ≤ row.created → row ∈ (tx.view state.tables).results
  there : ∀ id ∈ ids, id ∈ state.tables.queueIds ∨ ∃ row ∈ state.tables.results, row.id = id ∧ start ≤ row.created

section Steps
variable {pg : Postgres} {start : Timestamp} {ids : List Int} {state after : State}

private theorem Lasting.commit {tx : Tx} {drained : Bool} (lasting : Lasting start ids state)
    (reached : (machine pg).Reachable state) (cleaned : state.worker = .cleaned tx drained) :
    Lasting start ids (state.commitWorker tx) := by
  obtain ⟨phases, tracks⟩ := reachable_tracks reached
  have stage := tracks.worker
  rw [cleaned] at stage
  have hand : InHand tx (tx.inserted.map ResultRow.id) phases := stage.1
  have created : ∀ row ∈ tx.inserted, row.created = tx.start := reachable_dated reached tx (by rw [cleaned]; rfl)
  have began : start ≤ tx.start := lasting.opened tx (by rw [cleaned]; rfl)
  have kept := lasting.kept tx drained cleaned
  refine ⟨lasting.clock, nofun, nofun, fun id member => ?_⟩
  rcases lasting.there id member with queued | ⟨row, stored, same, young⟩
  · by_cases taken : id ∈ tx.deleted
    · obtain ⟨row, own, same⟩ := List.mem_map.mp (hand.same.mem_iff.mpr taken)
      have young : start ≤ row.created := by rwa [created row own]
      exact .inr ⟨row, kept row (List.mem_append_right _ own) young, same, young⟩
    · exact .inl ((Keyed.mem_map_without QueueRow.id).mpr ⟨queued, taken⟩)
  · exact .inr ⟨row, kept row (List.mem_append_left _ stored) young, same, young⟩

private theorem workerStep_lasting {event : WorkerEvent} (lasting : Lasting start ids state)
    (reached : (machine pg).Reachable state) (spares : Spares pg start state (.worker event))
    (taken : workerStep pg state event = some after) : Lasting start ids after := by
  cases workerStep_cases taken with
  | begin idle =>
    refine { lasting with opened := ?_, kept := nofun }
    intro tx opened
    cases opened
    exact lasting.clock
  | @dequeue batchSize tx begun =>
    refine { lasting with opened := ?_, kept := nofun }
    intro _ opened
    cases opened
    exact lasting.opened tx (by rw [begun]; rfl)
  | @execute joins tx rows dequeued nonempty covers =>
    refine { lasting with opened := ?_, kept := nofun }
    intro _ opened
    cases opened
    exact lasting.opened tx (by rw [dequeued]; rfl)
  | @insert tx results stored executed ran =>
    refine { lasting with opened := ?_, kept := nofun }
    intro _ opened
    cases opened
    rw [(insertResults_frame ran).2]
    exact lasting.opened tx (by rw [executed]; rfl)
  | @cleanup ttl tx drained cleaned warning ready ran =>
    obtain ⟨phases, tracks⟩ := reachable_tracks reached
    have before : state.worker.tx? = some tx := by
      cases ready with
      | drained stands | stored stands => rw [stands]; rfl
    obtain ⟨bound, cutoff, same⟩ := (Queue.ttlCleanup_ok ..).mp ran
    have results := cleanup_results tracks ready cutoff ran
    have frame : cleaned.start = tx.start ∧ cleaned.inserted = tx.inserted := by
      rw [(Prod.mk.inj same).1]
      exact ⟨rfl, rfl⟩
    refine { lasting with opened := ?_, kept := ?_ }
    · intro _ opened
      cases opened
      rw [frame.1]
      exact lasting.opened tx before
    · intro _ _ stands row member young
      cases stands
      change row ∈ (cleaned.view state.tables).results
      rw [results, ← frame.2]
      have late : ¬ row.created < bound := not_lt.mpr ((spares tx before bound cutoff).trans young)
      exact List.mem_filter.mpr ⟨member, by simpa using late⟩
  | commit cleaned => exact lasting.commit reached cleaned
  | insertError | cleanupError | fail => exact { lasting with opened := nofun, kept := nofun }

theorem step_lasting {event : Event} (lasting : Lasting start ids state) (reached : (machine pg).Reachable state)
    (spares : Spares pg start state event) (taken : step pg state event = some after) : Lasting start ids after := by
  cases event with
  | session backend event =>
    obtain ⟨clock, ⟨rows, queue⟩, results, worker, _⟩ := sessionStep_frame taken
    refine ⟨clock ▸ lasting.clock, worker ▸ lasting.opened, ?_, ?_⟩
    · intro tx drained cleaned row member young
      rw [worker] at cleaned
      rw [results] at member
      have kept := lasting.kept tx drained cleaned row member young
      simp only [Tx.view, results]
      exact kept
    · intro id member
      rw [results]
      refine (lasting.there id member).imp_left fun queued => ?_
      rw [Tables.queueIds, queue, List.map_append]
      exact List.mem_append_left _ queued
  | worker event => exact workerStep_lasting lasting reached spares taken
  | tick elapsed =>
    cases taken
    exact { lasting with clock := lasting.clock.trans (Int.le_add_of_nonneg_right (Int.natCast_nonneg elapsed)) }
  | restart =>
    cases taken
    refine { lasting with opened := ?_, kept := ?_ }
    · intro tx opened
      cases opened
    · intro tx drained cleaned
      cases cleaned

end Steps
end PgGrpc.Cluster

namespace PgGrpc.Server
open Library Queue

/-- No clean-up deletes what was stored from then on. -/
def SparesSince (pg : Postgres) (start : Timestamp) (state : State) : Event → Prop
  | .statement statement => ∀ batchSize,
    Cluster.Spares pg start state.cluster (.worker (statement.event batchSize state.worker.loaded.ttl))
  | _ => True

section Steps
variable {pg : Postgres} {start : Timestamp} {ids : List Int} {state after : State} {event : Event}

theorem step_lasting (lasting : Cluster.Lasting start ids state.cluster) (reached : (machine pg).Reachable state)
    (spares : SparesSince pg start state event) (taken : step pg state event = some after) :
    Cluster.Lasting start ids after.cluster := by
  have reached := reachable_cluster reached
  cases step_cases taken with
  | @session backend event cluster idle moved =>
    have spares : Cluster.Spares pg start state.cluster (.session backend event) := trivial
    exact Cluster.step_lasting lasting reached spares moved
  | statement passing moved => exact Cluster.step_lasting lasting reached (spares _) moved
  | @tick elapsed =>
    have spares : Cluster.Spares pg start state.cluster (.tick elapsed) := trivial
    exact Cluster.step_lasting lasting reached spares rfl
  | restart =>
    have spares : Cluster.Spares pg start state.cluster .restart := trivial
    exact Cluster.step_lasting lasting reached spares rfl
  | run ran => rwa [ran.cluster]
  | fail => exact { lasting with opened := nofun, kept := nofun }
  | _ => exact lasting

theorem step_called (taken : step pg state event = some after) :
    state.cluster.ledger.called ⊆ after.cluster.ledger.called := by
  cases step_cases taken with
  | session idle moved => exact (Cluster.sessionStep_frame moved).called
  | statement passing moved => exact Cluster.workerStep_called moved
  | run ran => rw [ran.cluster]; exact List.Subset.refl _
  | _ => exact List.Subset.refl _

end Steps

section Drained
variable {pg : Postgres} {batchSize : BatchSize} {state final : State} {events : List Event} {noted : List Batch} {n : Nat}

theorem answered_once (reached : (machine pg).Reachable final) {id : Int} (called : id ∈ final.cluster.ledger.called)
    (gone : final.cluster.tables.queue = []) : final.cluster.ledger.stored.count id = 1 ∧
      ∃ situation, situation ≠ .queued ∧ final.cluster.situated id situation := by
  obtain ⟨phases, tracks⟩ := Cluster.reachable_tracks (reachable_cluster reached)
  obtain ⟨situation, situated, _⟩ := tracks.one_situation called
  have left : situation ≠ .queued := by
    rintro rfl
    have count := situated.1
    simp [Tables.queueIds, gone] at count
  refine ⟨?_, situation, left, situated⟩
  apply List.count_eq_one_of_mem tracks.storedOnce
  rw [tracks.stored, (tracks.situated_iff situation).mp situated]
  cases situation with
  | queued => exact absurd rfl left
  | stored | expired | vanished => rfl

theorem drained_called (reached : (machine pg).Reachable state) (path : (machine pg).Path Drains state events final) {id : Int}
    (queued : id ∈ state.cluster.tables.queueIds) : id ∈ final.cluster.ledger.called := by
  obtain ⟨phases, tracks⟩ := Cluster.reachable_tracks (reachable_cluster reached)
  apply path.preserves (fun state => id ∈ state.cluster.ledger.called) fun _ _ _ _ taken called => step_called taken called
  rw [tracks.called, (tracks.located.at_ .queued ⟨nofun, nofun⟩ id).mp queued]
  rfl

theorem drained_lasting (reached : (machine pg).Reachable state) (draining : state.worker.pc = .draining batchSize)
    (path : (machine pg).Path (SparesSince pg state.cluster.clock) state events final) (gone : final.cluster.tables.queue = [])
    {id : Int} (queued : id ∈ state.cluster.tables.queueIds) : final.cluster.tables.resultIds.count id = 1 := by
  have idle := (reachable_settled reached).stage (by simp [draining])
  have start : Cluster.Lasting state.cluster.clock [id] state.cluster := by
    refine ⟨le_rfl, by rw [idle]; exact nofun, by rw [idle]; exact nofun, ?_⟩
    intro other member
    cases List.mem_singleton.mp member
    exact .inl queued
  have both : (machine pg).Reachable final ∧ Cluster.Lasting state.cluster.clock [id] final.cluster := by
    apply path.preserves (fun later => (machine pg).Reachable later ∧ Cluster.Lasting state.cluster.clock [id] later.cluster)
      ?_ ⟨reached, start⟩
    intro before event after spares taken both
    exact ⟨both.1.next trivial taken, step_lasting both.2 both.1 spares taken⟩
  obtain ⟨later, lasting⟩ := both
  apply List.count_eq_one_of_mem (Cluster.reachable_sound (reachable_cluster later)).resultOnce
  rcases lasting.there id (by simp) with still | ⟨row, stored, same, _⟩
  · simp [Tables.queueIds, gone] at still
  · exact List.mem_map.mpr ⟨row, stored, same⟩

private theorem drained_queue (counted : Counted pg batchSize n noted final) (waits : final.worker.pc = .waiting) :
    final.cluster.tables.queue = [] := by
  have idle := (reachable_settled counted.known.reached).stage (by simp [waits])
  have none : final.cluster.rounds batchSize = 0 := counted.cleared (by simp only [ending, waits])
  have bound := (ceilDiv_le_iff_le_mul batchSize.positive).mp none.le
  rw [Nat.mul_zero, Cluster.left_untaken (by rw [idle]; rfl)] at bound
  exact List.length_eq_zero_iff.mp (Nat.le_zero.mp bound)

/-- A drain dequeues the smallest ids that are left and ends only on an empty queue.
Where nothing is enqueued and no error occurs it does so after as many batches as
the queue has room for, and has then answered every call. -/
theorem drain_exact (reached : (machine pg).Reachable state) (draining : state.worker.pc = .draining batchSize)
    (flag : state.worker.sigterm = false) (path : (machine pg).Path Drains state events final) :
    (∀ batch ∈ batches pg state events, Cluster.Takes batchSize batch.found batch.rows) ∧
    (final.worker.pc = .waiting → ∃ earlier, batches pg state events = earlier ++ [⟨[], []⟩] ∧
      ∀ batch ∈ earlier, batch.calls = true) ∧
    ((machine pg).Path (Unhindered pg) state events final →
      (final.worker.pc ≠ .waiting → ∃ event, event.works = true ∧ (step pg final event).isSome) ∧
      (final.worker.pc = .waiting ↔
        events.countP Event.works = 7 * (state.cluster.tables.queue.length ⌈/⌉ batchSize.value) + 5) ∧
      events.countP Event.works ≤ 7 * (state.cluster.tables.queue.length ⌈/⌉ batchSize.value) + 5 ∧
      (final.worker.pc = .waiting →
        (batches pg state events).countP Batch.calls = state.cluster.tables.queue.length ⌈/⌉ batchSize.value ∧
        final.cluster.tables.queue = [] ∧
        ∀ id ∈ state.cluster.tables.queueIds,
          (final.cluster.ledger.stored.count id = 1 ∧
            ∃ situation, situation ≠ .queued ∧ final.cluster.situated id situation) ∧
          ((machine pg).Path (SparesSince pg state.cluster.clock) state events final →
            final.cluster.tables.resultIds.count id = 1))) := by
  have noted := batches_noted reached draining flag path
  refine ⟨noted.takes, ?_, ?_⟩
  · intro waits
    have ends := noted.ends (by simp [waits])
    have last : ending final = true := by simp only [ending, waits]
    rwa [last] at ends
  intro unhindered
  have both := path.and unhindered
  have counted := batches_counted reached draining flag both
  have steps := ranked reached draining flag both
  have waiting_iff : final.worker.pc = .waiting ↔ rank final = 0 := by
    constructor
    · exact rank_waiting
    · intro none
      refine counted.stands.resolve_left fun inner => ?_
      exact absurd none (rank_pos inner).ne'
  refine ⟨?_, ?_, by omega, ?_⟩
  · intro inner
    obtain ⟨size, captured⟩ := Option.isSome_iff_exists.mp (counted.stands.resolve_right inner)
    exact inner_enabled pg captured
  · rw [waiting_iff]
    omega
  · intro waits
    have gone := drained_queue counted waits
    refine ⟨?_, gone, fun id queued => ⟨?_, fun spares => drained_lasting reached draining spares gone queued⟩⟩
    · have none : final.cluster.rounds batchSize = 0 := counted.cleared (by simp only [ending, waits])
      have rounds := counted.rounds
      omega
    · exact answered_once noted.reached (drained_called reached path queued) gone

end Drained

section Slow

private def one : BatchSize := ⟨1, by decide, by decide⟩

private def twoCalls : List Event :=
  [.configure ⟨one, "6 hours"⟩, .sighup] ++ boot 7 ++ enqueue 0 .sample ++ enqueue 0 .sample ++ awaken

/-- The second call takes longer than the interval for which results are kept. -/
private def slowly : List Event :=
  let joins : Worker.Joins := ⟨[7], [(7, .finished (.success .null))]⟩
  let second := pass false joins
  pass false joins ++ second.take 3 ++ [.tick 21600000001] ++ second.drop 3 ++ pass true joins

private def unhindered (state : State) (event : Event) : Bool :=
  state.worker.pc.captured.isSome && !(event matches .sigterm) && match step .sample state event with
  | some after => decide (after.worker.pc ≠ .exiting ∧ after.cluster.tables.queueIds ⊆ state.cluster.tables.queueIds)
  | none => true

private theorem unhindered_drains {state : State} {event : Event} (check : unhindered state event = true) :
    Drains state event := by
  obtain ⟨⟨inner, calm⟩, _⟩ := by simpa only [unhindered, Bool.and_eq_true] using check
  exact ⟨inner, by rintro rfl; cases calm⟩

private theorem unhindered_quiet {state : State} {event : Event} (check : unhindered state event = true) :
    Unhindered .sample state event := by
  obtain ⟨_, quiet⟩ := by simpa only [unhindered, Bool.and_eq_true] using check
  have each : ∀ after, step .sample state event = some after →
      after.worker.pc ≠ .exiting ∧ after.cluster.tables.queueIds ⊆ state.cluster.tables.queueIds := by
    intro after taken
    rw [taken] at quiet
    exact of_decide_eq_true quiet
  exact ⟨fun after taken => (each after taken).1, fun after taken => (each after taken).2⟩

private def slowEnd (state : State) : Bool :=
  decide (state.worker.pc = .draining one ∧ state.worker.sigterm = false ∧ state.cluster.tables.queueIds = [1, 2]) &&
    ((((machine .sample).guarded unhindered).run state slowly).map fun final =>
      decide (final.worker.pc = .waiting ∧ final.cluster.tables.resultIds = [])) == some true

private theorem slow_run : ∃ state final, (machine .sample).Reachable state ∧ state.worker.pc = .draining one ∧
    state.worker.sigterm = false ∧ state.cluster.tables.queueIds = [1, 2] ∧
    (machine .sample).Path Drains state slowly final ∧ (machine .sample).Path (Unhindered .sample) state slowly final ∧
    final.worker.pc = .waiting ∧ final.cluster.tables.resultIds = [] := by
  obtain ⟨state, _, reached, checked⟩ := (machine .sample).exists_of_run ⟨0, .default, rfl⟩ twoCalls slowEnd (by decide)
  obtain ⟨begins, ends⟩ := Bool.and_eq_true_iff.mp checked
  obtain ⟨draining, flag, queue⟩ := of_decide_eq_true begins
  obtain ⟨final, ran, same⟩ := Option.map_eq_some_iff.mp (beq_iff_eq.mp ends)
  obtain ⟨waits, results⟩ := of_decide_eq_true same
  have path := Machine.path_of_guarded ran
  exact ⟨state, final, reached, draining, flag, queue, path.weaken fun _ _ => unhindered_drains,
    path.weaken fun _ _ => unhindered_quiet, waits, results⟩

/-- Nothing disturbs the drain and it empties the queue, and its calls have no results
when it ends: those of the slow batch count from its beginning. -/
theorem drain_forgets : ∃ state final : State, (machine .sample).Reachable state ∧ state.worker.pc = .draining one ∧
    state.worker.sigterm = false ∧ (machine .sample).Path Drains state slowly final ∧
    (machine .sample).Path (Unhindered .sample) state slowly final ∧ final.worker.pc = .waiting ∧
    ¬ ∀ id ∈ state.cluster.tables.queueIds, final.cluster.tables.resultIds.count id = 1 := by
  obtain ⟨state, final, reached, draining, flag, queue, path, quiet, waits, results⟩ := slow_run
  refine ⟨state, final, reached, draining, flag, path, quiet, waits, ?_⟩
  rw [queue, results]
  decide

theorem drain_exact_slow : ∃ state final : State, state.cluster.tables.queueIds = [1, 2] ∧
    (batches .sample state slowly).countP Batch.calls = 2 ∧ final.cluster.tables.queue = [] ∧
    final.cluster.ledger.stored.count 1 = 1 := by
  obtain ⟨state, final, reached, draining, flag, queue, path, quiet, waits, _⟩ := slow_run
  obtain ⟨_, _, exact_⟩ := drain_exact reached draining flag path
  obtain ⟨_, _, _, drained⟩ := exact_ quiet
  obtain ⟨many, gone, answered⟩ := drained waits
  have two : state.cluster.tables.queue.length = 2 := by simpa [Tables.queueIds] using congrArg List.length queue
  rw [two] at many
  exact ⟨state, final, queue, many, gone, (answered 1 (by simp [queue])).1.1⟩

end Slow
end PgGrpc.Server
