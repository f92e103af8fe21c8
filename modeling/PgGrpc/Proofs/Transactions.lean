import PgGrpc.Proofs.Delivery
import PgGrpc.Proofs.Executions

/-! The worker opens no transaction without a reason. Every transaction is paid for by
a result that an earlier one has stored, by a commit that signals the worker, or by the
start of a worker; a credit in the state carries what has not been spent. -/

namespace PgGrpc.Server
open Library Queue
open Cluster (BackendId SessionEvent Stage)

inductive Charge where
  /-- The worker opens a transaction. -/
  | transaction
  /-- A commit runs the callback that wakes the worker. -/
  | signal
  | start
deriving DecidableEq

def charge (state : State) : Event → Option Charge
  | .statement .begin => some .transaction
  | .session backend event => if Cluster.signals state.cluster (.session backend event) then some .signal else none
  | .start _ => some .start
  | _ => none

/-- The transactions, signals and starts of a run, in order. -/
def charges (pg : Postgres) (state : State) (events : List Event) : List Charge :=
  (machine pg).observed charge state events

/-- A process stores the flag at its exit, and a drain still has to find the queue empty. -/
def credit : Pc → Stage → Nat
  | .dead, _ | .clearing, _ => 0
  | .draining _, _ | .passing _, .idle => 2
  | _, _ => 1

def Waking.credit : Waking → Nat
  | .committed => 1
  | _ => 0

def State.credit (state : State) (backends : Finset BackendId) : Nat :=
  state.shouldWake.toNat + Server.credit state.worker.pc state.cluster.worker +
    ∑ backend ∈ backends, (state.waking backend).credit

/-- A transaction that is not the last of its drain has made calls. -/
def Carries : Stage → Prop
  | .executed tx results => (Stage.executed tx results).made ≠ []
  | .inserted tx => (Stage.inserted tx).made ≠ []
  | .cleaned tx drained => drained = false → (Stage.cleaned tx drained).made ≠ []
  | _ => True

structure Paid (noted : List Charge) (state : State) : Prop where
  carries : Carries state.cluster.worker
  balance : ∀ backends, noted.count .transaction + state.credit backends ≤
    state.cluster.ledger.stored.length + noted.count .signal + noted.count .start

section Charges
variable {pg : Postgres} {state after : State} {noted : List Charge}

private theorem Paid.step (paid : Paid noted state) (charged : List Charge) (carries : Carries after.cluster.worker)
    (waking : after.waking = state.waking)
    (covered : charged.count .transaction + (after.shouldWake.toNat + credit after.worker.pc after.cluster.worker) +
        state.cluster.ledger.stored.length ≤
      state.shouldWake.toNat + credit state.worker.pc state.cluster.worker + after.cluster.ledger.stored.length +
        charged.count .signal + charged.count .start) : Paid (noted ++ charged) after where
  carries := carries
  balance backends := by
    have before := paid.balance backends
    simp only [State.credit, waking, List.count_append] at before ⊢
    omega

private theorem Paid.wakes {shouldWake : Bool} {worker : WorkerProcess} {cluster : Cluster.State} {backend : BackendId}
    {before waking : Waking} (paid : Paid noted state) (charged : List Charge) (stands : state.waking backend = before)
    (stage : cluster.worker = state.cluster.worker) (stored : cluster.ledger.stored = state.cluster.ledger.stored)
    (pc : worker.pc = state.worker.pc) (none : charged.count .transaction = 0)
    (covered : shouldWake.toNat + waking.credit ≤ state.shouldWake.toNat + before.credit + charged.count .signal) :
    Paid (noted ++ charged) (({ state with shouldWake, worker, cluster } : State).setWaking backend waking) where
  carries := by
    have same : (({ state with shouldWake, worker, cluster } : State).setWaking backend waking).cluster.worker =
        state.cluster.worker := stage
    rw [same]
    exact paid.carries
  balance backends := by
    have before := paid.balance (insert backend backends)
    have sum := setWaking_sum Waking.credit stands (Finset.mem_insert_self backend backends) waking
    have part := Finset.sum_le_sum_of_subset (f := fun other => ((state.setWaking backend waking).waking other).credit)
      (Finset.subset_insert backend backends)
    simp only [State.credit, State.setWaking, List.count_append, stage, stored, pc] at before sum part ⊢
    omega

private theorem run_paid (settled : Settled state) (paid : Paid noted state) (ran : Run state after) :
    Paid (noted ++ []) after := by
  refine paid.step [] (ran.cluster ▸ paid.carries) ran.waking ?_
  have idle : state.cluster.worker = .idle := settled.stage ran.outside
  rw [ran.cluster, idle]
  cases ran with
  | take stands pending =>
    simp [State.goto, credit, stands, pending]
  | storeFlag stands =>
    simp [State.goto, credit, stands]
  | clearLatch stands | connect stands | storeLatch stands | skip stands | release stands | vanish stands | clear stands
  | hook stands | stay stands | reload stands | pass stands | leave stands | break_ stands | wake stands =>
    simp [State.goto, credit, stands]

private theorem statement_paid {batchSize : BatchSize} {statement : Statement} {cluster : Cluster.State}
    (passing : state.worker.pc = .passing batchSize) (paid : Paid noted state)
    (moved : Cluster.WorkerMove pg state.cluster (statement.event batchSize state.worker.loaded.ttl) cluster) :
    Paid (noted ++ (charge state (.statement statement)).toList)
      (({ state with cluster } : State).goto (afterStatement batchSize state.cluster.worker cluster.worker)) := by
  have carries := paid.carries
  cases statement with
  | begin =>
    cases moved with
    | begin idle =>
      refine paid.step _ trivial rfl ?_
      simp [charge, State.goto, afterStatement, credit, passing, idle]
      omega
  | dequeue =>
    cases moved with
    | dequeue begun =>
      refine paid.step _ trivial rfl ?_
      simp [charge, State.goto, afterStatement, credit, passing, begun]
  | execute joins =>
    cases moved with
    | @execute _ tx rows dequeued nonempty covers =>
      have made : Worker.collect rows joins ≠ [] := Worker.collect_nonempty covers nonempty
      refine paid.step _ (by simpa [State.goto, Carries, Stage.made] using made) rfl ?_
      simp [charge, State.goto, afterStatement, credit, passing, dequeued]
  | insert =>
    cases moved with
    | @insert tx results stored executed ran =>
      have made : results ≠ [] := by simpa [executed, Carries, Stage.made] using carries
      obtain ⟨_, _, _, rfl⟩ := (insertResults_ok pg state.cluster.tables tx made stored).mp ran
      refine paid.step _ (by simp [State.goto, Carries, Stage.made, made]) rfl ?_
      simp [charge, State.goto, afterStatement, credit, passing, executed]
    | insertError executed failed =>
      refine paid.step _ trivial rfl ?_
      simp [charge, State.goto, afterStatement, credit, passing, executed]
  | cleanup =>
    cases moved with
    | @cleanup _ tx drained cleaned warning ready ran =>
      obtain ⟨bound, _, same⟩ := (ttlCleanup_ok ..).mp ran
      cases same
      cases ready with
      | drained empty =>
        refine paid.step _ (by simp [State.goto, Carries]) rfl ?_
        simp [charge, State.goto, afterStatement, credit, passing, empty]
      | stored inserted =>
        refine paid.step _ ?_ rfl ?_
        · simpa [State.goto, Carries, Stage.made, inserted] using carries
        · simp [charge, State.goto, afterStatement, credit, passing, inserted]
    | cleanupError ready failed =>
      refine paid.step _ trivial rfl ?_
      cases ready with
      | drained stands | stored stands => simp [charge, State.goto, afterStatement, credit, passing, stands]
  | commit =>
    cases moved with
    | @commit tx drained cleaned =>
      refine paid.step _ trivial rfl ?_
      cases drained with
      | true => simp [charge, State.goto, afterStatement, credit, passing, cleaned, Cluster.State.commitWorker]
      | false =>
        -- What the transaction has stored pays for the next one of its drain.
        have made : 0 < tx.inserted.length := by
          have kept : tx.inserted ≠ [] := by simpa [cleaned, Carries, Stage.made] using carries
          exact List.length_pos_of_ne_nil kept
        simp [charge, State.goto, afterStatement, credit, passing, cleaned, Cluster.State.commitWorker]
        omega

private theorem step_paid {event : Event} (settled : Settled state) (taken : step pg state event = some after)
    (paid : Paid noted state) : Paid (noted ++ (charge state event).toList) after := by
  cases step_cases taken with
  | @session backend event cluster idle moved =>
    have stage := (Cluster.sessionStep_frame moved).worker
    have stored := Cluster.sessionStep_stored moved
    cases signals : Cluster.signals state.cluster (.session backend event) with
    | true => exact paid.wakes _ idle stage stored rfl (by simp [charge, signals]) (by simp [charge, signals, Waking.credit])
    | false => exact paid.wakes _ idle stage stored rfl (by simp [charge, signals]) (by simp [charge, signals, Waking.credit])
  | storeFlag committed =>
    exact paid.wakes _ committed rfl rfl rfl rfl (by simp [Waking.credit]; omega)
  | readLatch stored => exact paid.wakes _ stored rfl rfl rfl rfl (by simp [Waking.credit])
  | setLatch read => exact paid.wakes _ read rfl rfl rfl rfl (by simp [Waking.credit])
  | start dead wanted => exact paid.step _ paid.carries rfl (by simp [charge, credit, dead]; omega)
  | run ran => exact run_paid settled paid ran
  | statement passing moved => exact statement_paid passing paid (Cluster.workerStep_cases moved)
  | fail alive =>
    refine paid.step _ trivial rfl ?_
    have enough : 1 ≤ credit state.worker.pc state.cluster.worker := by
      revert alive
      unfold credit
      split <;> simp_all [Pc.alive]
    change 0 + (state.shouldWake.toNat + 1) + state.cluster.ledger.stored.length ≤
      state.shouldWake.toNat + credit state.worker.pc state.cluster.worker + state.cluster.ledger.stored.length + 0 + 0
    omega
  | lockWait | sigterm | reread | sighup | configure | tick => exact paid.step _ paid.carries rfl (by simp [charge])
  | restart dead =>
    refine ⟨trivial, fun backends => ?_⟩
    have before := paid.balance backends
    simp only [State.credit, charge, Option.toList_none, List.append_nil, Bool.toNat_false, credit, Waking.credit,
      Finset.sum_const_zero] at before ⊢
    omega

end Charges

/-- The worker never polls the tables: over a whole run it opens at most one transaction for each
result stored, each commit that signals it and each start of a worker process. -/
theorem transactions_paid {pg : Postgres} {start final : State} {events : List Event}
    (initial : (machine pg).initial start) (executed : (machine pg).run start events = some final) :
    (charges pg start events).count .transaction ≤ final.cluster.ledger.stored.length +
      (charges pg start events).count .signal + (charges pg start events).count .start := by
  have path := Machine.path_of_run (fun _ => True) (fun _ _ => trivial) executed
  have paid : (machine pg).Reachable final ∧ Paid ([] ++ charges pg start events) final := by
    refine path.observed (fun noted state => (machine pg).Reachable state ∧ Paid noted state) ?_ ?_
    · intro noted before event after _ taken kept
      exact ⟨kept.1.next trivial taken, step_paid (reachable_settled kept.1) taken kept.2⟩
    · refine ⟨.start initial, ?_⟩
      obtain ⟨clock, file, rfl⟩ := initial
      exact ⟨trivial, fun backends => by simp [State.credit, State.fresh, credit, Waking.credit]⟩
  have balance := paid.2.balance ∅
  simp only [List.nil_append] at balance
  omega

theorem transactions_paid_one : ∃ start final events, (machine .sample).initial start ∧
    (machine .sample).run start events = some final ∧ (charges .sample start events).count .transaction = 2 ∧
    2 ≤ final.cluster.ledger.stored.length + (charges .sample start events).count .signal +
      (charges .sample start events).count .start := by
  let events := boot 7 ++ enqueue 0 .sample ++ awaken ++ pass false ⟨[1], [(1, .finished (.success .null))]⟩ ++
    pass true ⟨[], []⟩
  have begins : (machine .sample).initial (.fresh 0 .default) := ⟨0, .default, rfl⟩
  have count : (charges .sample (.fresh 0 .default) events).count .transaction = 2 := by decide
  obtain ⟨final, executed⟩ : ∃ final, (machine .sample).run (.fresh 0 .default) events = some final :=
    Option.isSome_iff_exists.mp (by decide)
  have bound := transactions_paid begins executed
  rw [count] at bound
  exact ⟨_, final, events, begins, executed, count, bound⟩

end PgGrpc.Server
