import PgGrpc.Proofs.Refinement

/-! No call is lost, answered twice or left in two tables, whatever commits, rolls
back or fails in between. The refinement gives every id one phase; here the
phases are read back as the contents of the two tables. -/

namespace PgGrpc.Cluster
open Library Lifecycle

inductive Situation where
  | queued
  | stored
  | expired
  | vanished
deriving DecidableEq

def Situation.phase : Situation → Phase
  | .queued => .queued
  | .stored => .stored
  | .expired => .expired
  | .vanished => .vanished

/-- The rows of the two tables, and the clean-ups, that make up a situation. -/
def State.situated (state : State) (id : Int) : Situation → Prop
  | .queued => state.tables.queueIds.count id = 1 ∧ state.tables.resultIds.count id = 0
  | .stored => state.tables.queueIds.count id = 0 ∧ state.tables.resultIds.count id = 1
  | .expired => state.tables.queueIds.count id = 0 ∧ state.tables.resultIds.count id = 0 ∧ id ∈ state.ledger.expired
  | .vanished => state.tables.queueIds.count id = 0 ∧ state.tables.resultIds.count id = 0 ∧ id ∈ state.ledger.vanished

instance (state : State) (id : Int) (situation : Situation) : Decidable (state.situated id situation) := by
  cases situation <;> exact inferInstanceAs (Decidable (_ ∧ _))

namespace Tracks
variable {state : State} {phases : Phases} {id : Int}

private theorem count {ids : List Int} (once : ids.Nodup) (id : Int) (n : Nat) :
    ids.count id = n ↔ (n = 1 ∧ id ∈ ids) ∨ (n = 0 ∧ id ∉ ids) := by
  rw [once.count]
  split <;> grind

theorem situated_iff (tracks : Tracks state phases) (situation : Situation) :
    state.situated id situation ↔ phases id = situation.phase := by
  have queued := tracks.located.at_ .queued ⟨nofun, nofun⟩ id
  have stored := tracks.located.at_ .stored ⟨nofun, nofun⟩ id
  have expired := tracks.located.at_ .expired ⟨nofun, nofun⟩ id
  have vanished := tracks.located.at_ .vanished ⟨nofun, nofun⟩ id
  have inQueue := count (tracks.located.once .queued ⟨nofun, nofun⟩) id
  have inResults := count (tracks.located.once .stored ⟨nofun, nofun⟩) id
  simp only [State.holds] at queued stored expired vanished inQueue inResults
  cases situation <;> simp only [State.situated, Situation.phase, inQueue, inResults] <;> grind

theorem one_situation (tracks : Tracks state phases) (called : id ∈ state.ledger.called) :
    ∃! situation, state.situated id situation := by
  have phase := (tracks.called id).mp called
  have unique (situation : Situation) (here : phases id = situation.phase) :
      ∃! situation, state.situated id situation := by
    refine ⟨situation, (tracks.situated_iff situation).mpr here, fun other there => ?_⟩
    have same := here.symm.trans ((tracks.situated_iff other).mp there)
    revert same
    cases situation <;> cases other <;> simp [Situation.phase]
  cases here : phases id with
  | queued => exact unique .queued here
  | stored => exact unique .stored here
  | expired => exact unique .expired here
  | vanished => exact unique .vanished here
  | unissued | «open» _ | prepared _ | abandoned => rw [here] at phase; cases phase

theorem abandoned_nowhere (tracks : Tracks state phases) (abandoned : id ∈ state.ledger.abandoned) :
    id ∉ state.tables.queueIds ∧ id ∉ state.tables.resultIds := by
  have phase := tracks.abandoned id abandoned
  constructor
  · intro member
    cases phase.symm.trans ((tracks.located.at_ .queued ⟨nofun, nofun⟩ id).mp member)
  · intro member
    cases phase.symm.trans ((tracks.located.at_ .stored ⟨nofun, nofun⟩ id).mp member)

end Tracks

/-- The clean-up of the step, if it is one, does not look into the future: its
`ttl` is not a negative interval. -/
def TtlNotNegative (pg : Postgres) (state : State) : Event → Prop
  | .worker (.cleanup ttl) =>
    ∀ tx, state.worker.tx? = some tx → ∀ bound, pg.cutoff tx.start ttl = some bound → bound ≤ tx.start
  | _ => True

/-- The worker's own results are as young as its transaction, so that its clean-up keeps them. -/
def StageKeeps : Stage → Prop
  | .idle => True
  | .begun tx | .dequeued tx _ | .executed tx _ => tx.inserted = []
  | .inserted tx => ∀ row ∈ tx.inserted, row.created = tx.start
  | .cleaned tx _ => ∀ row ∈ tx.inserted, row.id ∉ tx.expired

private theorem cleanup_keeps {pg : Postgres} {state : State} {phases : Phases} {tx cleaned : Tx} {ttl : String}
    {warning : Option String} {drained : Bool} (tracks : Tracks state phases) (ready : Cleanable state tx drained)
    (young : ∀ row ∈ tx.inserted, row.created = tx.start)
    (timely : ∀ bound, pg.cutoff tx.start ttl = some bound → bound ≤ tx.start)
    (ran : Queue.ttlCleanup pg state.tables tx ttl = .ok (cleaned, warning)) :
    StageKeeps (.cleaned cleaned drained) := by
  obtain ⟨hand, fresh⟩ := tracks.worker.hand ready
  obtain ⟨bound, cutoff, same⟩ := (Queue.ttlCleanup_ok ..).mp ran
  cases same
  intro row own gone
  rw [fresh, List.nil_append] at gone
  obtain ⟨other, old, sameId⟩ := List.mem_map.mp gone
  obtain ⟨visible, before⟩ := List.mem_filter.mp old
  rcases List.mem_append.mp (List.mem_of_mem_filter visible) with committed | inserted
  · have stored := (tracks.located.at_ .stored ⟨nofun, nofun⟩ row.id).mp (sameId ▸ List.mem_map_of_mem committed)
    cases stored.symm.trans (hand.inserted_queued (List.mem_map_of_mem own))
  · have late : other.created < bound := by simpa using before
    rw [young other inserted] at late
    exact absurd late (not_lt.mpr (timely bound cutoff))

private theorem workerStep_keeps {pg : Postgres} {state after : State} {phases : Phases} {event : WorkerEvent}
    (tracks : Tracks state phases) (timely : TtlNotNegative pg state (.worker event))
    (taken : workerStep pg state event = some after)
    (kept : StageKeeps state.worker ∧ state.ledger.vanished = []) :
    StageKeeps after.worker ∧ after.ledger.vanished = [] := by
  obtain ⟨keeps, none⟩ := kept
  cases workerStep_cases taken with
  | begin idle => exact ⟨rfl, none⟩
  | dequeue begun => rw [begun] at keeps; exact ⟨keeps, none⟩
  | execute dequeued nonempty covers => rw [dequeued] at keeps; exact ⟨keeps, none⟩
  | @insert tx results stored executed ran =>
    rw [executed] at keeps
    refine ⟨?_, none⟩
    by_cases nonempty : results = []
    · subst nonempty
      cases ran
      intro row member
      rw [show tx.inserted = [] from keeps] at member
      cases member
    · obtain ⟨_, _, _, rfl⟩ := (Queue.insertResults_ok pg state.tables tx nonempty stored).mp ran
      intro row member
      rw [show tx.inserted = [] from keeps, List.nil_append] at member
      obtain ⟨result, _, rfl⟩ := List.mem_map.mp member
      rfl
  | @cleanup ttl tx drained cleaned warning ready ran =>
    refine ⟨cleanup_keeps tracks ready ?_ (timely tx ?_) ran, none⟩
    · cases ready with
      | drained empty => rw [empty] at keeps; simp [show tx.inserted = [] from keeps]
      | stored inserted => rw [inserted] at keeps; exact keeps
    · cases ready with
      | drained opened | stored opened => rw [opened]; rfl
  | @commit tx drained cleaned =>
    rw [cleaned] at keeps
    refine ⟨trivial, ?_⟩
    have removed : (tx.inserted.map ResultRow.id).filter (fun id => tx.expired.contains id) = [] := by
      simp only [List.filter_eq_nil_iff, List.contains_eq_mem, decide_eq_true_eq, List.forall_mem_map]
      exact keeps
    simp only [State.commitWorker, none, removed, List.append_nil]
  | insertError _ _ | cleanupError _ _ | fail _ => exact ⟨trivial, none⟩

theorem reaches_keeps {pg : Postgres} {state : State} (reached : (machine pg).Reaches (TtlNotNegative pg) state) :
    StageKeeps state.worker ∧ state.ledger.vanished = [] := by
  refine reached.invariant (fun state => StageKeeps state.worker ∧ state.ledger.vanished = []) ?_ ?_
  · intro start begins
    obtain ⟨clock, rfl⟩ := begins
    exact ⟨trivial, rfl⟩
  · intro before event after earlier timely taken kept
    obtain ⟨phases, tracks⟩ := reachable_tracks earlier
    cases event with
    | session backend event =>
      have frame := sessionStep_frame taken
      rw [frame.worker, frame.vanished]
      exact kept
    | worker event => exact workerStep_keeps tracks timely taken kept
    | tick elapsed => cases taken; exact kept
    | restart => cases taken; exact ⟨trivial, kept.2⟩

/-- With no negative `ttl` no result is removed before it was ever committed. -/
theorem none_vanished {pg : Postgres} {state : State} (reached : (machine pg).Reaches (TtlNotNegative pg) state) :
    state.ledger.vanished = [] := (reaches_keeps reached).2

/-- Every called id is in exactly one situation, an abandoned one is in no table,
and nothing is answered twice; a result can only vanish under a negative `ttl`. -/
theorem calls_conserved {pg : Postgres} {state : State} (reached : (machine pg).Reachable state) :
    (∀ id ∈ state.ledger.called, ∃! situation, state.situated id situation) ∧
      (∀ id ∈ state.ledger.abandoned, id ∉ state.tables.queueIds ∧ id ∉ state.tables.resultIds) ∧
      (∀ id, state.ledger.stored.count id ≤ 1) ∧
      ((machine pg).Reaches (TtlNotNegative pg) state → ∀ id, ¬ state.situated id .vanished) := by
  obtain ⟨phases, tracks⟩ := reachable_tracks reached
  refine ⟨fun id called => tracks.one_situation called, fun id abandoned => tracks.abandoned_nowhere abandoned,
    fun id => List.nodup_iff_count_le_one.mp tracks.storedOnce id, fun timely id vanished => ?_⟩
  have member := vanished.2.2
  rw [none_vanished timely] at member
  cases member

private def storing (ttl : String) : List Event :=
  enqueue 0 .sample ++ cycle false .default ⟨[7], [(7, .finished (.success .null))]⟩ ttl

theorem calls_conserved_default :
    ∃ state, (machine .sample).Reachable state ∧
      state.tables.resultIds = [1] ∧ ∃! situation, state.situated 1 situation := by
  obtain ⟨state, _, reached, checked⟩ := (machine .sample).exists_of_run ⟨0, rfl⟩
    (storing "6 hours") (fun state => decide (state.ledger.called = [1] ∧ state.tables.resultIds = [1])) (by decide)
  obtain ⟨called, stored⟩ := of_decide_eq_true checked
  exact ⟨state, reached, stored, (calls_conserved reached).1 1 (by simp [called])⟩

/-- Under a negative `ttl` the transaction that stores a result removes it again,
and the call is in none of the situations but the last. -/
theorem call_vanishes :
    ∃ state, (machine .sample).Reachable state ∧
      ∃ id ∈ state.ledger.called, ¬ ∃ situation, situation ≠ .vanished ∧ state.situated id situation := by
  obtain ⟨state, _, reached, checked⟩ := (machine .sample).exists_of_run ⟨0, rfl⟩
    (storing "-1 day") (fun state => decide (state.ledger.called = [1] ∧ state.tables.queueIds = [] ∧
      state.tables.resultIds = [] ∧ state.ledger.expired = [])) (by decide)
  obtain ⟨called, queue, results, expired⟩ := of_decide_eq_true checked
  refine ⟨state, reached, 1, by simp [called], ?_⟩
  intro conserved
  obtain ⟨situation, kept, here⟩ := conserved
  cases situation <;> simp [State.situated, queue, results, expired] at here kept

end PgGrpc.Cluster
