import PgGrpc.Proofs.Drain
import PgGrpc.Proofs.Lookup

/-! The polling loop of `grpc_call_result`. While it waits, its session stands
still and only the worker and the clock move; what a poll can ever see is
decided by the transaction that polls. -/

namespace PgGrpc.Cluster
open Library Queue

/-- A running worker, time and further polls can lead to a poll that ends the loop. -/
def Ends (pg : Postgres) (batchSize : BatchSize) (ttl : String) (state : State) (backend : BackendId) (id : Int) : Prop :=
  Comes pg batchSize ttl state fun after => (lookup (after.view backend) (after.view backend) id).status ≠ .pending

/-- A poll returns the result that is committed by now, whatever its second select would see. -/
def Sees (state : State) (backend : BackendId) (id : Int) : Prop :=
  ∀ row ∈ state.tables.results, row.id = id →
    row ∈ (state.view backend).results ∧ ∀ second, lookup (state.view backend) second id = ⟨id, row.outcome⟩

section Poll
variable {pg : Postgres} {batchSize : BatchSize} {ttl : String} {state after : State} {backend : BackendId} {id : Int}

theorem Works.elsewhere {event : Event} (works : Works batchSize ttl event) (backend : BackendId) :
    Elsewhere backend event := by
  cases event with
  | session _ _ | restart => exact works.elim
  | worker _ | tick _ => trivial

private theorem waits_still {events : List Event}
    (path : (machine pg).Path (fun _ event => Works batchSize ttl event) state events after) (backend : BackendId) :
    after.sessions backend = state.sessions backend :=
  sessions_elsewhere (path.weaken fun _ _ works => works.elsewhere backend)

theorem view_once (reached : (machine pg).Reachable state) (backend : BackendId) :
    (state.view backend).resultIds.Nodup := by
  cases holds : (state.sessions backend).hasXid with
  | true => rw [Tables.resultIds, view_results holds]; exact (reachable_sound reached).resultOnce
  | false => rw [view_reading holds]; exact (reachable_snapshot reached backend).sound.resultOnce

/-- A transaction that has written sees every commit, but its own calls wait for its own end. -/
theorem ends_writing (reached : (machine pg).Reachable state) (running : Running pg batchSize ttl)
    (writing : (state.sessions backend).hasXid = true) :
    Ends pg batchSize ttl state backend id ↔ id ∉ (state.sessions backend).ids := by
  constructor
  · intro ends own
    obtain ⟨events, after, path, ended⟩ := ends
    have same := waits_still path backend
    have later := reached.path (path.weaken fun _ _ _ => trivial)
    obtain ⟨phases, tracks⟩ := reachable_tracks later
    rw [← same] at own writing
    refine ended ((lookup_pending (view_once later backend)).mpr ⟨fun stored => ?_, ?_⟩)
    · rw [Tables.resultIds, view_results writing] at stored
      have first := (tracks.located.at_ .stored ⟨by simp, by simp⟩ id).mp stored
      have second := (tracks.located.at_ (.open backend) ⟨by simp, by simp⟩ id).mp own
      cases first.symm.trans second
    · rw [view_queueIds writing]
      exact List.mem_append_right _ own
  · intro foreign
    refine (comes_drained running reached).then fun middle events path empty => .now fun pending => ?_
    have same := waits_still path backend
    rw [← same] at foreign writing
    have waiting := ((lookup_pending (view_once (reached.path (path.weaken fun _ _ _ => trivial)) backend)).mp pending).2
    rw [view_queueIds writing, Tables.queueIds, empty] at waiting
    exact foreign (by simpa using waiting)

/-- A transaction that has not written sees its statement's snapshot for as long as it polls. -/
theorem ends_reading (reached : (machine pg).Reachable state) (reading : (state.sessions backend).hasXid = false) :
    Ends pg batchSize ttl state backend id ↔
      (id ∈ (state.sessions backend).snapshot.queueIds → id ∈ (state.sessions backend).snapshot.resultIds) := by
  have once := view_once reached backend
  rw [view_reading reading] at once
  have poll : (lookup (state.sessions backend).snapshot (state.sessions backend).snapshot id).status ≠ .pending ↔
      (id ∈ (state.sessions backend).snapshot.queueIds → id ∈ (state.sessions backend).snapshot.resultIds) := by
    rw [ne_eq, lookup_pending once]
    tauto
  rw [← poll]
  constructor
  · intro ends
    obtain ⟨events, after, path, ended⟩ := ends
    have same := waits_still path backend
    rwa [view_reading (same ▸ reading), same] at ended
  · intro ended
    exact .now (by rwa [view_reading reading])

theorem sees_iff (reached : (machine pg).Reachable state) :
    Sees state backend id ↔ (id ∈ state.tables.resultIds → id ∈ (state.view backend).resultIds) := by
  have once := view_once reached backend
  constructor
  · intro sees stored
    obtain ⟨row, member, same⟩ := List.mem_map.mp stored
    exact same ▸ List.mem_map_of_mem (sees row member same).1
  · intro shown row member named
    subst named
    have same : row ∈ (state.view backend).results := by
      cases holds : (state.sessions backend).hasXid with
      | true => rwa [view_results holds]
      | false =>
        obtain ⟨phases, tracks⟩ := reachable_tracks reached
        obtain ⟨old, among, sameId⟩ := List.mem_map.mp (shown (List.mem_map_of_mem member))
        rw [view_reading holds] at among ⊢
        have still : old ∈ state.tables.results := by
          refine ((reachable_snapshot reached backend).results old among).resolve_right fun gone => ?_
          have first := (tracks.located.at_ .expired ⟨nofun, nofun⟩ old.id).mp gone
          have second := (tracks.located.at_ .stored ⟨nofun, nofun⟩ row.id).mp (List.mem_map_of_mem member)
          rw [sameId] at first
          cases first.symm.trans second
        rwa [← List.inj_on_of_nodup_map (reachable_sound reached).resultOnce still member sameId]
    exact ⟨same, fun second => lookup_stored once same second⟩

end Poll

/-- The wait can end, and sees what is committed, exactly in a transaction that has
written but not enqueued the call itself, or in a statement that began with the
result in its snapshot or with no trace of the call. -/
theorem blocking_wait_iff {pg : Postgres} {batchSize : BatchSize} {ttl : String} {state : State}
    (reached : (machine pg).Reachable state) (running : Running pg batchSize ttl) (backend : BackendId) (id : Int) :
    Ends pg batchSize ttl state backend id ∧ Sees state backend id ↔
      if (state.sessions backend).hasXid then id ∉ (state.sessions backend).ids
      else id ∈ (state.sessions backend).snapshot.resultIds ∨
        id ∉ (state.sessions backend).snapshot.queueIds ∧ id ∉ state.tables.resultIds := by
  rw [sees_iff reached]
  cases holds : (state.sessions backend).hasXid with
  | true =>
    rw [ends_writing reached running holds, Tables.resultIds, Tables.resultIds, view_results holds]
    simp
  | false =>
    rw [ends_reading reached holds, view_reading holds]
    simp only [Bool.false_eq_true, if_false]
    tauto

private theorem sample_running : Running .sample .default "6 hours" where
  cleanup _ := rfl
  errors _ _ := rfl

theorem blocking_wait_writing : ∃ state, (machine .sample).Reachable state ∧ state.tables.queueIds = [1] ∧
    Ends .sample .default "6 hours" state 1 1 ∧ Sees state 1 1 := by
  obtain ⟨state, _, reached, checked⟩ := (machine .sample).exists_of_run ⟨0, rfl⟩
    ([.session 1 .statement, .session 1 .write] ++ enqueue 0 .sample)
    (fun state => decide (state.tables.queueIds = [1] ∧ (state.sessions 1).hasXid = true ∧
      (state.sessions 1).ids = [])) (by decide)
  obtain ⟨queue, writing, own⟩ := of_decide_eq_true checked
  refine ⟨state, reached, queue, (blocking_wait_iff reached sample_running 1 1).mpr ?_⟩
  simp [writing, own]

/-- The wait never ends in a statement that began before the result, although the
result is committed, nor in the transaction that enqueued the call. -/
theorem blocking_wait_stuck :
    (∃ state, (machine .sample).Reachable state ∧ (state.sessions 1).hasXid = false ∧ 1 ∈ state.tables.resultIds ∧
      ¬ Ends .sample .default "6 hours" state 1 1 ∧ ¬ Sees state 1 1) ∧
    ∃ state, (machine .sample).Reachable state ∧ (state.sessions 0).hasXid = true ∧
      ¬ Ends .sample .default "6 hours" state 0 1 := by
  constructor
  · obtain ⟨state, _, reached, checked⟩ := (machine .sample).exists_of_run ⟨0, rfl⟩
      (enqueue 0 .sample ++ [.session 1 .statement] ++
        cycle false .default ⟨[7], [(7, .finished (.success .null))]⟩ "6 hours")
      (fun state => decide (state.tables.resultIds = [1] ∧ (state.sessions 1).hasXid = false ∧
        (state.sessions 1).snapshot.queueIds = [1] ∧ (state.sessions 1).snapshot.resultIds = [])) (by decide)
    obtain ⟨stored, reading, queue, results⟩ := of_decide_eq_true checked
    refine ⟨state, reached, reading, by simp [stored], ?_, ?_⟩
    · rw [ends_reading reached reading, queue, results]
      decide
    · rw [sees_iff reached, view_reading reading, stored, results]
      decide
  · obtain ⟨state, _, reached, checked⟩ := (machine .sample).exists_of_run ⟨0, rfl⟩
      [.session 0 .statement, .session 0 (.call .sample)]
      (fun state => decide ((state.sessions 0).hasXid = true ∧ (state.sessions 0).ids = [1])) (by decide)
    obtain ⟨writing, own⟩ := of_decide_eq_true checked
    refine ⟨state, reached, writing, ?_⟩
    rw [ends_writing reached sample_running writing, own]
    decide

end PgGrpc.Cluster
