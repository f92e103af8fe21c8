import PgGrpc.Proofs.Snapshots

/-! What `lookup` says of a call while the worker moves it. Its two selects may
see the tables at two different times. -/

namespace PgGrpc.Cluster
open Library Queue

/-- Anything that can happen while a backend is inside a statement of its own. -/
def Elsewhere (backend : BackendId) : Event → Prop
  | .session actor _ => actor ≠ backend
  | .restart => False
  | _ => True

instance (backend : BackendId) : DecidablePred (Elsewhere backend)
  | .session actor _ => inferInstanceAs (Decidable (actor ≠ backend))
  | .restart => inferInstanceAs (Decidable False)
  | .worker _ | .tick _ => inferInstanceAs (Decidable True)

/-- The answer is Pending, or the outcome that the first select read and that is still stored. -/
def Honest (first second : Tables) (stored : List ResultRow) (id : Int) : Prop :=
  (lookup first second id).status = .pending ∨
    ∃ row ∈ first.results, row.id = id ∧ row ∈ stored ∧ (lookup first second id).status = row.outcome

theorem honest_iff {first second : Tables} {stored : List ResultRow} {id : Int} (once : first.resultIds.Nodup)
    (kept : ∀ row ∈ first.results, row.id = id → row ∈ stored) :
    Honest first second stored id ↔ id ∈ first.resultIds ∨ id ∈ second.queueIds := by
  by_cases seen : id ∈ first.resultIds
  · obtain ⟨row, member, rfl⟩ := List.mem_map.mp seen
    refine iff_of_true (.inr ⟨row, member, rfl, kept row member rfl, ?_⟩) (.inl seen)
    rw [lookup_stored once member]
  · have unread : ¬ ∃ row ∈ first.results, row.id = id ∧ row ∈ stored ∧ (lookup first second id).status = row.outcome :=
      fun ⟨row, member, same, _⟩ => seen (same ▸ List.mem_map_of_mem member)
    rw [Honest, or_iff_left unread, or_iff_right seen, lookup_absent seen]
    split
    next waiting => exact iff_of_true rfl waiting
    next gone => exact iff_of_false nofun gone

theorem sessions_elsewhere {pg : Postgres} {backend : BackendId} {state after : State} {events : List Event}
    (path : (machine pg).Path (fun _ event => Elsewhere backend event) state events after) :
    after.sessions backend = state.sessions backend := by
  refine path.preserves (fun later => later.sessions backend = state.sessions backend) (fun before event later elsewhere taken same => ?_) rfl
  rw [← same]
  cases event with
  | session actor event => exact sessionStep_other taken (Ne.symm elsewhere)
  | worker event => rw [(workerStep_frame taken).sessions]
  | tick elapsed => cases taken; rfl
  | restart => exact elsewhere.elim

theorem live_call {state : State} {phases : Lifecycle.Phases} (tracks : Tracks state phases) {id : Int}
    (called : id ∈ state.ledger.called) (kept : id ∉ state.ledger.expired) (stayed : id ∉ state.ledger.vanished) :
    (id ∈ state.tables.queueIds ↔ id ∉ state.tables.resultIds) ∧ ∀ backend, id ∉ (state.sessions backend).ids := by
  have phase := (tracks.called id).mp called
  have queued := tracks.located.at_ .queued ⟨nofun, nofun⟩ id
  have stored := tracks.located.at_ .stored ⟨nofun, nofun⟩ id
  have expired := tracks.located.at_ .expired ⟨nofun, nofun⟩ id
  have vanished := tracks.located.at_ .vanished ⟨nofun, nofun⟩ id
  have own (backend : BackendId) := tracks.located.at_ (.open backend) ⟨nofun, nofun⟩ id
  simp only [State.holds] at queued stored expired vanished own
  cases here : phases id with
  | queued | stored => simp [queued, stored, own, here]
  | expired => exact absurd (expired.mpr here) kept
  | vanished => exact absurd (vanished.mpr here) stayed
  | unissued | «open» _ | prepared _ | abandoned => rw [here] at phase; cases phase

/-- `lookup` denies a live call when the worker stores its result between the two
selects, or when the calling statement is older than the call. -/
theorem lookup_honest_iff {pg : Postgres} {first second : State} {events : List Event} {backend : BackendId} {id : Int}
    (reached : (machine pg).Reachable first)
    (path : (machine pg).Path (fun _ event => Elsewhere backend event) first events second)
    (called : id ∈ second.ledger.called) (kept : id ∉ second.ledger.expired) (stayed : id ∉ second.ledger.vanished) :
    Honest (first.view backend) (second.view backend) second.tables.results id ↔
      if (first.sessions backend).hasXid then id ∈ second.tables.resultIds → id ∈ first.tables.resultIds
      else id ∈ (first.sessions backend).snapshot.queueIds ∨ id ∈ (first.sessions backend).snapshot.resultIds := by
  have same := sessions_elsewhere path
  have general : (machine pg).Path Machine.Any first events second := path.weaken fun _ _ _ => trivial
  obtain ⟨phases, tracks⟩ := reachable_tracks reached
  obtain ⟨later, tracked⟩ := reachable_tracks (reached.path general)
  obtain ⟨place, foreign⟩ := live_call tracked called kept stayed
  have still {before : Tables} (earlier : Earlier before second) :
      ∀ row ∈ before.results, row.id = id → row ∈ second.tables.results := fun row member here =>
    (earlier.results row member).resolve_right (here ▸ kept)
  cases holds : (first.sessions backend).hasXid with
  | true =>
    have now := (earlier_now tracks).path reached general
    have visible : id ∈ (second.view backend).queueIds ↔ id ∈ second.tables.queueIds := by
      rw [view_queueIds (same ▸ holds), List.mem_append, or_iff_left (foreign backend)]
    have once : (first.view backend).resultIds.Nodup := by
      rw [Tables.resultIds, view_results holds]
      exact tracks.sound.resultOnce
    rw [honest_iff once (by rw [view_results holds]; exact still now), visible, place, Tables.resultIds,
      view_results holds]
    simp only [if_true, Tables.resultIds]
    tauto
  | false =>
    have old := (reachable_snapshot reached backend).path reached general
    rw [view_reading holds, view_reading (same ▸ holds), same, honest_iff old.sound.resultOnce (still old)]
    simp only [Bool.false_eq_true, if_false, or_comm]

private def writing : List Event := [.session 1 .statement, .session 1 .write] ++ enqueue 0 .sample

private def answering : List Event :=
  cycle false .default ⟨[7], [(7, .finished (.success .null))]⟩ "6 hours"

private def live (calls : List Int) (state : State) : Bool :=
  decide (state.ledger.called = calls ∧ state.ledger.expired = [] ∧ state.ledger.vanished = [])

private def answersFirst : List Event :=
  [.worker (.execute ⟨[7], [(7, .finished (.success .null))]⟩), .worker .insert, .worker (.cleanup "6 hours"), .worker .commit]

/-- Between the two selects for the second of two calls, the worker commits the result of the first. -/
theorem lookup_honest_early : ∃ first second, (machine .sample).Reachable first ∧
    (machine .sample).run first answersFirst = some second ∧ second.tables.resultIds = [1] ∧
    Honest (first.view 1) (second.view 1) second.tables.results 2 := by
  obtain ⟨first, _, reached, checked⟩ := (machine .sample).exists_of_run ⟨0, rfl⟩
    (writing ++ [.worker .begin, .worker (.dequeue .default)] ++ enqueue 2 .sample)
    (fun first => match (machine .sample).run first answersFirst with
      | some second => live [1, 2] second && decide (second.tables.resultIds = [1] ∧ (first.sessions 1).hasXid = true)
      | none => false) (by decide)
  split at checked
  next second executed =>
    obtain ⟨alive, decided⟩ := Bool.and_eq_true_iff.mp checked
    obtain ⟨called, expired, vanished⟩ := of_decide_eq_true alive
    obtain ⟨results, holds⟩ := of_decide_eq_true decided
    have path := Machine.path_of_run (Elsewhere 1) (by decide) executed
    refine ⟨first, second, reached, executed, results, (lookup_honest_iff reached path ?_ ?_ ?_).mpr ?_⟩
    · simp [called]
    · simp [expired]
    · simp [vanished]
    · simp [holds, results]
  next => cases checked

private def denies (first second : State) : Bool :=
  match (lookup (first.view 1) (second.view 1) 1).status with
  | .error text => text == notFound
  | _ => false

/-- The worker commits the result between the two selects of a session that has
written: the first one is too early for the result, the second too late for the queue. -/
theorem lookup_denies : ∃ first second events, (machine .sample).Reachable first ∧
    (machine .sample).Path (fun _ event => Elsewhere 1 event) first events second ∧ 1 ∈ second.ledger.called ∧
    1 ∉ second.ledger.expired ∧ 1 ∉ second.ledger.vanished ∧ (first.sessions 1).hasXid = true ∧
    1 ∈ second.tables.resultIds ∧ (lookup (first.view 1) (second.view 1) 1).status = .error notFound := by
  obtain ⟨first, _, reached, checked⟩ := (machine .sample).exists_of_run ⟨0, rfl⟩ writing
    (fun first => match (machine .sample).run first answering with
      | some second => live [1] second && decide (second.tables.resultIds = [1] ∧ (first.sessions 1).hasXid = true) &&
        denies first second
      | none => false) (by decide)
  split at checked
  next second executed =>
    obtain ⟨both, denied⟩ := Bool.and_eq_true_iff.mp checked
    obtain ⟨alive, decided⟩ := Bool.and_eq_true_iff.mp both
    obtain ⟨called, expired, vanished⟩ := of_decide_eq_true alive
    obtain ⟨results, holds⟩ := of_decide_eq_true decided
    refine ⟨first, second, answering, reached, Machine.path_of_run (Elsewhere 1) (by decide) executed, by simp [called],
      by simp [expired], by simp [vanished], holds, by simp [results], ?_⟩
    unfold denies at denied
    split at denied
    next text status => rw [status, beq_iff_eq.mp denied]
    next => cases denied
  next => cases checked

end PgGrpc.Cluster
