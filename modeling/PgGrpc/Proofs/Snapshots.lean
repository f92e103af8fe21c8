import PgGrpc.Proofs.Refinement

/-! Old snapshots. A result never changes once it is committed, so that what a
snapshot shows is still there unless the clean-up has expired it. -/

namespace PgGrpc.Cluster
open Library

/-- The tables as they were at some earlier time of the state's run. -/
structure Earlier (before : Tables) (state : State) : Prop where
  sound : before.Sound
  called : ∀ id ∈ before.queueIds, id ∈ state.ledger.called
  results : ∀ row ∈ before.results, row ∈ state.tables.results ∨ row.id ∈ state.ledger.expired

theorem earlier_now {state : State} {phases : Lifecycle.Phases} (tracks : Tracks state phases) :
    Earlier state.tables state where
  sound := tracks.sound
  called id member := by
    rw [tracks.called, (tracks.located.at_ .queued ⟨nofun, nofun⟩ id).mp member]
    rfl
  results _ member := .inl member

theorem earlier_empty (state : State) : Earlier ⟨[], []⟩ state := ⟨⟨.nil, .nil, nofun⟩, nofun, nofun⟩

section View
variable {state : State} {backend : BackendId}

theorem view_reading (reading : (state.sessions backend).hasXid = false) :
    state.view backend = (state.sessions backend).snapshot := by
  simp [State.view, reading]

theorem view_results (writing : (state.sessions backend).hasXid = true) :
    (state.view backend).results = state.tables.results := by
  simp [State.view, writing]

theorem view_queueIds (writing : (state.sessions backend).hasXid = true) :
    (state.view backend).queueIds = state.tables.queueIds ++ (state.sessions backend).ids := by
  simp [State.view, writing, Tables.queueIds, Session.ids]

end View

namespace Earlier
variable {before : Tables} {state after : State}

private theorem advance (earlier : Earlier before state) (called : state.ledger.called ⊆ after.ledger.called)
    (expired : state.ledger.expired ⊆ after.ledger.expired)
    (results : ∀ row ∈ state.tables.results, row ∈ after.tables.results ∨ row.id ∈ after.ledger.expired) :
    Earlier before after :=
  ⟨earlier.sound, fun id member => called (earlier.called id member), fun row member =>
    (earlier.results row member).elim (results row) fun gone => .inr (expired gone)⟩

private theorem commit {phases : Lifecycle.Phases} (earlier : Earlier before state) (tracks : Tracks state phases)
    {tx : Tx} {drained : Bool} (cleaned : state.worker = .cleaned tx drained) :
    Earlier before (state.commitWorker tx) := by
  have stage := tracks.worker
  rw [cleaned] at stage
  refine earlier.advance (List.Subset.refl _) (List.subset_append_left _ _) fun row member => ?_
  by_cases gone : row.id ∈ tx.expired
  · refine .inr (List.mem_append_right _ (List.mem_filter.mpr ⟨gone, ?_⟩))
    have stored := (tracks.located.at_ .stored ⟨nofun, nofun⟩ row.id).mp (List.mem_map_of_mem member)
    have foreign : row.id ∉ tx.inserted.map ResultRow.id := fun own =>
      nomatch stored.symm.trans (stage.1.inserted_queued own)
    simpa using foreign
  · exact .inl (List.mem_filter.mpr ⟨List.mem_append_left _ member, by simpa using gone⟩)

theorem step {pg : Postgres} {phases : Lifecycle.Phases} {event : Event} (earlier : Earlier before state)
    (tracks : Tracks state phases) (taken : step pg state event = some after) : Earlier before after := by
  cases event with
  | session backend event =>
    have frame := sessionStep_frame taken
    refine earlier.advance frame.called (by rw [frame.expired]; exact List.Subset.refl _) fun row member => ?_
    rw [frame.results]
    exact .inl member
  | worker event =>
    cases workerStep_cases taken with
    | commit cleaned => exact earlier.commit tracks cleaned
    | _ => exact { earlier with }
  | tick elapsed | restart => cases taken; exact { earlier with }

theorem path {pg : Postgres} {allowed : State → Event → Prop} {events : List Event} (earlier : Earlier before state)
    (reached : (machine pg).Reachable state) (path : (machine pg).Path allowed state events after) :
    Earlier before after := by
  induction path with
  | nil => exact earlier
  | cons permitted taken _ ih =>
    obtain ⟨phases, tracks⟩ := reachable_tracks reached
    exact ih (earlier.step tracks taken) (reached.next trivial taken)

end Earlier

private theorem step_snapshot {pg : Postgres} {state after : State} {event : Event}
    (taken : step pg state event = some after) (backend : BackendId) :
    (after.sessions backend).snapshot = (state.sessions backend).snapshot ∨
      (after.sessions backend).snapshot = state.tables ∨ (after.sessions backend).snapshot = ⟨[], []⟩ := by
  cases event with
  | session actor event =>
    by_cases other : backend = actor
    · subst other
      cases event <;> simp only [step, sessionStep] at taken
      all_goals
        repeat' split at taken
        all_goals cases taken
        all_goals simp [Session.endXact]
    · exact .inl (by rw [sessionStep_other taken other])
  | worker event => exact .inl (by rw [(workerStep_frame taken).sessions])
  | tick elapsed => cases taken; exact .inl rfl
  | restart => cases taken; exact .inr (.inr rfl)

theorem reachable_snapshot {pg : Postgres} {state : State} (reached : (machine pg).Reachable state)
    (backend : BackendId) : Earlier (state.sessions backend).snapshot state := by
  refine reached.invariant (fun state => ∀ backend, Earlier (state.sessions backend).snapshot state) ?_ ?_ backend
  · intro start begins backend
    obtain ⟨clock, rfl⟩ := begins
    exact earlier_empty _
  · intro before event after reached _ taken kept backend
    obtain ⟨phases, tracks⟩ := reachable_tracks reached
    rcases step_snapshot taken backend with same | now | gone
    · rw [same]; exact (kept backend).step tracks taken
    · rw [now]; exact (earlier_now tracks).step tracks taken
    · rw [gone]; exact earlier_empty after

end PgGrpc.Cluster
