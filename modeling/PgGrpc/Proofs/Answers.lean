import PgGrpc.Proofs.Conservation
import PgGrpc.Proofs.Snapshots

/-! What one poll after another says of a call. An answer once given is given again,
until the clean-up has removed it; from then on there is none. -/

namespace PgGrpc.Cluster
open Library Lifecycle Queue

/-- What a poll says that sees the committed tables. -/
def State.poll (state : State) (id : Int) : LookupStatus := (lookup state.tables state.tables id).status

/-- A clean-up has removed the result. -/
def State.gone (state : State) (id : Int) : Prop := id ∈ state.ledger.expired ∨ id ∈ state.ledger.vanished

section Polls
variable {pg : Postgres} {state after final : State} {phases : Phases} {id : Int}

theorem poll_queued (tracks : Tracks state phases) (queued : phases id = .queued) : state.poll id = .pending := by
  have waits : id ∈ state.tables.queueIds := (tracks.located.at_ .queued ⟨by simp, by simp⟩ id).mpr queued
  have absent : id ∉ state.tables.resultIds := tracks.sound.apart id waits
  rw [State.poll, lookup_absent absent, if_pos waits]

theorem poll_stored (tracks : Tracks state phases) {row : ResultRow} (stored : row ∈ state.tables.results) :
    state.poll row.id = row.outcome := by
  rw [State.poll, lookup_stored tracks.sound.resultOnce stored]

theorem poll_gone (tracks : Tracks state phases) (gone : state.gone id) : state.poll id = .error notFound := by
  have phase : phases id = .expired ∨ phases id = .vanished :=
    gone.imp (tracks.located.at_ .expired ⟨by simp, by simp⟩ id).mp (tracks.located.at_ .vanished ⟨by simp, by simp⟩ id).mp
  have unlisted (place : Phase) (there : phases id = place) : place = .expired ∨ place = .vanished := there ▸ phase
  have absent : id ∉ state.tables.resultIds := by
    intro stored
    have only := unlisted .stored ((tracks.located.at_ .stored ⟨by simp, by simp⟩ id).mp stored)
    simp at only
  have unqueued : id ∉ state.tables.queueIds := by
    intro queued
    have only := unlisted .queued ((tracks.located.at_ .queued ⟨by simp, by simp⟩ id).mp queued)
    simp at only
  rw [State.poll, lookup_absent absent, if_neg unqueued]

private theorem step_gone {event : Event} (taken : step pg state event = some after) (gone : state.gone id) : after.gone id := by
  cases event with
  | session backend event =>
    rw [step] at taken
    have frame := sessionStep_frame taken
    rw [State.gone, frame.expired, frame.vanished]
    exact gone
  | worker event =>
    cases workerStep_cases taken with
    | commit cleaned => exact gone.imp (List.mem_append_left _) (List.mem_append_left _)
    | begin | dequeue | execute | insert | insertError | cleanup | cleanupError | fail => exact gone
  | tick elapsed | restart => cases taken; exact gone

/-- Where one poll of a committed call has an answer, every later one has the same, or the
clean-up has removed the result and no poll has an answer any more. -/
theorem answers_settle {events : List Event} (reached : (machine pg).Reachable state) (called : id ∈ state.ledger.called)
    (executed : (machine pg).run state events = some final) (answered : state.poll id ≠ .pending) :
    (final.poll id = state.poll id ∨ final.gone id) ∧ (final.gone id → final.poll id = .error notFound) ∧
      (state.gone id → final.gone id) := by
  have path := Machine.path_of_run (fun _ => True) (fun _ _ => trivial) executed
  obtain ⟨phases, tracks⟩ := reachable_tracks reached
  obtain ⟨later, tracked⟩ := reachable_tracks (reached.path (path.weaken fun _ _ _ => trivial))
  have stays : state.gone id → final.gone id :=
    path.preserves (fun state => state.gone id) fun _ _ _ _ taken => step_gone taken
  refine ⟨?_, poll_gone tracked, stays⟩
  obtain ⟨situation, here, _⟩ := tracks.one_situation called
  have phase := (tracks.situated_iff situation).mp here
  cases situation with
  | queued => exact absurd (poll_queued tracks phase) answered
  | stored =>
    have member := (tracks.located.at_ .stored ⟨by simp, by simp⟩ id).mpr phase
    obtain ⟨row, stored, rfl⟩ := List.mem_map.mp member
    refine (((earlier_now tracks).path reached path).results row stored).imp (fun still => ?_) .inl
    rw [poll_stored tracked still, poll_stored tracks stored]
  | expired => exact .inr (stays (.inl here.2.2))
  | vanished => exact .inr (stays (.inr here.2.2))

end Polls

private def firstAnswer : List Event :=
  enqueue 0 .sample ++ cycle false .default ⟨[7], [(7, .finished (.success .null))]⟩ "6 hours"

private def succeeded (state : State) : Bool :=
  match state.poll 1 with
  | .success _ => state.ledger.called == [1]
  | _ => false

theorem answers_settle_stored : ∃ state final : State, (machine .sample).Reachable state ∧ succeeded state = true ∧
    final.ledger.called = [1, 2] ∧ (final.poll 1 = state.poll 1 ∨ final.gone 1) := by
  obtain ⟨state, ran, reached, checked⟩ := (machine .sample).exists_of_run ⟨0, rfl⟩ firstAnswer succeeded (by decide)
  have executed : ((machine .sample).run { clock := 0 } (firstAnswer ++ enqueue 1 .sample)).map (fun final => final.ledger.called) =
      some [1, 2] := by decide
  rw [Machine.run_append, ran, Option.bind_some] at executed
  obtain ⟨final, later, calls⟩ := Option.map_eq_some_iff.mp executed
  have answered : state.poll 1 ≠ .pending := by
    intro pending
    simp [succeeded, pending] at checked
  have called : 1 ∈ state.ledger.called := by
    unfold succeeded at checked
    split at checked
    next => simp [beq_iff_eq.mp checked]
    next => cases checked
  exact ⟨state, final, reached, checked, calls, (answers_settle reached called later answered).1⟩

end PgGrpc.Cluster
