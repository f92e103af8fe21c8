import PgGrpc.Proofs.DrainResults
import PgGrpc.Proofs.LostWakeup

/-! Every committed call is answered in the end. Wherever the worker, its restart and
the backends on their way out of a commit stand, what they have left to do is a
number; each of their steps lowers it, and only where nothing is left can they stop. -/

namespace PgGrpc.Server
open Library Queue
open Cluster (BackendId SessionEvent Stage)

/-- A step of the worker, of the postmaster that starts it, or of a backend on its
way out of a commit. -/
def Event.serves : Event → Bool
  | .run | .statement _ | .start _ | .storeFlag _ | .readLatch _ | .setLatch _ => true
  | _ => false

/-- Nothing commits calls, raises an error in the worker or signals it; the sessions may
do anything else, time passes and the settings change. -/
def Calm (pg : Postgres) (state : State) : Event → Prop
  | .session backend event =>
    Lifetime state (.session backend event) ∧ Cluster.signals state.cluster (.session backend event) = false
  | .statement statement => ∀ after, step pg state (.statement statement) = some after → after.worker.pc ≠ .exiting
  | .fail | .lockWait | .sigterm | .sighup | .restart => False
  | _ => True

/-- What is left of the round the worker is in, the rows, the flag and the latch apart. -/
def round : Pc → Stage → Nat
  | .waiting, _ => 0
  | .swapping, _ | .hooked, _ => 1
  | .reloading, _ | .connected, _ => 2
  | .woken, _ | .connecting, _ => 3
  | .starting, _ => 4
  | .draining _, _ => 5
  | .dead, _ => 9
  | .clearing, _ => 10
  | .released, _ => 16
  | .exiting, _ => 17
  | .passing _, .idle => 4
  | .passing _, .begun _ => 3
  | .passing _, .dequeued _ rows => if rows.isEmpty then 2 else 9
  | .passing _, .executed _ _ => 8
  | .passing _, .inserted _ => 7
  | .passing _, .cleaned _ drained => if drained then 1 else 6

section Work
variable {pg : Postgres} {state after : State} {backends : Finset BackendId}

theorem Calm.sparing {event : Event} (calm : Calm pg state event) : Sparing state event := by
  cases event with
  | session => exact ⟨calm.1, by simp⟩
  | fail | lockWait | sigterm | sighup | restart => exact calm.elim
  | _ => exact ⟨trivial, by simp⟩

/-- What a change of one backend makes of a sum over several. -/
theorem setWaking_sum (weight : Waking → Nat) {backend : BackendId} {before : Waking}
    (stands : state.waking backend = before) (member : backend ∈ backends) (waking : Waking) :
    ∑ other ∈ backends, weight ((state.setWaking backend waking).waking other) + weight before =
      ∑ other ∈ backends, weight (state.waking other) + weight waking := by
  have others : ∑ other ∈ backends.erase backend, weight ((state.setWaking backend waking).waking other) =
      ∑ other ∈ backends.erase backend, weight (state.waking other) :=
    Finset.sum_congr rfl fun other apart => by rw [setWaking_other _ (Finset.ne_of_mem_erase apart)]
  have own : (state.setWaking backend waking).waking backend = waking := if_pos rfl
  rw [← Finset.add_sum_erase _ _ member, ← Finset.add_sum_erase (a := backend) _ _ member, others, own, stands]
  omega

/-- No error is ahead of the worker: clean-ups run, failed calls can be stored, and so
can the answers in hand. -/
structure Spared (pg : Postgres) (state : State) : Prop where
  file : ∀ now, (pg.cutoff now state.file.ttl).isSome
  postmaster : ∀ now, (pg.cutoff now state.postmaster.ttl).isSome
  loaded : ∀ now, (pg.cutoff now state.worker.loaded.ttl).isSome
  errors : ∀ n ≤ state.cluster.tables.queue.length, pg.arraysFit (List.replicate n Cluster.unavailableOutcome) = true
  hand : ∀ tx results, state.cluster.worker = .executed tx results → Storable pg (results.map CallResult.outcome)

theorem Spared.keep (spared : Spared pg state) (file : after.file = state.file)
    (postmaster : after.postmaster = state.postmaster)
    (loaded : after.worker.loaded ∈ [state.worker.loaded, state.file, state.postmaster])
    (queue : after.cluster.tables.queue.length ≤ state.cluster.tables.queue.length)
    (hand : ∀ tx results, after.cluster.worker = .executed tx results → Storable pg (results.map CallResult.outcome)) :
    Spared pg after where
  file := by rw [file]; exact spared.file
  postmaster := by rw [postmaster]; exact spared.postmaster
  loaded := by
    simp only [List.mem_cons, List.not_mem_nil, or_false] at loaded
    rcases loaded with same | same | same <;> rw [same]
    · exact spared.loaded
    · exact spared.file
    · exact spared.postmaster
  errors n short := spared.errors n (short.trans queue)
  hand := hand

end Work

end PgGrpc.Server
