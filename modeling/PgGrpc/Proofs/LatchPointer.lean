import PgGrpc.Proofs.ServerSteps

/-! The published latch pointer. The exit of a worker gives its process slot back
first and clears the pointer last, and the lock around the pointer covers neither
the slot nor the use of what was read. -/

namespace PgGrpc.Server
open Library Queue
open Cluster (BackendId SessionEvent Stage)

/-- The next `SetLatch` of every backend goes to the latch of a worker process that
has not given its slot back. -/
def LatchLive (state : State) : Prop :=
  ∀ backend slot, state.waking backend = .read (some slot) → state.worker.pc.holdsSlot = true ∧ state.worker.slot = slot

/-- A pointer is read only while the process that published it holds its slot, and a
slot is given back only while no backend is between its read and its `SetLatch`. -/
def SlotGuarded (state : State) (event : Event) : Prop :=
  (∀ backend, event = .readLatch backend → state.workerLatch.isSome → state.worker.pc.holdsSlot = true) ∧
    (event = .run → state.worker.pc = .exiting → ∀ backend slot, state.waking backend ≠ .read (some slot))

/-- Where the process stands that has published its latch: it serves, or its exit
has still to clear the pointer. -/
def Pc.published (worker : WorkerProcess) : Prop :=
  worker.pc.serves = true ∨ ((worker.pc = .exiting ∨ worker.pc = .released) ∧ worker.exitHook = true) ∨ worker.pc = .clearing

private theorem holds_of_serves {pc : Pc} (serves : pc.serves = true) : pc.holdsSlot = true := by
  cases pc <;> first | rfl | cases serves

def PointsAtWorker (state : State) : Prop :=
  ∀ slot, state.workerLatch = some slot → state.worker.slot = slot ∧ Pc.published state.worker

private theorem run_points {state after : State} (settled : Settled state) (ran : Run state after)
    (points : PointsAtWorker state) : PointsAtWorker after := by
  have hooked := settled.exitHook
  cases ran <;> intro slot published
  case clearLatch | clear => cases published
  case storeLatch => exact ⟨Option.some.inj published, .inl rfl⟩
  all_goals
    obtain ⟨same, stands⟩ := points slot published
    refine ⟨same, ?_⟩
    simp_all [Pc.published, Pc.serves, State.goto]

private theorem afterStatement_ends (batchSize : BatchSize) (before after : Stage) :
    (afterStatement batchSize before after).serves = true ∨ afterStatement batchSize before after = .exiting := by
  unfold afterStatement
  split
  case h_3 => exact .inr rfl
  all_goals exact .inl rfl

theorem step_points {pg : Postgres} {state after : State} {event : Event} (settled : Settled state)
    (taken : step pg state event = some after) (points : PointsAtWorker state) : PointsAtWorker after := by
  cases step_cases taken with
  | run ran => exact run_points settled ran points
  | start dead wanted =>
    intro slot published
    have stands := (points slot published).2
    simp [Pc.published, dead, Pc.serves] at stands
  | @statement batchSize statement cluster passing moved =>
    intro slot published
    have hooked := settled.exitHook (.inl (by rw [passing]; rfl))
    refine ⟨(points slot published).1, ?_⟩
    rcases afterStatement_ends batchSize state.cluster.worker cluster.worker with serves | exits
    · exact .inl serves
    · exact .inr (.inl ⟨.inl exits, hooked⟩)
  | fail alive =>
    intro slot published
    obtain ⟨same, stands⟩ := points slot published
    rcases stands with serves | ⟨exiting | released, _⟩ | clearing
    · exact ⟨same, .inr (.inl ⟨.inl rfl, settled.exitHook (.inl serves)⟩)⟩
    · rw [exiting] at alive; cases alive
    · rw [released] at alive; cases alive
    · rw [clearing] at alive; cases alive
  | restart dead =>
    intro slot published
    cases published
  | _ => exact points

theorem reachable_points {pg : Postgres} {allowed : State → Event → Prop} {state : State}
    (reached : (machine pg).Reaches allowed state) : PointsAtWorker state := by
  apply reached.invariant PointsAtWorker
  · intro start begins
    obtain ⟨clock, file, rfl⟩ := begins
    exact nofun
  · exact fun before event after earlier _ taken points => step_points (reachable_settled earlier) taken points

private theorem Run.holds {state after : State} (ran : Run state after) (holds : state.worker.pc.holdsSlot = true)
    (stays : state.worker.pc ≠ .exiting) : after.worker.pc.holdsSlot = true ∧ after.worker.slot = state.worker.slot := by
  cases ran <;> simp_all [State.goto, Pc.holdsSlot]

private theorem waking_setWaking {state : State} {backend other : BackendId} {waking : Waking} {slot : Slot}
    (read : (state.setWaking backend waking).waking other = .read (some slot)) :
    (other = backend ∧ waking = .read (some slot)) ∨ state.waking other = .read (some slot) := by
  by_cases same : other = backend
  · exact .inl ⟨same, by simpa [State.setWaking, same] using read⟩
  · exact .inr ((setWaking_other waking same).symm.trans read)

theorem step_live {pg : Postgres} {state after : State} {event : Event} (points : PointsAtWorker state)
    (guarded : SlotGuarded state event) (taken : step pg state event = some after) (live : LatchLive state) :
    LatchLive after := by
  intro other slot read
  cases step_cases taken with
  | session idle moved =>
    rcases waking_setWaking read with ⟨_, new⟩ | old
    · split at new <;> cases new
    · exact live other slot old
  | storeFlag committed | setLatch paused =>
    rcases waking_setWaking read with ⟨_, new⟩ | old
    · cases new
    · exact live other slot old
  | @readLatch backend stored =>
    rcases waking_setWaking read with ⟨_, new⟩ | old
    · have published : state.workerLatch = some slot := by simpa using new
      exact ⟨guarded.1 backend rfl (by simp [published]), (points slot published).1⟩
    · exact live other slot old
  | start dead wanted =>
    have holds := (live other slot read).1
    rw [dead] at holds
    cases holds
  | run ran =>
    rw [ran.waking] at read
    obtain ⟨holds, same⟩ := live other slot read
    obtain ⟨still, kept⟩ := ran.holds holds fun exiting => guarded.2 rfl exiting other slot read
    exact ⟨still, kept.trans same⟩
  | @statement batchSize statement cluster passing moved =>
    refine ⟨?_, (live other slot read).2⟩
    rcases afterStatement_ends batchSize state.cluster.worker cluster.worker with serves | exits
    · exact holds_of_serves serves
    · exact congrArg Pc.holdsSlot exits
  | fail alive => exact ⟨rfl, (live other slot read).2⟩
  | restart dead => cases read
  | _ => exact live other slot read

/-- In every run in which no backend reads the pointer after the slot is gone, and no
slot goes while a backend holds what it read, every `SetLatch` finds its latch. -/
theorem latch_live {pg : Postgres} {state : State} (reached : (machine pg).Reaches SlotGuarded state) :
    LatchLive state := by
  apply reached.invariant LatchLive
  · intro start begins
    obtain ⟨clock, file, rfl⟩ := begins
    exact nofun
  · exact fun before event after earlier permitted taken live => step_live (reachable_points earlier) permitted taken live

private def slotGuarded (state : State) : Event → Bool
  | .readLatch _ => state.worker.pc.holdsSlot
  | .run => state.worker.pc ≠ .exiting
  | _ => true

private theorem slotGuarded_of_check (state : State) (event : Event) (check : slotGuarded state event = true) :
    SlotGuarded state event := by
  constructor
  · rintro backend rfl _
    exact check
  · rintro rfl exiting
    simp [slotGuarded, exiting] at check

/-- A backend that has committed a call and stored the flag; the pointer comes next. -/
private def pausing : List Event := boot 7 ++ (enqueue 0 .sample).take 4

theorem latch_live_reading : ∃ state, (machine .sample).Reaches SlotGuarded state ∧ state.waking 0 = .read (some 7) ∧
    state.worker.pc.holdsSlot = true ∧ state.worker.slot = 7 := by
  obtain ⟨state, _, reached, checked⟩ := (machine .sample).exists_allowed slotGuarded slotGuarded_of_check
    ⟨0, .default, rfl⟩ (pausing ++ [.readLatch 0]) (fun state => state.waking 0 = .read (some 7)) (by decide)
  have read := of_decide_eq_true checked
  exact ⟨state, reached, read, latch_live reached 0 7 read⟩

/-- The backend reads the pointer of a process whose exit has released the slot, or it
read the pointer before and sets the latch after. -/
theorem latch_dangles :
    (∃ state after, (machine .sample).run (.fresh 0 .default) (pausing ++ [.fail, .run, .readLatch 0]) = some state ∧
      state.waking 0 = .read (some 7) ∧ state.worker.pc.holdsSlot = false ∧
      step .sample state (.setLatch 0) = some after) ∧
    ∃ state after, (machine .sample).run (.fresh 0 .default) (pausing ++ [.readLatch 0, .fail, .run]) = some state ∧
      state.waking 0 = .read (some 7) ∧ state.worker.pc.holdsSlot = false ∧
      step .sample state (.setLatch 0) = some after := by
  have dangles (events : List Event) (executed : ((machine .sample).run (.fresh 0 .default) events).map (fun state =>
      decide (state.waking 0 = .read (some 7) ∧ state.worker.pc.holdsSlot = false)) = some true) :
      ∃ state after, (machine .sample).run (.fresh 0 .default) events = some state ∧
        state.waking 0 = .read (some 7) ∧ state.worker.pc.holdsSlot = false ∧
        step .sample state (.setLatch 0) = some after := by
    obtain ⟨state, found, _, checked⟩ := (machine .sample).exists_of_run ⟨0, .default, rfl⟩ events _ executed
    obtain ⟨read, released⟩ := of_decide_eq_true checked
    exact ⟨state, (state.setLatch (some 7)).setWaking 0 .idle, found, read, released, by simp only [step, read]⟩
  exact ⟨dangles _ (by decide), dangles _ (by decide)⟩

end PgGrpc.Server
