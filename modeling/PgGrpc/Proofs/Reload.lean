import PgGrpc.Proofs.ServerSteps

/-! When a reload of the configuration reaches the batches. The flag of a SIGHUP is
read in the outer loop only, and the batch size there as well; a drain goes on with
what was in force when it began. -/

namespace PgGrpc.Server
open Library Queue
open Cluster (Stage)

/-- The step takes over settings: those of the file, at the reload that a SIGHUP asks for
or at a restart, or those of the postmaster, at the start of a process. -/
inductive Reads (state : State) : Event → Prop where
  | reload (reloading : state.worker.pc = .reloading) (flag : state.worker.sighup = true) : Reads state .run
  | start (slot : Slot) : Reads state (.start slot)
  | restart : Reads state .restart

/-- Every batch that begins after the delivery of a SIGHUP is dequeued and cleaned up
with settings that were read from the file after that delivery, by the process
itself or by the postmaster before it started that. -/
def Honoured (pg : Postgres) (start : State) (events : List Event) : Prop :=
  ∀ first second third delivered current batchSize, events = first ++ .sighup :: second ++ .statement .begin :: third →
    (machine pg).run start (first ++ [.sighup]) = some delivered → (machine pg).run delivered second = some current →
    current.worker.pc = .passing batchSize →
    ∃ earlier waiting reading later read middle, second = earlier ++ waiting ++ reading :: later ∧
      (machine pg).run delivered earlier = some read ∧ read.file = ⟨batchSize, current.worker.loaded.ttl⟩ ∧
      (machine pg).run read waiting = some middle ∧ Reads middle reading ∧ (waiting = [] ∨ ∃ slot, reading = .start slot)

/-- No batch begins while a delivered SIGHUP has not been looked at. -/
def BeginsUnflagged (state : State) (event : Event) : Prop := event = .statement .begin → state.worker.sighup = false

section Flag
variable {pg : Postgres} {state after : State} {event : Event}

/-- A read clears the flag, and what it takes over is the file or, at the start of a
process, what the postmaster has read. -/
theorem Reads.loads (reads : Reads state event) (taken : step pg state event = some after) :
    after.worker.sighup = false ∧ (after.worker.loaded = state.file ∨
      (∃ slot, event = .start slot) ∧ after.worker.loaded = state.postmaster) := by
  cases reads with
  | reload reloading flag =>
    simp only [step, run, reloading, flag, if_true] at taken
    cases taken
    exact ⟨rfl, .inl rfl⟩
  | start slot =>
    cases step_cases taken with
    | start => exact ⟨rfl, .inr ⟨⟨slot, rfl⟩, rfl⟩⟩
  | restart =>
    cases step_cases taken with
    | restart => exact ⟨rfl, .inl rfl⟩

theorem Reads.outside (reads : Reads state event) (taken : step pg state event = some after) (batchSize : BatchSize) :
    state.worker.pc ≠ .passing batchSize := by
  intro passing
  cases reads with
  | reload reloading => cases passing.symm.trans reloading
  | start slot =>
    cases step_cases taken with
    | start dead => cases passing.symm.trans dead
  | restart =>
    cases step_cases taken with
    | restart dead => cases passing.symm.trans dead

theorem unread_kept (unread : ¬ Reads state event) (taken : step pg state event = some after) :
    after.worker.loaded = state.worker.loaded ∧ (state.worker.sighup = true → after.worker.sighup = true) := by
  cases step_cases taken with
  | start => exact absurd (.start _) unread
  | restart => exact absurd .restart unread
  | sighup => exact ⟨rfl, fun _ => rfl⟩
  | run ran =>
    cases ran with
    | reload reloading =>
      have clear : state.worker.sighup = false := by
        by_contra flag
        exact unread (.reload reloading (by simpa using flag))
      simp [clear]
    | _ => exact ⟨rfl, id⟩
  | _ => exact ⟨rfl, id⟩

theorem unread_dead (unread : ¬ Reads state event) (taken : step pg state event = some after)
    (dead : state.worker.pc = .dead) : after.worker.pc = .dead := by
  cases step_cases taken with
  | start => exact absurd (.start _) unread
  | run ran => cases ran <;> simp_all
  | statement passing => cases dead.symm.trans passing
  | fail alive => simp [dead, Pc.alive] at alive
  | restart => rfl
  | _ => exact dead

theorem step_postmaster (taken : step pg state event = some after) :
    after.postmaster = state.postmaster ∨ after.postmaster = after.file := by
  cases step_cases taken with
  | reread | sighup | restart => exact .inr rfl
  | run ran => cases ran <;> exact .inl rfl
  | _ => exact .inl rfl

theorem step_unflagged (taken : step pg state event = some after) (other : event ≠ .sighup)
    (clear : state.worker.sighup = false) : after.worker.sighup = false := by
  cases step_cases taken with
  | start | restart => rfl
  | reread | sighup => exact absurd rfl other
  | run ran => cases ran <;> first | exact clear | rfl
  | _ => exact clear

/-- The batch size of a drain is the one of the settings in force. -/
def Captured (state : State) : Prop :=
  ∀ batchSize, state.worker.pc = .draining batchSize ∨ state.worker.pc = .passing batchSize →
    batchSize = state.worker.loaded.batchSize

private theorem afterStatement_size {batchSize size : BatchSize} {before later : Stage}
    (stands : afterStatement batchSize before later = .draining size ∨ afterStatement batchSize before later = .passing size) :
    size = batchSize := by
  unfold afterStatement at stands
  split at stands <;> simp_all

theorem step_captured (taken : step pg state event = some after) (captured : Captured state) : Captured after := by
  cases step_cases taken with
  | run ran => cases ran <;> simp_all [Captured, State.goto]
  | statement passing moved =>
    intro size stands
    rw [afterStatement_size stands]
    exact captured _ (.inr passing)
  | start | fail | restart => intro size stands; rcases stands with stands | stands <;> cases stands
  | _ => exact captured

theorem reachable_captured {allowed : State → Event → Prop} (reached : (machine pg).Reaches allowed state) :
    Captured state := by
  apply reached.invariant Captured
  · intro start begins
    obtain ⟨clock, file, rfl⟩ := begins
    intro size stands
    rcases stands with stands | stands <;> cases stands
  · exact fun before event after _ _ taken => step_captured taken

theorem pass_keeps {batchSize : BatchSize} {later : State} {events : List Event} (passing : state.worker.pc = .passing batchSize)
    (path : (machine pg).Path (fun before _ => ∃ size, before.worker.pc = .passing size) state events later) :
    later.worker.loaded = state.worker.loaded ∧ ∀ size, later.worker.pc = .passing size → size = batchSize := by
  apply path.preserves fun now => now.worker.loaded = state.worker.loaded ∧ ∀ size, now.worker.pc = .passing size → size = batchSize
  · intro before event after stands taken kept
    obtain ⟨size, stands⟩ := stands
    have same := kept.2 size stands
    have unread : ¬ Reads before event := fun reads => reads.outside taken size stands
    refine ⟨(unread_kept unread taken).1.trans kept.1, fun other next => ?_⟩
    cases step_cases taken with
    | run ran => exact absurd stands (ran.outside size)
    | statement passing moved =>
      rw [afterStatement_size (.inr next)]
      exact kept.2 _ passing
    | start | fail | restart => cases next
    | _ => exact kept.2 other next
  · refine ⟨rfl, fun size stands => ?_⟩
    cases passing.symm.trans stands
    rfl

end Flag

section Runs
variable {pg : Postgres} {start final : State} {events : List Event}

private theorem run_step {first last : List Event} {event : Event} {middle : State}
    (ran : (machine pg).run start (first ++ event :: last) = some final)
    (before : (machine pg).run start first = some middle) :
    ∃ next, step pg middle event = some next ∧ (machine pg).run next last = some final := by
  rw [Machine.run_append, before] at ran
  exact Option.bind_eq_some_iff.mp ran

private theorem stays_unflagged {state later : State} (others : ∀ event ∈ events, event ≠ .sighup)
    (ran : (machine pg).run state events = some later) (clear : state.worker.sighup = false) : later.worker.sighup = false :=
  (Machine.path_of_run (· ≠ .sighup) others ran).preserves (fun state => state.worker.sighup = false)
    (fun _ _ _ other taken clear => step_unflagged taken other clear) clear

theorem Honoured.unflagged (initial : (machine pg).initial start) (ran : (machine pg).run start events = some final)
    (honoured : Honoured pg start events) : (machine pg).Path BeginsUnflagged start events final := by
  refine Machine.path_iff.mpr ⟨ran, ?_⟩
  rintro before _ rest current same executed rfl
  subst same
  obtain ⟨next, begins, _⟩ := run_step ran executed
  obtain ⟨batchSize, passing⟩ : ∃ batchSize, current.worker.pc = .passing batchSize := by
    cases step_cases begins with
    | statement passing => exact ⟨_, passing⟩
  rcases Machine.run_last (fun _ event => event = .sighup) executed with
    quiet | ⟨first, _, second, middle, delivered, rfl, earlier, rfl, signalled, quiet⟩
  · have clear : start.worker.sighup = false := by
      obtain ⟨clock, file, rfl⟩ := initial
      rfl
    exact stays_unflagged quiet.all executed clear
  · have arrives : (machine pg).run start (first ++ [.sighup]) = some delivered := by
      rw [Machine.run_append, earlier]
      exact congrArg (Option.bind · some) signalled
    obtain ⟨early, waiting, reading, later, read, at_, rfl, reaches, _, waits, reads, _⟩ :=
      honoured first second rest delivered current batchSize rfl arrives quiet.run passing
    have reaches : (machine pg).run delivered (early ++ waiting) = some at_ := by
      rw [Machine.run_append, reaches]
      exact waits
    obtain ⟨after, taken, remaining⟩ := run_step quiet.run reaches
    refine stays_unflagged (fun event member => quiet.all event ?_) remaining (reads.loads taken).1
    exact List.mem_append_right _ (List.mem_cons_of_mem _ member)

/-- From a state on in which the postmaster is up to date, what it has is what the file held at some point. -/
private theorem postmaster_read {state later : State} (current : state.postmaster = state.file)
    (ran : (machine pg).run state events = some later) : ∃ earlier waiting read, events = earlier ++ waiting ∧
      (machine pg).run state earlier = some read ∧ (machine pg).run read waiting = some later ∧
        read.file = later.postmaster := by
  induction events using List.reverseRecOn generalizing later with
  | nil =>
    cases ran
    exact ⟨[], [], state, rfl, rfl, rfl, current.symm⟩
  | append_singleton before event ih =>
    obtain ⟨middle, reached, last⟩ := Option.bind_eq_some_iff.mp ((Machine.run_append ..).symm.trans ran)
    obtain ⟨earlier, waiting, read, rfl, reads, waits, same⟩ := ih reached
    obtain ⟨next, taken, done⟩ := Option.bind_eq_some_iff.mp last
    cases done
    rcases step_postmaster taken with kept | fresh
    · refine ⟨earlier, waiting ++ [event], read, List.append_assoc .., reads, ?_, same.trans kept.symm⟩
      rw [Machine.run_append, waits]
      exact last
    · exact ⟨_, [], later, (List.append_nil _).symm, ran, rfl, fresh.symm⟩

theorem unflagged_honoured (initial : (machine pg).initial start)
    (path : (machine pg).Path BeginsUnflagged start events final) : Honoured pg start events := by
  intro first second third delivered current batchSize same arrives executed passing
  subst same
  obtain ⟨middle, earlier, signalled⟩ : ∃ middle, (machine pg).run start first = some middle ∧
      step pg middle .sighup = some delivered := by
    rw [Machine.run_append] at arrives
    obtain ⟨middle, earlier, last⟩ := Option.bind_eq_some_iff.mp arrives
    obtain ⟨next, signalled, same⟩ := Option.bind_eq_some_iff.mp last
    cases same
    exact ⟨middle, earlier, signalled⟩
  have raised : (delivered.worker.sighup = true ∨ delivered.worker.pc = .dead) ∧ delivered.postmaster = delivered.file := by
    cases step_cases signalled with
    | reread dead => exact ⟨.inr dead, rfl⟩
    | sighup => exact ⟨.inl rfl, rfl⟩
  have whole : (machine pg).run start (first ++ .sighup :: second) = some current := by
    rw [Machine.run_append, earlier, Option.bind_some, Machine.run_cons]
    exact (congrArg (Option.bind · _) signalled).trans executed
  have clear : current.worker.sighup = false :=
    (Machine.path_iff.mp path).2 (first ++ .sighup :: second) (.statement .begin) third current rfl whole rfl
  rcases Machine.run_last Reads executed with
    unread | ⟨before, reading, later, at_, next, rfl, reaches, reads, taken, unread⟩
  · have still := unread.preserves (fun state => state.worker.sighup = true ∨ state.worker.pc = .dead)
      (fun _ _ _ unread taken => Or.imp (unread_kept unread taken).2 (unread_dead unread taken)) raised.1
    rcases still with flag | dead
    · cases flag.symm.trans clear
    · cases dead.symm.trans passing
  · have kept := unread.preserves (fun state => state.worker.loaded = next.worker.loaded)
      (fun _ _ _ unread taken same => (unread_kept unread taken).1.trans same) rfl
    have captured := reachable_captured (Machine.reachable_of_run initial whole) batchSize (.inr passing)
    have settings : (⟨batchSize, current.worker.loaded.ttl⟩ : Settings) = next.worker.loaded := by rw [captured, ← kept]
    rcases (reads.loads taken).2 with file | ⟨started, postmaster⟩
    · refine ⟨before, [], reading, later, at_, at_, by rw [List.append_nil], reaches, ?_, rfl, reads, .inl rfl⟩
      rw [settings, file]
    · obtain ⟨earlier, waiting, read, rfl, reached, waits, same⟩ := postmaster_read raised.2 reaches
      refine ⟨earlier, waiting, reading, later, read, at_, rfl, reached, ?_, waits, reads, .inr started⟩
      rw [settings, postmaster, same]

/-- In every run the batches honour the reloads exactly when none begins while a
delivered SIGHUP is pending; and a batch keeps the settings that it began with. -/
theorem reload_honoured_iff (initial : (machine pg).initial start) (ran : (machine pg).run start events = some final) :
    (Honoured pg start events ↔ (machine pg).Path BeginsUnflagged start events final) ∧
    ∀ current batch later batchSize, current.worker.pc = .passing batchSize →
      (machine pg).Path (fun before _ => ∃ size, before.worker.pc = .passing size) current batch later →
      later.worker.loaded = current.worker.loaded ∧ ∀ size, later.worker.pc = .passing size → size = batchSize :=
  ⟨⟨fun honoured => honoured.unflagged initial ran, unflagged_honoured initial⟩, fun _ _ _ _ => pass_keeps⟩

end Runs

section Batches

private theorem one_bounded : 1 ≤ i32Max := by decide

private def oneAtOnce : BatchSize := ⟨1, Nat.le.refl, one_bounded⟩

private def reload : List Event := [.configure ⟨oneAtOnce, "6 hours"⟩, .sighup]

private def batch (joins : Worker.Joins) : List Event :=
  [.statement (.execute joins), .statement .insert, .statement .cleanup, .statement .commit]

private def starting : List Event := [.run, .statement .begin, .statement .dequeue]

private def onlyJoins : Worker.Joins := ⟨[7], [(7, .finished (.success .null))]⟩

/-- A reload of a worker that waits, and then a call. -/
private def idleReload : List Event := boot 7 ++ reload ++ enqueue 0 .sample ++ awaken ++ starting

private def unflagged (state : State) : Event → Bool
  | .statement .begin => !state.worker.sighup
  | _ => true

private theorem unflagged_permits {state : State} {event : Event} (check : unflagged state event = true) :
    BeginsUnflagged state event := by
  rintro rfl
  simpa [unflagged] using check

theorem reload_honoured_idle : ∃ final, (machine .sample).run (.fresh 0 .default) idleReload = some final ∧
    final.worker.pc = .passing oneAtOnce ∧ Honoured .sample (.fresh 0 .default) idleReload := by
  obtain ⟨final, path, _, passing⟩ := (machine .sample).exists_allowed unflagged (fun _ _ => unflagged_permits)
    ⟨0, .default, rfl⟩ idleReload (fun final => decide (final.worker.pc = .passing oneAtOnce)) (by decide)
  refine ⟨final, path.run, of_decide_eq_true passing, ?_⟩
  exact (reload_honoured_iff ⟨0, .default, rfl⟩ path.run).1.mpr (path.weaken fun _ _ => unflagged_permits)

/-- A reload in the course of a batch, while another call comes in. -/
private def busyReload : List Event :=
  boot 7 ++ enqueue 0 .sample ++ awaken ++ starting ++ reload ++ enqueue 0 .sample ++ batch onlyJoins

/-- The next batch begins with the old batch size, and the signal is still pending. -/
theorem reload_ignored : ∃ current final,
    (machine .sample).run (.fresh 0 .default) (busyReload ++ [.run]) = some current ∧
    current.worker.pc = .passing .default ∧ current.cluster.tables.queueIds = [2] ∧ current.file.batchSize = oneAtOnce ∧
    (machine .sample).run (.fresh 0 .default) (busyReload ++ [.run] ++ [.statement .begin]) = some final ∧
    ¬ Honoured .sample (.fresh 0 .default) (busyReload ++ [.run] ++ [.statement .begin]) := by
  obtain ⟨current, ran, _, checked⟩ := (machine .sample).exists_of_run ⟨0, .default, rfl⟩ (busyReload ++ [.run])
    (fun current => decide (current.worker.pc = .passing .default ∧ current.cluster.tables.queueIds = [2] ∧
      current.file.batchSize = oneAtOnce ∧ current.worker.sighup = true) &&
      ((machine .sample).run current [.statement .begin]).isSome) (by decide)
  obtain ⟨stands, begins⟩ := Bool.and_eq_true_iff.mp checked
  obtain ⟨passing, queue, file, flag⟩ := of_decide_eq_true stands
  obtain ⟨final, last⟩ := Option.isSome_iff_exists.mp begins
  have whole : (machine .sample).run (.fresh 0 .default) (busyReload ++ [.run] ++ [.statement .begin]) = some final := by
    rw [Machine.run_append, ran, Option.bind_some, last]
  refine ⟨current, final, ran, passing, queue, file, whole, fun honoured => ?_⟩
  have path := honoured.unflagged ⟨0, .default, rfl⟩ whole
  have clear := (Machine.path_iff.mp path).2 (busyReload ++ [.run]) (.statement .begin) [] current rfl ran rfl
  cases flag.symm.trans clear

end Batches
end PgGrpc.Server
