import PgGrpc.Proofs.AsyncCalls
import PgGrpc.Proofs.OptionsGrammar

/-! Where the rows come from. Every row that a session, a prepared transaction, the queue
or the worker holds was made by `grpc_call_async`, so the worker has nothing to refuse. -/

namespace PgGrpc.Cluster
open Library

/-- Made by an accepted `grpc_call_async`, under an id of the sequence. -/
def Issued (row : QueueRow) : Prop := 1 ≤ row.id ∧ ∃ args, grpcCallAsync args row.id = .ok row

def issued (state : State) : Event → Option QueueRow
  | .session _ (.call args) => (grpcCallAsync args state.nextId).toOption
  | _ => none

/-- The rows that no worker has taken yet. -/
def State.Has (state : State) (row : QueueRow) : Prop :=
  (∃ backend, row ∈ (state.sessions backend).rows) ∨ (∃ gid rows, state.prepared gid = some rows ∧ row ∈ rows) ∨
    row ∈ state.tables.queue

structure Provenance (state : State) : Prop where
  next : 1 ≤ state.nextId
  rows : ∀ row, state.Has row → Issued row
  worker : ∀ tx rows, state.worker = .dequeued tx rows → ∀ row ∈ rows, Issued row
  called : ∀ id ∈ state.ledger.called, 1 ≤ id

section Steps
variable {pg : Postgres} {state after : State} {backend : BackendId} {row : QueueRow}

private theorem has_setSession {session : Session} (has : (state.setSession backend session).Has row) :
    state.Has row ∨ row ∈ session.rows := by
  rcases has with ⟨other, own⟩ | prepared | queued
  · by_cases same : other = backend
    · subst same
      rw [setSession_self] at own
      exact .inr own
    · rw [setSession_other state session same] at own
      exact .inl (.inl ⟨other, own⟩)
  · exact .inl (.inr (.inl prepared))
  · exact .inl (.inr (.inr queued))

private theorem has_publish {rows : List QueueRow} (has : (state.publish rows).Has row) : state.Has row ∨ row ∈ rows := by
  rcases has with own | prepared | queued
  · exact .inl (.inl own)
  · exact .inl (.inr (.inl prepared))
  · exact (List.mem_append.mp queued).imp (fun here => .inr (.inr here)) id

private theorem has_setPrepared {gid : Gid} {rows : Option (List QueueRow)} (has : (state.setPrepared gid rows).Has row) :
    state.Has row ∨ ∃ own, rows = some own ∧ row ∈ own := by
  rcases has with own | ⟨other, held, prepared, member⟩ | queued
  · exact .inl (.inl own)
  · simp only [State.setPrepared] at prepared
    split at prepared
    next => exact .inr ⟨held, prepared, member⟩
    next => exact .inl (.inr (.inl ⟨other, held, prepared, member⟩))
  · exact .inl (.inr (.inr queued))

private theorem sessionStep_has {event : SessionEvent} (taken : sessionStep state backend event = some after)
    (has : after.Has row) : state.Has row ∨ issued state (.session backend event) = some row := by
  have own {row : QueueRow} (member : row ∈ (state.sessions backend).rows) : state.Has row := .inl ⟨backend, member⟩
  cases event <;> simp only [sessionStep] at taken
  case call args =>
    split at taken
    next => cases taken; exact .inl has
    next made issued =>
      cases taken
      rcases has_setSession has with before | new
      · exact .inl before
      · have split := ((state.sessions backend).addRow_rows made).mem_iff.mp new
        rcases List.mem_append.mp split with member | same
        · exact .inl (own member)
        · cases List.mem_singleton.mp same
          exact .inr (congrArg Except.toOption issued)
  all_goals left
  case statement | write => cases taken; exact (has_setSession has).elim id own
  case savepoint =>
    cases taken
    refine (has_setSession has).elim id fun member => own ?_
    simpa [Session.rows] using member
  case release =>
    split at taken
    next => cases taken
    next top single =>
      cases taken
      refine (has_setSession has).elim id fun member => own ?_
      simpa [Session.rows, single] using member
    next top parent outer deep =>
      cases taken
      refine (has_setSession has).elim id fun member => own ?_
      simp only [Session.rows, deep, List.flatten_cons, List.mem_append] at member ⊢
      tauto
  case rollbackTo =>
    split at taken
    next => cases taken
    next top outer deep =>
      cases taken
      refine (has_setSession has).elim id fun member => own ?_
      simp only [Session.rows, deep, List.flatten_cons, List.mem_append, List.nil_append] at member ⊢
      tauto
  case commit =>
    cases taken
    rcases has_setSession has with before | none
    · exact (has_publish before).elim id own
    · cases none
  case rollback =>
    cases taken
    rcases has_setSession has with before | none
    · exact before
    · cases none
  case prepare gid =>
    split at taken
    next => cases taken
    next =>
      cases taken
      rcases has_setSession has with before | none
      · rcases has_setPrepared before with before | ⟨rows, same, member⟩
        · exact before
        · cases same
          exact own member
      · cases none
  case commitPrepared gid =>
    split at taken
    next rows _ held =>
      cases taken
      rcases has_setSession has with before | none
      · rcases has_setPrepared before with before | ⟨_, same, _⟩
        · exact (has_publish before).elim id fun member => .inr (.inl ⟨gid, rows, held, member⟩)
        · cases same
      · cases none
    next => cases taken
  case rollbackPrepared gid =>
    split at taken
    next rows _ held =>
      cases taken
      rcases has_setSession has with before | none
      · rcases has_setPrepared before with before | ⟨_, same, _⟩
        · exact before
        · cases same
      · cases none
    next => cases taken

private theorem issued_ok {event : Event} (new : issued state event = some row) :
    ∃ args, grpcCallAsync args state.nextId = .ok row ∧ row.id = state.nextId := by
  cases event with
  | session backend event =>
    cases event with
    | call args =>
      simp only [issued] at new
      cases made : grpcCallAsync args state.nextId with
      | error refused => rw [made] at new; cases new
      | ok own =>
        rw [made] at new
        cases new
        exact ⟨args, made, grpcCallAsync_id made⟩
    | statement | write | savepoint | release | rollbackTo | commit | rollback | prepare | commitPrepared
    | rollbackPrepared => cases new
  | worker | tick | restart => cases new

private theorem sessionStep_next {event : SessionEvent} (taken : sessionStep state backend event = some after) :
    state.nextId ≤ after.nextId := by
  cases event <;> simp only [sessionStep] at taken
  all_goals
    repeat' split at taken
    all_goals cases taken
    all_goals first | exact Int.le_refl _ | exact Int.le_add_one (Int.le_refl _)

/-- What a commit publishes was the session's own, or prepared. -/
private theorem sessionStep_called {event : SessionEvent} {id : Int} (taken : sessionStep state backend event = some after)
    (called : id ∈ after.ledger.called) : id ∈ state.ledger.called ∨ ∃ row, state.Has row ∧ row.id = id := by
  cases event <;> simp only [sessionStep] at taken
  case commit =>
    cases taken
    refine (List.mem_append.mp called).imp_right fun new => ?_
    obtain ⟨row, member, same⟩ := List.mem_map.mp new
    exact ⟨row, .inl ⟨backend, member⟩, same⟩
  case commitPrepared gid =>
    split at taken
    next rows _ held =>
      cases taken
      refine (List.mem_append.mp called).imp_right fun new => ?_
      obtain ⟨row, member, same⟩ := List.mem_map.mp new
      exact ⟨row, .inr (.inl ⟨gid, rows, held, member⟩), same⟩
    next => cases taken
  all_goals
    repeat' split at taken
    all_goals cases taken
    all_goals exact .inl called

theorem Provenance.fresh (clock : Timestamp) : Provenance { clock } where
  next := Int.le_refl _
  rows row has := by
    obtain ⟨backend, own⟩ | ⟨gid, rows, held, _⟩ | queued := has
    · cases own
    · cases held
    · cases queued
  worker _ _ stands := by cases stands
  called := List.forall_mem_nil _

/-- No step makes a row but the call that issues it. -/
theorem step_has {event : Event} (taken : step pg state event = some after) (has : after.Has row) :
    state.Has row ∨ issued state event = some row := by
  cases event with
  | session backend event => exact sessionStep_has taken has
  | worker event =>
    have frame := workerStep_frame taken
    rw [State.Has, frame.sessions, frame.prepared] at has
    exact .inl (has.imp id (Or.imp id fun queued => frame.queue queued))
  | tick elapsed => cases taken; exact .inl has
  | restart =>
    cases taken
    obtain ⟨backend, own⟩ | prepared | queued := has
    · cases own
    · exact .inl (.inr (.inl prepared))
    · exact .inl (.inr (.inr queued))

/-- What a worker has in hand it had before, or has just found in the queue. -/
theorem step_dequeued {event : Event} {tx : Tx} {rows : List QueueRow} (taken : step pg state event = some after)
    (stands : after.worker = .dequeued tx rows) : state.worker = .dequeued tx rows ∨ ∀ row ∈ rows, state.Has row := by
  cases event with
  | session backend event =>
    rw [step] at taken
    exact .inl ((sessionStep_frame taken).worker ▸ stands)
  | worker event =>
    cases workerStep_cases taken with
    | dequeue begun =>
      cases stands
      exact .inr fun row member => .inr (.inr (List.mem_of_mem_filter (List.mem_of_mem_filter member)))
    | begin | execute | insert | insertError | cleanup | cleanupError | commit | fail => cases stands
  | tick elapsed => cases taken; exact .inl stands
  | restart => cases taken; cases stands

theorem step_next {event : Event} (taken : step pg state event = some after) : state.nextId ≤ after.nextId := by
  cases event with
  | session backend event =>
    rw [step] at taken
    exact sessionStep_next taken
  | worker event => exact (workerStep_frame taken).nextId.ge
  | tick elapsed => cases taken; exact Int.le_refl _
  | restart => cases taken; exact Int.le_refl _

private theorem step_called {event : Event} {id : Int} (taken : step pg state event = some after)
    (called : id ∈ after.ledger.called) : id ∈ state.ledger.called ∨ ∃ row, state.Has row ∧ row.id = id := by
  cases event with
  | session backend event =>
    rw [step] at taken
    exact sessionStep_called taken called
  | worker event => exact .inl (by cases workerStep_cases taken <;> exact called)
  | tick elapsed => cases taken; exact .inl called
  | restart => cases taken; exact .inl called

private theorem Provenance.step {event : Event} (kept : Provenance state)
    (taken : step pg state event = some after) : Provenance after where
  next := kept.next.trans (step_next taken)
  rows row has := by
    rcases step_has taken has with before | new
    · exact kept.rows row before
    · obtain ⟨args, made, same⟩ := issued_ok new
      exact ⟨same ▸ kept.next, args, same.symm ▸ made⟩
  worker tx rows stands row member := by
    rcases step_dequeued taken stands with before | found
    · exact kept.worker tx rows before row member
    · exact kept.rows row (found row member)
  called id called := by
    rcases step_called taken called with before | ⟨row, has, rfl⟩
    · exact kept.called id before
    · exact (kept.rows row has).1

/-- The rows issued so far: each under an id of its own, and all that are still to be called among them. -/
structure Records (noted : List QueueRow) (state : State) : Prop where
  once : (noted.map QueueRow.id).Nodup
  below : ∀ row ∈ noted, row.id < state.nextId
  rows : ∀ row, state.Has row → row ∈ noted
  worker : ∀ tx rows, state.worker = .dequeued tx rows → ∀ row ∈ rows, row ∈ noted

theorem Records.fresh (clock : Timestamp) : Records [] { clock } where
  once := List.nodup_nil
  below := List.forall_mem_nil _
  rows row has := by
    obtain ⟨backend, own⟩ | ⟨gid, rows, held, _⟩ | queued := has
    · cases own
    · cases held
    · cases queued
  worker _ _ stands := by cases stands

private theorem issued_next {event : Event} (taken : step pg state event = some after) (new : issued state event = some row) :
    after.nextId = state.nextId + 1 := by
  obtain ⟨args, made, _⟩ := issued_ok new
  cases event with
  | session backend event =>
    cases event with
    | call own =>
      cases same : grpcCallAsync own state.nextId with
      | error refused => simp only [issued, same] at new; cases new
      | ok own => simp only [step, sessionStep, same] at taken; cases taken; rfl
    | statement | write | savepoint | release | rollbackTo | commit | rollback | prepare | commitPrepared
    | rollbackPrepared => cases new
  | worker | tick | restart => cases new

theorem Records.step {noted : List QueueRow} {event : Event} (records : Records noted state)
    (taken : step pg state event = some after) : Records (noted ++ (issued state event).toList) after where
  once := by
    cases new : issued state event with
    | none => simpa using records.once
    | some row =>
      obtain ⟨_, _, same⟩ := issued_ok new
      rw [List.map_append, List.nodup_append']
      refine ⟨records.once, List.nodup_singleton _, fun id old here => ?_⟩
      obtain ⟨before, listed, rfl⟩ := List.mem_map.mp old
      have below := records.below before listed
      rw [List.mem_singleton.mp here, same] at below
      exact Int.lt_irrefl _ below
  below row member := by
    rcases List.mem_append.mp member with old | new
    · exact lt_of_lt_of_le (records.below row old) (step_next taken)
    · have new := Option.mem_toList.mp new
      obtain ⟨_, _, same⟩ := issued_ok new
      rw [issued_next taken new, same]
      exact Int.lt_succ _
  rows row has := by
    rcases step_has taken has with before | new
    · exact List.mem_append_left _ (records.rows row before)
    · exact List.mem_append_right _ (Option.mem_toList.mpr new)
  worker tx rows stands row member := by
    apply List.mem_append_left
    rcases step_dequeued taken stands with before | found
    · exact records.worker tx rows before row member
    · exact records.rows row (found row member)

end Steps

theorem reachable_provenance {pg : Postgres} {allowed : State → Event → Prop} {state : State}
    (reached : (machine pg).Reaches allowed state) : Provenance state := by
  apply reached.invariant Provenance
  · intro start begins
    obtain ⟨clock, rfl⟩ := begins
    exact .fresh clock
  · exact fun before event after _ _ taken kept => kept.step taken

private theorem timeout_positive {argument : Option Json} {opts : OptionsConfig}
    (parsed : OptionsConfig.ofArgument argument = .ok opts) : 1 ≤ opts.timeout := by
  cases argument with
  | none =>
    cases parsed
    decide
  | some value =>
    cases value with
    | null =>
      cases parsed
      decide
    | object obj =>
      rcases (OptionsConfig.parse_object.mp parsed).timeoutMs with ⟨_, default⟩ | ⟨value, n, _, reads, given⟩
      · rw [OptionsConfig.timeout, default]
        decide
      · rw [OptionsConfig.timeout, given]
        exact reads.2.1
    | bool | number | string | array => cases parsed

/-- The worker runs the call of the row at once, with a timeout that its cast leaves as it is. -/
structure Runnable (row : QueueRow) : Prop where
  endpoint : ∃ host, validateEndpoint row.endpoint = .ok host
  method : ∃ names, parseMethod row.method = .ok names
  timeout : 1 ≤ row.timeoutMs ∧ row.timeoutMs ≤ i32Max ∧ (asU64 row.timeoutMs : Int) = row.timeoutMs
  calls : ∃ opts, OptionsConfig.ofArgument row.options = .ok opts ∧ row.timeoutMs = opts.timeout ∧
    ∀ crates, (callRow crates row).run = (callAsync crates (row.callArgs opts)).run

theorem Issued.runnable {row : QueueRow} (issued : Issued row) : Runnable row := by
  obtain ⟨_, args, made⟩ := issued
  obtain ⟨opts, valid, small, same⟩ := grpcCallAsync_ok.mp made
  have positive := timeout_positive valid.options
  rw [same]
  refine ⟨valid.endpoint, valid.method, ⟨?_, ?_, ?_⟩, opts, valid.options, rfl, fun crates => ?_⟩
  · exact Int.ofNat_le.mpr positive
  · exact Int.ofNat_le.mpr small
  · exact congrArg Nat.cast (asU64_natCast small)
  · have parsed : OptionsConfig.ofArgument (args.row opts row.id).options = .ok opts := valid.options
    rw [callRow, parsed]
    rfl

/-- Whatever the sessions and the worker have done, the worker has only rows that it can run. -/
theorem dequeued_runnable {pg : Postgres} {state : State} {tx : Tx} {rows : List QueueRow}
    (reached : (machine pg).Reachable state) (dequeued : state.worker = .dequeued tx rows) :
    ∀ row ∈ rows, Runnable row :=
  fun row member => ((reachable_provenance reached).worker tx rows dequeued row member).runnable

private def overTls : SqlCall :=
  { SqlCall.sample with options := some (.object [("timeout_ms", .number (.int 5000)), ("tls", .object [("ca_cert", .string "pem")])]) }

private def holdsOne (state : State) : Bool :=
  match state.worker with
  | .dequeued _ [row] => row.timeoutMs == 5000 &&
      decide ((OptionsConfig.ofArgument row.options).toOption.map OptionsConfig.tls = some (some ⟨some "pem".toUTF8, none, none, none⟩))
  | _ => false

theorem dequeued_runnable_one : ∃ state tx row, (machine .sample).Reachable state ∧ state.worker = .dequeued tx [row] ∧
    row.timeoutMs = 5000 ∧
    (OptionsConfig.ofArgument row.options).toOption.map OptionsConfig.tls = some (some ⟨some "pem".toUTF8, none, none, none⟩) ∧
    Runnable row := by
  obtain ⟨state, _, reached, checked⟩ := (machine .sample).exists_of_run ⟨0, rfl⟩
    (enqueue 0 overTls ++ [.worker .begin, .worker (.dequeue .default)]) holdsOne (by decide)
  unfold holdsOne at checked
  split at checked
  next tx row dequeued =>
    obtain ⟨timeout, tls⟩ := Bool.and_eq_true_iff.mp checked
    exact ⟨state, tx, row, reached, dequeued, beq_iff_eq.mp timeout, of_decide_eq_true tls,
      dequeued_runnable reached dequeued row (List.mem_singleton_self row)⟩
  next => cases checked

end PgGrpc.Cluster
