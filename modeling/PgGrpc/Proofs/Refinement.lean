import PgGrpc.Lifecycle
import PgGrpc.Proofs.ClusterSteps

/-! The cluster refines the lifecycle. Every id is held in at most one place, and
the place is its phase; each step moves the ids of one place to the next. -/

namespace PgGrpc.Cluster
open Library Lifecycle

def State.holds (state : State) : Phase → List Int
  | .queued => state.tables.queueIds
  | .stored => state.tables.resultIds
  | .open backend => (state.sessions backend).ids
  | .prepared gid => ((state.prepared gid).getD []).map QueueRow.id
  | .expired => state.ledger.expired
  | .vanished => state.ledger.vanished
  | .unissued | .abandoned => []

theorem holds_setSession (state : State) (backend : BackendId) (session : Session) (phase : Phase) :
    (state.setSession backend session).holds phase =
      if phase = .open backend then session.ids else state.holds phase := by
  cases phase <;> simp only [State.holds, State.setSession, reduceCtorEq, if_false, Phase.open.injEq]
  split <;> rfl

theorem holds_setPrepared (state : State) (gid : Gid) (rows : Option (List QueueRow)) (phase : Phase) :
    (state.setPrepared gid rows).holds phase =
      if phase = .prepared gid then (rows.getD []).map QueueRow.id else state.holds phase := by
  cases phase <;> simp only [State.holds, State.setPrepared, reduceCtorEq, if_false, Phase.prepared.injEq]
  split <;> rfl

theorem holds_publish (state : State) (rows : List QueueRow) (phase : Phase) :
    (state.publish rows).holds phase =
      if phase = .queued then state.holds .queued ++ rows.map QueueRow.id else state.holds phase := by
  cases phase <;> simp [State.holds, State.publish, Tables.queueIds, Tables.resultIds]

@[simp] theorem holds_abandon (state : State) (rows : List QueueRow) (phase : Phase) :
    (state.abandon rows).holds phase = state.holds phase := by
  cases phase <;> rfl

/-- No list holds the ids that were never issued or were rolled back. -/
def Tracked (phase : Phase) : Prop := phase ≠ .unissued ∧ phase ≠ .abandoned

structure Located (holds : Phase → List Int) (phases : Phases) : Prop where
  once : ∀ phase, Tracked phase → (holds phase).Nodup
  at_ : ∀ phase, Tracked phase → ∀ id, id ∈ holds phase ↔ phases id = phase

structure InHand (tx : Tx) (ids : List Int) (phases : Phases) : Prop where
  once : tx.deleted.Nodup
  queued : ∀ id ∈ tx.deleted, phases id = .queued
  same : ids.Perm tx.deleted

def StageTracks (phases : Phases) : Stage → Prop
  | .idle => True
  | .begun tx => tx.deleted = [] ∧ tx.inserted = [] ∧ tx.expired = []
  | .dequeued tx rows => InHand tx (rows.map QueueRow.id) phases ∧ tx.inserted = [] ∧ tx.expired = []
  | .executed tx results => InHand tx (results.map CallResult.id) phases ∧ tx.inserted = [] ∧ tx.expired = []
  | .inserted tx => InHand tx (tx.inserted.map ResultRow.id) phases ∧ tx.expired = []
  | .cleaned tx _ => InHand tx (tx.inserted.map ResultRow.id) phases ∧ tx.expired.Nodup ∧
      ∀ id ∈ tx.expired, phases id = .stored ∨ id ∈ tx.inserted.map ResultRow.id

/-- The refinement relation between the cluster and the lifecycle. -/
structure Tracks (state : State) (phases : Phases) : Prop where
  located : Located state.holds phases
  unissued : ∀ id, state.nextId ≤ id → phases id = .unissued
  worker : StageTracks phases state.worker
  called : ∀ id, id ∈ state.ledger.called ↔ (phases id).called = true
  abandoned : ∀ id ∈ state.ledger.abandoned, phases id = .abandoned
  stored : ∀ id, id ∈ state.ledger.stored ↔ (phases id).answered = true
  storedOnce : state.ledger.stored.Nodup

namespace Located
variable {holds after : Phase → List Int} {phases : Phases}

/-- Ids leave the place of one phase and join the place of another; every other
place is as it was. -/
theorem transfer (located : Located holds phases) {ids : List Int} {source target : Phase} (distinct : ids.Nodup)
    (share : ∀ id ∈ ids, phases id = source) (different : source ≠ target)
    (left : Tracked source → (after source).Nodup ∧ ∀ id, id ∈ after source ↔ id ∈ holds source ∧ id ∉ ids)
    (joined : target ≠ .abandoned → (after target).Perm (holds target ++ ids))
    (rest : ∀ phase, phase ≠ source → phase ≠ target → after phase = holds phase) :
    Located after (phases.move ids target) := by
  constructor
  · intro phase tracked
    by_cases leaves : phase = source
    · subst phase; exact (left tracked).1
    · by_cases joins : phase = target
      · subst phase
        rw [(joined tracked.2).nodup_iff, List.nodup_append]
        refine ⟨located.once _ tracked, distinct, ?_⟩
        rintro id held other member rfl
        exact different ((share id member).symm.trans ((located.at_ _ tracked id).mp held))
      · rw [rest phase leaves joins]; exact located.once phase tracked
  · intro phase tracked id
    by_cases leaves : phase = source
    · subst phase
      rw [(left tracked).2 id, located.at_ _ tracked id]
      by_cases member : id ∈ ids <;> simp [Phases.move, member, different.symm]
    · by_cases joins : phase = target
      · subst phase
        rw [(joined tracked.2).mem_iff, List.mem_append, located.at_ _ tracked id]
        by_cases member : id ∈ ids <;> simp [Phases.move, member]
      · rw [rest phase leaves joins, located.at_ phase tracked id]
        by_cases member : id ∈ ids
        · have elsewhere : phases id ≠ phase := fun same => leaves (same.symm.trans (share id member))
          simp [Phases.move, member, elsewhere, Ne.symm joins]
        · simp [Phases.move, member]

theorem congr (located : Located holds phases) (same : ∀ phase, (after phase).Perm (holds phase)) :
    Located after phases :=
  ⟨fun phase tracked => (same phase).nodup_iff.mpr (located.once phase tracked),
    fun phase tracked id => (same phase).mem_iff.trans (located.at_ phase tracked id)⟩

end Located

theorem StageTracks.keep {stage : Stage} {phases after : Phases} (tracks : StageTracks phases stage)
    (queued : ∀ id, phases id = .queued → after id = .queued)
    (stored : ∀ id, phases id = .stored → after id = .stored) : StageTracks after stage := by
  have hand {tx ids} (held : InHand tx ids phases) : InHand tx ids after :=
    ⟨held.once, fun id member => queued id (held.queued id member), held.same⟩
  cases stage with
  | idle | begun _ => exact tracks
  | dequeued _ _ | executed _ _ => exact ⟨hand tracks.1, tracks.2⟩
  | inserted _ => exact ⟨hand tracks.1, tracks.2⟩
  | cleaned _ _ => exact ⟨hand tracks.1, tracks.2.1, fun id member => (tracks.2.2 id member).imp_left (stored id)⟩

namespace Tracks
variable {state after : State} {phases : Phases}

/-- Rows of an unfinished transaction, open or prepared, change hands. -/
private theorem transfer (tracks : Tracks state phases) {ids : List Int} {source target : Phase}
    (share : ∀ id ∈ ids, phases id = source) (unfinished : source.called = false)
    (issued : source ≠ .unissued) (unanswered : target.answered = false)
    (fresh : source ≠ .abandoned)
    (located : Located after.holds (phases.move ids target)) (nextId : after.nextId = state.nextId)
    (worker : after.worker = state.worker)
    (called : ∀ id, id ∈ after.ledger.called ↔ id ∈ state.ledger.called ∨ (target.called = true ∧ id ∈ ids))
    (abandoned : ∀ id ∈ after.ledger.abandoned, id ∈ state.ledger.abandoned ∨ (target = .abandoned ∧ id ∈ ids))
    (stored : after.ledger.stored = state.ledger.stored) : Tracks after (phases.move ids target) := by
  have outside {id : Int} {phase : Phase} (is : phases id = phase) (other : phase ≠ source) : id ∉ ids :=
    fun member => other (is.symm.trans (share id member))
  have unmoved {id : Int} {phase : Phase} (is : phases id = phase) (other : phase ≠ source) :
      phases.move ids target id = phase := by simp [Phases.move, outside is other, is]
  have queued : Phase.queued ≠ source := by rintro rfl; cases unfinished
  have kept : Phase.stored ≠ source := by rintro rfl; cases unfinished
  refine ⟨located, ?_, ?_, ?_, ?_, ?_, ?_⟩
  · intro id later
    exact unmoved (tracks.unissued id (nextId ▸ later)) issued.symm
  · rw [worker]
    exact tracks.worker.keep (fun id is => unmoved is queued) (fun id is => unmoved is kept)
  · intro id
    rw [called id, tracks.called id]
    by_cases member : id ∈ ids
    · simp [Phases.move, member, share id member, unfinished]
    · simp [Phases.move, member]
  · intro id member
    rcases abandoned id member with old | ⟨rfl, member⟩
    · exact unmoved (tracks.abandoned id old) fresh.symm
    · simp [Phases.move, member]
  · intro id
    rw [stored, tracks.stored id]
    by_cases member : id ∈ ids
    · have early : source.answered = false := by cases source <;> first | rfl | cases unfinished
      simp [Phases.move, member, share id member, early, unanswered]
    · simp [Phases.move, member]
  · rw [stored]; exact tracks.storedOnce

theorem empties (tracks : Tracks state phases) {source target : Phase} (advance : Advance source target)
    (issued : source ≠ .unissued) (unfinished : source.called = false) (emptied : after.holds source = [])
    (joined : target ≠ .abandoned → after.holds target = state.holds target ++ state.holds source)
    (rest : ∀ phase, phase ≠ source → phase ≠ target → after.holds phase = state.holds phase)
    (nextId : after.nextId = state.nextId) (worker : after.worker = state.worker)
    (called : after.ledger.called = state.ledger.called ++ if target = .queued then state.holds source else [])
    (abandoned : after.ledger.abandoned =
      state.ledger.abandoned ++ if target = .abandoned then state.holds source else [])
    (stored : after.ledger.stored = state.ledger.stored) : ∃ next, Moves phases next ∧ Tracks after next := by
  have open_ : source ≠ .abandoned := by rintro rfl; cases advance
  have share : ∀ id ∈ state.holds source, phases id = source := fun id => (tracks.located.at_ source ⟨issued, open_⟩ id).mp
  have early : target.answered = false ∧ source ≠ target ∧ (target.called = true ↔ target = .queued) := by
    cases advance <;> simp_all [Phase.answered, Phase.called]
  refine ⟨phases.move (state.holds source) target, phases.move_moves share advance,
    tracks.transfer share unfinished issued early.1 open_ (tracks.located.transfer
      (tracks.located.once source ⟨issued, open_⟩) share early.2.1 ?_ ?_ rest) nextId worker ?_ ?_ stored⟩
  · intro _
    simp [emptied]
  · exact fun kept => .of_eq (joined kept)
  · intro id
    rw [called, List.mem_append, early.2.2]
    split <;> simp_all
  · intro id member
    rw [abandoned, List.mem_append] at member
    split at member <;> simp_all

theorem issue (tracks : Tracks state phases) (backend : BackendId) (row : QueueRow) (named : row.id = state.nextId) :
    Tracks ({ state with nextId := state.nextId + 1 }.setSession backend
      { (state.sessions backend).addRow row with hasXid := true, wakeCbActive := true })
      (phases.move [state.nextId] (.open backend)) := by
  have fresh : phases state.nextId = .unissued := tracks.unissued _ (Int.le_refl _)
  have share : ∀ id ∈ [state.nextId], phases id = .unissued := by simpa using fresh
  have unmoved {id : Int} (other : id ≠ state.nextId) : phases.move [state.nextId] (.open backend) id = phases id := by
    simp [Phases.move, other]
  have keep {id : Int} {phase : Phase} (is : phases id = phase) (known : phase ≠ .unissued) :
      phases.move [state.nextId] (.open backend) id = phase := by
    refine (unmoved ?_).trans is
    rintro rfl
    exact known (is.symm.trans fresh)
  refine ⟨tracks.located.transfer (List.nodup_singleton _) share (by simp) (fun tracked => absurd rfl tracked.1) ?_ ?_,
    ?_, tracks.worker.keep (fun _ is => keep is (by simp)) (fun _ is => keep is (by simp)), ?_, ?_, ?_, tracks.storedOnce⟩
  · intro _
    simp only [holds_setSession, if_true]
    have added := (state.sessions backend).addRow_ids row
    rw [named] at added
    exact added
  · intro phase _ joins
    simp only [holds_setSession, joins, if_false]
    cases phase <;> rfl
  · intro id later
    change state.nextId + 1 ≤ id at later
    exact (unmoved (by omega)).trans (tracks.unissued id (by omega))
  · intro id
    change id ∈ state.ledger.called ↔ _
    by_cases here : id = state.nextId
    · subst here; simp [tracks.called, fresh, Phases.move, Phase.called]
    · rw [unmoved here, tracks.called]
  · exact fun id old => keep (tracks.abandoned id old) (by simp)
  · intro id
    change id ∈ state.ledger.stored ↔ _
    by_cases here : id = state.nextId
    · subst here; simp [tracks.stored, fresh, Phases.move, Phase.answered]
    · rw [unmoved here, tracks.stored]

theorem rearrange (tracks : Tracks state phases) (backend : BackendId) (session : Session)
    (same : session.ids.Perm (state.sessions backend).ids) : Tracks (state.setSession backend session) phases := by
  refine { tracks with located := tracks.located.congr fun phase => ?_ }
  rw [holds_setSession]
  split
  · rename_i here; subst here; exact same
  · exact .refl _

end Tracks

/-- A session event moves ids of its own, or of a prepared transaction, and no others. -/
theorem sessionStep_refines {state after : State} {phases : Phases} {backend : BackendId} {event : SessionEvent}
    (tracks : Tracks state phases) (taken : sessionStep state backend event = some after) :
    ∃ next, Moves phases next ∧ Tracks after next := by
  have share : ∀ id, id ∈ (state.sessions backend).ids ↔ phases id = .open backend :=
    tracks.located.at_ (.open backend) ⟨by simp, by simp⟩
  have once : (state.sessions backend).ids.Nodup := tracks.located.once (.open backend) ⟨by simp, by simp⟩
  cases event with
  | statement | write =>
    cases taken
    exact ⟨phases, .refl _, tracks.rearrange backend _ (.refl _)⟩
  | savepoint =>
    cases taken
    exact ⟨phases, .refl _, tracks.rearrange backend _ (by simp [Session.ids, Session.rows])⟩
  | call args =>
    simp only [sessionStep] at taken
    split at taken
    · cases taken; exact ⟨phases, .refl _, tracks⟩
    next row made =>
      cases taken
      exact ⟨phases.move [state.nextId] (.open backend),
        phases.move_moves (by simpa using tracks.unissued _ (Int.le_refl _)) (.issue backend),
        tracks.issue backend row (grpcCallAsync_id made)⟩
  | release =>
    simp only [sessionStep] at taken
    split at taken
    · cases taken
    next top flat =>
      cases taken
      exact ⟨phases, .refl _, tracks.rearrange backend _ (by simp [Session.ids, Session.rows, flat])⟩
    next top parent outer deep =>
      cases taken
      refine ⟨phases, .refl _, tracks.rearrange backend _ ?_⟩
      simp only [Session.ids, Session.rows, deep, List.flatten_cons, List.append_assoc, List.map_append]
      exact ((List.perm_append_comm_assoc _ _ _).append_left _)
  | rollbackTo =>
    simp only [sessionStep] at taken
    split at taken
    · cases taken
    next top outer deep =>
      cases taken
      have inside : (state.sessions backend).ids.Perm
          (top.map QueueRow.id ++ ((state.sessions backend).base ++ outer.flatten).map QueueRow.id) := by
        simp only [Session.ids, Session.rows, deep, List.flatten_cons, List.map_append]
        exact List.perm_append_comm_assoc _ _ _
      have distinct := List.nodup_append.mp (inside.nodup_iff.mp once)
      have leave : ∀ id ∈ top.map QueueRow.id, phases id = .open backend := fun id member =>
        (share id).mp (inside.mem_iff.mpr (List.mem_append_left _ member))
      refine ⟨phases.move (top.map QueueRow.id) .abandoned, phases.move_moves leave (.rollback backend),
        tracks.transfer leave rfl (by simp) rfl (by simp)
          (tracks.located.transfer distinct.1 leave (by simp) ?_ (by simp) ?_) rfl rfl ?_ ?_ rfl⟩
      · intro _
        simp only [holds_setSession, if_true, Session.ids, Session.rows, List.flatten_cons, List.nil_append]
        refine ⟨distinct.2.1, fun id => ?_⟩
        change _ ↔ id ∈ (state.sessions backend).ids ∧ _
        rw [inside.mem_iff, List.mem_append]
        have apart := distinct.2.2 id
        grind
      · intro phase leaves joins
        simp [holds_setSession, leaves]
      · intro id
        simp [State.setSession, State.abandon, Phase.called]
      · intro id member
        simpa [State.setSession, State.abandon] using member
  | commit =>
    cases taken
    refine tracks.empties (.commit backend) (by simp) rfl ?_ ?_ ?_ rfl rfl rfl ?_ rfl
    · simp [holds_setSession]
    · intro _
      simp only [holds_setSession, holds_publish, reduceCtorEq, if_false, if_true]
      rfl
    · intro phase leaves joins
      simp [holds_setSession, holds_publish, leaves, joins]
    · exact (List.append_nil _).symm
  | rollback =>
    cases taken
    refine tracks.empties (.rollback backend) (by simp) rfl ?_ (by simp) ?_ rfl rfl ?_ rfl rfl
    · simp [holds_setSession]
    · intro phase leaves joins
      simp [holds_setSession, leaves]
    · exact (List.append_nil _).symm
  | prepare gid =>
    simp only [sessionStep] at taken
    split at taken
    · cases taken
    next free =>
      cases taken
      refine tracks.empties (.prepare backend gid) (by simp) rfl ?_ ?_ ?_ rfl rfl ?_ ?_ rfl
      · simp [holds_setSession]
      · intro _
        simp only [holds_setSession, holds_setPrepared, reduceCtorEq, if_false, if_true]
        simp [State.holds, free, Session.ids]
      · intro phase leaves joins
        simp [holds_setSession, holds_setPrepared, leaves, joins]
      · exact (List.append_nil _).symm
      · exact (List.append_nil _).symm
  | commitPrepared gid =>
    simp only [sessionStep] at taken
    split at taken
    next rows idle held =>
      cases taken
      have place : state.holds (.prepared gid) = rows.map QueueRow.id := by simp [State.holds, held]
      refine tracks.empties (.commitPrepared gid) (by simp) rfl ?_ ?_ ?_ rfl rfl ?_ ?_ rfl
      · simp [holds_setSession, holds_setPrepared]
      · intro _
        simp only [holds_setSession, holds_setPrepared, holds_publish, reduceCtorEq, if_false, if_true, place]
      · intro phase leaves joins
        rw [holds_setSession]
        split
        next here => subst here; exact (Session.idle_ids idle).symm
        next => simp [holds_setPrepared, holds_publish, leaves, joins]
      · simp [place]; rfl
      · exact (List.append_nil _).symm
    next => cases taken
  | rollbackPrepared gid =>
    simp only [sessionStep] at taken
    split at taken
    next rows idle held =>
      cases taken
      have place : state.holds (.prepared gid) = rows.map QueueRow.id := by simp [State.holds, held]
      refine tracks.empties (.rollbackPrepared gid) (by simp) rfl ?_ (by simp) ?_ rfl rfl ?_ ?_ rfl
      · simp [holds_setSession, holds_setPrepared]
      · intro phase leaves joins
        rw [holds_setSession]
        split
        next here => subst here; exact (Session.idle_ids idle).symm
        next => simp [holds_setPrepared, leaves]
      · exact (List.append_nil _).symm
      · simp [place]; rfl
    next => cases taken

theorem StageTracks.hand {state : State} {phases : Phases} {tx : Tx} {drained : Bool}
    (tracks : StageTracks phases state.worker) (ready : Cleanable state tx drained) :
    InHand tx (tx.inserted.map ResultRow.id) phases ∧ tx.expired = [] := by
  cases ready with
  | drained empty =>
    rw [empty] at tracks
    obtain ⟨hand, inserted, expired⟩ := tracks
    exact ⟨by simpa [inserted] using hand, expired⟩
  | stored inserted => rw [inserted] at tracks; exact tracks

namespace InHand
variable {state : State} {phases : Phases} {tx : Tx}

theorem inserted_queued (hand : InHand tx (tx.inserted.map ResultRow.id) phases) {id : Int}
    (member : id ∈ tx.inserted.map ResultRow.id) : phases id = .queued :=
  hand.queued id (hand.same.mem_iff.mp member)

theorem result_ids (tracks : Tracks state phases) (hand : InHand tx (tx.inserted.map ResultRow.id) phases) :
    ((state.tables.results ++ tx.inserted).map ResultRow.id).Nodup := by
  rw [List.map_append, List.nodup_append]
  refine ⟨tracks.located.once .stored ⟨nofun, nofun⟩, hand.same.nodup_iff.mpr hand.once, ?_⟩
  rintro id old other own rfl
  have stored := (tracks.located.at_ .stored ⟨nofun, nofun⟩ id).mp old
  cases stored.symm.trans (hand.inserted_queued own)

theorem cleanup {pg : Postgres} {ttl : String} {cleaned : Tx} {warning : Option String} {drained : Bool}
    (tracks : Tracks state phases) (hand : InHand tx (tx.inserted.map ResultRow.id) phases) (fresh : tx.expired = [])
    (ran : Queue.ttlCleanup pg state.tables tx ttl = .ok (cleaned, warning)) :
    StageTracks phases (.cleaned cleaned drained) := by
  obtain ⟨bound, _, same⟩ := (Queue.ttlCleanup_ok ..).mp ran
  cases same
  have old : (((tx.view state.tables).results.filter fun row => decide (row.created < bound)).map ResultRow.id).Sublist
      ((state.tables.results ++ tx.inserted).map ResultRow.id) :=
    (List.filter_sublist.trans List.filter_sublist).map _
  refine ⟨⟨hand.once, hand.queued, hand.same⟩, ?_, ?_⟩
  · rw [fresh, List.nil_append]
    exact (hand.result_ids tracks).sublist old
  · intro id member
    rw [fresh, List.nil_append] at member
    have among := old.subset member
    rw [List.map_append, List.mem_append] at among
    exact among.imp_left (tracks.located.at_ .stored ⟨nofun, nofun⟩ id).mp

end InHand

def settle (phases : Phases) (tx : Tx) : Phases := fun id =>
  if id ∈ tx.inserted.map ResultRow.id then if id ∈ tx.expired then .vanished else .stored
  else if id ∈ tx.expired then .expired else phases id

namespace Tracks
variable {state : State} {phases : Phases} {tx : Tx}

theorem settle_moves (hand : InHand tx (tx.inserted.map ResultRow.id) phases)
    (expired : ∀ id ∈ tx.expired, phases id = .stored ∨ id ∈ tx.inserted.map ResultRow.id) :
    Moves phases (settle phases tx) := by
  intro id
  by_cases own : id ∈ tx.inserted.map ResultRow.id
  · rw [hand.inserted_queued own]
    by_cases gone : id ∈ tx.expired <;> simp only [settle, own, gone, if_true, if_false]
    · exact .inr .vanish
    · exact .inr .store
  · by_cases gone : id ∈ tx.expired <;> simp only [settle, own, gone, if_true, if_false]
    · rw [(expired id gone).resolve_right own]
      exact .inr .expire
    · exact .inl trivial

/-- The committed tables and the ledger hold every id where the settled phases say. -/
private theorem commitWorker_located (tracks : Tracks state phases)
    (hand : InHand tx (tx.inserted.map ResultRow.id) phases) (once : tx.expired.Nodup)
    (expired : ∀ id ∈ tx.expired, phases id = .stored ∨ id ∈ tx.inserted.map ResultRow.id) :
    Located (state.commitWorker tx).holds (settle phases tx) := by
  have own : ∀ id ∈ tx.inserted.map ResultRow.id, phases id = .queued := fun _ => hand.inserted_queued
  have at_ := tracks.located.at_
  have disjoint : ∀ id ∈ tx.expired, phases id = .stored ∨ phases id = .queued := fun id member =>
    (expired id member).imp_right (own id)
  refine ⟨fun phase tracked => ?_, fun phase tracked id => ?_⟩
  · cases phase with
    | queued => exact Keyed.map_filter_nodup _ (tracks.located.once .queued tracked) _
    | stored => exact Keyed.map_filter_nodup _ (hand.result_ids tracks) _
    | expired =>
      refine List.nodup_append.mpr ⟨tracks.located.once .expired tracked, once.filter _, ?_⟩
      rintro id old other new rfl
      have is := (at_ .expired tracked id).mp old
      rcases disjoint id (List.mem_filter.mp new).1 with other | other <;> cases is.symm.trans other
    | vanished =>
      refine List.nodup_append.mpr ⟨tracks.located.once .vanished tracked,
        (hand.same.nodup_iff.mpr hand.once).filter _, ?_⟩
      rintro id old other new rfl
      have is := (at_ .vanished tracked id).mp old
      cases is.symm.trans (own id (List.mem_filter.mp new).1)
    | «open» backend => exact tracks.located.once (.open backend) tracked
    | prepared gid => exact tracks.located.once (.prepared gid) tracked
    | unissued => exact absurd rfl tracked.1
    | abandoned => exact absurd rfl tracked.2
  · have before := at_ phase tracked id
    have deleted : id ∈ tx.inserted.map ResultRow.id ↔ id ∈ tx.deleted := hand.same.mem_iff
    have queued := own id
    have gone := expired id
    unfold settle
    cases phase with
    | queued =>
      have left : id ∈ (state.commitWorker tx).holds .queued ↔ id ∈ state.holds .queued ∧ id ∉ tx.deleted :=
        Keyed.mem_map_without QueueRow.id
      grind
    | stored =>
      have left : id ∈ (state.commitWorker tx).holds .stored ↔
          (id ∈ state.holds .stored ∨ id ∈ tx.inserted.map ResultRow.id) ∧ id ∉ tx.expired := by
        refine (Keyed.mem_map_without ResultRow.id).trans (and_congr_left' ?_)
        rw [List.map_append, List.mem_append]
        rfl
      grind
    | expired =>
      have added : id ∈ (state.commitWorker tx).holds .expired ↔
          id ∈ state.holds .expired ∨ (id ∈ tx.expired ∧ id ∉ tx.inserted.map ResultRow.id) := by
        simp only [State.holds, State.commitWorker, List.mem_append, List.mem_filter, List.contains_eq_mem,
          Bool.not_eq_true', decide_eq_false_iff_not]
      grind
    | vanished =>
      have added : id ∈ (state.commitWorker tx).holds .vanished ↔
          id ∈ state.holds .vanished ∨ (id ∈ tx.inserted.map ResultRow.id ∧ id ∈ tx.expired) := by
        simp only [State.holds, State.commitWorker, List.mem_append, List.mem_filter, List.contains_eq_mem,
          decide_eq_true_eq]
      grind
    | «open» backend => change id ∈ state.holds (.open backend) ↔ _; grind
    | prepared gid => change id ∈ state.holds (.prepared gid) ↔ _; grind
    | unissued => exact absurd rfl tracked.1
    | abandoned => exact absurd rfl tracked.2

theorem commitWorker (tracks : Tracks state phases) (hand : InHand tx (tx.inserted.map ResultRow.id) phases)
    (once : tx.expired.Nodup) (expired : ∀ id ∈ tx.expired, phases id = .stored ∨ id ∈ tx.inserted.map ResultRow.id) :
    Tracks (state.commitWorker tx) (settle phases tx) := by
  have own : ∀ id ∈ tx.inserted.map ResultRow.id, phases id = .queued := fun _ => hand.inserted_queued
  have elsewhere {id : Int} {phase : Phase} (is : phases id = phase) (notQueued : phase ≠ .queued)
      (notStored : phase ≠ .stored) : settle phases tx id = phase := by
    have mine : id ∉ tx.inserted.map ResultRow.id := fun mine => notQueued (is.symm.trans (own id mine))
    have kept : id ∉ tx.expired := fun gone =>
      (expired id gone).elim (fun stored => notStored (is.symm.trans stored)) mine
    simp only [settle, mine, kept, if_false, is]
  refine ⟨tracks.commitWorker_located hand once expired, ?_, trivial, ?_, ?_, ?_, ?_⟩
  · exact fun id later => elsewhere (tracks.unissued id later) nofun nofun
  · intro id
    change id ∈ state.ledger.called ↔ _
    rw [tracks.called]
    have queued := own id
    have gone := expired id
    unfold settle
    grind [Phase.called]
  · exact fun id old => elsewhere (tracks.abandoned id old) nofun nofun
  · intro id
    change id ∈ state.ledger.stored ++ tx.inserted.map ResultRow.id ↔ _
    rw [List.mem_append, tracks.stored]
    have queued := own id
    have gone := expired id
    unfold settle
    grind [Phase.answered]
  · refine List.nodup_append.mpr ⟨tracks.storedOnce, hand.same.nodup_iff.mpr hand.once, ?_⟩
    rintro id old other new rfl
    have answered := (tracks.stored id).mp old
    rw [own id new] at answered
    cases answered

end Tracks

/-- The worker's transaction shows nothing until its commit, which moves its ids. -/
theorem workerStep_refines {pg : Postgres} {state after : State} {phases : Phases} {event : WorkerEvent}
    (tracks : Tracks state phases) (taken : workerStep pg state event = some after) :
    ∃ next, Moves phases next ∧ Tracks after next := by
  have stage := tracks.worker
  cases workerStep_cases taken with
  | begin idle => exact ⟨phases, .refl _, { tracks with worker := ⟨rfl, rfl, rfl⟩ }⟩
  | @dequeue batchSize tx begun =>
    rw [begun] at stage
    obtain ⟨deleted, inserted, expired⟩ := stage
    have view : (tx.view state.tables).queueIds = state.tables.queueIds := by
      simp [Tx.view, deleted, Tables.queueIds]
    have distinct : (tx.view state.tables).queueIds.Nodup := view ▸ tracks.located.once .queued ⟨by simp, by simp⟩
    refine ⟨phases, .refl _, { tracks with worker := ⟨⟨?_, ?_, ?_⟩, inserted, expired⟩ }⟩
    · rw [Queue.dequeue_tx, deleted]
      exact Keyed.smallest_nodup distinct _
    · intro id member
      rw [Queue.dequeue_tx, deleted, List.nil_append, view] at member
      exact (tracks.located.at_ .queued ⟨by simp, by simp⟩ id).mp (Keyed.smallest_subset member)
    · rw [Queue.dequeue_tx, deleted]
      exact Queue.dequeue_ids batchSize state.tables tx distinct
  | execute dequeued nonempty covers =>
    rw [dequeued] at stage
    obtain ⟨hand, rest⟩ := stage
    exact ⟨phases, .refl _, { tracks with
      worker := ⟨⟨hand.once, hand.queued, (Worker.collect_ids covers).trans hand.same⟩, rest⟩ }⟩
  | @insert tx results stored executed ran =>
    rw [executed] at stage
    obtain ⟨hand, inserted, expired⟩ := stage
    refine ⟨phases, .refl _, { tracks with worker := ?_ }⟩
    by_cases nonempty : results = []
    · subst nonempty
      cases ran
      exact ⟨⟨hand.once, hand.queued, by simpa [inserted] using hand.same⟩, expired⟩
    · obtain ⟨_, _, _, rfl⟩ := (Queue.insertResults_ok pg state.tables tx nonempty stored).mp ran
      exact ⟨⟨hand.once, hand.queued, by simpa [inserted, Function.comp_def] using hand.same⟩, expired⟩
  | cleanup ready ran =>
    obtain ⟨hand, fresh⟩ := stage.hand ready
    exact ⟨phases, .refl _, { tracks with worker := hand.cleanup tracks fresh ran }⟩
  | commit cleaned =>
    rw [cleaned] at stage
    obtain ⟨hand, once, expired⟩ := stage
    exact ⟨settle phases _, Tracks.settle_moves hand expired, tracks.commitWorker hand once expired⟩
  | insertError _ _ | cleanupError _ _ | fail _ => exact ⟨phases, .refl _, { tracks with worker := trivial }⟩

/-- A clean restart abandons what no transaction had finished. -/
def interrupt (phases : Phases) : Phases := fun id =>
  match phases id with
  | .open _ => .abandoned
  | phase => phase

theorem restart_refines {state : State} {phases : Phases} (tracks : Tracks state phases) :
    Moves phases (interrupt phases) ∧
      Tracks { state with sessions := fun _ => {}, worker := .idle } (interrupt phases) := by
  have same {id : Int} {phase : Phase} (closed : ∀ backend, phase ≠ .open backend) :
      interrupt phases id = phase ↔ phases id = phase ∨ (phase = .abandoned ∧ ∃ backend, phases id = .open backend) := by
    unfold interrupt
    split <;> grind
  constructor
  · intro id
    unfold interrupt
    split
    next backend is => exact .inr (is ▸ .rollback backend)
    next => exact .inl rfl
  · refine ⟨⟨?_, ?_⟩, ?_, trivial, ?_, ?_, ?_, tracks.storedOnce⟩
    · intro phase tracked
      cases phase with
      | «open» backend => exact List.nodup_nil
      | _ => exact tracks.located.once _ tracked
    · intro phase tracked id
      cases phase with
      | «open» backend =>
        refine iff_of_false nofun ?_
        unfold interrupt
        split <;> grind
      | unissued => exact absurd rfl tracked.1
      | abandoned => exact absurd rfl tracked.2
      | _ => exact (tracks.located.at_ _ tracked id).trans ((same (by simp)).trans (by simp)).symm
    · exact fun id later => (same (by simp)).mpr (.inl (tracks.unissued id later))
    · intro id
      refine (tracks.called id).trans ?_
      unfold interrupt
      split <;> simp_all [Phase.called]
    · exact fun id old => (same (by simp)).mpr (.inl (tracks.abandoned id old))
    · intro id
      refine (tracks.stored id).trans ?_
      unfold interrupt
      split <;> simp_all [Phase.answered]

theorem step_refines {pg : Postgres} {state after : State} {phases : Phases} {event : Event}
    (tracks : Tracks state phases) (taken : step pg state event = some after) :
    ∃ next, Moves phases next ∧ Tracks after next := by
  cases event with
  | session backend event => exact sessionStep_refines tracks taken
  | worker event => exact workerStep_refines tracks taken
  | tick elapsed => cases taken; exact ⟨phases, .refl _, { tracks with }⟩
  | restart => cases taken; exact ⟨interrupt phases, restart_refines tracks⟩

theorem initial_tracks (clock : Timestamp) : Tracks { clock } fun _ => .unissued where
  located := ⟨fun phase _ => by cases phase <;> exact List.nodup_nil,
    fun phase tracked id => iff_of_false (by cases phase <;> exact nofun) (Ne.symm tracked.1)⟩
  unissued _ _ := rfl
  worker := trivial
  called _ := iff_of_false nofun nofun
  abandoned _ := nofun
  stored _ := iff_of_false nofun nofun
  storedOnce := List.nodup_nil

theorem reachable_tracks {pg : Postgres} {allowed : State → Event → Prop} {state : State}
    (reached : (machine pg).Reaches allowed state) : ∃ phases, Tracks state phases := by
  induction reached with
  | start initial =>
    obtain ⟨clock, rfl⟩ := initial
    exact ⟨_, initial_tracks clock⟩
  | next _ _ taken ih =>
    obtain ⟨phases, tracks⟩ := ih
    obtain ⟨next, _, later⟩ := step_refines tracks taken
    exact ⟨next, later⟩

theorem Tracks.sound {state : State} {phases : Phases} (tracks : Tracks state phases) : state.tables.Sound where
  queueOnce := tracks.located.once .queued ⟨nofun, nofun⟩
  resultOnce := tracks.located.once .stored ⟨nofun, nofun⟩
  apart id queued stored := by
    have first := (tracks.located.at_ .queued ⟨nofun, nofun⟩ id).mp queued
    have second := (tracks.located.at_ .stored ⟨nofun, nofun⟩ id).mp stored
    cases first.symm.trans second

theorem reachable_sound {pg : Postgres} {allowed : State → Event → Prop} {state : State}
    (reached : (machine pg).Reaches allowed state) : state.tables.Sound :=
  (reachable_tracks reached).elim fun _ tracks => tracks.sound

end PgGrpc.Cluster
