import Mathlib

/-! What the asynchronous path is for, without tables, transactions or processes:
every id has one phase, and a phase only ever moves forward. -/

namespace PgGrpc.Lifecycle

/-- `open` belongs to a session's transaction, `prepared` to a two-phase one. -/
inductive Phase where
  | unissued
  | open (backend : Nat)
  | prepared (gid : Nat)
  | queued
  | stored
  | expired
  | vanished
  | abandoned
deriving DecidableEq

inductive Advance : Phase → Phase → Prop where
  | issue (backend) : Advance .unissued (.open backend)
  | prepare (backend gid) : Advance (.open backend) (.prepared gid)
  | commit (backend) : Advance (.open backend) .queued
  | rollback (backend) : Advance (.open backend) .abandoned
  | commitPrepared (gid) : Advance (.prepared gid) .queued
  | rollbackPrepared (gid) : Advance (.prepared gid) .abandoned
  | store : Advance .queued .stored
  | vanish : Advance .queued .vanished
  | expire : Advance .stored .expired

abbrev Phases := Int → Phase

/-- One step of the abstract machine: any ids advance, the others stay. -/
def Moves (before after : Phases) : Prop := ∀ id, after id = before id ∨ Advance (before id) (after id)

/-- The call was enqueued by a transaction that committed. -/
def Phase.called : Phase → Bool
  | .queued | .stored | .expired | .vanished => true
  | _ => false

def Phase.answered : Phase → Bool
  | .stored | .expired | .vanished => true
  | _ => false

theorem Moves.refl (phases : Phases) : Moves phases phases := fun _ => .inl rfl

def Phases.move (phases : Phases) (ids : List Int) (target : Phase) : Phases :=
  fun id => if id ∈ ids then target else phases id

theorem Phases.move_moves (phases : Phases) {ids : List Int} {source target : Phase}
    (share : ∀ id ∈ ids, phases id = source) (advance : Advance source target) :
    Moves phases (phases.move ids target) := by
  intro id
  by_cases here : id ∈ ids
  · exact .inr (by simpa [move, here, share id here] using advance)
  · exact .inl (by simp [move, here])

end PgGrpc.Lifecycle
