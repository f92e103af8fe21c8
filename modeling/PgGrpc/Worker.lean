import PgGrpc.Queue

/-! One pass of the worker's inner loop: dequeue a batch, run its calls on a
`JoinSet`, store the results and clean up, all in one transaction. -/

namespace PgGrpc.Worker
open Queue

abbrev TaskId := Nat

inductive TaskEnd where
  | finished (outcome : CallOutcome)
  | panicked

/-- The tasks of a batch: the id tokio gave to each row's task, and the order in
which `join_next_with_id` reported their ends. -/
structure Joins where
  tasks : List TaskId
  ends : List (TaskId × TaskEnd)

/-- One distinct task a row, and every task joined exactly once. -/
def Joins.covers (joins : Joins) (rows : List QueueRow) : Prop :=
  joins.tasks.length = rows.length ∧ joins.tasks.Nodup ∧ (joins.ends.map Prod.fst).Perm joins.tasks

instance (joins : Joins) (rows : List QueueRow) : Decidable (joins.covers rows) :=
  inferInstanceAs (Decidable (_ ∧ _ ∧ _))

/-- A finished task hands over its own result, which carries its row's id; for a
panicked one the id is looked up in the map filled at the spawn. -/
def collectOne (spawned : List (TaskId × QueueRow)) : TaskId × TaskEnd → Option CallResult
  | (task, .finished outcome) => (spawned.lookup task).map fun row => ⟨row.id, outcome⟩
  | (task, .panicked) =>
    let ids := spawned.map fun (task, row) => (task, row.id)
    some ⟨(ids.lookup task).getD 0, .error "task panicked"⟩

def collect (rows : List QueueRow) (joins : Joins) : List CallResult :=
  joins.ends.filterMap (collectOne (joins.tasks.zip rows))

/-- How a pass ended that did not raise: the committed tables, whether the queue
was found empty, and the clean-up's warning. -/
structure Pass where
  tables : Tables
  drained : Bool
  warning : Option String

/-- A pass of the inner loop that no other transaction interrupts. -/
def drainBatch (pg : Postgres) (batchSize : BatchSize) (ttl : String) (now : Timestamp) (tables : Tables)
    (joins : Joins) : Except PgError Pass := do
  let (rows, tx) := dequeue batchSize tables (.begin now)
  if rows.isEmpty then
    let (tx, warning) ← ttlCleanup pg tables tx ttl
    return ⟨tx.view tables, true, warning⟩
  let tx ← insertResults pg tables tx (collect rows joins)
  let (tx, warning) ← ttlCleanup pg tables tx ttl
  return ⟨tx.view tables, false, warning⟩

end PgGrpc.Worker
