import PgGrpc.Library.Keyed
import PgGrpc.Options

/-! The two tables of the asynchronous path and the statements that touch them. An
ERROR of PostgreSQL is the `error` of an `Except`: it unwinds and ends the transaction. -/

namespace PgGrpc

/-- Microseconds, as in `timestamptz`. -/
abbrev Timestamp := Int

structure QueueRow where
  id : Int
  endpoint : String
  method : String
  request : Json
  metadata : Option Json
  options : Option Json
  timeoutMs : Int

inductive CallOutcome where
  | success (value : Json)
  | error (text : String)

structure CallResult where
  id : Int
  outcome : CallOutcome

inductive LookupStatus where
  | pending
  | success (value : Json)
  | error (text : String)

structure LookupResult where
  id : Int
  status : LookupStatus

structure ResultRow where
  id : Int
  status : String
  response : Option Json
  errorMsg : Option String
  created : Timestamp

structure Tables where
  queue : List QueueRow
  results : List ResultRow

namespace Tables

def queueIds (tables : Tables) : List Int := tables.queue.map QueueRow.id

def resultIds (tables : Tables) : List Int := tables.results.map ResultRow.id

end Tables

inductive PgError where
  | invalidJson
  | programLimit
  | uniqueViolation (id : Int)
  | invalidInterval (text : String)
deriving DecidableEq

/-- A statement run under SPI: pgrx returns an error code as `Err`, but an ERROR
raised while the statement runs is not returned to the caller. -/
inductive Spi (α : Type) where
  | done (value : α)
  | err (text : String)
  | raised (error : PgError)

/-- The parts of PostgreSQL whose rules are its own. -/
structure Postgres where
  jsonbFits : Json → Bool
  /-- The four array parameters of a batch with these outcomes, the texts of its errors among
  them, are each within the allocation limit. -/
  arraysFit : List CallOutcome → Bool
  /-- `now() - ttl::interval`; `none` where the expression raises an ERROR. -/
  cutoff : Timestamp → String → Option Timestamp
  message : PgError → String

/-- `jsonb` input: no string may hold U+0000, and the value must fit. -/
def Postgres.acceptsJson (pg : Postgres) (value : Json) : Bool := !value.hasNul && pg.jsonbFits value

/-- A server whose size limits no value meets, reading the intervals listed. -/
def Postgres.reading (intervals : List (String × Int)) : Postgres where
  jsonbFits _ := true
  arraysFit _ := true
  cutoff now ttl := (intervals.lookup ttl).map (now - ·)
  message
    | .invalidJson => "unsupported Unicode escape sequence"
    | .programLimit => "array size exceeds the maximum allowed"
    | .uniqueViolation _ => "duplicate key value violates unique constraint \"_call_result_pkey\""
    | .invalidInterval text => "invalid input syntax for type interval: \"" ++ text ++ "\""

/-- One that reads the default of `pg_grpc.ttl`, and not much more. -/
def Postgres.sample : Postgres := .reading [("6 hours", 21600000000), ("-1 day", -86400000000)]

structure BatchSize where
  value : Nat
  positive : 1 ≤ value
  bounded : value ≤ i32Max
deriving DecidableEq

def BatchSize.default : BatchSize := ⟨200, by decide, by decide⟩

/-- What the worker's open transaction has changed so far. `start` is `now()`. -/
structure Tx where
  start : Timestamp
  deleted : List Int
  inserted : List ResultRow
  expired : List Int

namespace Tx

def begin (now : Timestamp) : Tx := ⟨now, [], [], []⟩

/-- What the transaction's own statements see, and what its commit publishes. -/
def view (tx : Tx) (committed : Tables) : Tables where
  queue := committed.queue.filter fun row => !tx.deleted.contains row.id
  results := (committed.results ++ tx.inserted).filter fun row => !tx.expired.contains row.id

end Tx

namespace Queue
open Library

/-- The ids of `ORDER BY id LIMIT n`, and the DELETE of their rows. -/
def dequeue (batchSize : BatchSize) (committed : Tables) (tx : Tx) : List QueueRow × Tx :=
  let visible := (tx.view committed).queue
  let ids := Keyed.smallest batchSize.value (visible.map QueueRow.id)
  (visible.filter fun row => ids.contains row.id, { tx with deleted := tx.deleted ++ ids })

structure ResultArrays where
  ids : List Int := []
  statuses : List String := []
  responses : List (Option Json) := []
  errorMsgs : List (Option String) := []

def ResultArrays.push (arrays : ResultArrays) (result : CallResult) : ResultArrays :=
  match result.outcome with
  | .success value =>
    { ids := arrays.ids ++ [result.id], statuses := arrays.statuses ++ ["SUCCESS"]
      responses := arrays.responses ++ [some value], errorMsgs := arrays.errorMsgs ++ [none] }
  | .error text =>
    { ids := arrays.ids ++ [result.id], statuses := arrays.statuses ++ ["ERROR"]
      responses := arrays.responses ++ [none], errorMsgs := arrays.errorMsgs ++ [some text] }

/-- `SELECT * FROM UNNEST(...)`, with the column default of `created`. -/
def unnest (now : Timestamp) (arrays : ResultArrays) : List ResultRow :=
  (arrays.ids.zip (arrays.statuses.zip (arrays.responses.zip arrays.errorMsgs))).map
    fun (id, status, response, errorMsg) => ⟨id, status, response, errorMsg, now⟩

def insertResults (pg : Postgres) (committed : Tables) (tx : Tx) (results : List CallResult) : Except PgError Tx :=
  if results.isEmpty then .ok tx
  else
    let arrays := results.foldl ResultArrays.push {}
    if !arrays.responses.all fun response => response.all pg.acceptsJson then .error .invalidJson
    else if !pg.arraysFit (results.map CallResult.outcome) then .error .programLimit
    else
      let rows := unnest tx.start arrays
      match Keyed.firstClash (tx.view committed).resultIds (rows.map ResultRow.id) with
      | some id => .error (.uniqueViolation id)
      | none => .ok { tx with inserted := tx.inserted ++ rows }

/-- `DELETE FROM grpc._call_result WHERE created < now() - $1::interval`. -/
def deleteExpired (pg : Postgres) (committed : Tables) (tx : Tx) (ttl : String) : Spi Tx :=
  match pg.cutoff tx.start ttl with
  | none => .raised (.invalidInterval ttl)
  | some bound =>
    let old := (tx.view committed).results.filter fun row => decide (row.created < bound)
    .done { tx with expired := tx.expired ++ old.map ResultRow.id }

/-- The clean-up, with the warning it raises where `client.update` returns an error. -/
def ttlCleanup (pg : Postgres) (committed : Tables) (tx : Tx) (ttl : String) : Except PgError (Tx × Option String) :=
  match deleteExpired pg committed tx ttl with
  | .done after => .ok (after, none)
  | .err text => .ok (tx, some ("TTL cleanup skipped (pg_grpc.ttl = \"" ++ ttl ++ "\"): " ++ text))
  | .raised error => .error error

def notFound : String := "not found — result may have expired"

/-- `lookup` over the tables its two selects see: results first, then the queue. -/
def lookup (first second : Tables) (id : Int) : LookupResult :=
  match first.results.find? fun row => row.id == id with
  | some row =>
    if row.status == "SUCCESS" then ⟨id, .success (row.response.getD .null)⟩
    else ⟨id, .error (row.errorMsg.getD "")⟩
  | none =>
    if 0 < (second.queue.filter fun row => row.id == id).length then ⟨id, .pending⟩
    else ⟨id, .error notFound⟩

end Queue
end PgGrpc
