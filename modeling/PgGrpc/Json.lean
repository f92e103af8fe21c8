import PgGrpc.Text

/-! `serde_json::Value`. An object is the list of its entries in map order; an
integer is a number serde stores as `i64` or `u64`. -/

namespace PgGrpc

inductive Number where
  | int (value : Int)
  | float (text : String)
deriving DecidableEq

inductive Json where
  | null
  | bool (value : Bool)
  | number (value : Number)
  | string (value : String)
  | array (items : List Json)
  | object (entries : List (String × Json))

abbrev JsonMap := List (String × Json)

namespace JsonMap

def get (map : JsonMap) (key : String) : Option Json := (map.find? fun entry => entry.1 == key).map Prod.snd

def keys (map : JsonMap) : List String := map.map Prod.fst

end JsonMap

namespace Json

/-- `Value::as_i64`: a number stored as an integer in the `i64` range. -/
def asI64 : Json → Option Int
  | .number (.int n) => if -2 ^ 63 ≤ n ∧ n ≤ 2 ^ 63 - 1 then some n else none
  | _ => none

def asBool : Json → Option Bool
  | .bool value => some value
  | _ => none

mutual

def hasNul : Json → Bool
  | .string text => Text.hasChar text '\u0000'
  | .array items => itemsHaveNul items
  | .object entries => entriesHaveNul entries
  | _ => false

def itemsHaveNul : List Json → Bool
  | [] => false
  | item :: rest => item.hasNul || itemsHaveNul rest

def entriesHaveNul : List (String × Json) → Bool
  | [] => false
  | (key, value) :: rest => Text.hasChar key '\u0000' || value.hasNul || entriesHaveNul rest

end

end Json
end PgGrpc
