import Mathlib

/-! `GrpcError` and its texts. -/

namespace PgGrpc

inductive GrpcError where
  | connection (text : String)
  | proto (text : String)
  | protoCompile (text : String)
  | call (text : String)
  | timeout (ms : Nat)
deriving DecidableEq

/-- The `Display` text that reaches SQL. -/
def GrpcError.display : GrpcError → String
  | .connection text => "Connection error: " ++ text
  | .proto text => "Proto error: " ++ text
  | .protoCompile text => "Proto compile error: " ++ text
  | .call text => "gRPC call failed: " ++ text
  | .timeout ms => "Request timeout: " ++ toString ms ++ "ms"

abbrev GrpcResult (α : Type) := Except GrpcError α

end PgGrpc
