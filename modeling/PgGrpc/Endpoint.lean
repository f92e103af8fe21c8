import PgGrpc.Error
import PgGrpc.Text

namespace PgGrpc

def validateEndpoint (endpoint : String) : GrpcResult String :=
  let trimmed := Text.trim endpoint
  if trimmed.isEmpty then
    .error (.connection "endpoint must not be empty")
  else if Text.hasInfix trimmed "://" then
    .error (.connection ("endpoint must not contain scheme (found '://'): " ++ trimmed))
  else if Text.hasChar trimmed '/' then
    .error (.connection ("endpoint must not contain path (found '/'): " ++ trimmed))
  else
    .ok trimmed

example : validateEndpoint " host:50051 " = .ok "host:50051" := by decide

end PgGrpc
