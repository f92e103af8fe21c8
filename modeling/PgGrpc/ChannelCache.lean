import PgGrpc.Process
import PgGrpc.Endpoint

namespace PgGrpc

def getOrConnect (crates : Crates) (endpoint : String) (tls : Option TlsConfig) : Call Channel := do
  let host ← Call.ofResult (validateEndpoint endpoint)
  let key : Key := (host, tls)
  match (← Call.process).channels key with
  | some channel => return channel
  | none =>
    -- The scheme alone selects TLS; the host is the same in both cases.
    let scheme := if tls.isSome then "https" else "http"
    let uri := scheme ++ "://" ++ host
    Call.ofResult (mapErr .connection (crates.fromShared uri))
    let clientTls := tls.map TlsConfig.buildClientTlsConfig
    match clientTls with
    | some config => Call.ofResult (mapErr (fun e => .connection ("TLS config: " ++ e)) (crates.tlsConfig config))
    | none => pure ()
    match ← Call.connect uri clientTls with
    | .error e => Call.ofResult (.error (.connection (host ++ ": " ++ e)))
    | .ok channel =>
      Call.modify fun process => process.orInsertChannel key channel
      return ((← Call.process).channels key).getD channel

end PgGrpc
