import PgGrpc.Error
import PgGrpc.Json

namespace PgGrpc

structure TlsConfig where
  caCert : Option ByteArray
  clientCert : Option ByteArray
  clientKey : Option ByteArray
  domainName : Option String
deriving DecidableEq

/-- tonic's `ClientTlsConfig`, as far as `build_client_tls_config` fills it. -/
structure ClientTlsConfig where
  nativeRoots : Bool := false
  caCertificate : Option ByteArray := none
  identity : Option (ByteArray × ByteArray) := none
  domainName : Option String := none
deriving DecidableEq

namespace TlsConfig

def acceptedFields : List String := ["ca_cert", "client_cert", "client_key", "domain_name"]

def parseStringField (obj : JsonMap) (field : String) : GrpcResult (Option String) :=
  match obj.get field with
  | none | some .null => .ok none
  | some (.string s) =>
    if (Text.trim s).isEmpty then .error (.connection ("tls: " ++ field ++ " must not be empty"))
    else .ok (some s)
  | some _ => .error (.connection ("tls: " ++ field ++ " must be a string"))

def parsePemField (obj : JsonMap) (field : String) : GrpcResult (Option ByteArray) := do
  return (← parseStringField obj field).map String.toUTF8

def checkKeys (obj : JsonMap) : GrpcResult Unit :=
  match obj.keys.find? fun key => !acceptedFields.contains key with
  | some key => .error (.connection ("tls: unknown key '" ++ key ++ "' (accepted fields: " ++
      Text.commaJoin acceptedFields ++ ")"))
  | none => .ok ()

def parse (value : Json) : GrpcResult TlsConfig := do
  let obj ← match value with
    | .object m => pure m
    | _ => .error (.connection ("tls must be a JSON object (accepted fields: " ++ Text.commaJoin acceptedFields ++ ")"))
  checkKeys obj
  let caCert ← parsePemField obj "ca_cert"
  let clientCert ← parsePemField obj "client_cert"
  let clientKey ← parsePemField obj "client_key"
  let domainName ← parseStringField obj "domain_name"
  match clientCert, clientKey with
  | some _, none => .error (.connection "tls: client_cert requires client_key")
  | none, some _ => .error (.connection "tls: client_key requires client_cert")
  | _, _ => .ok { caCert, clientCert, clientKey, domainName }

def buildClientTlsConfig (config : TlsConfig) : ClientTlsConfig :=
  { nativeRoots := true
    caCertificate := config.caCert
    identity := match config.clientCert, config.clientKey with
      | some cert, some key => some (cert, key)
      | _, _ => none
    domainName := config.domainName }

end TlsConfig
end PgGrpc
