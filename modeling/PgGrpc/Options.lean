import PgGrpc.Tls

namespace PgGrpc

def i32Max : Nat := 2 ^ 31 - 1
def u32Max : Nat := 2 ^ 32 - 1

structure OptionsConfig where
  timeoutMs : Option Nat := none
  useReflection : Option Bool := none
  tls : Option TlsConfig := none
  maxDecodeMessageSizeBytes : Option Nat := none
  maxEncodeMessageSizeBytes : Option Nat := none
deriving DecidableEq

namespace OptionsConfig

def acceptedKeys : List String :=
  ["timeout_ms", "use_reflection", "tls", "max_decode_message_size_bytes", "max_encode_message_size_bytes"]

def parsePositiveU64 (key : String) (value : Json) : GrpcResult Nat :=
  match value.asI64 with
  | none => .error (.connection ("options." ++ key ++ " must be an integer"))
  | some n =>
    if n < 1 then .error (.connection ("options." ++ key ++ " must be >= 1 (got " ++ toString n ++ ")"))
    else .ok n.toNat

def parseSizeU32 (key : String) (value : Json) : GrpcResult Nat :=
  match value.asI64 with
  | none => .error (.connection ("options." ++ key ++ " must be an integer"))
  | some n =>
    let outOfRange : GrpcError :=
      .connection ("options." ++ key ++ " must be in [1, " ++ toString u32Max ++ "] (got " ++ toString n ++ ")")
    if n < 1 then .error outOfRange
    else if n > u32Max then .error outOfRange
    else .ok n.toNat

def parseBool (key : String) (value : Json) : GrpcResult Bool :=
  match value.asBool with
  | some b => .ok b
  | none => .error (.connection ("options." ++ key ++ " must be a boolean"))

def parseTls (value : Json) : GrpcResult (Option TlsConfig) :=
  match value with
  | .null => .ok none
  | .object m => return some (← TlsConfig.parse (.object m))
  | _ => .error (.connection "options.tls must be an object")

def checkKeys (obj : JsonMap) : GrpcResult Unit :=
  match obj.keys.find? fun key => !acceptedKeys.contains key with
  | some key => .error (.connection ("options: unknown key '" ++ key ++ "' (accepted keys: " ++
      Text.commaJoin acceptedKeys ++ ")"))
  | none => .ok ()

/-- `if let Some(v) = obj.get(key)`: a missing key leaves the default. -/
def field (obj : JsonMap) (key : String) (parse : Json → GrpcResult α) : GrpcResult (Option α) :=
  match obj.get key with
  | none => .ok none
  | some value => return some (← parse value)

def parse (value : Json) : GrpcResult OptionsConfig :=
  match value with
  | .null => .ok {}
  | .object obj => do
    checkKeys obj
    let timeoutMs ← field obj "timeout_ms" (parsePositiveU64 "timeout_ms")
    let useReflection ← field obj "use_reflection" (parseBool "use_reflection")
    let tls ← field obj "tls" parseTls
    let maxDecodeMessageSizeBytes ←
      field obj "max_decode_message_size_bytes" (parseSizeU32 "max_decode_message_size_bytes")
    let maxEncodeMessageSizeBytes ←
      field obj "max_encode_message_size_bytes" (parseSizeU32 "max_encode_message_size_bytes")
    return { timeoutMs, useReflection, tls := tls.join, maxDecodeMessageSizeBytes, maxEncodeMessageSizeBytes }
  | _ => .error (.connection ("options must be a JSON object (accepted keys: " ++ Text.commaJoin acceptedKeys ++ ")"))

/-- Both entry points read a missing options argument as the default. -/
def ofArgument : Option Json → GrpcResult OptionsConfig
  | none => .ok {}
  | some value => parse value

example : (ofArgument (some (.object [("timeout_ms", .number (.int 5000))]))).map OptionsConfig.timeoutMs =
    .ok (some 5000) := by decide

end OptionsConfig
end PgGrpc
