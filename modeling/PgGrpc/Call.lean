import PgGrpc.ChannelCache
import PgGrpc.Options
import PgGrpc.Proto

namespace PgGrpc
open Library

def parseMethod (method : String) : GrpcResult (String × String) :=
  let invalid : GrpcResult (String × String) :=
    .error (.proto ("invalid method path (expected 'Service/Method'): " ++ method))
  match Text.rsplitOnce method '/' with
  | none => invalid
  | some (service, methodName) =>
    let service := Text.trim service
    let methodName := Text.trim methodName
    if service.isEmpty || methodName.isEmpty || Text.hasChar service '/' then invalid
    else .ok (service, methodName)

example : parseMethod " pkg.S / M " = .ok ("pkg.S", "M") := by decide

def resolveMethod (pool : DescriptorPool) (serviceName methodName : String) : GrpcResult MethodDescriptor :=
  match pool.getServiceByName serviceName with
  | none => .error (.proto ("service not found: " ++ serviceName))
  | some service =>
    match service.methods.find? fun method => method.name == methodName with
    | none => .error (.proto ("method not found: " ++ methodName))
    | some method => .ok ⟨pool, method⟩

def encodeRequest (crates : Crates) (desc : MessageDescriptor) (json : Json) : GrpcResult Bytes :=
  mapErr (fun e => .proto ("encode request: " ++ e)) (crates.encode desc json)

def decodeResponse (crates : Crates) (desc : MessageDescriptor) (bytes : Bytes) : GrpcResult Json := do
  let message ← mapErr (fun e => .proto ("decode response: " ++ e)) (crates.decode desc bytes)
  let text ← mapErr (fun e => .proto ("serialize response: " ++ e)) (crates.serialize message)
  mapErr (fun e => .proto ("parse serialized response: " ++ e)) (crates.fromSlice text)

def appendItem (crates : Crates) (key metaKey : String) (headers : List (String × String)) (item : Json) :
    GrpcResult (List (String × String)) :=
  let append (s : String) : GrpcResult (List (String × String)) := do
    mapErr (fun e => .call ("metadata '" ++ key ++ "': " ++ e)) (crates.metadataValue s)
    return headers ++ [(metaKey, s)]
  match item with
  | .null => .ok headers
  | .string s => append s
  | other => append (crates.jsonText other)

def appendEntry (crates : Crates) (headers : List (String × String)) (entry : String × Json) :
    GrpcResult (List (String × String)) := do
  let metaKey := Text.asciiLower entry.1
  mapErr (fun e => .call ("metadata key '" ++ entry.1 ++ "': " ++ e)) (crates.metadataKey metaKey)
  let items := match entry.2 with
    | .array items => items
    | other => [other]
  items.foldlM (appendItem crates entry.1 metaKey) headers

def applyMetadata (crates : Crates) (headers : List (String × String)) (metadata : Option Json) :
    GrpcResult (List (String × String)) :=
  match metadata with
  | none | some .null => .ok headers
  | some (.object m) => m.foldlM (appendEntry crates) headers
  | some _ => .error (.call "metadata must be a JSON object")

def unaryCall (crates : Crates) (channel : Channel) (serviceName methodName : String) (body : Bytes)
    (metadata : Option Json) (maxDecode maxEncode : Option Nat) : Call Bytes := do
  let path ← Call.ofResult (mapErr .proto (crates.pathAndQuery ("/" ++ serviceName ++ "/" ++ methodName)))
  match ← Call.ready channel with
  | .error e => Call.ofResult (.error (.connection e))
  | .ok () =>
    let headers ← Call.ofResult (applyMetadata crates [] metadata)
    match ← Call.unary channel path headers body maxDecode maxEncode with
    | .error status => Call.ofResult (.error (.call (crates.statusText status)))
    | .ok bytes => return bytes

structure CallArgs where
  endpoint : String
  method : String
  request : Json
  useReflection : Bool
  metadata : Option Json
  tls : Option TlsConfig
  maxDecode : Option Nat
  maxEncode : Option Nat

/-- The pool the call is encoded with: the registry first, reflection on a miss. -/
def resolvePool (crates : Crates) (args : CallArgs) (channel : Channel) (serviceName : String) : Call DescriptorPool := do
  match (← Call.process).getProto serviceName with
  | some pool => return pool
  | none =>
    if args.useReflection then
      let pool ← Proto.fetchPool crates channel serviceName args.maxDecode args.maxEncode
      Call.modify fun process => process.insertProtoReflection serviceName pool args.endpoint
      return pool
    else
      Call.ofResult (.error (.proto ("service not found in registry and reflection disabled: " ++ serviceName)))

def callOn (crates : Crates) (args : CallArgs) (serviceName methodName : String) (channel : Channel) : Call Json := do
  let pool ← resolvePool crates args channel serviceName
  Call.modify fun process => process.recordResolution args.endpoint serviceName pool
  let methodDesc ← Call.ofResult (resolveMethod pool serviceName methodName)
  let requestBytes ← Call.ofResult (encodeRequest crates methodDesc.input args.request)
  let responseBytes ←
    unaryCall crates channel serviceName methodName requestBytes args.metadata args.maxDecode args.maxEncode
  Call.ofResult (decodeResponse crates methodDesc.output responseBytes)

def callAsync (crates : Crates) (args : CallArgs) : Call Json := do
  let (serviceName, methodName) ← Call.ofResult (parseMethod args.method)
  let channel ← getOrConnect crates args.endpoint args.tls
  callOn crates args serviceName methodName channel

/-- What the network and the timer do during one call, as functions of the number
of the await and of the request. `none` means that the timeout expires there. -/
structure World where
  runtime : Except String Unit
  connect : Nat → String → Option ClientTlsConfig → Option (Except String Nat)
  other : Nat → (request : Request) → Option (Reply request)
  /-- The error of a channel whose driver task is gone. -/
  closed : String

/-- A server that is reached at once, lists one file and answers every request. -/
def World.sample : World where
  runtime := .ok ()
  connect _ _ _ := some (.ok 0)
  other _
    | .connect _ _ => none
    | .serverReflectionInfo _ _ _ _ _ => some (.ok ⟨[.fileDescriptorResponse [[0]]], none⟩)
    | .ready _ => some (.ok ())
    | .unary _ _ _ _ _ _ => some (.ok [])
  closed := "transport error"

/-- How tonic and tokio answer on the runtime `current`: a new channel is driven by
that runtime, and a channel whose runtime was dropped only returns an error. -/
def World.answer (world : World) (alive : Nat → Bool) (current : Nat) :
    Nat → (request : Request) → Option (Reply request)
  | n, .connect uri tls => (world.connect n uri tls).map fun reply => reply.map fun serial => ⟨uri, tls, current, serial⟩
  | n, .serverReflectionInfo version channel symbol maxDecode maxEncode =>
    if alive channel.runtime then world.other n (.serverReflectionInfo version channel symbol maxDecode maxEncode)
    else some (.error ⟨.other 2, "Service was not ready: " ++ world.closed⟩)
  | n, .ready channel => if alive channel.runtime then world.other n (.ready channel) else some (.error world.closed)
  | n, .unary channel path headers body maxDecode maxEncode =>
    if alive channel.runtime then world.other n (.unary channel path headers body maxDecode maxEncode)
    else some (.error ⟨.other 2, world.closed⟩)

end PgGrpc
