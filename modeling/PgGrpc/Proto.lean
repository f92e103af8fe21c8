import PgGrpc.Process

namespace PgGrpc.Proto
open PgGrpc.Library

def seedFile (crates : Crates) (pool : DescriptorPool) (file : FileProto) : GrpcResult DescriptorPool :=
  if (pool.getFileByName file.name).isSome then .ok pool
  else mapErr (fun e => .protoCompile ("seed WKT " ++ file.name ++ ": " ++ crates.addErrorText file e))
    (pool.addFileDescriptorProto file)

def backfillWkts (crates : Crates) (pool : DescriptorPool) : GrpcResult DescriptorPool :=
  crates.globalFiles.foldlM (seedFile crates) pool

def addFile (crates : Crates) (pool : DescriptorPool) (bytes : Bytes) : Except Status DescriptorPool := do
  let fdp ← mapErr (fun e => .internal ("decode FileDescriptorProto: " ++ e)) (crates.decodeFile bytes)
  mapErr (fun e => .internal ("add to descriptor pool: " ++ crates.addErrorText fdp e)) (pool.addFileDescriptorProto fdp)

def handleMessage (crates : Crates) (pool : DescriptorPool) : ReflectionMessage → Except Status DescriptorPool
  | .fileDescriptorResponse files => files.foldlM (addFile crates) pool
  | .errorResponse code message =>
    .error (.internal ("reflection error (code " ++ toString code ++ "): " ++ message))
  | .other => .ok pool

/-- The loop over the response stream and the check after it. -/
def readStream (crates : Crates) (serviceName : String) (stream : ReflectionStream) : Except Status DescriptorPool := do
  let pool ← stream.messages.foldlM (handleMessage crates) .empty
  match stream.failure with
  | some status => .error status
  | none =>
    if pool.services.isEmpty then
      .error (.internal ("reflection returned no descriptors for service: " ++ serviceName))
    else .ok pool

def fetch (crates : Crates) (version : ReflectionVersion) (channel : Channel) (serviceName : String)
    (maxDecode maxEncode : Option Nat) : Async (Except Status DescriptorPool) := do
  let reply : Except Status ReflectionStream ←
    ask (.serverReflectionInfo version channel serviceName maxDecode maxEncode)
  return reply.bind (readStream crates serviceName)

/-- v1 first; v1alpha only where the server does not implement v1. -/
def fetchPool (crates : Crates) (channel : Channel) (serviceName : String)
    (maxDecode maxEncode : Option Nat) : Call DescriptorPool := do
  let first ← ExceptT.lift (fetch crates .v1 channel serviceName maxDecode maxEncode)
  let fetched ← match first with
    | .ok pool => pure (.ok pool)
    | .error status =>
      if status.code = .unimplemented then
        ExceptT.lift (fetch crates .v1alpha channel serviceName maxDecode maxEncode)
      else pure (.error status)
  match fetched with
  | .error status => Call.ofResult (.error (.proto ("reflection: " ++ status.message)))
  | .ok pool => Call.ofResult (backfillWkts crates pool)

def openFile (crates : Crates) (resolve : String → Option String) (opened : List String) (name : String) :
    GrpcResult (List String) := do
  mapErr .protoCompile (crates.openFile resolve opened name)
  return opened ++ [name]

def addCompiled (crates : Crates) (pool : DescriptorPool) (file : FileProto) : GrpcResult DescriptorPool :=
  mapErr (fun e => .protoCompile (crates.addErrorText file e)) (pool.addFileDescriptorProto file)

/-- Imports resolve against the names in `files`, and against the files protox bundles. -/
def compileProtoFiles (crates : Crates) (files : PendingFiles) : GrpcResult DescriptorPool := do
  if files.entries.isEmpty then
    .error (.protoCompile "no proto files supplied")
  else
    let filenames := files.entries.map Prod.fst
    let opened ← filenames.foldlM (openFile crates files.get) []
    let pool ← (crates.fileDescriptorSet files.get opened).foldlM (addCompiled crates) .empty
    if pool.services.isEmpty then
      .error (.protoCompile "proto source defines no services")
    else backfillWkts crates pool

end PgGrpc.Proto
