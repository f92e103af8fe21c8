import PgGrpc.Proto

/-! The SQL functions that stage, compile and unregister schemas. -/

namespace PgGrpc

def validateStageInput (filename source : String) : GrpcResult Unit :=
  if (Text.trim filename).isEmpty then
    .error (.protoCompile "grpc_proto_stage: filename must not be empty")
  else if (Text.trim source).isEmpty then
    .error (.protoCompile "grpc_proto_stage: source must not be empty")
  else .ok ()

def grpcProtoStage (filename source : String) (process : Process) : GrpcResult Unit × Process :=
  match validateStageInput filename source with
  | .ok () => (.ok (), { process with staged := process.staged.stageFile filename source })
  | .error e => (.error e, process)

def grpcProtoUnstage (filename : String) (process : Process) : Bool × Process :=
  ((process.staged.get filename).isSome, { process with staged := process.staged.remove filename })

def grpcProtoUnstageAll (process : Process) : Process := { process with staged := .empty }

/-- The file of a service is named as it was staged, so its name leads back to the snapshot. -/
def registerService (staged : PendingFiles) (pool : DescriptorPool) (process : Process)
    (defined : FileProto × ServiceProto) : Process :=
  let filename := defined.1.name
  process.insertProtoManual defined.2.fullName pool filename ((staged.get filename).getD "")

/-- `grpc_proto_compile`, given the snapshot it takes of the staged files. -/
def grpcProtoCompile (crates : Crates) (staged : PendingFiles) (process : Process) : GrpcResult Unit × Process :=
  match Proto.compileProtoFiles crates staged with
  | .ok pool => (.ok (), { pool.services.foldl (registerService staged pool) process with staged := .empty })
  | .error e => (.error e, process)

def grpcProtoUnregister (serviceName : String) (process : Process) : Bool × Process :=
  ((process.registry serviceName).isSome, process.remove serviceName)

def grpcProtoUnregisterAll (process : Process) : Process := process.clear

def grpcProtoListStaged (process : Process) : List (String × String) := process.staged.list

structure RegisteredRow where
  serviceName : String
  origin : String
  filename : Option String
  source : Option String
  endpoint : Option String
deriving DecidableEq

/-- `grpc_proto_list_registered`, given what `proto_registry::list` returns. -/
def grpcProtoListRegistered (listed : List (String × Origin)) : List RegisteredRow :=
  listed.map fun (serviceName, origin) =>
    match origin with
    | .userStaged filename source => ⟨serviceName, "user", some filename, some source, none⟩
    | .reflection endpoint => ⟨serviceName, "reflection", none, none, some endpoint⟩

end PgGrpc
