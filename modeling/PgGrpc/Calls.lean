import PgGrpc.Call
import PgGrpc.ProtoManagement
import PgGrpc.Library.Tasks

/-! The calls of one process, a backend or the worker, interleaved at their awaits.
A backend runs one SQL function at a time, and the worker runs none of those that
change its schemas, so no call is in flight when one of them runs. -/

namespace PgGrpc.Calls
open Library

inductive Operation where
  | stage (filename source : String)
  | unstage (filename : String)
  | unstageAll
  /-- The snapshot lists the staged files in the order of some iteration. -/
  | compile (snapshot : PendingFiles)
  | unregister (serviceName : String)
  | unregisterAll

def Operation.run (crates : Crates) (operation : Operation) (process : Process) : Process :=
  match operation with
  | .stage filename source => (grpcProtoStage filename source process).2
  | .unstage filename => (grpcProtoUnstage filename process).2
  | .unstageAll => grpcProtoUnstageAll process
  | .compile snapshot =>
    if snapshot.Same process.staged then (grpcProtoCompile crates snapshot process).2 else process
  | .unregister serviceName => (grpcProtoUnregister serviceName process).2
  | .unregisterAll => grpcProtoUnregisterAll process

abbrev State := Tasks Process Request Reply CallArgs (GrpcResult Json)

abbrev Event := Turn Request Reply CallArgs Operation

def step (crates : Crates) : State → Event → Option State :=
  Tasks.step (fun args => (callAsync crates args).run) (Operation.run crates)

def machine (crates : Crates) : Machine State Event :=
  Tasks.machine (fun process => process = .fresh) (fun args => (callAsync crates args).run) (Operation.run crates)

end PgGrpc.Calls
