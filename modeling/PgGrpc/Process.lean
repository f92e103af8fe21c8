import PgGrpc.Crates
import PgGrpc.Staging

/-! The process-global statics of the extension, and the monad its async
functions run in. -/

namespace PgGrpc
open Library

inductive Origin where
  | userStaged (filename source : String)
  | reflection (endpoint : String)
deriving DecidableEq

structure RegisteredService where
  pool : DescriptorPool
  origin : Origin
deriving DecidableEq

/-- The cache key: two calls to one host under different TLS settings differ. -/
abbrev Key := String × Option TlsConfig

/-- What a call encodes its request with, and where the registry has that from. -/
structure Resolution where
  endpoint : String
  serviceName : String
  pool : DescriptorPool
  origin : Option Origin
deriving DecidableEq

structure Process where
  channels : Key → Option Channel
  registry : String → Option RegisteredService
  staged : PendingFiles
  /-- The resolutions of all calls so far. No step reads it. -/
  resolved : List Resolution

namespace Process

def fresh : Process := ⟨fun _ => none, fun _ => none, .empty, []⟩

/-- `CHANNELS.write().entry(key).or_insert(channel)`. -/
def orInsertChannel (process : Process) (key : Key) (channel : Channel) : Process :=
  { process with channels := fun other =>
      if other = key then some ((process.channels key).getD channel) else process.channels other }

def insertProtoManual (process : Process) (serviceName : String) (pool : DescriptorPool)
    (filename source : String) : Process :=
  { process with registry := fun name =>
      if name = serviceName then some ⟨pool, .userStaged filename source⟩ else process.registry name }

def insertProtoReflection (process : Process) (serviceName : String) (pool : DescriptorPool)
    (endpoint : String) : Process :=
  { process with registry := fun name =>
      if name = serviceName then some ⟨pool, .reflection endpoint⟩ else process.registry name }

def remove (process : Process) (serviceName : String) : Process :=
  { process with registry := fun name => if name = serviceName then none else process.registry name }

def clear (process : Process) : Process := { process with registry := fun _ => none }

/-- What `proto_registry::list` returns, in the order of some iteration. -/
structure Lists (process : Process) (listed : List (String × Origin)) : Prop where
  once : (listed.map Prod.fst).Nodup
  entries : ∀ serviceName origin, (serviceName, origin) ∈ listed ↔
    (process.registry serviceName).map RegisteredService.origin = some origin

def recordResolution (process : Process) (endpoint serviceName : String) (pool : DescriptorPool) : Process :=
  { process with resolved := process.resolved ++
      [⟨endpoint, serviceName, pool, (process.registry serviceName).map RegisteredService.origin⟩] }

def getProto (process : Process) (serviceName : String) : Option DescriptorPool :=
  (process.registry serviceName).map RegisteredService.pool

@[simp] theorem orInsertChannel_same (process : Process) (key : Key) (channel : Channel) :
    (process.orInsertChannel key channel).channels key = some ((process.channels key).getD channel) := by
  simp [orInsertChannel]

theorem orInsertChannel_other (process : Process) {key other : Key} (channel : Channel) (different : other ≠ key) :
    (process.orInsertChannel key channel).channels other = process.channels other := by
  simp [orInsertChannel, different]

end Process

abbrev Async (α : Type) := Fiber Process Request Reply α

def ask (request : Request) : Async (Reply request) := Fiber.request request

/-- An `async fn` returning `GrpcResult`. -/
abbrev Call (α : Type) := ExceptT GrpcError (Fiber Process Request Reply) α

namespace Call

def ofResult (result : GrpcResult α) : Call α := ExceptT.mk (.done result)

def process : Call Process := ExceptT.lift Fiber.get

def modify (change : Process → Process) : Call Unit := ExceptT.lift (Fiber.modify change)

def connect (uri : String) (tls : Option ClientTlsConfig) : Call (Except String Channel) :=
  ExceptT.lift (ask (.connect uri tls))

def ready (channel : Channel) : Call (Except String Unit) := ExceptT.lift (ask (.ready channel))

def unary (channel : Channel) (path : String) (headers : List (String × String)) (body : Bytes)
    (maxDecode maxEncode : Option Nat) : Call (Except Status Bytes) :=
  ExceptT.lift (ask (.unary channel path headers body maxDecode maxEncode))

end Call

def mapErr (error : ε → δ) : Except ε α → Except δ α
  | .ok value => .ok value
  | .error e => .error (error e)

@[simp] theorem mapErr_eq_ok {error : ε → δ} {result : Except ε α} {value : α} :
    mapErr error result = .ok value ↔ result = .ok value := by
  cases result <;> simp [mapErr]

theorem bind_eq_ok {first : Except ε α} {next : α → Except ε β} {value : β} :
    first >>= next = .ok value ↔ ∃ middle, first = .ok middle ∧ next middle = .ok value := by
  cases first <;> simp [bind, Except.bind]

end PgGrpc
