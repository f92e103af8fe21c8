import PgGrpc.Descriptor
import PgGrpc.Tls
import PgGrpc.Library.Fiber

/-! What the extension uses of tonic, tokio, prost-reflect and serde_json: the
requests it awaits with their replies, and the pure functions it calls. -/

namespace PgGrpc

abbrev Bytes := List UInt8

inductive Code where
  | unimplemented
  | internal
  | other (code : Nat)
deriving DecidableEq

structure Status where
  code : Code
  message : String
deriving DecidableEq

def Status.internal (message : String) : Status := ⟨.internal, message⟩

/-- A connected channel: where it leads, and the runtime that runs its driver task. -/
structure Channel where
  uri : String
  tls : Option ClientTlsConfig
  runtime : Nat
  serial : Nat
deriving DecidableEq

inductive ReflectionVersion where
  | v1
  | v1alpha
deriving DecidableEq

inductive ReflectionMessage where
  | fileDescriptorResponse (fileDescriptorProto : List Bytes)
  | errorResponse (errorCode : Int) (errorMessage : String)
  | other

/-- The messages of a reflection stream, and the status it broke off with, if it
did. The loop over it touches no shared state, so one await stands for it. -/
structure ReflectionStream where
  messages : List ReflectionMessage
  failure : Option Status

inductive Request where
  | connect (uri : String) (tls : Option ClientTlsConfig)
  | serverReflectionInfo (version : ReflectionVersion) (channel : Channel) (fileContainingSymbol : String)
      (maxDecode maxEncode : Option Nat)
  | ready (channel : Channel)
  | unary (channel : Channel) (path : String) (headers : List (String × String)) (body : Bytes)
      (maxDecode maxEncode : Option Nat)

abbrev Reply : Request → Type
  | .connect _ _ => Except String Channel
  | .serverReflectionInfo _ _ _ _ _ => Except Status ReflectionStream
  | .ready _ => Except String Unit
  | .unary _ _ _ _ _ _ => Except Status Bytes

structure DynamicMessage where
  descriptor : MessageDescriptor
  wire : Bytes

structure Crates where
  fromShared : String → Except String Unit
  tlsConfig : ClientTlsConfig → Except String Unit
  /-- Parsing of `http::uri::PathAndQuery`, and the text that it leaves to be sent. -/
  pathAndQuery : String → Except String String
  /-- `AsciiMetadataKey::from_bytes`. -/
  metadataKey : String → Except String Unit
  /-- `AsciiMetadataValue::try_from`. -/
  metadataValue : String → Except String Unit
  /-- `Display` of a JSON value: its compact text. -/
  jsonText : Json → String
  statusText : Status → String
  decodeFile : Bytes → Except String FileProto
  addErrorText : FileProto → AddError → String
  globalFiles : List FileProto
  /-- `open_file` of protox under a resolver, after the files it has opened before. -/
  openFile : (String → Option String) → List String → String → Except String Unit
  /-- The files opened, with their imports. -/
  fileDescriptorSet : (String → Option String) → List String → List FileProto
  /-- `DynamicMessage::deserialize` followed by `encode_to_vec`. -/
  encode : MessageDescriptor → Json → Except String Bytes
  decode : MessageDescriptor → Bytes → Except String DynamicMessage
  /-- `serialize_with_options` under proto field names. -/
  serialize : DynamicMessage → Except String String
  fromSlice : String → Except String Json

/-- Crates that refuse nothing but an unknown file and a request that is no object: the bytes of a file are
its index, a compilation yields the files that are staged, and a response shows the type it was decoded with. -/
def Crates.sample (files : List FileProto) : Crates where
  fromShared _ := .ok ()
  tlsConfig _ := .ok ()
  pathAndQuery path := .ok (Text.before path '#')
  metadataKey _ := .ok ()
  metadataValue _ := .ok ()
  jsonText _ := "null"
  statusText status := status.message
  decodeFile bytes := (bytes.head?.bind fun index => files[index.toNat]?).elim (.error "invalid wire type") .ok
  addErrorText file _ := file.name
  globalFiles := []
  openFile _ _ name := if files.any fun file => file.name == name then .ok () else .error ("file not found: " ++ name)
  fileDescriptorSet resolve _ := files.filter fun file => (resolve file.name).isSome
  encode _
    | .object _ => .ok []
    | _ => .error "expected a map"
  decode desc wire := .ok ⟨desc, wire⟩
  serialize message := .ok message.descriptor.fullName
  fromSlice text := .ok (.string text)

/-- They know one service. -/
def Crates.echo : Crates := .sample [.sample]

end PgGrpc
