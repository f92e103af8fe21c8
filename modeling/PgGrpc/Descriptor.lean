import PgGrpc.Error
import PgGrpc.Library.Keyed
import PgGrpc.Text

/-! Descriptor pools of prost-reflect, as far as the extension looks into them:
names, imports, services, and which names a file defines and refers to. -/

namespace PgGrpc
open Library

/-- What a type name leads to. -/
inductive TypeName where
  | message (fullName : String)
  | enum (fullName : String)
deriving DecidableEq

inductive FieldType where
  | scalar (name : String)
  | named (type : TypeName)
deriving DecidableEq

structure Field where
  name : String
  number : Nat
  type : FieldType
deriving DecidableEq

structure MessageProto where
  fullName : String
  fields : List Field := []
  oneofs : List String := []
deriving DecidableEq

/-- The values of an enum are names of the scope that the enum itself is in. -/
structure EnumProto where
  scope : String
  name : String
  values : List String
deriving DecidableEq

structure ExtensionProto where
  fullName : String
  extendee : String
  number : Nat
  type : FieldType
deriving DecidableEq

structure MethodProto where
  name : String
  inputType : String
  outputType : String
deriving DecidableEq

structure ServiceProto where
  fullName : String
  methods : List MethodProto
deriving DecidableEq

structure FileProto where
  name : String
  package : String := ""
  dependency : List String := []
  /-- The places of the public imports in `dependency`. -/
  publicDependency : List Nat := []
  messages : List MessageProto := []
  enums : List EnumProto := []
  extensions : List ExtensionProto := []
  services : List ServiceProto := []
  /-- What is wrong with the file whatever else the pool holds: its syntax, numbers or options. -/
  faults : List String := []
deriving DecidableEq

/-- A service with one method, and its message. -/
def FileProto.sample : FileProto where
  name := "echo.proto"
  package := "pkg"
  messages := [{ fullName := "pkg.Text" }]
  services := [⟨"pkg.Echo", [⟨"Say", "pkg.Text", "pkg.Text"⟩]⟩]

def qualified (scope name : String) : String := if scope.isEmpty then name else scope ++ "." ++ name

def EnumProto.fullName (enum : EnumProto) : String := qualified enum.scope enum.name

def FieldType.reference : FieldType → Option TypeName
  | .scalar _ => none
  | .named type => some type

namespace FileProto

def types (file : FileProto) : List TypeName :=
  file.messages.map (fun message => .message message.fullName) ++ file.enums.map fun enum => .enum enum.fullName

/-- Every name that the file defines, but for its package. -/
def symbols (file : FileProto) : List String :=
  file.messages.flatMap (fun message =>
    message.fullName :: (message.fields.map Field.name ++ message.oneofs).map (qualified message.fullName)) ++
  file.enums.flatMap (fun enum => enum.fullName :: enum.values.map (qualified enum.scope)) ++
  file.extensions.map ExtensionProto.fullName ++
  file.services.flatMap fun service =>
    service.fullName :: service.methods.map fun method => qualified service.fullName method.name

/-- The package and those around it. Files may share them. -/
def packages (file : FileProto) : List String := Text.dottedPrefixes file.package

def references (file : FileProto) : List TypeName :=
  file.messages.flatMap (fun message => message.fields.filterMap fun field => field.type.reference) ++
  file.extensions.flatMap (fun extension => .message extension.extendee :: extension.type.reference.toList) ++
  file.services.flatMap fun service =>
    service.methods.flatMap fun method => [.message method.inputType, .message method.outputType]

def publicImports (file : FileProto) : List String := file.publicDependency.filterMap fun place => file.dependency[place]?

end FileProto

structure DescriptorPool where
  files : List FileProto
deriving DecidableEq

structure MessageDescriptor where
  pool : DescriptorPool
  fullName : String

structure MethodDescriptor where
  pool : DescriptorPool
  proto : MethodProto

def MethodDescriptor.input (method : MethodDescriptor) : MessageDescriptor := ⟨method.pool, method.proto.inputType⟩
def MethodDescriptor.output (method : MethodDescriptor) : MessageDescriptor := ⟨method.pool, method.proto.outputType⟩

/-- Why `add_file_descriptor_proto` refuses a file. -/
inductive AddError where
  | duplicate (name : String)
  | missingImport (name : String)
  | unresolved (type : TypeName)
  | faulty (fault : String)
deriving DecidableEq

namespace DescriptorPool

def empty : DescriptorPool := ⟨[]⟩

def getFileByName (pool : DescriptorPool) (name : String) : Option FileProto :=
  pool.files.find? fun file => file.name == name

def symbols (pool : DescriptorPool) : List String := pool.files.flatMap FileProto.symbols

def packages (pool : DescriptorPool) : List String := pool.files.flatMap FileProto.packages

/-- The services with the file that defines each, in the pool's order. -/
def services (pool : DescriptorPool) : List (FileProto × ServiceProto) :=
  pool.files.flatMap fun file => file.services.map fun service => (file, service)

def getServiceByName (pool : DescriptorPool) (name : String) : Option ServiceProto :=
  (pool.services.map Prod.snd).find? fun service => service.fullName == name

/-- The names of the files that an import of `name` shows: that file, and in turn what it
imports publicly. The files are listed last one first, each before those it imports. -/
def shows : List FileProto → String → List String
  | [], _ => []
  | file :: earlier, name =>
    if file.name = name then name :: file.publicImports.flatMap (shows earlier) else shows earlier name

/-- The files of the pool whose types the imports of a file show. -/
def imported (pool : DescriptorPool) (file : FileProto) : List FileProto :=
  let shown := file.dependency.flatMap (shows pool.files.reverse)
  pool.files.filter fun other => shown.contains other.name

/-- The types that a file may refer to. -/
def scope (pool : DescriptorPool) (file : FileProto) : List TypeName :=
  file.types ++ (pool.imported file).flatMap FileProto.types

/-- The first name of a file that is taken. Only packages may share a name. -/
def clash (pool : DescriptorPool) (file : FileProto) : Option String :=
  (file.packages.find? pool.symbols.contains).or
    (Keyed.firstClash (file.packages ++ pool.packages ++ pool.symbols) file.symbols)

/-- `add_file_descriptor_proto`: a name the pool has is ignored; a failure leaves the pool as it was. -/
def addFileDescriptorProto (pool : DescriptorPool) (file : FileProto) : Except AddError DescriptorPool :=
  if (pool.getFileByName file.name).isSome then .ok pool
  else
    match pool.clash file, file.dependency.find? fun name => (pool.getFileByName name).isNone,
      file.references.find? fun type => !(pool.scope file).contains type, file.faults.head? with
    | some name, _, _, _ => .error (.duplicate name)
    | none, some name, _, _ => .error (.missingImport name)
    | none, none, some type, _ => .error (.unresolved type)
    | none, none, none, some fault => .error (.faulty fault)
    | none, none, none, none => .ok ⟨pool.files ++ [file]⟩

end DescriptorPool
end PgGrpc
