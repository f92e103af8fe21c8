import PgGrpc.Library.Guarded
import PgGrpc.Proofs.CallEffects

/-! The metadata argument as a multimap of header values, and the loops that build it. -/

namespace PgGrpc
open Library

/-- The items of an entry: those of an array, and any other value alone. -/
def Json.items : Json → List Json
  | .array items => items
  | other => [other]

namespace Metadata
variable (crates : Crates)

/-- What a header says for an item, if it says anything. -/
def text : Json → Option String
  | .null => none
  | .string s => some s
  | other => some (crates.jsonText other)

def texts (value : Json) : List String := value.items.filterMap (text crates)

/-- tonic takes the name and all the texts of the entry. -/
def AcceptsEntry (entry : String × Json) : Prop :=
  crates.metadataKey (Text.asciiLower entry.1) = .ok () ∧ ∀ s ∈ texts crates entry.2, crates.metadataValue s = .ok ()

def Accepts : Option Json → Prop
  | none | some .null => True
  | some (.object m) => ∀ entry ∈ m, AcceptsEntry crates entry
  | some _ => False

/-- The values of one name: the texts of the entries that lowercase to it, in map order. -/
def values (name : String) : Option Json → List String
  | some (.object m) =>
    (m.filter fun entry => Text.asciiLower entry.1 == name).flatMap fun entry => texts crates entry.2
  | _ => []

def valuesOf (name : String) (headers : List (String × String)) : List String :=
  (headers.filter fun header => header.1 == name).map Prod.snd

def headers (entry : String × Json) : List (String × String) :=
  (texts crates entry.2).map fun s => (Text.asciiLower entry.1, s)

theorem appendItem_steps (key metaKey : String) : Guarded.Steps (appendItem crates key metaKey)
    (fun _ item => ∀ s ∈ text crates item, crates.metadataValue s = .ok ())
    fun before item => before ++ (text crates item).toList.map fun s => (metaKey, s) := by
  have appended {s : String} {before after : List (String × String)} :
      (do mapErr (fun e => GrpcError.call ("metadata '" ++ key ++ "': " ++ e)) (crates.metadataValue s)
          return before ++ [(metaKey, s)]) = Except.ok after ↔
        crates.metadataValue s = .ok () ∧ after = before ++ [(metaKey, s)] := by
    rw [bind_eq_ok]
    simp only [mapErr_eq_ok, pure, Except.pure, Except.ok.injEq]
    constructor
    · intro both
      obtain ⟨_, passed, same⟩ := both
      exact ⟨passed, same.symm⟩
    · exact fun both => ⟨(), both.1, both.2.symm⟩
  intro before item after
  cases item with
  | null => simp [appendItem, text, eq_comm]
  | string s => exact appended.trans (by simp [text])
  | bool | number | array | object => exact appended.trans (by simp [text])

theorem appendEntry_steps : Guarded.Steps (appendEntry crates) (fun _ => AcceptsEntry crates)
    fun before entry => before ++ headers crates entry := by
  intro before entry after
  have looped := (appendItem_steps crates entry.1 (Text.asciiLower entry.1)).appends entry.2.items before after
  have made : (entry.2.items.flatMap fun item => (text crates item).toList.map fun s => (Text.asciiLower entry.1, s)) =
      headers crates entry := by
    rw [headers, texts, List.filterMap_eq_flatMap_toList, List.map_flatMap]
  have checked : (∀ item ∈ entry.2.items, ∀ s ∈ text crates item, crates.metadataValue s = .ok ()) ↔
      ∀ s ∈ texts crates entry.2, crates.metadataValue s = .ok () := by
    simp only [texts, List.mem_filterMap]
    constructor
    · intro all s given
      obtain ⟨item, member, same⟩ := given
      exact all item member s same
    · exact fun all item member s same => all s ⟨item, member, same⟩
  rw [made, checked] at looped
  refine bind_eq_ok.trans ?_
  simp only [mapErr_eq_ok]
  constructor
  · intro both
    obtain ⟨_, valid, ran⟩ := both
    obtain ⟨passed, same⟩ := looped.mp ran
    exact ⟨⟨valid, passed⟩, same⟩
  · intro both
    exact ⟨(), both.1.1, looped.mpr ⟨both.1.2, both.2⟩⟩

theorem applyMetadata_object {m : JsonMap} {after : List (String × String)} :
    applyMetadata crates [] (some (.object m)) = .ok after ↔
      (∀ entry ∈ m, AcceptsEntry crates entry) ∧ after = m.flatMap (headers crates) :=
  (appendEntry_steps crates).appends m [] after

/-- One name gathers the texts of the entries that lowercase to it, and of no others. -/
theorem valuesOf_flatMap (name : String) (m : JsonMap) :
    valuesOf name (m.flatMap (headers crates)) = values crates name (some (.object m)) := by
  have gathered (entry : String × Json) : valuesOf name (headers crates entry) =
      if Text.asciiLower entry.1 == name then texts crates entry.2 else [] := by
    rw [valuesOf, headers, List.filter_map, List.map_map]
    split
    next same => simp [Function.comp_def, same]
    next other => simp [Function.comp_def, other]
  change ((m.flatMap (headers crates)).filter _).map Prod.snd = _
  rw [List.filter_flatMap, List.map_flatMap]
  simp only [values]
  induction m with
  | nil => rfl
  | cons entry rest ih =>
    have first := gathered entry
    rw [List.flatMap_cons, ih, List.filter_cons]
    rw [valuesOf] at first
    rw [first]
    split <;> simp

variable {crates}

theorem applyMetadata_iff {metadata : Option Json} :
    (∃ after, applyMetadata crates [] metadata = .ok after) ↔ Accepts crates metadata := by
  rcases metadata with _ | (_ | _ | _ | _ | _ | m)
  case some.object =>
    simp only [applyMetadata_object, Accepts]
    constructor
    · intro applied
      obtain ⟨_, accepted, _⟩ := applied
      exact accepted
    · exact fun accepted => ⟨_, accepted, rfl⟩
  case none | some.null => exact iff_of_true ⟨[], rfl⟩ trivial
  case some.bool | some.number | some.string | some.array =>
    refine iff_of_false ?_ not_false
    rintro ⟨after, applied⟩
    cases applied

theorem applyMetadata_values {metadata : Option Json} {after : List (String × String)}
    (applied : applyMetadata crates [] metadata = .ok after) (name : String) :
    valuesOf name after = values crates name metadata := by
  rcases metadata with _ | (_ | _ | _ | _ | _ | m)
  case some.object =>
    obtain ⟨_, rfl⟩ := (applyMetadata_object crates).mp applied
    exact valuesOf_flatMap crates name m
  case none | some.null =>
    cases applied
    rfl
  case some.bool | some.number | some.string | some.array => cases applied

section Sending
variable (channel : Channel) (serviceName methodName : String) (body : Bytes) (metadata : Option Json)
  (maxDecode maxEncode : Option Nat)

/-- The two awaits of `unary_call`, with the checks before each. -/
theorem unaryCall_run : (unaryCall crates channel serviceName methodName body metadata maxDecode maxEncode).run =
    match crates.pathAndQuery ("/" ++ serviceName ++ "/" ++ methodName) with
    | .error e => .done (.error (.proto e))
    | .ok path => .await (.ready channel) fun
      | .error e => .done (.error (.connection e))
      | .ok () =>
        match applyMetadata crates [] metadata with
        | .error e => .done (.error e)
        | .ok headers => .await (.unary channel path headers body maxDecode maxEncode) fun
          | .error status => .done (.error (.call (crates.statusText status)))
          | .ok bytes => .done (.ok bytes) := by
  unfold unaryCall
  cases crates.pathAndQuery ("/" ++ serviceName ++ "/" ++ methodName) with
  | error e => rfl
  | ok path =>
    refine congrArg (Fiber.await (Request.ready channel)) (funext fun ready => ?_)
    cases ready with
    | error e => rfl
    | ok =>
      cases applyMetadata crates [] metadata with
      | error e => rfl
      | ok headers =>
        refine congrArg (Fiber.await (Request.unary ..)) (funext fun reply => ?_)
        cases reply <;> rfl

theorem unaryCall_asks : (unaryCall crates channel serviceName methodName body metadata maxDecode maxEncode).run.Within
    (fun request => request = .ready channel ∨ ∃ path headers, applyMetadata crates [] metadata = .ok headers ∧
      request = .unary channel path headers body maxDecode maxEncode) Eq := by
  rw [unaryCall_run]
  split
  next => trivial
  next =>
    refine ⟨.inl rfl, fun ready => ?_⟩
    cases ready with
    | error e => trivial
    | ok =>
      dsimp only
      split
      next => trivial
      next headers applied =>
        refine ⟨.inr ⟨_, headers, applied, rfl⟩, fun reply => ?_⟩
        cases reply <;> trivial

end Sending

/-- The argument becomes exactly its headers, and nothing is sent where it does not. -/
theorem metadata_exact (crates : Crates) (metadata : Option Json) :
    ((∃ after, applyMetadata crates [] metadata = .ok after) ↔ Accepts crates metadata) ∧
    (∀ after, applyMetadata crates [] metadata = .ok after → ∀ name, valuesOf name after = values crates name metadata) ∧
    (∀ e, applyMetadata crates [] metadata = .error e → ∀ channel serviceName methodName body maxDecode maxEncode,
      (unaryCall crates channel serviceName methodName body metadata maxDecode maxEncode).run.Within
        (fun request => request = .ready channel) Eq) := by
  refine ⟨applyMetadata_iff, fun after applied => applyMetadata_values applied, fun e failed => ?_⟩
  intro channel serviceName methodName body maxDecode maxEncode
  have asks := @unaryCall_asks crates channel serviceName methodName body metadata maxDecode maxEncode
  simp only [failed, reduceCtorEq, false_and, exists_false, or_false] at asks
  exact asks

end Metadata
end PgGrpc
