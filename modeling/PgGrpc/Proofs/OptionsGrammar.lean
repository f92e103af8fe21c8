import PgGrpc.Proofs.TlsOptions

/-! The grammar of the options argument. The parser accepts the values of the grammar
and no others, and what it returns says all that the value says. -/

namespace PgGrpc

def Json.entry (value : Json) (key : String) : Option Json :=
  match value with
  | .object obj => JsonMap.get obj key
  | _ => none

def Json.integer (n : Nat) : Json := .number (.int n)

def Json.IntegerIn (low high : Int) (value : Json) : Prop := ∃ n, value = .number (.int n) ∧ low ≤ n ∧ n ≤ high

/-- Accepted fields only, each a null or a text that is not blank, and the two halves
of the identity together. -/
structure TlsConfig.Accepts (m : JsonMap) : Prop where
  known : ∀ key ∈ m.keys, key ∈ acceptedFields
  texts : ∀ field ∈ acceptedFields, ∀ value, m.get field = some value →
    value = .null ∨ ∃ s, value = .string s ∧ ¬ Text.Blank s
  paired : (m.present "client_cert").isSome ↔ (m.present "client_key").isSome

namespace TlsConfig
variable {m : JsonMap}

private theorem Accepts.text (accepts : Accepts m) (field : String) (listed : field ∈ acceptedFields) :
    ∃ text : Option String, m.present field = text.map Json.string ∧ ∀ s, text = some s → ¬ Text.Blank s := by
  have given := accepts.texts field listed
  unfold JsonMap.present
  cases found : m.get field with
  | none => exact ⟨none, rfl, nofun⟩
  | some value =>
    rcases given value found with rfl | ⟨s, rfl, filled⟩
    · exact ⟨none, rfl, nofun⟩
    · exact ⟨some s, rfl, fun other same => Option.some.inj same ▸ filled⟩

private theorem text_given {field : String} {text : Option String} {value : Json}
    (reads : m.present field = text.map Json.string) (filled : ∀ s, text = some s → ¬ Text.Blank s)
    (found : m.get field = some value) : value = .null ∨ ∃ s, value = .string s ∧ ¬ Text.Blank s := by
  rw [JsonMap.present, found] at reads
  cases value with
  | null => exact .inl rfl
  | bool | number | string | array | object =>
    obtain ⟨s, here, same⟩ := Option.map_eq_some_iff.mp reads.symm
    exact .inr ⟨s, same.symm, filled s here⟩

theorem accepts_iff : Accepts m ↔ ∃ texts : TlsTexts, texts.Of m ∧ texts.Filled := by
  constructor
  · intro accepts
    obtain ⟨caCert, ca, caFilled⟩ := accepts.text "ca_cert" (by decide)
    obtain ⟨clientCert, cert, certFilled⟩ := accepts.text "client_cert" (by decide)
    obtain ⟨clientKey, key, keyFilled⟩ := accepts.text "client_key" (by decide)
    obtain ⟨domainName, domain, domainFilled⟩ := accepts.text "domain_name" (by decide)
    have paired := accepts.paired
    rw [cert, key, Option.isSome_map, Option.isSome_map, ← Bool.eq_iff_iff] at paired
    refine ⟨⟨caCert, clientCert, clientKey, domainName⟩, ⟨ca, cert, key, domain, paired, ?_⟩, ?_⟩
    · exact fun key unknown => JsonMap.get_eq_none.mpr fun listed => unknown (accepts.known key listed)
    · intro s member
      simp only [List.mem_cons, List.not_mem_nil, or_false] at member
      rcases member with here | here | here | here
      · exact caFilled s here.symm
      · exact certFilled s here.symm
      · exact keyFilled s here.symm
      · exact domainFilled s here.symm
  · intro described
    obtain ⟨texts, of, filled⟩ := described
    have each {text : Option String} (listed : text ∈ [texts.caCert, texts.clientCert, texts.clientKey, texts.domainName]) :
        ∀ s, text = some s → ¬ Text.Blank s := by
      rintro s rfl
      exact filled s listed
    refine ⟨fun key listed => ?_, fun field listed value found => ?_, ?_⟩
    · by_contra unknown
      exact JsonMap.get_eq_none.mp (of.others key unknown) listed
    · simp only [acceptedFields, List.mem_cons, List.not_mem_nil, or_false] at listed
      rcases listed with rfl | rfl | rfl | rfl
      · exact text_given of.caCert (each (by simp)) found
      · exact text_given of.clientCert (each (by simp)) found
      · exact text_given of.clientKey (each (by simp)) found
      · exact text_given of.domainName (each (by simp)) found
    · rw [of.clientCert, of.clientKey, Option.isSome_map, Option.isSome_map, ← Bool.eq_iff_iff]
      exact of.paired

end TlsConfig

namespace OptionsConfig

structure AcceptsObject (obj : JsonMap) : Prop where
  known : ∀ key ∈ obj.keys, key ∈ acceptedKeys
  timeoutMs : ∀ value, obj.get "timeout_ms" = some value → value.IntegerIn 1 (2 ^ 63 - 1)
  useReflection : ∀ value, obj.get "use_reflection" = some value → ∃ b, value = .bool b
  tls : ∀ value, obj.get "tls" = some value → value = .null ∨ ∃ m, value = .object m ∧ TlsConfig.Accepts m
  maxDecodeMessageSizeBytes : ∀ value, obj.get "max_decode_message_size_bytes" = some value →
    value.IntegerIn 1 (2 ^ 32 - 1)
  maxEncodeMessageSizeBytes : ∀ value, obj.get "max_encode_message_size_bytes" = some value →
    value.IntegerIn 1 (2 ^ 32 - 1)

def Accepts : Json → Prop
  | .null => True
  | .object obj => AcceptsObject obj
  | _ => False

/-- Every field is the given value, and absent where the value has none. -/
structure Carries (value : Json) (cfg : OptionsConfig) : Prop where
  timeoutMs : value.entry "timeout_ms" = cfg.timeoutMs.map Json.integer
  useReflection : value.entry "use_reflection" = cfg.useReflection.map Json.bool
  tls : (tlsObject (some value) = none ∧ cfg.tls = none) ∨
    ∃ m texts, tlsObject (some value) = some m ∧ TlsTexts.Of texts m ∧ cfg.tls = some texts.config
  maxDecodeMessageSizeBytes :
    value.entry "max_decode_message_size_bytes" = cfg.maxDecodeMessageSizeBytes.map Json.integer
  maxEncodeMessageSizeBytes :
    value.entry "max_encode_message_size_bytes" = cfg.maxEncodeMessageSizeBytes.map Json.integer

section Fields

/-- What is read under a key, if anything stands there. -/
def Entry (obj : JsonMap) (key : String) (reads : Json → α → Prop) (read : Option α) : Prop :=
  (obj.get key = none ∧ read = none) ∨ ∃ value x, obj.get key = some value ∧ reads value x ∧ read = some x

theorem field_ok {obj : JsonMap} {key : String} {parse : Json → GrpcResult α} {reads : Json → α → Prop} {read : Option α}
    (parse_ok : ∀ value x, parse value = .ok x ↔ reads value x) :
    field obj key parse = .ok read ↔ Entry obj key reads read := by
  simp only [field, Entry, ← parse_ok]
  cases found : obj.get key with
  | none => simp [eq_comm]
  | some value =>
    simp only [reduceCtorEq, false_and, false_or, Option.some.injEq, exists_and_left, exists_eq_left']
    refine bind_eq_ok.trans (exists_congr fun x => and_congr_right fun _ => ?_)
    change Except.ok (some x) = Except.ok read ↔ _
    rw [Except.ok.injEq, eq_comm]

theorem Entry.exists_iff {obj : JsonMap} {key : String} {reads : Json → α → Prop} :
    (∃ read, Entry obj key reads read) ↔ ∀ value, obj.get key = some value → ∃ x, reads value x := by
  constructor
  · intro entry value found
    obtain ⟨read, ⟨absent, _⟩ | ⟨other, x, here, reads, _⟩⟩ := entry
    · cases absent.symm.trans found
    · cases here.symm.trans found
      exact ⟨x, reads⟩
  · intro each
    cases found : obj.get key with
    | none => exact ⟨none, .inl ⟨found, rfl⟩⟩
    | some value =>
      obtain ⟨x, reads⟩ := each value found
      exact ⟨some x, .inr ⟨value, x, found, reads, rfl⟩⟩

theorem Entry.given {obj : JsonMap} {key : String} {reads : Json → α → Prop} {read : Option α} {back : α → Json}
    (entry : Entry obj key reads read) (faithful : ∀ value x, reads value x → value = back x) :
    obj.get key = read.map back := by
  rcases entry with ⟨absent, rfl⟩ | ⟨value, x, here, reads, rfl⟩
  · exact absent
  · rw [here, faithful value x reads]
    rfl

private theorem asI64_eq {value : Json} {n : Int} :
    value.asI64 = some n ↔ value = .number (.int n) ∧ -2 ^ 63 ≤ n ∧ n ≤ 2 ^ 63 - 1 := by
  unfold Json.asI64
  split
  next other =>
    rw [Option.ite_none_right_eq_some, Option.some.injEq, Json.number.injEq, Number.int.injEq]
    constructor
    · rintro ⟨bounds, rfl⟩
      exact ⟨rfl, bounds⟩
    · rintro ⟨rfl, bounds⟩
      exact ⟨bounds, rfl⟩
  next other => exact iff_of_false nofun fun given => other n given.1

theorem parsePositiveU64_ok {key : String} {value : Json} {n : Nat} :
    parsePositiveU64 key value = .ok n ↔ value = .integer n ∧ 1 ≤ n ∧ (n : Int) ≤ 2 ^ 63 - 1 := by
  unfold parsePositiveU64
  cases read : value.asI64 with
  | none =>
    refine iff_of_false nofun fun given => ?_
    have integer := asI64_eq.mpr ⟨given.1, by omega, given.2.2⟩
    cases read.symm.trans integer
  | some i =>
    obtain ⟨rfl, _, high⟩ := asI64_eq.mp read
    simp only [Json.integer, Json.number.injEq, Number.int.injEq]
    split
    next small => exact iff_of_false nofun (by omega)
    next => rw [Except.ok.injEq]; omega

theorem parseSizeU32_ok {key : String} {value : Json} {n : Nat} :
    parseSizeU32 key value = .ok n ↔ value = .integer n ∧ 1 ≤ n ∧ (n : Int) ≤ 2 ^ 32 - 1 := by
  have max : (u32Max : Int) = 2 ^ 32 - 1 := by decide
  unfold parseSizeU32
  cases read : value.asI64 with
  | none =>
    refine iff_of_false nofun fun given => ?_
    have integer := asI64_eq.mpr ⟨given.1, by omega, by omega⟩
    cases read.symm.trans integer
  | some i =>
    obtain ⟨rfl, _, _⟩ := asI64_eq.mp read
    simp only [Json.integer, Json.number.injEq, Number.int.injEq, max]
    split
    next small => exact iff_of_false nofun (by omega)
    next =>
      split
      next large => exact iff_of_false nofun (by omega)
      next => rw [Except.ok.injEq]; omega

theorem parseBool_ok {key : String} {value : Json} {b : Bool} : parseBool key value = .ok b ↔ value = .bool b := by
  unfold parseBool Json.asBool
  cases value <;> simp

/-- What is read under `tls`: nothing for a null, and else the texts of the object. -/
def ReadsTls (value : Json) (read : Option TlsConfig) : Prop :=
  (value = .null ∧ read = none) ∨
    ∃ m texts, value = .object m ∧ TlsTexts.Of texts m ∧ texts.Filled ∧ read = some texts.config

theorem parseTls_ok {value : Json} {read : Option TlsConfig} : parseTls value = .ok read ↔ ReadsTls value read := by
  unfold ReadsTls
  cases value with
  | null => simp [parseTls, eq_comm]
  | object m =>
    simp only [parseTls, reduceCtorEq, false_and, false_or, Json.object.injEq, exists_and_left, exists_eq_left']
    refine bind_eq_ok.trans ?_
    constructor
    · rintro ⟨config, parsed, rest⟩
      cases rest
      obtain ⟨texts, of, filled, rfl⟩ := TlsConfig.parse_ok.mp parsed
      exact ⟨texts, of, filled, rfl⟩
    · rintro ⟨texts, of, filled, rfl⟩
      exact ⟨texts.config, TlsConfig.parse_ok.mpr ⟨texts, of, filled, rfl⟩, rfl⟩
  | bool | number | string | array => exact iff_of_false nofun (by simp)

theorem checkKeys_ok {obj : JsonMap} : checkKeys obj = .ok () ↔ ∀ key ∈ obj.keys, key ∈ acceptedKeys := by
  unfold checkKeys
  split
  next key unknown =>
    have listed := List.mem_of_find?_eq_some unknown
    have refused := List.find?_some unknown
    refine iff_of_false nofun fun known => ?_
    simp [known key listed] at refused
  next none => simpa using none

end Fields

def ReadsInteger (high : Int) (value : Json) (n : Nat) : Prop := value = .integer n ∧ 1 ≤ n ∧ (n : Int) ≤ high

private theorem exists_integer {high : Int} {value : Json} : (∃ n, ReadsInteger high value n) ↔ value.IntegerIn 1 high := by
  constructor
  · rintro ⟨n, rfl, low, high⟩
    exact ⟨n, rfl, by omega, high⟩
  · rintro ⟨n, rfl, low, high⟩
    refine ⟨n.toNat, ?_, by omega, by omega⟩
    rw [Json.integer, Int.toNat_of_nonneg (by omega)]

private theorem exists_tls {value : Json} :
    (∃ read, ReadsTls value read) ↔ value = .null ∨ ∃ m, value = .object m ∧ TlsConfig.Accepts m := by
  simp only [TlsConfig.accepts_iff]
  constructor
  · rintro ⟨read, ⟨null, _⟩ | ⟨m, texts, object, of, filled, _⟩⟩
    · exact .inl null
    · exact .inr ⟨m, object, texts, of, filled⟩
  · rintro (null | ⟨m, object, texts, of, filled⟩)
    · exact ⟨none, .inl ⟨null, rfl⟩⟩
    · exact ⟨_, .inr ⟨m, texts, object, of, filled, rfl⟩⟩

/-- The parsed options beside the object, field by field. -/
structure Describes (obj : JsonMap) (cfg : OptionsConfig) : Prop where
  known : ∀ key ∈ obj.keys, key ∈ acceptedKeys
  timeoutMs : Entry obj "timeout_ms" (ReadsInteger (2 ^ 63 - 1)) cfg.timeoutMs
  useReflection : Entry obj "use_reflection" (fun value b => value = .bool b) cfg.useReflection
  tls : ∃ tls, Entry obj "tls" ReadsTls tls ∧ cfg.tls = tls.join
  maxDecodeMessageSizeBytes :
    Entry obj "max_decode_message_size_bytes" (ReadsInteger (2 ^ 32 - 1)) cfg.maxDecodeMessageSizeBytes
  maxEncodeMessageSizeBytes :
    Entry obj "max_encode_message_size_bytes" (ReadsInteger (2 ^ 32 - 1)) cfg.maxEncodeMessageSizeBytes

theorem parse_object {obj : JsonMap} {cfg : OptionsConfig} : parse (.object obj) = .ok cfg ↔ Describes obj cfg := by
  have timeout {read} : field obj "timeout_ms" (parsePositiveU64 "timeout_ms") = .ok read ↔
      Entry obj "timeout_ms" (ReadsInteger (2 ^ 63 - 1)) read := field_ok fun _ _ => parsePositiveU64_ok
  have reflection {read} : field obj "use_reflection" (parseBool "use_reflection") = .ok read ↔
      Entry obj "use_reflection" (fun value b => value = .bool b) read := field_ok fun _ _ => parseBool_ok
  have tls {read} : field obj "tls" parseTls = .ok read ↔ Entry obj "tls" ReadsTls read :=
    field_ok fun _ _ => parseTls_ok
  have size {key read} : field obj key (parseSizeU32 key) = .ok read ↔
      Entry obj key (ReadsInteger (2 ^ 32 - 1)) read := field_ok fun _ _ => parseSizeU32_ok
  constructor
  · intro parsed
    obtain ⟨_, known, parsed⟩ := bind_eq_ok.mp parsed
    obtain ⟨timeoutMs, first, parsed⟩ := bind_eq_ok.mp parsed
    obtain ⟨useReflection, second, parsed⟩ := bind_eq_ok.mp parsed
    obtain ⟨nested, third, parsed⟩ := bind_eq_ok.mp parsed
    obtain ⟨maxDecode, fourth, parsed⟩ := bind_eq_ok.mp parsed
    obtain ⟨maxEncode, fifth, parsed⟩ := bind_eq_ok.mp parsed
    cases parsed
    exact {
      known := checkKeys_ok.mp known
      timeoutMs := timeout.mp first
      useReflection := reflection.mp second
      tls := ⟨nested, tls.mp third, rfl⟩
      maxDecodeMessageSizeBytes := size.mp fourth
      maxEncodeMessageSizeBytes := size.mp fifth }
  · intro describes
    obtain ⟨nested, third, same⟩ := describes.tls
    refine bind_eq_ok.mpr ⟨(), checkKeys_ok.mpr describes.known, ?_⟩
    refine bind_eq_ok.mpr ⟨_, timeout.mpr describes.timeoutMs, ?_⟩
    refine bind_eq_ok.mpr ⟨_, reflection.mpr describes.useReflection, ?_⟩
    refine bind_eq_ok.mpr ⟨_, tls.mpr third, ?_⟩
    refine bind_eq_ok.mpr ⟨_, size.mpr describes.maxDecodeMessageSizeBytes, ?_⟩
    refine bind_eq_ok.mpr ⟨_, size.mpr describes.maxEncodeMessageSizeBytes, ?_⟩
    change Except.ok _ = Except.ok cfg
    rw [← same]

private theorem described {obj : JsonMap} : (∃ cfg, Describes obj cfg) ↔ AcceptsObject obj := by
  constructor
  · intro both
    obtain ⟨cfg, describes⟩ := both
    obtain ⟨nested, third, _⟩ := describes.tls
    refine ⟨describes.known, ?_, ?_, ?_, ?_, ?_⟩
    · exact fun value found => exists_integer.mp (Entry.exists_iff.mp ⟨_, describes.timeoutMs⟩ value found)
    · exact Entry.exists_iff.mp ⟨_, describes.useReflection⟩
    · exact fun value found => exists_tls.mp (Entry.exists_iff.mp ⟨nested, third⟩ value found)
    · exact fun value found => exists_integer.mp (Entry.exists_iff.mp ⟨_, describes.maxDecodeMessageSizeBytes⟩ value found)
    · exact fun value found => exists_integer.mp (Entry.exists_iff.mp ⟨_, describes.maxEncodeMessageSizeBytes⟩ value found)
  · intro accepts
    obtain ⟨timeoutMs, first⟩ := Entry.exists_iff.mpr fun value found => exists_integer.mpr (accepts.timeoutMs value found)
    obtain ⟨useReflection, second⟩ := Entry.exists_iff.mpr accepts.useReflection
    obtain ⟨nested, third⟩ := Entry.exists_iff.mpr fun value found => exists_tls.mpr (accepts.tls value found)
    obtain ⟨maxDecode, fourth⟩ := Entry.exists_iff.mpr fun value found =>
      exists_integer.mpr (accepts.maxDecodeMessageSizeBytes value found)
    obtain ⟨maxEncode, fifth⟩ := Entry.exists_iff.mpr fun value found =>
      exists_integer.mpr (accepts.maxEncodeMessageSizeBytes value found)
    exact ⟨⟨timeoutMs, useReflection, nested.join, maxDecode, maxEncode⟩,
      accepts.known, first, second, ⟨nested, third, rfl⟩, fourth, fifth⟩

private theorem carries_null : Carries .null {} :=
  ⟨rfl, rfl, .inl ⟨rfl, rfl⟩, rfl, rfl⟩

private theorem carries_tls {obj : JsonMap} {nested : Option (Option TlsConfig)} (entry : Entry obj "tls" ReadsTls nested) :
    (tlsObject (some (.object obj)) = none ∧ nested.join = none) ∨
      ∃ m texts, tlsObject (some (.object obj)) = some m ∧ TlsTexts.Of texts m ∧ nested.join = some texts.config := by
  simp only [tlsObject]
  rcases entry with ⟨absent, rfl⟩ | ⟨value, read, found, reads, rfl⟩
  · rw [absent]
    exact .inl ⟨rfl, rfl⟩
  · rw [found]
    rcases reads with ⟨rfl, rfl⟩ | ⟨m, texts, rfl, of, _, rfl⟩
    · exact .inl ⟨rfl, rfl⟩
    · exact .inr ⟨m, texts, rfl, of, rfl⟩

private theorem Describes.carries {obj : JsonMap} {cfg : OptionsConfig} (describes : Describes obj cfg) :
    Carries (.object obj) cfg := by
  obtain ⟨nested, third, same⟩ := describes.tls
  have integer {high : Int} (value : Json) (n : Nat) (reads : ReadsInteger high value n) : value = Json.integer n := reads.1
  constructor
  · exact describes.timeoutMs.given integer
  · exact describes.useReflection.given fun _ _ reads => reads
  · rw [same]
    exact carries_tls third
  · exact describes.maxDecodeMessageSizeBytes.given integer
  · exact describes.maxEncodeMessageSizeBytes.given integer

/-- Exactly the grammar is accepted, and nothing of an accepted value is lost. -/
theorem options_exact (v : Json) :
    ((∃ cfg, parse v = .ok cfg) ↔ Accepts v) ∧ ∀ cfg, parse v = .ok cfg → Carries v cfg := by
  cases v with
  | null =>
    refine ⟨iff_of_true ⟨{}, rfl⟩ trivial, fun cfg parsed => ?_⟩
    cases parsed
    exact carries_null
  | object obj =>
    refine ⟨?_, fun cfg parsed => (parse_object.mp parsed).carries⟩
    simp only [parse_object]
    exact described
  | bool | number | string | array =>
    refine ⟨iff_of_false ?_ not_false, fun cfg parsed => ?_⟩
    · rintro ⟨cfg, parsed⟩
      cases parsed
    · cases parsed

end OptionsConfig
end PgGrpc
