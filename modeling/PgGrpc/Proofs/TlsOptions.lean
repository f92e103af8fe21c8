import PgGrpc.Options
import PgGrpc.Process
import PgGrpc.Proofs.Text

/-! What the `tls` object of the options says, read off its fields, and that the
parsed configuration and the one tonic is given say the same. -/

namespace PgGrpc

/-- The value under a key; a null counts as absent. -/
def JsonMap.present (map : JsonMap) (key : String) : Option Json :=
  match map.get key with
  | some .null => none
  | value => value

def tlsObject : Option Json → Option JsonMap
  | some (.object obj) =>
    match JsonMap.get obj "tls" with
    | some (.object m) => some m
    | _ => none
  | _ => none

structure TlsTexts where
  caCert : Option String
  clientCert : Option String
  clientKey : Option String
  domainName : Option String

namespace TlsTexts

/-- The object has these texts under its fields, a certificate only with its key, and nothing else. -/
structure Of (texts : TlsTexts) (m : JsonMap) : Prop where
  caCert : m.present "ca_cert" = texts.caCert.map Json.string
  clientCert : m.present "client_cert" = texts.clientCert.map Json.string
  clientKey : m.present "client_key" = texts.clientKey.map Json.string
  domainName : m.present "domain_name" = texts.domainName.map Json.string
  paired : texts.clientCert.isSome = texts.clientKey.isSome
  others : ∀ key ∉ TlsConfig.acceptedFields, m.get key = none

theorem Of.present_eq {texts : TlsTexts} {m n : JsonMap} (first : texts.Of m) (second : texts.Of n) (key : String) :
    m.present key = n.present key := by
  by_cases accepted : key ∈ TlsConfig.acceptedFields
  · simp only [TlsConfig.acceptedFields, List.mem_cons, List.not_mem_nil, or_false] at accepted
    rcases accepted with rfl | rfl | rfl | rfl
    · exact first.caCert.trans second.caCert.symm
    · exact first.clientCert.trans second.clientCert.symm
    · exact first.clientKey.trans second.clientKey.symm
    · exact first.domainName.trans second.domainName.symm
  · simp only [JsonMap.present, first.others key accepted, second.others key accepted]

def config (texts : TlsTexts) : TlsConfig :=
  ⟨texts.caCert.map String.toUTF8, texts.clientCert.map String.toUTF8, texts.clientKey.map String.toUTF8, texts.domainName⟩

/-- TLS to the host with the system's roots, the CA, the identity and the name of the texts. -/
def clientTls (texts : TlsTexts) : ClientTlsConfig where
  nativeRoots := true
  caCertificate := texts.caCert.map String.toUTF8
  identity := Option.map₂ (fun cert key => (cert.toUTF8, key.toUTF8)) texts.clientCert texts.clientKey
  domainName := texts.domainName

theorem config_build (texts : TlsTexts) : texts.config.buildClientTlsConfig = texts.clientTls := by
  obtain ⟨caCert, clientCert, clientKey, domainName⟩ := texts
  cases clientCert <;> cases clientKey <;> rfl

private theorem toUTF8_injective : Function.Injective String.toUTF8 :=
  fun _ _ same => String.toByteArray_inj.mp same

/-- The configuration given to tonic loses nothing of paired texts. -/
theorem clientTls_injective {first second : TlsTexts} (paired : first.clientCert.isSome = first.clientKey.isSome)
    (other : second.clientCert.isSome = second.clientKey.isSome) (same : first.clientTls = second.clientTls) :
    first = second := by
  obtain ⟨caCert, clientCert, clientKey, domainName⟩ := first
  obtain ⟨caCert', clientCert', clientKey', domainName'⟩ := second
  simp only [clientTls, ClientTlsConfig.mk.injEq, true_and] at same paired other
  obtain ⟨ca, identity, rfl⟩ := same
  obtain rfl := Option.map_injective toUTF8_injective ca
  have pairs : clientCert = clientCert' ∧ clientKey = clientKey' := by
    rcases clientCert with _ | cert <;> rcases clientKey with _ | key <;> cases paired <;>
      rcases clientCert' with _ | cert' <;> rcases clientKey' with _ | key' <;> cases other
    · exact ⟨rfl, rfl⟩
    · cases identity
    · cases identity
    · obtain ⟨certs, keys⟩ := Prod.mk.inj (Option.some.inj identity)
      exact ⟨congrArg some (toUTF8_injective certs), congrArg some (toUTF8_injective keys)⟩
  rw [pairs.1, pairs.2]

end TlsTexts

theorem JsonMap.get_eq_none {m : JsonMap} {key : String} : m.get key = none ↔ key ∉ m.keys := by
  rw [JsonMap.get, Option.map_eq_none_iff, List.find?_eq_none, JsonMap.keys, List.mem_map]
  constructor
  · intro absent listed
    obtain ⟨entry, member, same⟩ := listed
    exact absent entry member (by simpa using same)
  · exact fun absent entry member same => absent ⟨entry, member, by simpa using same⟩

def TlsTexts.Filled (texts : TlsTexts) : Prop :=
  ∀ s, some s ∈ [texts.caCert, texts.clientCert, texts.clientKey, texts.domainName] → ¬ Text.Blank s

namespace TlsConfig

private theorem string_given {s : String} {text : Option String} :
    some (Json.string s) = text.map Json.string ↔ text = some s := by
  rw [eq_comm, Option.map_eq_some_iff]
  constructor
  · intro given
    obtain ⟨other, here, same⟩ := given
    rw [here, Json.string.inj same]
  · exact fun here => ⟨s, here, rfl⟩

theorem parseStringField_ok {obj : JsonMap} {field : String} {text : Option String} :
    parseStringField obj field = .ok text ↔
      obj.present field = text.map Json.string ∧ ∀ s, text = some s → ¬ Text.Blank s := by
  have absent : (.ok none : GrpcResult (Option String)) = .ok text ↔ none = text.map Json.string ∧ ∀ s, text = some s → ¬ Text.Blank s := by
    cases text <;> simp
  unfold parseStringField JsonMap.present
  cases found : obj.get field with
  | none => exact absent
  | some value =>
    cases value with
    | null => exact absent
    | string s =>
      simp only [string_given]
      by_cases blank : (Text.trim s).isEmpty = true
      · rw [if_pos blank]
        exact iff_of_false nofun fun given => given.2 s given.1 (Text.trim_isEmpty.mp blank)
      · rw [if_neg blank, Except.ok.injEq, eq_comm]
        refine ⟨fun given => ⟨given, fun other same => ?_⟩, fun given => given.1⟩
        cases given.symm.trans same
        exact fun blanks => blank (Text.trim_isEmpty.mpr blanks)
    | bool | number | array | object =>
      refine iff_of_false nofun fun given => ?_
      obtain ⟨other, _, same⟩ := Option.map_eq_some_iff.mp given.1.symm
      cases same

theorem parsePemField_ok {obj : JsonMap} {field : String} {pem : Option ByteArray} :
    parsePemField obj field = .ok pem ↔ ∃ text : Option String,
      (obj.present field = text.map Json.string ∧ ∀ s, text = some s → ¬ Text.Blank s) ∧ pem = text.map String.toUTF8 := by
  refine bind_eq_ok.trans (exists_congr fun text => and_congr parseStringField_ok ?_)
  change Except.ok (text.map String.toUTF8) = Except.ok pem ↔ _
  rw [Except.ok.injEq, eq_comm]

theorem checkKeys_ok {m : JsonMap} : checkKeys m = .ok () ↔ ∀ key ∈ m.keys, key ∈ acceptedFields := by
  unfold checkKeys
  split
  next key unknown =>
    have listed := List.mem_of_find?_eq_some unknown
    have refused := List.find?_some unknown
    refine iff_of_false nofun fun known => ?_
    simp [known key listed] at refused
  next none =>
    simpa using none

theorem parse_ok {m : JsonMap} {config : TlsConfig} :
    parse (.object m) = .ok config ↔ ∃ texts : TlsTexts, texts.Of m ∧ texts.Filled ∧ config = texts.config := by
  constructor
  · intro parsed
    obtain ⟨_, object, parsed⟩ := bind_eq_ok.mp parsed
    cases object
    obtain ⟨_, checked, parsed⟩ := bind_eq_ok.mp parsed
    obtain ⟨_, first, parsed⟩ := bind_eq_ok.mp parsed
    obtain ⟨caCert, ca, rfl⟩ := parsePemField_ok.mp first
    obtain ⟨_, second, parsed⟩ := bind_eq_ok.mp parsed
    obtain ⟨clientCert, cert, rfl⟩ := parsePemField_ok.mp second
    obtain ⟨_, third, parsed⟩ := bind_eq_ok.mp parsed
    obtain ⟨clientKey, key, rfl⟩ := parsePemField_ok.mp third
    obtain ⟨domainName, domain, parsed⟩ := bind_eq_ok.mp parsed
    have domain := parseStringField_ok.mp domain
    have paired : clientCert.isSome = clientKey.isSome := by
      cases clientCert <;> cases clientKey <;> first | rfl | cases parsed
    refine ⟨⟨caCert, clientCert, clientKey, domainName⟩, ⟨ca.1, cert.1, key.1, domain.1, paired, ?_⟩, ?_, ?_⟩
    · exact fun key unknown => JsonMap.get_eq_none.mpr fun listed => unknown (checkKeys_ok.mp checked key listed)
    · intro s member
      simp only [List.mem_cons, List.not_mem_nil, or_false] at member
      rcases member with here | here | here | here
      · exact ca.2 s here.symm
      · exact cert.2 s here.symm
      · exact key.2 s here.symm
      · exact domain.2 s here.symm
    · cases clientCert <;> cases clientKey <;> first | exact (Except.ok.inj parsed).symm | cases parsed
  · intro described
    obtain ⟨⟨caCert, clientCert, clientKey, domainName⟩, of, filled, rfl⟩ := described
    have known : checkKeys m = .ok () := checkKeys_ok.mpr fun key listed => by
      by_contra unknown
      exact JsonMap.get_eq_none.mp (of.others key unknown) listed
    have each {text : Option String} (listed : text ∈ [caCert, clientCert, clientKey, domainName]) :
        ∀ s, text = some s → ¬ Text.Blank s := by
      rintro s rfl
      exact filled s listed
    refine bind_eq_ok.mpr ⟨m, rfl, bind_eq_ok.mpr ⟨(), known, ?_⟩⟩
    refine bind_eq_ok.mpr ⟨_, parsePemField_ok.mpr ⟨caCert, ⟨of.caCert, each (by simp)⟩, rfl⟩, ?_⟩
    refine bind_eq_ok.mpr ⟨_, parsePemField_ok.mpr ⟨clientCert, ⟨of.clientCert, each (by simp)⟩, rfl⟩, ?_⟩
    refine bind_eq_ok.mpr ⟨_, parsePemField_ok.mpr ⟨clientKey, ⟨of.clientKey, each (by simp)⟩, rfl⟩, ?_⟩
    refine bind_eq_ok.mpr ⟨_, parseStringField_ok.mpr ⟨of.domainName, each (by simp)⟩, ?_⟩
    have paired := of.paired
    cases clientCert <;> cases clientKey <;> first | rfl | cases paired

end TlsConfig

private theorem field_tls {obj : JsonMap} {tls : Option (Option TlsConfig)}
    (read : OptionsConfig.field obj "tls" OptionsConfig.parseTls = .ok tls) :
    (tlsObject (some (.object obj)) = none ∧ tls.join = none) ∨ ∃ m texts, tlsObject (some (.object obj)) = some m ∧
      TlsTexts.Of texts m ∧ tls.join = some texts.config := by
  unfold OptionsConfig.field at read
  simp only [tlsObject]
  cases found : obj.get "tls" with
  | none =>
    rw [found] at read
    cases read
    exact .inl ⟨rfl, rfl⟩
  | some value =>
    rw [found] at read
    obtain ⟨config, parsed, rest⟩ := bind_eq_ok.mp read
    cases rest
    cases value with
    | null => cases parsed; exact .inl ⟨rfl, rfl⟩
    | object m =>
      obtain ⟨config, accepted, same⟩ := bind_eq_ok.mp parsed
      cases same
      obtain ⟨texts, described, _, rfl⟩ := TlsConfig.parse_ok.mp accepted
      exact .inr ⟨m, texts, rfl, described, rfl⟩
    | bool | number | string | array => cases parsed

theorem OptionsConfig.ofArgument_tls {options : Option Json} {opts : OptionsConfig}
    (parsed : OptionsConfig.ofArgument options = .ok opts) :
    (tlsObject options = none ∧ opts.tls = none) ∨ ∃ m texts, tlsObject options = some m ∧ TlsTexts.Of texts m ∧
      opts.tls = some texts.config := by
  cases options with
  | none => cases parsed; exact .inl ⟨rfl, rfl⟩
  | some value =>
    cases value with
    | null => cases parsed; exact .inl ⟨rfl, rfl⟩
    | object obj =>
      obtain ⟨_, _, parsed⟩ := bind_eq_ok.mp parsed
      obtain ⟨_, _, parsed⟩ := bind_eq_ok.mp parsed
      obtain ⟨_, _, parsed⟩ := bind_eq_ok.mp parsed
      obtain ⟨tls, read, parsed⟩ := bind_eq_ok.mp parsed
      obtain ⟨_, _, parsed⟩ := bind_eq_ok.mp parsed
      obtain ⟨_, _, parsed⟩ := bind_eq_ok.mp parsed
      cases parsed
      exact field_tls read
    | bool | number | string | array => cases parsed

end PgGrpc
