import SignalIOS.Signaling.ResponderSessionDescriptor
import SignalIOS.Util.FlatJson

/-! `InitiatorSessionDescriptor`: the descriptor of a call as JSON, and which texts it is read from. -/
namespace SignalIOS.Signaling

structure InitiatorSessionDescriptor where
  relayUdpPort : UInt16
  relayServerName : NSString
  sessionId : Int64
  relayUdpPort_pos : relayUdpPort > 0
  deriving DecidableEq

def sessionIdKey : NSString := "sessionId".toList

def relayPortKey : NSString := "relayPort".toList

def relayHostKey : NSString := "serverName".toList

def unexpectedJsonData : Option String := some "Unexpected json data"

/-- The check that a value is an `NSNumber`. -/
def checkIsNumber : Option JSONValue → Throws JSONNumber
  | some (.number number) => .ok number
  | _ => .error (.operationFailed unexpectedJsonData)

/-- The check that a value is an `NSString`. -/
def checkIsString : Option JSONValue → Throws NSString
  | some (.string text) => .ok text
  | _ => .error (.operationFailed unexpectedJsonData)

def initiatorSessionDescriptorWithSessionId (sessionId : Int64) (relayServerName : Option NSString)
    (relayUdpPort : UInt16) : Throws InitiatorSessionDescriptor := do
  let relayServerName ← owsRequireNotNil relayServerName
  if relayUdpPort_pos : relayUdpPort > 0 then
    return { relayUdpPort, relayServerName, sessionId, relayUdpPort_pos }
  else throw .badArgument

/-- The dictionary that is written. -/
def InitiatorSessionDescriptor.jsonEntries (d : InitiatorSessionDescriptor) :
    List (NSString × JSONValue) :=
  [(sessionIdKey, .number (.integer d.sessionId.toInt)),
    (relayPortKey, .number (.integer d.relayUdpPort.toNat)),
    (relayHostKey, .string d.relayServerName)]

/-- What the checks of the fields let pass. -/
structure PassesChecks (fields : NSString → Option JSONValue) (sessionId relayPort : JSONNumber)
    (relayName : NSString) : Prop where
  sessionId_eq : fields sessionIdKey = some (.number sessionId)
  relayPort_eq : fields relayPortKey = some (.number relayPort)
  relayName_eq : fields relayHostKey = some (.string relayName)
  port_pos : relayPort.unsignedShortValue > 0

/-- `OperationFailed`, with or without a description. -/
def RaisesOperationFailed {α : Type} (x : Throws α) : Prop :=
  ∃ description, x = .error (.operationFailed description)

/-- The numbers of JSON, which the class `NSNumber` shares with the Booleans. A port, if it is an
integer, is one of UDP. -/
structure HasExpectedValues (fields : NSString → Option JSONValue) : Prop where
  sessionId : ∃ number : JSONNumber, fields sessionIdKey = some (.number number) ∧
    number.isBoolean = false
  relayPort : ∃ number : JSONNumber, fields relayPortKey = some (.number number) ∧
    number.isBoolean = false ∧ ∀ n, number = .integer n → 1 ≤ n ∧ n ≤ 65535
  relayName : ∃ name, fields relayHostKey = some (.string name)

section
variable {fields : NSString → Option JSONValue} {sessionId relayPort : JSONNumber}
  {relayName : NSString}

theorem PassesChecks.unique {sessionId' relayPort' : JSONNumber} {relayName' : NSString}
    (h : PassesChecks fields sessionId relayPort relayName)
    (h' : PassesChecks fields sessionId' relayPort' relayName') :
    sessionId = sessionId' ∧ relayPort = relayPort' ∧ relayName = relayName' := by
  have hsession := h.sessionId_eq.symm.trans h'.sessionId_eq
  have hport := h.relayPort_eq.symm.trans h'.relayPort_eq
  have hname := h.relayName_eq.symm.trans h'.relayName_eq
  simp only [Option.some.injEq, JSONValue.number.injEq, JSONValue.string.injEq] at hsession hport hname
  exact ⟨hsession, hport, hname⟩

theorem checkIsNumber_cases (value : Option JSONValue) :
    (∃ number, value = some (.number number)) ∨ RaisesOperationFailed (checkIsNumber value) := by
  rcases value with _ | (number | _ | _)
  · exact .inr ⟨_, rfl⟩
  · exact .inl ⟨number, rfl⟩
  · exact .inr ⟨_, rfl⟩
  · exact .inr ⟨_, rfl⟩

theorem checkIsString_cases (value : Option JSONValue) :
    (∃ text, value = some (.string text)) ∨ RaisesOperationFailed (checkIsString value) := by
  rcases value with _ | (_ | text | _)
  · exact .inr ⟨_, rfl⟩
  · exact .inr ⟨_, rfl⟩
  · exact .inl ⟨text, rfl⟩
  · exact .inr ⟨_, rfl⟩

theorem RaisesOperationFailed.bind {α β : Type} {x : Throws α} (h : RaisesOperationFailed x)
    (f : α → Throws β) : RaisesOperationFailed (x >>= f) := by
  obtain ⟨description, rfl⟩ := h
  exact ⟨description, rfl⟩

theorem toNat_unsignedShortValue {n : ℤ} (hn : 0 ≤ n ∧ n ≤ 65535) :
    ((JSONNumber.integer n).unsignedShortValue.toNat : ℤ) = n := by
  rw [JSONNumber.unsignedShortValue, UInt16.ofInt, UInt16.toNat_ofNat']
  omega

theorem unsignedShortValue_toNat (port : UInt16) :
    (JSONNumber.integer port.toNat).unsignedShortValue = port := by
  have hport := port.toNat_lt
  have hvalue := toNat_unsignedShortValue (n := port.toNat) (by omega)
  exact UInt16.toNat_inj.mp (Int.ofNat_inj.mp hvalue)

theorem isWritable_jsonEntries (d : InitiatorSessionDescriptor) :
    ∀ entry ∈ d.jsonEntries, entry.2.IsWritable := by
  have hsession : (JSONValue.number (.integer d.sessionId.toInt)).IsWritable := by
    have hlo := d.sessionId.le_toInt
    have hhi := d.sessionId.toInt_lt
    exact ⟨hlo, by omega⟩
  have hport : (JSONValue.number (.integer d.relayUdpPort.toNat)).IsWritable := by
    have hhi := d.relayUdpPort.toNat_lt
    constructor <;> omega
  simp only [InitiatorSessionDescriptor.jsonEntries, List.forall_mem_cons]
  exact ⟨hsession, hport, trivial, List.forall_mem_nil _⟩

theorem passesChecks_jsonEntries (d : InitiatorSessionDescriptor) :
    PassesChecks (d.jsonEntries.lookup ·) (.integer d.sessionId.toInt)
      (.integer d.relayUdpPort.toNat) d.relayServerName where
  sessionId_eq := rfl
  relayPort_eq := rfl
  relayName_eq := rfl
  port_pos := (unsignedShortValue_toNat d.relayUdpPort).symm ▸ d.relayUdpPort_pos

end

section
variable [JSONSerialization]

def initiatorSessionDescriptorFromJson (json : Option NSString) :
    Throws InitiatorSessionDescriptor := do
  let json ← checkNotNil json
  let fields ← json.decodedAsJsonIntoDictionary
  let jsonSessionId ← checkIsNumber (fields sessionIdKey)
  let jsonRelayPort ← checkIsNumber (fields relayPortKey)
  let jsonRelayName ← checkIsString (fields relayHostKey)
  checkOperation (jsonRelayPort.unsignedShortValue > 0) unexpectedJsonData
  let sessionId := jsonSessionId.description.longLongValue
  let relayUdpPort := jsonRelayPort.unsignedShortValue
  initiatorSessionDescriptorWithSessionId sessionId (some jsonRelayName) relayUdpPort

def InitiatorSessionDescriptor.toJson (d : InitiatorSessionDescriptor) : Throws NSString :=
  encodedAsJson d.jsonEntries

/-- An accepted text has the values that are expected, and the descriptor has its port. -/
structure ReadsFaithfully (json : NSString) : Prop where
  port_eq : ∀ object d n, JSONSerialization.jsonObjectWithData json.encodedAsUtf8 = .ok object →
    initiatorSessionDescriptorFromJson (some json) = .ok d →
    object.fields relayPortKey = some (.number (.integer n)) → (d.relayUdpPort.toNat : ℤ) = n
  raises : ∀ object, JSONSerialization.jsonObjectWithData json.encodedAsUtf8 = .ok object →
    ¬ HasExpectedValues object.fields →
    RaisesOperationFailed (initiatorSessionDescriptorFromJson (some json))

/-- Numbers that pass the checks although they should not are absent: Booleans, and integers beyond
the ports that are not multiples of `2 ^ 16`. -/
def HasPlainNumbers (json : NSString) : Prop :=
  ∀ object sessionId relayPort relayName,
    JSONSerialization.jsonObjectWithData json.encodedAsUtf8 = .ok object →
    PassesChecks object.fields sessionId relayPort relayName →
      sessionId.isBoolean = false ∧ relayPort.isBoolean = false ∧
        ∀ n, relayPort = .integer n → 1 ≤ n ∧ n ≤ 65535

variable {json : NSString} {object : JSONObject} {fields : NSString → Option JSONValue}
  {sessionId relayPort : JSONNumber} {relayName : NSString}

/-- What is done with the dictionary. -/
theorem initiatorSessionDescriptorFromJson_eq
    (hdecoded : json.decodedAsJsonIntoDictionary = .ok fields) :
    initiatorSessionDescriptorFromJson (some json) = (do
      let jsonSessionId ← checkIsNumber (fields sessionIdKey)
      let jsonRelayPort ← checkIsNumber (fields relayPortKey)
      let jsonRelayName ← checkIsString (fields relayHostKey)
      checkOperation (jsonRelayPort.unsignedShortValue > 0) unexpectedJsonData
      initiatorSessionDescriptorWithSessionId jsonSessionId.description.longLongValue
        (some jsonRelayName) jsonRelayPort.unsignedShortValue) := by
  have hjson : checkNotNil (some json) = pure json := rfl
  rw [initiatorSessionDescriptorFromJson, hjson, pure_bind, hdecoded]
  rfl

theorem initiatorSessionDescriptorFromJson_of_passesChecks
    (hdecoded : json.decodedAsJsonIntoDictionary = .ok fields)
    (h : PassesChecks fields sessionId relayPort relayName) :
    initiatorSessionDescriptorFromJson (some json) =
      .ok ⟨relayPort.unsignedShortValue, relayName, sessionId.description.longLongValue,
        h.port_pos⟩ := by
  have hsession : checkIsNumber (fields sessionIdKey) = pure sessionId := by
    rw [h.sessionId_eq]
    rfl
  have hport : checkIsNumber (fields relayPortKey) = pure relayPort := by
    rw [h.relayPort_eq]
    rfl
  have hname : checkIsString (fields relayHostKey) = pure relayName := by
    rw [h.relayName_eq]
    rfl
  have hpos : checkOperation (relayPort.unsignedShortValue > 0) unexpectedJsonData = pure () :=
    checkOperation_eq_ok.mpr h.port_pos
  rw [initiatorSessionDescriptorFromJson_eq hdecoded, hsession, pure_bind, hport, pure_bind, hname,
    pure_bind, hpos, pure_bind]
  exact dif_pos h.port_pos

/-- The fields pass the checks, or `OperationFailed` is raised. -/
theorem passesChecks_or_raises
    (hread : JSONSerialization.jsonObjectWithData json.encodedAsUtf8 = .ok object) :
    (∃ sessionId relayPort relayName, PassesChecks object.fields sessionId relayPort relayName) ∨
      RaisesOperationFailed (initiatorSessionDescriptorFromJson (some json)) := by
  cases object with
  | other =>
    have hdecoded : RaisesOperationFailed json.decodedAsJsonIntoDictionary := by
      rw [NSString.decodedAsJsonIntoDictionary, hread]
      exact ⟨_, rfl⟩
    exact .inr (hdecoded.bind _)
  | dictionary fields =>
    have hdecoded : json.decodedAsJsonIntoDictionary = .ok fields := by
      rw [NSString.decodedAsJsonIntoDictionary, hread]
    rw [initiatorSessionDescriptorFromJson_eq hdecoded]
    obtain ⟨sessionId, hsession⟩ | hraises := checkIsNumber_cases (fields sessionIdKey)
    case inr => exact .inr (hraises.bind _)
    obtain ⟨relayPort, hport⟩ | hraises := checkIsNumber_cases (fields relayPortKey)
    case inr =>
      rw [hsession]
      exact .inr (hraises.bind _)
    obtain ⟨relayName, hname⟩ | hraises := checkIsString_cases (fields relayHostKey)
    case inr =>
      rw [hsession, hport]
      exact .inr (hraises.bind _)
    by_cases hpos : relayPort.unsignedShortValue > 0
    · exact .inl ⟨sessionId, relayPort, relayName, hsession, hport, hname, hpos⟩
    · have hraises : RaisesOperationFailed
          (checkOperation (relayPort.unsignedShortValue > 0) unexpectedJsonData) :=
        ⟨_, if_neg hpos⟩
      rw [hsession, hport, hname]
      exact .inr (hraises.bind _)

theorem decodedAsJsonIntoDictionary_of_passesChecks
    (hread : JSONSerialization.jsonObjectWithData json.encodedAsUtf8 = .ok object)
    (h : PassesChecks object.fields sessionId relayPort relayName) :
    json.decodedAsJsonIntoDictionary = .ok object.fields := by
  cases object with
  | dictionary fields =>
    rw [NSString.decodedAsJsonIntoDictionary, hread]
    rfl
  | other => cases h.sessionId_eq

/-- What is written is read again. -/
theorem initiatorSessionDescriptorFromJson_toJson (hlawful : JSONSerialization.Lawful)
    (d : InitiatorSessionDescriptor) :
    ∃ json, d.toJson = .ok json ∧ initiatorSessionDescriptorFromJson (some json) = .ok d := by
  have hkeys : [sessionIdKey, relayPortKey, relayHostKey].Nodup := by decide
  obtain ⟨json, hencoded, hdecoded⟩ :=
    exists_decodedAsJson hlawful (isWritable_jsonEntries d) hkeys
  have hport := unsignedShortValue_toNat d.relayUdpPort
  have hsession : (JSONNumber.integer d.sessionId.toInt).description.longLongValue = d.sessionId :=
    NSString.longLongValue_ofInt64 d.sessionId
  refine ⟨json, hencoded, ?_⟩
  rw [initiatorSessionDescriptorFromJson_of_passesChecks hdecoded (passesChecks_jsonEntries d)]
  simp only [hport, hsession]

/-- The text is read faithfully exactly when no number passes the checks that should not. -/
theorem readsFaithfully_iff : ReadsFaithfully json ↔ HasPlainNumbers json := by
  constructor
  · intro hfaithful object sessionId relayPort relayName hread hpasses
    have hok := initiatorSessionDescriptorFromJson_of_passesChecks
      (decodedAsJsonIntoDictionary_of_passesChecks hread hpasses) hpasses
    have hexpected : HasExpectedValues object.fields := by
      by_contra hunexpected
      obtain ⟨_, hraises⟩ := hfaithful.raises object hread hunexpected
      cases hok.symm.trans hraises
    obtain ⟨session', hsession', hsession⟩ := hexpected.sessionId
    obtain ⟨port', hport', hport⟩ := hexpected.relayPort
    obtain rfl : sessionId = session' := by
      simpa using hpasses.sessionId_eq.symm.trans hsession'
    obtain rfl : relayPort = port' := by simpa using hpasses.relayPort_eq.symm.trans hport'
    exact ⟨hsession, hport⟩
  · intro hplain
    constructor
    · intro object d n hread hok hn
      obtain ⟨sessionId, relayPort, relayName, hpasses⟩ | ⟨_, hraises⟩ :=
        passesChecks_or_raises hread
      case inr => cases hok.symm.trans hraises
      obtain rfl : .integer n = relayPort := by
        simpa using hn.symm.trans hpasses.relayPort_eq
      have hd := hok.symm.trans (initiatorSessionDescriptorFromJson_of_passesChecks
        (decodedAsJsonIntoDictionary_of_passesChecks hread hpasses) hpasses)
      obtain rfl := Except.ok.inj hd
      have hbounds := (hplain _ _ _ _ hread hpasses).2.2 n rfl
      exact toNat_unsignedShortValue ⟨by omega, hbounds.2⟩
    · intro object hread hunexpected
      obtain ⟨sessionId, relayPort, relayName, hpasses⟩ | hraises := passesChecks_or_raises hread
      case inr => exact hraises
      obtain ⟨hsession, hport⟩ := hplain _ _ _ _ hread hpasses
      exact absurd ⟨⟨sessionId, hpasses.sessionId_eq, hsession⟩,
        ⟨relayPort, hpasses.relayPort_eq, hport⟩, ⟨relayName, hpasses.relayName_eq⟩⟩ hunexpected

/-- Every descriptor is read as it was written, and exactly those texts are read faithfully in which
no number passes the checks that should not. -/
theorem initiatorSessionDescriptor_spec (hlawful : JSONSerialization.Lawful) :
    (∀ d : InitiatorSessionDescriptor, ∃ json, d.toJson = .ok json ∧
        initiatorSessionDescriptorFromJson (some json) = .ok d) ∧
      ∀ json, ReadsFaithfully json ↔ HasPlainNumbers json :=
  ⟨initiatorSessionDescriptorFromJson_toJson hlawful, fun _ => readsFaithfully_iff⟩

end

section Sample

attribute [local instance] FlatJson.jsonSerialization

def sampleJson (relayPort : NSString) : NSString :=
  "\x7b\"sessionId\":5,\"serverName\":\"example.com\",\"relayPort\":".toList ++ relayPort ++
    "\x7d".toList

def sampleEntries (relayPort : JSONNumber) : List (NSString × JSONValue) :=
  [(sessionIdKey, .number (.integer 5)), (relayHostKey, .string "example.com".toList),
    (relayPortKey, .number relayPort)]

theorem passesChecks_sampleEntries {port : JSONNumber} (hpos : port.unsignedShortValue > 0) :
    PassesChecks ((sampleEntries port).lookup ·) (.integer 5) port "example.com".toList :=
  ⟨rfl, rfl, rfl, hpos⟩

theorem descriptor_sampleJson {portText : NSString} {port : JSONNumber}
    (hread : FlatJson.readObject (sampleJson portText) = some (sampleEntries port))
    (hpos : port.unsignedShortValue > 0) :
    initiatorSessionDescriptorFromJson (some (sampleJson portText)) =
      .ok ⟨port.unsignedShortValue, "example.com".toList, 5, hpos⟩ :=
  initiatorSessionDescriptorFromJson_of_passesChecks
    (decodedAsJsonIntoDictionary_of_passesChecks (FlatJson.jsonObjectWithData_of_readObject hread)
      (passesChecks_sampleEntries hpos)) (passesChecks_sampleEntries hpos)

/-- The descriptor with port 6 is read as it was written, and the constant text faithfully. -/
theorem initiatorSessionDescriptor_spec_sample :
    (∃ json, InitiatorSessionDescriptor.toJson ⟨6, "example.com".toList, 5, by decide⟩ = .ok json ∧
      initiatorSessionDescriptorFromJson (some json) =
        .ok ⟨6, "example.com".toList, 5, by decide⟩) ∧
      ReadsFaithfully (sampleJson "6".toList) := by
  have hspec := initiatorSessionDescriptor_spec FlatJson.lawful_jsonSerialization
  have hentries : FlatJson.readObject (sampleJson "6".toList) = some (sampleEntries (.integer 6)) :=
    rfl
  have hsample : PassesChecks ((sampleEntries (.integer 6)).lookup ·) (.integer 5) (.integer 6)
      "example.com".toList := passesChecks_sampleEntries (by decide)
  refine ⟨hspec.1 _, (hspec.2 _).mpr ?_⟩
  intro object sessionId relayPort relayName hread hpasses
  obtain rfl := Except.ok.inj (hread.symm.trans (FlatJson.jsonObjectWithData_of_readObject hentries))
  obtain ⟨rfl, rfl, rfl⟩ := hpasses.unique hsample
  refine ⟨rfl, rfl, fun n hn => ?_⟩
  cases hn
  decide

/-- A port beyond the range is accepted as its last 16 bits, and a Boolean as 1. -/
theorem initiatorSessionDescriptorFromJson_unfaithful :
    initiatorSessionDescriptorFromJson (some (sampleJson "65542".toList)) =
        .ok ⟨6, "example.com".toList, 5, by decide⟩ ∧
      initiatorSessionDescriptorFromJson (some (sampleJson "true".toList)) =
        .ok ⟨1, "example.com".toList, 5, by decide⟩ ∧
      ¬ ∀ json, ReadsFaithfully json := by
  have hlarge : FlatJson.readObject (sampleJson "65542".toList) =
      some (sampleEntries (.integer 65542)) := rfl
  have hboolean : FlatJson.readObject (sampleJson "true".toList) =
      some (sampleEntries (.boolean true)) := rfl
  have haccepted := descriptor_sampleJson hlarge (by decide)
  refine ⟨haccepted, descriptor_sampleJson hboolean (by decide), fun hall => ?_⟩
  have hport := (hall _).port_eq _ _ 65542 (FlatJson.jsonObjectWithData_of_readObject hlarge)
    haccepted rfl
  exact absurd hport (by decide)

end Sample

end SignalIOS.Signaling
