import ServerLib.Lib.Reader
import ServerLib.Mqtt.Protocol

/-! The properties of MQTT 5: a block with its length before it, in which each property is a byte,
its name, and a value of one of six kinds. -/

namespace ServerLib.Mqtt

open Lib List

inductive PropertyId
  | payloadFormatIndicicator
  | messageExpiryInterval
  | contentType
  | responseTopic
  | correlationData
  | subscriptionIdentifier
  | sessionExpiryInterval
  | assignedClientIdentifier
  | serverKeepAlive
  | authenticationMethod
  | authenticationData
  | requestProblemInformation
  | willDelayInterval
  | requestResponseInformation
  | responseInformation
  | serverReference
  | reasonString
  | receiveMaximum
  | topicAliasMaximum
  | topicAlias
  | maximumQos
  | retainAvailable
  | userProperty
  | maximumPacketSize
  | wildcardSubscriptionAvailable
  | subscriptionIdentifierAvailable
  | sharedSubscriptionAvailable
deriving DecidableEq

def PropertyId.code : PropertyId → UInt8
  | .payloadFormatIndicicator => 0x01
  | .messageExpiryInterval => 0x02
  | .contentType => 0x03
  | .responseTopic => 0x08
  | .correlationData => 0x09
  | .subscriptionIdentifier => 0x0B
  | .sessionExpiryInterval => 0x11
  | .assignedClientIdentifier => 0x12
  | .serverKeepAlive => 0x13
  | .authenticationMethod => 0x15
  | .authenticationData => 0x16
  | .requestProblemInformation => 0x17
  | .willDelayInterval => 0x18
  | .requestResponseInformation => 0x19
  | .responseInformation => 0x1A
  | .serverReference => 0x1C
  | .reasonString => 0x1F
  | .receiveMaximum => 0x21
  | .topicAliasMaximum => 0x22
  | .topicAlias => 0x23
  | .maximumQos => 0x24
  | .retainAvailable => 0x25
  | .userProperty => 0x26
  | .maximumPacketSize => 0x27
  | .wildcardSubscriptionAvailable => 0x28
  | .subscriptionIdentifierAvailable => 0x29
  | .sharedSubscriptionAvailable => 0x2A

def PropertyId.all : List PropertyId :=
  [.payloadFormatIndicicator, .messageExpiryInterval, .contentType, .responseTopic,
    .correlationData, .subscriptionIdentifier, .sessionExpiryInterval, .assignedClientIdentifier,
    .serverKeepAlive, .authenticationMethod, .authenticationData, .requestProblemInformation,
    .willDelayInterval, .requestResponseInformation, .responseInformation, .serverReference,
    .reasonString, .receiveMaximum, .topicAliasMaximum, .topicAlias, .maximumQos, .retainAvailable,
    .userProperty, .maximumPacketSize, .wildcardSubscriptionAvailable,
    .subscriptionIdentifierAvailable, .sharedSubscriptionAvailable]

/-- The cast of a byte, `none` for what falls to the default case. -/
def PropertyId.ofCode (code : UInt8) : Option PropertyId := all.find? (·.code == code)

structure MqttProperties where
  payloadFormatIndicator : Option UInt8 := none
  messageExpiryInterval : Option UInt32 := none
  contentType : Option Bytes := none
  responseTopic : Option Bytes := none
  correlationData : Option Bytes := none
  subscriptionIdentifier : Option UInt32 := none
  sessionExpiryInterval : Option UInt32 := none
  assignedClientIdentifier : Option Bytes := none
  serverKeepAlive : Option UInt16 := none
  authenticationMethod : Option Bytes := none
  authenticationData : Option Bytes := none
  requestProblemInformation : Option UInt8 := none
  willDelayInterval : Option UInt32 := none
  requestResponseInformation : Option UInt8 := none
  responseInformation : Option Bytes := none
  serverReference : Option Bytes := none
  reasonString : Option Bytes := none
  receiveMaximum : Option UInt16 := none
  topicAliasMaximum : Option UInt16 := none
  topicAlias : Option UInt16 := none
  maximumQos : Option UInt8 := none
  retainAvailable : Option UInt8 := none
  maximumPacketSize : Option UInt32 := none
  wildcardSubscriptionAvailable : Option UInt8 := none
  subscriptionIdentifierAvailable : Option UInt8 := none
  sharedSubscriptionAvailable : Option UInt8 := none
  userProperties : List UserProperty := []
deriving DecidableEq

def encodeVariableByteInt (value : UInt32) : Bytes := writeVar 5 value.toNat

def writeByte (value : UInt8) : Bytes := [value]

def writeUtf8String (str : Bytes) : Bytes := writeBlock str

def writeBinaryData (data : Bytes) : Bytes := writeBlock data

/-- A property with its name, if it is there. -/
def writeProperty {α : Type} (id : PropertyId) (write : α → Bytes) : Option α → Bytes
  | none => []
  | some value => id.code :: write value

def writeUserProperty (property : UserProperty) : Bytes :=
  PropertyId.userProperty.code :: (writeUtf8String property.key ++ writeUtf8String property.value)

namespace MqttProperties

def hasAny (p : MqttProperties) : Bool :=
  p.payloadFormatIndicator.isSome || p.messageExpiryInterval.isSome || p.contentType.isSome ||
  p.responseTopic.isSome || p.correlationData.isSome || p.subscriptionIdentifier.isSome ||
  p.sessionExpiryInterval.isSome || p.assignedClientIdentifier.isSome ||
  p.serverKeepAlive.isSome || p.authenticationMethod.isSome || p.authenticationData.isSome ||
  p.requestProblemInformation.isSome || p.willDelayInterval.isSome ||
  p.requestResponseInformation.isSome || p.responseInformation.isSome ||
  p.serverReference.isSome || p.reasonString.isSome || p.receiveMaximum.isSome ||
  p.topicAliasMaximum.isSome || p.topicAlias.isSome || p.maximumQos.isSome ||
  p.retainAvailable.isSome || p.maximumPacketSize.isSome ||
  p.wildcardSubscriptionAvailable.isSome || p.subscriptionIdentifierAvailable.isSome ||
  p.sharedSubscriptionAvailable.isSome || !p.userProperties.isEmpty

/-- The properties one after the other. -/
def encodeBody (p : MqttProperties) : Bytes :=
  [writeProperty .payloadFormatIndicicator writeByte p.payloadFormatIndicator,
   writeProperty .messageExpiryInterval writeU32 p.messageExpiryInterval,
   writeProperty .contentType writeUtf8String p.contentType,
   writeProperty .responseTopic writeUtf8String p.responseTopic,
   writeProperty .correlationData writeBinaryData p.correlationData,
   writeProperty .subscriptionIdentifier encodeVariableByteInt p.subscriptionIdentifier,
   writeProperty .sessionExpiryInterval writeU32 p.sessionExpiryInterval,
   writeProperty .assignedClientIdentifier writeUtf8String p.assignedClientIdentifier,
   writeProperty .serverKeepAlive writeU16 p.serverKeepAlive,
   writeProperty .authenticationMethod writeUtf8String p.authenticationMethod,
   writeProperty .authenticationData writeBinaryData p.authenticationData,
   writeProperty .requestProblemInformation writeByte p.requestProblemInformation,
   writeProperty .willDelayInterval writeU32 p.willDelayInterval,
   writeProperty .requestResponseInformation writeByte p.requestResponseInformation,
   writeProperty .responseInformation writeUtf8String p.responseInformation,
   writeProperty .serverReference writeUtf8String p.serverReference,
   writeProperty .reasonString writeUtf8String p.reasonString,
   writeProperty .receiveMaximum writeU16 p.receiveMaximum,
   writeProperty .topicAliasMaximum writeU16 p.topicAliasMaximum,
   writeProperty .topicAlias writeU16 p.topicAlias,
   writeProperty .maximumQos writeByte p.maximumQos,
   writeProperty .retainAvailable writeByte p.retainAvailable,
   writeProperty .maximumPacketSize writeU32 p.maximumPacketSize,
   writeProperty .wildcardSubscriptionAvailable writeByte p.wildcardSubscriptionAvailable,
   writeProperty .subscriptionIdentifierAvailable writeByte p.subscriptionIdentifierAvailable,
   writeProperty .sharedSubscriptionAvailable writeByte p.sharedSubscriptionAvailable].flatten ++
  p.userProperties.flatMap writeUserProperty

end MqttProperties

def encodeProperties (p : MqttProperties) : Bytes :=
  if !p.hasAny then encodeVariableByteInt 0
  else encodeVariableByteInt (UInt32.ofNat p.encodeBody.length) ++ p.encodeBody

def decodeVariableByteInt : Reader UInt32 := fun bytes =>
  (readVar 4 bytes).map fun (value, rest) => (UInt32.ofNat value, rest)

def readUtf8String : Reader Bytes := readBlock

def readBinaryData : Reader Bytes := readBlock

/-- Reads a value and stores it. -/
def storing {α : Type} (read : Reader α) (store : α → MqttProperties) : Reader MqttProperties :=
  fun bytes => (read bytes).map fun (value, rest) => (store value, rest)

def readUserProperty : Reader UserProperty := fun bytes =>
  match readUtf8String bytes with
  | none => none
  | some (key, rest) => (readUtf8String rest).map fun (value, rest) => (⟨key, value⟩, rest)

/-- One case of the switch in `decode_properties`. -/
def decodeProperty (p : MqttProperties) : PropertyId → Reader MqttProperties
  | .payloadFormatIndicicator => storing readU8 fun v => { p with payloadFormatIndicator := some v }
  | .messageExpiryInterval => storing readU32 fun v => { p with messageExpiryInterval := some v }
  | .contentType => storing readUtf8String fun v => { p with contentType := some v }
  | .responseTopic => storing readUtf8String fun v => { p with responseTopic := some v }
  | .correlationData => storing readBinaryData fun v => { p with correlationData := some v }
  | .subscriptionIdentifier =>
    storing decodeVariableByteInt fun v => { p with subscriptionIdentifier := some v }
  | .sessionExpiryInterval => storing readU32 fun v => { p with sessionExpiryInterval := some v }
  | .assignedClientIdentifier =>
    storing readUtf8String fun v => { p with assignedClientIdentifier := some v }
  | .serverKeepAlive => storing readU16 fun v => { p with serverKeepAlive := some v }
  | .authenticationMethod =>
    storing readUtf8String fun v => { p with authenticationMethod := some v }
  | .authenticationData => storing readBinaryData fun v => { p with authenticationData := some v }
  | .requestProblemInformation =>
    storing readU8 fun v => { p with requestProblemInformation := some v }
  | .willDelayInterval => storing readU32 fun v => { p with willDelayInterval := some v }
  | .requestResponseInformation =>
    storing readU8 fun v => { p with requestResponseInformation := some v }
  | .responseInformation => storing readUtf8String fun v => { p with responseInformation := some v }
  | .serverReference => storing readUtf8String fun v => { p with serverReference := some v }
  | .reasonString => storing readUtf8String fun v => { p with reasonString := some v }
  | .receiveMaximum => storing readU16 fun v => { p with receiveMaximum := some v }
  | .topicAliasMaximum => storing readU16 fun v => { p with topicAliasMaximum := some v }
  | .topicAlias => storing readU16 fun v => { p with topicAlias := some v }
  | .maximumQos => storing readU8 fun v => { p with maximumQos := some v }
  | .retainAvailable => storing readU8 fun v => { p with retainAvailable := some v }
  | .maximumPacketSize => storing readU32 fun v => { p with maximumPacketSize := some v }
  | .wildcardSubscriptionAvailable =>
    storing readU8 fun v => { p with wildcardSubscriptionAvailable := some v }
  | .subscriptionIdentifierAvailable =>
    storing readU8 fun v => { p with subscriptionIdentifierAvailable := some v }
  | .sharedSubscriptionAvailable =>
    storing readU8 fun v => { p with sharedSubscriptionAvailable := some v }
  | .userProperty => storing readUserProperty fun v =>
    { p with userProperties := p.userProperties ++ [v] }

/-- The loop of `decode_properties`, over what is in the block.  Each round takes a byte at least,
so that `rounds` may be the length of the block. -/
def decodePropertiesFrom : Nat → MqttProperties → Bytes → Option MqttProperties
  | _, p, [] => some p
  | 0, _, _ :: _ => none
  | rounds + 1, p, code :: bytes =>
    match PropertyId.ofCode code with
    | none => none
    | some id =>
      match decodeProperty p id bytes with
      | none => none
      | some (p, rest) => decodePropertiesFrom rounds p rest

/-- `decode_properties`, with `none` where it returns 0. -/
def decodeProperties : Reader MqttProperties := fun bytes =>
  match decodeVariableByteInt bytes with
  | none => none
  | some (propLen, rest) =>
    if propLen.toNat ≤ rest.length then
      (decodePropertiesFrom propLen.toNat {} (rest.take propLen.toNat)).map
        (·, rest.drop propLen.toNat)
    else none

theorem PropertyId.ofCode_code (id : PropertyId) : ofCode id.code = some id := by
  cases id with
  | _ => rfl

theorem reads_variableByteInt (h : value.toNat < 2 ^ 28) :
    Reads decodeVariableByteInt (encodeVariableByteInt value) value := by
  intro rest
  rw [decodeVariableByteInt, encodeVariableByteInt, reads_var (by decide) (by decide) h]
  simp

/-- A string fits its length. -/
def FitsBlock (bytes : Bytes) : Prop := bytes.length < 2 ^ 16

instance (bytes : Bytes) : Decidable (FitsBlock bytes) := inferInstanceAs (Decidable (_ < _))

inductive Wire
  | byte
  | twoByteInteger
  | fourByteInteger
  | variableByteInteger
  | utf8String
  | binaryData

namespace Wire

def Value : Wire → Type
  | byte => UInt8
  | twoByteInteger => UInt16
  | fourByteInteger | variableByteInteger => UInt32
  | utf8String | binaryData => Bytes

def write : (wire : Wire) → wire.Value → Bytes
  | byte => writeByte
  | twoByteInteger => writeU16
  | fourByteInteger => writeU32
  | variableByteInteger => encodeVariableByteInt
  | utf8String => writeUtf8String
  | binaryData => writeBinaryData

def read : (wire : Wire) → Reader wire.Value
  | byte => readU8
  | twoByteInteger => readU16
  | fourByteInteger => readU32
  | variableByteInteger => decodeVariableByteInt
  | utf8String => readUtf8String
  | binaryData => readBinaryData

def Fits : (wire : Wire) → wire.Value → Prop
  | byte, _ | twoByteInteger, _ | fourByteInteger, _ => True
  | variableByteInteger, (v : UInt32) => v.toNat < 2 ^ 28
  | utf8String, (v : Bytes) | binaryData, (v : Bytes) => FitsBlock v

theorem reads (wire : Wire) {v : wire.Value} (h : wire.Fits v) :
    Reads wire.read (wire.write v) v := by
  cases wire with
  | byte => exact reads_u8 v
  | twoByteInteger => exact reads_u16 v
  | fourByteInteger => exact reads_u32 v
  | variableByteInteger => exact reads_variableByteInt h
  | utf8String | binaryData => exact reads_block h

end Wire

/-- The kind of each property.  A user property is a pair of strings, and is treated apart. -/
def PropertyId.wire : PropertyId → Wire
  | .payloadFormatIndicicator => .byte
  | .messageExpiryInterval => .fourByteInteger
  | .contentType => .utf8String
  | .responseTopic => .utf8String
  | .correlationData => .binaryData
  | .subscriptionIdentifier => .variableByteInteger
  | .sessionExpiryInterval => .fourByteInteger
  | .assignedClientIdentifier => .utf8String
  | .serverKeepAlive => .twoByteInteger
  | .authenticationMethod => .utf8String
  | .authenticationData => .binaryData
  | .requestProblemInformation => .byte
  | .willDelayInterval => .fourByteInteger
  | .requestResponseInformation => .byte
  | .responseInformation => .utf8String
  | .serverReference => .utf8String
  | .reasonString => .utf8String
  | .receiveMaximum => .twoByteInteger
  | .topicAliasMaximum => .twoByteInteger
  | .topicAlias => .twoByteInteger
  | .maximumQos => .byte
  | .retainAvailable => .byte
  | .maximumPacketSize => .fourByteInteger
  | .wildcardSubscriptionAvailable => .byte
  | .subscriptionIdentifierAvailable => .byte
  | .sharedSubscriptionAvailable => .byte
  | .userProperty => .utf8String

namespace MqttProperties

def get (p : MqttProperties) : (id : PropertyId) → Option id.wire.Value
  | .payloadFormatIndicicator => p.payloadFormatIndicator
  | .messageExpiryInterval => p.messageExpiryInterval
  | .contentType => p.contentType
  | .responseTopic => p.responseTopic
  | .correlationData => p.correlationData
  | .subscriptionIdentifier => p.subscriptionIdentifier
  | .sessionExpiryInterval => p.sessionExpiryInterval
  | .assignedClientIdentifier => p.assignedClientIdentifier
  | .serverKeepAlive => p.serverKeepAlive
  | .authenticationMethod => p.authenticationMethod
  | .authenticationData => p.authenticationData
  | .requestProblemInformation => p.requestProblemInformation
  | .willDelayInterval => p.willDelayInterval
  | .requestResponseInformation => p.requestResponseInformation
  | .responseInformation => p.responseInformation
  | .serverReference => p.serverReference
  | .reasonString => p.reasonString
  | .receiveMaximum => p.receiveMaximum
  | .topicAliasMaximum => p.topicAliasMaximum
  | .topicAlias => p.topicAlias
  | .maximumQos => p.maximumQos
  | .retainAvailable => p.retainAvailable
  | .maximumPacketSize => p.maximumPacketSize
  | .wildcardSubscriptionAvailable => p.wildcardSubscriptionAvailable
  | .subscriptionIdentifierAvailable => p.subscriptionIdentifierAvailable
  | .sharedSubscriptionAvailable => p.sharedSubscriptionAvailable
  | .userProperty => none

def set (p : MqttProperties) : (id : PropertyId) → Option id.wire.Value → MqttProperties
  | .payloadFormatIndicicator, v => { p with payloadFormatIndicator := v }
  | .messageExpiryInterval, v => { p with messageExpiryInterval := v }
  | .contentType, v => { p with contentType := v }
  | .responseTopic, v => { p with responseTopic := v }
  | .correlationData, v => { p with correlationData := v }
  | .subscriptionIdentifier, v => { p with subscriptionIdentifier := v }
  | .sessionExpiryInterval, v => { p with sessionExpiryInterval := v }
  | .assignedClientIdentifier, v => { p with assignedClientIdentifier := v }
  | .serverKeepAlive, v => { p with serverKeepAlive := v }
  | .authenticationMethod, v => { p with authenticationMethod := v }
  | .authenticationData, v => { p with authenticationData := v }
  | .requestProblemInformation, v => { p with requestProblemInformation := v }
  | .willDelayInterval, v => { p with willDelayInterval := v }
  | .requestResponseInformation, v => { p with requestResponseInformation := v }
  | .responseInformation, v => { p with responseInformation := v }
  | .serverReference, v => { p with serverReference := v }
  | .reasonString, v => { p with reasonString := v }
  | .receiveMaximum, v => { p with receiveMaximum := v }
  | .topicAliasMaximum, v => { p with topicAliasMaximum := v }
  | .topicAlias, v => { p with topicAlias := v }
  | .maximumQos, v => { p with maximumQos := v }
  | .retainAvailable, v => { p with retainAvailable := v }
  | .maximumPacketSize, v => { p with maximumPacketSize := v }
  | .wildcardSubscriptionAvailable, v => { p with wildcardSubscriptionAvailable := v }
  | .subscriptionIdentifierAvailable, v => { p with subscriptionIdentifierAvailable := v }
  | .sharedSubscriptionAvailable, v => { p with sharedSubscriptionAvailable := v }
  | .userProperty, _ => p

/-- All properties but the user properties, in the order in which they are written. -/
def ids : List PropertyId :=
  [.payloadFormatIndicicator, .messageExpiryInterval, .contentType, .responseTopic,
    .correlationData, .subscriptionIdentifier, .sessionExpiryInterval, .assignedClientIdentifier,
    .serverKeepAlive, .authenticationMethod, .authenticationData, .requestProblemInformation,
    .willDelayInterval, .requestResponseInformation, .responseInformation, .serverReference,
    .reasonString, .receiveMaximum, .topicAliasMaximum, .topicAlias, .maximumQos,
    .retainAvailable, .maximumPacketSize, .wildcardSubscriptionAvailable,
    .subscriptionIdentifierAvailable, .sharedSubscriptionAvailable]

/-- All values have a place in the format. -/
structure Fits (p : MqttProperties) : Prop where
  value : ∀ id, ∀ v ∈ p.get id, id.wire.Fits v
  userProperties : ∀ v ∈ p.userProperties, FitsBlock v.key ∧ FitsBlock v.value

variable (p : MqttProperties) (q : MqttProperties)

theorem encodeBody_eq :
    p.encodeBody = (ids.map fun id => writeProperty id id.wire.write (p.get id)).flatten ++
      p.userProperties.flatMap writeUserProperty := by
  rfl

theorem decodeProperty_eq {id : PropertyId} (hid : id ≠ .userProperty) :
    decodeProperty p id = storing id.wire.read fun v => p.set id (some v) := by
  cases id with
  | userProperty => exact absurd rfl hid
  | _ => rfl

variable (id : PropertyId)

theorem set_get : p.set id (p.get id) = p := by
  cases id with
  | _ => rfl

/-- `q` with the property of `p`. -/
def fill (p q : MqttProperties) (id : PropertyId) : MqttProperties :=
  (p.get id).elim q fun v => q.set id (some v)

theorem fill_eq : p.fill q id = q.set id ((p.get id).or (q.get id)) := by
  rw [fill]
  cases p.get id with
  | none => exact (set_get q id).symm
  | some v => rfl

theorem foldl_fill_ids : ids.foldl p.fill {} = { p with userProperties := [] } := by
  simp only [ids, foldl_cons, foldl_nil, fill_eq, set, get]
  congr <;> exact Option.or_none

theorem hasAny_eq :
    p.hasAny = ((ids.any fun id => (p.get id).isSome) || !p.userProperties.isEmpty) := by
  simp only [hasAny, ids, any_cons, any_nil, Bool.or_false, Bool.or_assoc]
  rfl

theorem encodeBody_eq_nil {p : MqttProperties} (h : p.hasAny = false) : p.encodeBody = [] := by
  rw [hasAny_eq, Bool.or_eq_false_iff, Bool.not_eq_false', List.isEmpty_iff, List.any_eq_false] at h
  rw [encodeBody_eq, h.2, List.flatMap_nil, List.append_nil, List.flatten_eq_nil_iff]
  intro bytes hbytes
  obtain ⟨id, hid, rfl⟩ := List.mem_map.mp hbytes
  rw [Option.not_isSome_iff_eq_none.mp (h.1 id hid)]
  rfl

end MqttProperties

/-- With `p` so far, the loop gets to `p'` over the bytes. -/
def Decodes (p : MqttProperties) (bytes : Bytes) (p' : MqttProperties) : Prop :=
  ∀ rounds, bytes.length ≤ rounds → decodePropertiesFrom rounds p bytes = some p'

theorem decodes_nil (p : MqttProperties) : Decodes p [] p := by
  intro rounds _
  cases rounds with
  | _ => rfl

variable {p p' : MqttProperties} {rest : Bytes}

theorem decodes_cons {p₁ : MqttProperties} {id : PropertyId} {bytes : Bytes}
    (hread : Reads (decodeProperty p id) bytes p₁) (h : Decodes p₁ rest p') :
    Decodes p (id.code :: (bytes ++ rest)) p' := by
  intro rounds hrounds
  rw [length_cons, length_append] at hrounds
  obtain ⟨rounds, rfl⟩ : ∃ n, rounds = n + 1 := ⟨rounds - 1, by omega⟩
  rw [decodePropertiesFrom, PropertyId.ofCode_code]
  dsimp only
  rw [hread rest]
  exact h rounds (by omega)

theorem decodes_property {q : MqttProperties} (hfits : p.Fits) (id : PropertyId)
    (h : Decodes (p.fill q id) rest p') :
    Decodes q (writeProperty id id.wire.write (p.get id) ++ rest) p' := by
  rw [MqttProperties.fill] at h
  cases hvalue : p.get id with
  | none =>
    rw [hvalue] at h
    exact h
  | some v =>
    rw [hvalue] at h
    have hid : id ≠ .userProperty := by
      rintro rfl
      cases hvalue
    refine decodes_cons (fun rest => ?_) h
    rw [MqttProperties.decodeProperty_eq q hid, storing, id.wire.reads (hfits.value id v hvalue)]
    rfl

theorem decodes_properties (hfits : p.Fits) (ids : List PropertyId)
    (h : Decodes (ids.foldl p.fill q) rest p') :
    Decodes q
      ((ids.map fun id => writeProperty id id.wire.write (p.get id)).flatten ++ rest) p' := by
  induction ids generalizing q with
  | nil => exact h
  | cons id ids ih =>
    rw [map_cons, flatten_cons, append_assoc]
    exact decodes_property hfits id (ih h)

theorem reads_userProperty (hkey : FitsBlock v.key) (hvalue : FitsBlock v.value) :
    Reads readUserProperty (writeUtf8String v.key ++ writeUtf8String v.value) v := by
  intro rest
  rw [append_assoc, readUserProperty, readUtf8String, writeUtf8String, reads_block hkey]
  dsimp only
  rw [writeUtf8String, reads_block hvalue]
  rfl

theorem decodes_userProperties (h : ∀ v ∈ users, FitsBlock v.key ∧ FitsBlock v.value)
    (q : MqttProperties) :
    Decodes q (users.flatMap writeUserProperty)
      { q with userProperties := q.userProperties ++ users } := by
  induction users generalizing q with
  | nil =>
    rw [List.append_nil]
    exact decodes_nil q
  | cons v users ih =>
    obtain ⟨⟨hkey, hvalue⟩, h⟩ := forall_mem_cons.mp h
    have hrest := ih h { q with userProperties := q.userProperties ++ [v] }
    rw [append_assoc] at hrest
    refine decodes_cons (fun rest => ?_) hrest
    rw [decodeProperty, storing, reads_userProperty hkey hvalue]
    rfl

theorem decodes_encodeBody (hfits : p.Fits) : Decodes {} p.encodeBody p := by
  rw [p.encodeBody_eq]
  apply decodes_properties hfits
  rw [p.foldl_fill_ids]
  exact decodes_userProperties hfits.userProperties _

theorem encodeProperties_eq (p : MqttProperties) :
    encodeProperties p =
      encodeVariableByteInt (UInt32.ofNat p.encodeBody.length) ++ p.encodeBody := by
  rw [encodeProperties]
  split_ifs with hnone
  · rw [MqttProperties.encodeBody_eq_nil (by simpa using hnone)]
    rfl
  · rfl

theorem reads_properties (hfits : p.Fits) (hlength : p.encodeBody.length < 2 ^ 28) :
    Reads decodeProperties (encodeProperties p) p := by
  intro rest
  have hvalue : (UInt32.ofNat p.encodeBody.length).toNat = p.encodeBody.length := by
    rw [UInt32.toNat_ofNat', Nat.mod_eq_of_lt (by omega)]
  rw [encodeProperties_eq, append_assoc, decodeProperties,
    reads_variableByteInt (by rw [hvalue]; exact hlength)]
  dsimp only
  rw [hvalue, if_pos (by simp), take_left, drop_left,
    decodes_encodeBody hfits _ (le_refl _)]
  rfl

end ServerLib.Mqtt
