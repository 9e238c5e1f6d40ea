import ServerLib.Mqtt.Properties

/-! The packets of MQTT, how the broker reads and writes them, and that a PUBLISH that was written
is read back. -/

namespace ServerLib.Mqtt

open Lib Option

inductive PacketType
  | connect
  | connack
  | publish
  | puback
  | pubrec
  | pubrel
  | pubcomp
  | subscribe
  | suback
  | unsubscribe
  | unsuback
  | pingreq
  | pingresp
  | disconnect
  | auth
deriving DecidableEq

namespace PacketType

def code : PacketType → UInt8
  | .connect => 1
  | .connack => 2
  | .publish => 3
  | .puback => 4
  | .pubrec => 5
  | .pubrel => 6
  | .pubcomp => 7
  | .subscribe => 8
  | .suback => 9
  | .unsubscribe => 10
  | .unsuback => 11
  | .pingreq => 12
  | .pingresp => 13
  | .disconnect => 14
  | .auth => 15

def all : List PacketType :=
  [.connect, .connack, .publish, .puback, .pubrec, .pubrel, .pubcomp, .subscribe, .suback,
    .unsubscribe, .unsuback, .pingreq, .pingresp, .disconnect, .auth]

/-- There is no packet of the type 0. -/
def ofCode (code : UInt8) : Option PacketType := all.find? (·.code == code)

end PacketType

structure MqttConnectPacket where
  protocolLevel : ProtocolLevel := .v3_1_1
  connectFlags : UInt8 := 0
  keepAlive : UInt16 := 60
  clientId : Bytes := []
  willTopic : Option Bytes := none
  willPayload : Option Bytes := none
  username : Option Bytes := none
  password : Option Bytes := none
  properties : MqttProperties := {}
  willProperties : MqttProperties := {}

structure MqttConnackPacket where
  sessionPresent : UInt8 := 0
  reasonCode : UInt8 := 0
  properties : MqttProperties := {}

structure MqttPublishPacket where
  dup : UInt8 := 0
  qos : QoS := .atMostOnce
  retain : UInt8 := 0
  topic : Bytes := []
  packetId : Option UInt16 := none
  payload : Bytes := []
  properties : MqttProperties := {}
deriving DecidableEq

/-- PUBACK, PUBREC, PUBREL and PUBCOMP have the same fields. -/
structure MqttAckPacket where
  packetId : UInt16 := 0
  reasonCode : UInt8 := 0
  properties : MqttProperties := {}

structure MqttSubOption where
  topicFilter : Bytes := []
  maximumQos : QoS := .atMostOnce
  noLocal : UInt8 := 0
  retainAsPublished : UInt8 := 0
  retainHandling : UInt8 := 0
deriving DecidableEq

structure MqttSubscribePacket where
  packetId : UInt16 := 0
  subscriptions : List MqttSubOption := []
  properties : MqttProperties := {}

structure MqttUnsubscribePacket where
  packetId : UInt16 := 0
  topicFilters : List Bytes := []
  properties : MqttProperties := {}

/-- DISCONNECT and AUTH have the same fields. -/
structure MqttReasonPacket where
  reasonCode : UInt8 := 0
  properties : MqttProperties := {}

/-- Five bytes are enough for every `uint32_t`. -/
def encodeRemainingLength (value : UInt32) : Bytes := writeVar 5 value.toNat

def decodeRemainingLength : Reader UInt32 := fun data =>
  (readVar 4 data).map fun (value, rest) => (UInt32.ofNat value, rest)

def buildFixedHeader (type : PacketType) (flags : UInt8) (remainingLength : Nat) : Bytes :=
  (type.code <<< 4 ||| (flags &&& 0x0F)) :: encodeRemainingLength (UInt32.ofNat remainingLength)

section

variable (data : Bytes) (level : ProtocolLevel)

/-- The type of the first packet and its length, once all of it is there. -/
def tryDecode : Option (PacketType × Nat) :=
  match data with
  | firstByte :: rest =>
    match PacketType.ofCode (firstByte >>> 4) with
    | none => none
    | some type =>
      match decodeRemainingLength rest with
      | none => none
      | some (remaining, body) =>
        let total := 1 + (rest.length - body.length) + remaining.toNat
        if total > data.length then none else some (type, total)
  | [] => none

/-- The lengths of the header and of the body, if they are those of the data.  Where the source
would look past the end of the data, there is no length here. -/
def parseRemainingLength : Option (Nat × Nat) :=
  match readVar 4 data.tail with
  | none => none
  | some (value, body) =>
    if value = body.length then some (data.length - body.length, value) else none

/-- There are properties from version 5 on. -/
def readProperties : Reader MqttProperties := fun data =>
  match level with
  | .v5_0 => decodeProperties data
  | .v3_1_1 => some ({}, data)

def readIf {α : Type} (present : Bool) (read : Reader α) : Reader (Option α) := fun data =>
  if present then (read data).map fun (value, rest) => (some value, rest) else some (none, data)

def readLevel : Reader ProtocolLevel
  | 4 :: rest => some (.v3_1_1, rest)
  | 5 :: rest => some (.v5_0, rest)
  | _ => none

def MqttConnectPacket.hasFlag (flag : UInt8) (connectFlags : UInt8) : Bool :=
  connectFlags &&& flag != 0

def flagUsername : UInt8 := 0x80

def flagPassword : UInt8 := 0x40

def flagWillRetain : UInt8 := 0x20

def flagWillFlag : UInt8 := 0x04

def flagCleanStart : UInt8 := 0x02

def willQos (connectFlags : UInt8) : UInt8 := connectFlags >>> 3 &&& 0x03

open MqttConnectPacket in
/-- What `decode_connect` requires of the flags. -/
def validConnectFlags (connectFlags : UInt8) : Bool :=
  !hasFlag 0x01 connectFlags &&
  (hasFlag flagWillFlag connectFlags ||
    willQos connectFlags == 0 && !hasFlag flagWillRetain connectFlags) &&
  willQos connectFlags ≤ 2 &&
  (hasFlag flagUsername connectFlags || !hasFlag flagPassword connectFlags)

open MqttConnectPacket in
def decodeConnect : Option MqttConnectPacket := do
  let (protoName, data) ← readUtf8String data
  if protoName ≠ text "MQTT" then none
  let (level, data) ← readLevel data
  let (connectFlags, data) ← readU8 data
  if !validConnectFlags connectFlags then none
  let (keepAlive, data) ← readU16 data
  let (properties, data) ← readProperties level data
  let (clientId, data) ← readUtf8String data
  let will := hasFlag flagWillFlag connectFlags
  let (willProperties, data) ← readIf will (readProperties level) data
  let (willTopic, data) ← readIf will readUtf8String data
  let (willPayload, data) ← readIf will readBinaryData data
  let (username, data) ← readIf (hasFlag flagUsername connectFlags) readUtf8String data
  let (password, _) ← readIf (hasFlag flagPassword connectFlags) readUtf8String data
  return {
    protocolLevel := level, connectFlags, keepAlive, clientId, willTopic, willPayload, username,
    password, properties, willProperties := willProperties.getD {} }

/-- The packet id of a PUBLISH that is to be acknowledged. -/
def readPacketId : Reader UInt16 := fun data => do
  let (packetId, data) ← readU16 data
  if packetId = 0 then none
  return (packetId, data)

def decodePublish (flags : UInt8) (level : ProtocolLevel) : Option MqttPublishPacket := do
  let qos := QoS.ofBits (flags >>> 1 &&& 0x03).toNat
  if qos = .reserved then none
  let (topic, data) ← readUtf8String data
  let (packetId, data) ← readIf (qos ≠ .atMostOnce) readPacketId data
  let (properties, payload) ← readProperties level data
  return {
    dup := if flags &&& 0x08 ≠ 0 then 1 else 0
    qos, retain := flags &&& 0x01, topic, packetId, payload, properties }

/-- How `dispatch` cuts a packet into its flags and its body. -/
def decodePublishPacket : Option MqttPublishPacket :=
  (parseRemainingLength data).bind fun lengths =>
    decodePublish (data.drop lengths.1) (data.headD 0 &&& 0x0F) level

/-- The options of a topic filter: all but the maximum QoS came with version 5. -/
def subOption (topicFilter : Bytes) (options : UInt8) : MqttSubOption :=
  let maximumQos := QoS.ofBits (options &&& 0x03).toNat
  match level with
  | .v5_0 =>
    { topicFilter, maximumQos
      noLocal := options >>> 2 &&& 0x01
      retainAsPublished := options >>> 3 &&& 0x01
      retainHandling := options >>> 4 &&& 0x03 }
  | .v3_1_1 => { topicFilter, maximumQos }

def readSubOption : Reader MqttSubOption := fun data => do
  let (topicFilter, data) ← readUtf8String data
  let (options, data) ← readU8 data
  return (subOption level topicFilter options, data)

/-- Reads on to the end.  Each round takes a byte at least, so that `rounds` may be the length of
the data. -/
def readAll {α : Type} (read : Reader α) : Nat → Bytes → Option (List α)
  | _, [] => some []
  | 0, _ :: _ => none
  | rounds + 1, data => do
    let (a, data) ← read data
    let rest ← readAll read rounds data
    return a :: rest

def decodeSubscribe : Option MqttSubscribePacket := do
  let (packetId, data) ← readU16 data
  let (properties, data) ← readProperties level data
  let subscriptions ← readAll (readSubOption level) data.length data
  return { packetId, subscriptions, properties }

def decodeUnsubscribe : Option MqttUnsubscribePacket := do
  let (packetId, data) ← readU16 data
  let (properties, data) ← readProperties level data
  let topicFilters ← readAll readUtf8String data.length data
  return { packetId, topicFilters, properties }

/-- The reason code and the properties of an acknowledgement may be left out. -/
def decodeSimpleAck : Option MqttAckPacket := do
  let (packetId, data) ← readU16 data
  match level, data with
  | .v5_0, reasonCode :: data =>
    let (properties, _) ← decodeProperties data
    return { packetId, reasonCode, properties }
  | _, _ => return { packetId }

def decodePuback : Option MqttAckPacket :=
  decodeSimpleAck data level

def decodePubrec : Option MqttAckPacket :=
  decodeSimpleAck data level

def decodePubrel : Option MqttAckPacket :=
  decodeSimpleAck data level

def decodePubcomp : Option MqttAckPacket :=
  decodeSimpleAck data level

/-- A reason code and properties, both of which may be left out. -/
def decodeReason : Bytes → Option MqttReasonPacket
  | [] => some {}
  | [reasonCode] => some { reasonCode }
  | reasonCode :: data => do
    let (properties, _) ← decodeProperties data
    return { reasonCode, properties }

def decodeDisconnect : Option MqttReasonPacket := decodeReason data

def decodeAuth : Option MqttReasonPacket := decodeReason data

end

section

variable (pkt : MqttPublishPacket) (packetId : UInt16) (reasonCode : UInt8)
  (reasonCodes : List UInt8) (level : ProtocolLevel) (props : MqttProperties)

def writeProperties (properties : MqttProperties) : Bytes :=
  match level with
  | .v5_0 => encodeProperties properties
  | .v3_1_1 => []

def encodePacket (type : PacketType) (flags : UInt8) (body : Bytes) : Bytes :=
  buildFixedHeader type flags body.length ++ body

def encodeConnack (pkt : MqttConnackPacket) (level : ProtocolLevel) : Bytes :=
  encodePacket .connack 0
    ([pkt.sessionPresent &&& 0x01, pkt.reasonCode] ++ writeProperties level pkt.properties)

def publishBody : Bytes :=
  writeUtf8String pkt.topic ++
  (if pkt.qos ≠ .atMostOnce then writeU16 (pkt.packetId.getD 0) else []) ++
  writeProperties level pkt.properties ++ pkt.payload

def publishFlags : UInt8 :=
  pkt.dup <<< 3 ||| UInt8.ofNat pkt.qos.toNat <<< 1 ||| (pkt.retain &&& 0x01)

def encodePublish : Bytes :=
  encodePacket .publish (publishFlags pkt) (publishBody pkt level)

def encodeSuback : Bytes :=
  encodePacket .suback 0 (writeU16 packetId ++ writeProperties level props ++ reasonCodes)

def encodeSimpleAck (type : PacketType) (fixedFlags : UInt8) (packetId : UInt16)
    (reasonCode : UInt8) (level : ProtocolLevel) (props : MqttProperties) : Bytes :=
  encodePacket type fixedFlags
    (writeU16 packetId ++
      match level with
      | .v5_0 => reasonCode :: encodeProperties props
      | .v3_1_1 => [])

def encodePuback : Bytes :=
  encodeSimpleAck .puback 0 packetId reasonCode level props

def encodePubrec : Bytes :=
  encodeSimpleAck .pubrec 0 packetId reasonCode level props

def encodePubrel : Bytes :=
  encodeSimpleAck .pubrel 0x02 packetId reasonCode level props

def encodePubcomp : Bytes :=
  encodeSimpleAck .pubcomp 0 packetId reasonCode level props

/-- The reason codes came with version 5. -/
def encodeUnsuback : Bytes :=
  encodePacket .unsuback 0
    (writeU16 packetId ++
      match level with
      | .v5_0 => encodeProperties props ++ reasonCodes
      | .v3_1_1 => [])

def encodePingresp : Bytes := [0xD0, 0x00]

def encodeDisconnect : Bytes :=
  match level with
  | .v3_1_1 => [0xE0, 0x00]
  | .v5_0 => encodePacket .disconnect 0 (reasonCode :: encodeProperties props)

def encodeAuth : Bytes :=
  encodePacket .auth 0 (reasonCode :: encodeProperties props)

end

variable (type : PacketType) (flags : UInt8)

theorem PacketType.ofCode_code : ofCode type.code = some type := by
  cases type with
  | _ => rfl

theorem toNat_firstByte :
    (type.code <<< 4 ||| (flags &&& 0x0F)).toNat =
      type.code.toNat * 2 ^ 4 + flags.toNat % 2 ^ 4 := by
  have hcode : type.code.toNat < 2 ^ 4 := by
    cases type <;> decide
  have hflags : (flags &&& 0x0F).toNat = flags.toNat % 2 ^ 4 := by
    rw [UInt8.toNat_and]
    exact Nat.and_two_pow_sub_one_eq_mod _ 4
  have hshift : (type.code <<< 4).toNat = type.code.toNat * 2 ^ 4 := by
    rw [UInt8.toNat_shiftLeft, Nat.shiftLeft_eq]
    exact Nat.mod_eq_of_lt (by change _ * 16 < 256; omega)
  rw [UInt8.toNat_or, hflags, hshift, ← Nat.shiftLeft_eq, Nat.shiftLeft_add_eq_or_of_lt (by omega)]

theorem firstByte_shiftRight : (type.code <<< 4 ||| (flags &&& 0x0F)) >>> 4 = type.code := by
  apply UInt8.toNat_inj.mp
  rw [UInt8.toNat_shiftRight, toNat_firstByte]
  change (type.code.toNat * 2 ^ 4 + flags.toNat % 2 ^ 4) >>> 4 = type.code.toNat
  rw [Nat.shiftRight_eq_div_pow]
  omega

theorem firstByte_and : (type.code <<< 4 ||| (flags &&& 0x0F)) &&& 0x0F = flags &&& 0x0F := by
  apply UInt8.toNat_inj.mp
  rw [UInt8.toNat_and, UInt8.toNat_and, toNat_firstByte]
  change _ &&& (2 ^ 4 - 1) = _ &&& (2 ^ 4 - 1)
  rw [Nat.and_two_pow_sub_one_eq_mod, Nat.and_two_pow_sub_one_eq_mod]
  omega

theorem reads_remainingLength (h : length < 2 ^ 28) :
    Reads decodeRemainingLength (encodeRemainingLength (UInt32.ofNat length))
      (UInt32.ofNat length) := by
  have hvalue : (UInt32.ofNat length).toNat = length := by
    rw [UInt32.toNat_ofNat', Nat.mod_eq_of_lt (by omega)]
  intro rest
  rw [decodeRemainingLength, encodeRemainingLength, hvalue, reads_var (by decide) (by decide) h]
  rfl

theorem headD_encodePacket (body : Bytes) :
    (encodePacket type flags body).headD 0 &&& 0x0F = flags &&& 0x0F :=
  firstByte_and type flags

theorem parseRemainingLength_encodePacket (h : body.length < 2 ^ 28) :
    parseRemainingLength (encodePacket type flags body) =
      some ((buildFixedHeader type flags body.length).length, body.length) := by
  have hvalue : (UInt32.ofNat body.length).toNat = body.length := by
    rw [UInt32.toNat_ofNat', Nat.mod_eq_of_lt (by omega)]
  have hread : readVar 4 (encodePacket type flags body).tail = some (body.length, body) := by
    rw [encodePacket, buildFixedHeader, List.cons_append, List.tail_cons, encodeRemainingLength,
      hvalue, reads_var (by decide) (by decide) h]
  rw [parseRemainingLength, hread]
  simp [encodePacket]

theorem tryDecode_encodePacket (h : body.length < 2 ^ 28) (rest : Bytes) :
    tryDecode (encodePacket type flags body ++ rest) =
      some (type, (encodePacket type flags body).length) := by
  have hvalue : (UInt32.ofNat body.length).toNat = body.length := by
    rw [UInt32.toNat_ofNat', Nat.mod_eq_of_lt (by omega)]
  rw [encodePacket, buildFixedHeader, List.cons_append, List.cons_append, tryDecode,
    firstByte_shiftRight, PacketType.ofCode_code]
  rw [List.append_assoc, reads_remainingLength h]
  dsimp only
  rw [hvalue]
  simp only [List.length_append, List.length_cons]
  rw [if_neg (by omega)]
  congr 2
  omega

/-- The packet can be written: its texts fit their lengths, the two flags are bits, and there is a
packet id exactly if the packet is to be acknowledged. -/
structure MqttPublishPacket.Fits (pkt : MqttPublishPacket) (level : ProtocolLevel) : Prop where
  dup : pkt.dup ≤ 1
  retain : pkt.retain ≤ 1
  qos : pkt.qos ≠ .reserved
  topic : FitsBlock pkt.topic
  packetId : pkt.packetId.isSome ↔ pkt.qos ≠ .atMostOnce
  packetId_ne : pkt.packetId ≠ some 0
  properties : level = .v5_0 → pkt.properties.Fits
  length : (encodePublish pkt level).length < 2 ^ 28

/-- What a version of the protocol can tell of a packet. -/
def MqttPublishPacket.carried (pkt : MqttPublishPacket) (level : ProtocolLevel) :
    MqttPublishPacket :=
  match level with
  | .v5_0 => pkt
  | .v3_1_1 => { pkt with properties := {} }

theorem length_publishBody_le (pkt : MqttPublishPacket) (level : ProtocolLevel) :
    (publishBody pkt level).length ≤ (encodePublish pkt level).length := by
  rw [encodePublish, encodePacket, List.length_append]
  omega

theorem length_encodeBody_le (pkt : MqttPublishPacket) :
    pkt.properties.encodeBody.length ≤ (publishBody pkt .v5_0).length := by
  rw [publishBody, writeProperties, encodeProperties_eq]
  simp only [List.length_append]
  omega

variable {pkt : MqttPublishPacket} {level : ProtocolLevel}

theorem publishFlags_bits (h : pkt.Fits level) :
    QoS.ofBits ((publishFlags pkt &&& 0x0F) >>> 1 &&& 0x03).toNat = pkt.qos ∧
      (if (publishFlags pkt &&& 0x0F) &&& 0x08 ≠ 0 then 1 else 0) = pkt.dup ∧
      (publishFlags pkt &&& 0x0F) &&& 0x01 = pkt.retain := by
  have hbit : ∀ {b : UInt8}, b ≤ 1 → b = 0 ∨ b = 1 := by
    intro b hb
    have hnat : b.toNat ≤ 1 := UInt8.le_iff_toNat_le.mp hb
    rcases Nat.le_one_iff_eq_zero_or_eq_one.mp hnat with h0 | h1
    · exact .inl (UInt8.toNat_inj.mp h0)
    · exact .inr (UInt8.toNat_inj.mp h1)
  rw [publishFlags]
  rcases hbit h.dup with hdup | hdup <;> rcases hbit h.retain with hretain | hretain <;>
    rw [hdup, hretain] <;> cases pkt.qos <;> decide

theorem reads_packetId (h : pkt.Fits level) :
    Reads (readIf (pkt.qos ≠ .atMostOnce) readPacketId)
      (if pkt.qos ≠ .atMostOnce then writeU16 (pkt.packetId.getD 0) else []) pkt.packetId := by
  intro rest
  rw [readIf]
  by_cases hqos : pkt.qos = .atMostOnce
  · have hnone : pkt.packetId = none := by
      rw [← not_isSome_iff_eq_none, h.packetId]
      simp [hqos]
    simp [hqos, hnone]
  · obtain ⟨id, hid⟩ := isSome_iff_exists.mp (h.packetId.mpr hqos)
    have hne : id ≠ 0 := by
      rintro rfl
      exact h.packetId_ne hid
    simp [hqos, hid, readPacketId, reads_u16 id rest, hne]

theorem reads_properties_of_fits (h : pkt.Fits level) :
    Reads (readProperties level) (writeProperties level pkt.properties)
      (pkt.carried level).properties := by
  cases level with
  | v3_1_1 => exact fun _ => rfl
  | v5_0 =>
    refine reads_properties (h.properties rfl) ?_
    have hlength := h.length
    have hbody := length_publishBody_le pkt .v5_0
    have hproperties := length_encodeBody_le pkt
    omega

/-- What was written as a PUBLISH is recognised as one packet, whatever comes after it, and read
back from its bytes: with all properties in version 5, and without them before. -/
theorem decodePublish_encodePublish {pkt : MqttPublishPacket} {level : ProtocolLevel}
    (h : pkt.Fits level) (rest : Bytes) :
    tryDecode (encodePublish pkt level ++ rest) =
        some (.publish, (encodePublish pkt level).length) ∧
      decodePublishPacket (encodePublish pkt level) level = some (pkt.carried level) := by
  have hbody := length_publishBody_le pkt level
  have hlength := h.length
  constructor
  · exact tryDecode_encodePacket .publish _ (by omega) rest
  · obtain ⟨hqos, hdup, hretain⟩ := publishFlags_bits h
    have hfields : pkt.carried level =
        { pkt with properties := (pkt.carried level).properties } := by
      cases level with
      | _ => rfl
    have hdrop : (encodePublish pkt level).drop
        (buildFixedHeader .publish (publishFlags pkt) (publishBody pkt level).length).length =
          publishBody pkt level := List.drop_left
    rw [decodePublishPacket, encodePublish, parseRemainingLength_encodePacket _ _ (by omega),
      headD_encodePacket, bind_some, ← encodePublish, hdrop, decodePublish, hqos,
      publishBody, writeUtf8String, readUtf8String]
    simp only [List.append_assoc, reads_block h.topic _, bind_eq_bind, bind_some,
      h.qos, if_false]
    rw [reads_packetId h]
    simp only [bind_some, reads_properties_of_fits h _, hdup, hretain, pure_def]
    rw [hfields]

/-- A packet with a packet id, a payload and properties, some of them of the user. -/
def sensorReading : MqttPublishPacket :=
  { dup := 1
    qos := .exactlyOnce
    retain := 1
    topic := text "sensors/1"
    packetId := some 7
    payload := text "21.5"
    properties :=
      { payloadFormatIndicator := some 1
        topicAlias := some 3
        userProperties := [⟨text "unit", text "C"⟩, ⟨text "unit", text "F"⟩] } }

theorem decodePublish_encodePublish_sensorReading :
    tryDecode (encodePublish sensorReading .v5_0 ++ [0xC0, 0x00]) =
        some (.publish, (encodePublish sensorReading .v5_0).length) ∧
      decodePublishPacket (encodePublish sensorReading .v5_0) .v5_0 =
        some (sensorReading.carried .v5_0) := by
  refine decodePublish_encodePublish ⟨?_, ?_, ?_, ?_, ?_, ?_, ?_, ?_⟩ [0xC0, 0x00]
  · decide
  · decide
  · decide
  · decide +kernel
  · decide
  · decide
  · intro _
    refine ⟨?_, by decide +kernel⟩
    intro id v hv
    cases id <;> trivial
  · decide +kernel

/-- Of a `dup` that is more than a bit, nothing is left in the four flags. -/
theorem decodePublish_dup_two :
    let pkt : MqttPublishPacket := { dup := 2, topic := text "a" }
    decodePublishPacket (encodePublish pkt .v5_0) .v5_0 = some { pkt with dup := 0 } ∧
      some { pkt with dup := 0 } ≠ some (pkt.carried .v5_0) := by
  decide +kernel

end ServerLib.Mqtt
