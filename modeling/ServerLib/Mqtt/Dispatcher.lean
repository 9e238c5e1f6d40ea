import Mathlib.Data.List.Sort
import ServerLib.Mqtt.Codec
import ServerLib.Mqtt.RetainedStore
import ServerLib.Mqtt.Session

/-! The dispatcher of the broker: what it does with each packet of a client, to whom it forwards
what is published, and what it does when a session ends. -/

namespace ServerLib.Mqtt

open Lib

inductive DisconnectReason
  | disconnectWithWillMessage
  | malformedPacket
  | protocolError
  | badAuthenticationMethod
  | receiveMaximumExceeded
  | topicAliasInvalid
  | packetTooLarge
deriving DecidableEq

def DisconnectReason.code : DisconnectReason → UInt8
  | .disconnectWithWillMessage => 0x04
  | .malformedPacket => 0x81
  | .protocolError => 0x82
  | .badAuthenticationMethod => 0x8C
  | .receiveMaximumExceeded => 0x93
  | .topicAliasInvalid => 0x94
  | .packetTooLarge => 0x95

inductive ConnackCode
  | accepted
  | unacceptableProtocolVersion
  | identifierRejected
  | badUserNameOrPassword
  | notAuthorized
  | v5UnsupportedProtocolVersion
  | v5BadUserNameOrPassword
  | v5NotAuthorized

def ConnackCode.code : ConnackCode → UInt8
  | .accepted => 0
  | .unacceptableProtocolVersion => 1
  | .identifierRejected => 2
  | .badUserNameOrPassword => 4
  | .notAuthorized => 5
  | .v5UnsupportedProtocolVersion => 0x84
  | .v5BadUserNameOrPassword => 0x86
  | .v5NotAuthorized => 0x87

inductive SubackReason
  | unspecifiedError
  | notAuthorized
  | topicFilterInvalid
  | sharedSubscriptionNotSupported
  | subscriptionIdentifiersNotSupported
  | wildcardSubscriptionsNotSupported

def SubackReason.code : SubackReason → UInt8
  | .unspecifiedError => 0x80
  | .notAuthorized => 0x87
  | .topicFilterInvalid => 0x8F
  | .sharedSubscriptionNotSupported => 0x9E
  | .subscriptionIdentifiersNotSupported => 0xA1
  | .wildcardSubscriptionsNotSupported => 0xA2

/-- `UnsubackReason`, `PubrelReason` and `AuthReason` are used with 0 for success only. -/
def reasonSuccess : UInt8 := 0

/-- The codes of `PubackReason` and `PubrecReason` are the same. -/
inductive PublishReason
  | success
  | notAuthorized
  | packetIdentifierInUse

def PublishReason.code : PublishReason → UInt8
  | .success => 0
  | .notAuthorized => 0x87
  | .packetIdentifierInUse => 0x91

inductive PubcompReason
  | success
  | packetIdentifierNotFound

def PubcompReason.code : PubcompReason → UInt8
  | .success => 0
  | .packetIdentifierNotFound => 0x92

structure MqttServerConfig where
  maxPacketSize : UInt32 := 256 * 1024
  keepAliveDefault : UInt16 := 60
  topicAliasMaximum : UInt16 := 0
  receiveMaximum : UInt16 := 65535
  maximumQos : UInt8 := 2
  retainAvailable : Bool := true
  wildcardSubscriptionAvailable : Bool := true
  subscriptionIdentifierAvailable : Bool := true
  sharedSubscriptionAvailable : Bool := true
  requireAuthentication : Bool := false
  supportedVersions : List ProtocolLevel := [.v3_1_1, .v5_0]

/-- What the handler answers while a packet is handled.  It is asked for every filter of a
SUBSCRIBE. Without a handler all but `on_auth` are as if it said yes, which are the defaults
here. -/
structure MqttHandler where
  onConnect : Bool := true
  onAuth : Bool := false
  onPublish : Bool := true
  onSubscribe : Nat → Bool := fun _ => true

/-- What happens in the broker, for those who look at a run: the handler accepts a PUBLISH, it is
written to a subscriber on account of a subscription, a retained message is written, a PUBREL is
handled, and a client id is bound to a session. -/
inductive Event
  | accepted (sid : Nat) (pkt : MqttPublishPacket)
  | delivered (sub : MqttSubscription) (bytes : Bytes)
  | retained (sid : Nat) (bytes : Bytes)
  | released (sid : Nat) (pid : UInt16)
  | bound (clientId : Bytes) (sid : Nat)
deriving DecidableEq

/-- What the dispatcher refers to, and a log. -/
structure Broker where
  sessionMgr : MqttSessionManager := {}
  topicTree : MqttTopicTree := {}
  retainedStore : MqttRetainedStore := {}
  log : List Event := []

namespace Broker

variable (b : Broker)

def session? (sid : Nat) : Option MqttSession := b.sessionMgr.sessions.lookup sid

def modifySession (b : Broker) (sid : Nat) (f : MqttSession → MqttSession) : Broker :=
  { b with sessionMgr := b.sessionMgr.modifySession sid f }

def setState (sid : Nat) (state : MqttSessionState) : Broker :=
  b.modifySession sid fun s => { s with state }

def emit (e : Event) : Broker := { b with log := b.log ++ [e] }

def findByClientId (b : Broker) (clientId : Bytes) : Broker × Option Nat :=
  ({ b with sessionMgr := (b.sessionMgr.findByClientId clientId).1 },
    (b.sessionMgr.findByClientId clientId).2)

def removeAll (b : Broker) (sid : Nat) : Broker := { b with topicTree := b.topicTree.removeAll sid }

end Broker

variable (s : MqttSession)

/-- Only version 5 has a DISCONNECT from the server. -/
def protocolErrorDisconnect (reason : DisconnectReason) : Bytes :=
  if s.protocolLevel ≠ .v5_0 then [] else encodeDisconnect reason.code s.protocolLevel {}

/-- The number by which a member of a group is chosen. -/
def groupScore (group : Bytes) : UInt64 :=
  group.foldl (fun score ch => score * 131 + UInt64.ofNat ch.toNat) 0

variable (found : List MqttSubscription)

/-- The names of the groups, in the order of a `std::map`. -/
def groupNames : List Bytes :=
  (((found.map (·.sharedGroup)).filter (· ≠ [])).dedup).insertionSort (· ≤ ·)

def groupMembers (group : Bytes) : List MqttSubscription :=
  found.filter (·.sharedGroup = group)

/-- The member of a group that gets the message. -/
def selectedMember (group : Bytes) : Option MqttSubscription :=
  let members := groupMembers found group
  members[(groupScore group).toNat % members.length]?

def applySharedSubscriptionPolicy : List MqttSubscription :=
  found.filter (·.sharedGroup = []) ++ (groupNames found).filterMap (selectedMember found)

variable (pkt : MqttPublishPacket)

/-- What is written to a subscriber. -/
def publishFor (sub : MqttSubscription) (s : MqttSession) : MqttPublishPacket :=
  let qos := pkt.qos.limit sub.qos
  { topic := pkt.topic
    payload := pkt.payload
    dup := 0
    retain := if sub.retainAsPublished = 1 then pkt.retain else 0
    qos
    packetId := if qos ≠ .atMostOnce then some s.nextPacketId else none
    properties :=
      match s.protocolLevel with
      | .v5_0 => { pkt.properties with subscriptionIdentifier := sub.subscriptionIdentifier }
      | .v3_1_1 => {} }

namespace Broker

variable (b : Broker) (sid : Nat)

variable (sourceId : Nat) (clientId : Bytes) (cleanStart : Bool)

/-- The session of a subscription, if the message can be written to it. -/
def receiver? (sub : MqttSubscription) : Option MqttSession :=
  if sub.noLocal ≠ 0 ∧ sub.sessionId = sourceId then none
  else (b.session? sub.sessionId).filter fun s => s.state = .connected ∧ s.connection

/-- One round of the loop in `publish_to_subscribers`. -/
def deliver (pkt : MqttPublishPacket) (b : Broker) (sub : MqttSubscription) : Broker :=
  match b.receiver? sourceId sub with
  | none => b
  | some s =>
    let pub := publishFor pkt sub s
    let b := if pub.qos ≠ .atMostOnce then b.modifySession sub.sessionId (·.advancePacketId) else b
    b.emit (.delivered sub (encodePublish pub s.protocolLevel))

def publishToSubscribers (pkt : MqttPublishPacket) : Broker :=
  (applySharedSubscriptionPolicy (b.topicTree.matchTopic pkt.topic)).foldl (deliver sourceId pkt) b

/-- The first use of `old_session`: a session with the same client id is closed. -/
def takeOver : Broker :=
  match b.findByClientId clientId with
  | (b, none) => b
  | (b, some old) =>
    if old = sid then b
    else if (b.session? old).any (fun s => s.state = .connected ∨ s.state = .connecting) ∨
        cleanStart then
      b.setState old .disconnecting
    else b

/-- `session_present`, which is asked for without a clean start only. -/
def sessionPresent : Broker × Bool :=
  if cleanStart then (b, false)
  else
    match b.findByClientId clientId with
    | (b, none) => (b, false)
    | (b, some existing) =>
      (b, existing ≠ sid ∧ (b.session? existing).any fun s =>
        s.state = .disconnected ∧ s.sessionExpiryInterval > 0)

/-- With a clean start the subscriptions of the other session go. -/
def discardSubscriptions : Broker :=
  if cleanStart then
    match b.findByClientId clientId with
    | (b, none) => b
    | (b, some existing) => if existing ≠ sid then b.removeAll existing else b
  else b

def bindClientId (b : Broker) (sid : Nat) (clientId : Bytes) : Broker :=
  { b with sessionMgr := b.sessionMgr.bindClientId sid clientId }.emit (.bound clientId sid)

def refuseConnect (level : ProtocolLevel) (v5 other : ConnackCode) : Broker × Bytes :=
  (b.modifySession sid fun s => { s with protocolLevel := level, state := .disconnecting },
    encodeConnack { reasonCode := if level = .v5_0 then v5.code else other.code } level)

end Broker

open MqttConnectPacket (hasFlag)

def willOf (connect : MqttConnectPacket) : MqttWillMessage :=
  let will : MqttWillMessage :=
    { topic := connect.willTopic.getD []
      payload := connect.willPayload.getD []
      qos := QoS.ofBits (willQos connect.connectFlags).toNat
      retain := hasFlag flagWillRetain connect.connectFlags }
  match connect.protocolLevel with
  | .v5_0 =>
    { will with
      willDelayInterval := connect.willProperties.willDelayInterval
      payloadFormatIndicator := connect.willProperties.payloadFormatIndicator
      messageExpiryInterval := connect.willProperties.messageExpiryInterval
      contentType := connect.willProperties.contentType
      responseTopic := connect.willProperties.responseTopic
      correlationData := connect.willProperties.correlationData
      userProperties := connect.willProperties.userProperties }
  | .v3_1_1 => will

/-- What a version 5 client negotiates. -/
def negotiate (cfg : MqttServerConfig) (properties : MqttProperties) (s : MqttSession) :
    MqttSession :=
  let clientReceiveMaximum := properties.receiveMaximum.getD s.clientReceiveMaximum
  { s with
    clientReceiveMaximum
    receiveMaximum := min clientReceiveMaximum cfg.receiveMaximum
    topicAliasMaximum := properties.topicAliasMaximum.getD cfg.topicAliasMaximum
    maximumPacketSize := properties.maximumPacketSize.getD s.maximumPacketSize
    sessionExpiryInterval := properties.sessionExpiryInterval.getD s.sessionExpiryInterval }

/-- The session after its CONNECT was accepted. -/
def establish (cfg : MqttServerConfig) (connect : MqttConnectPacket) (s : MqttSession) :
    MqttSession :=
  let s :=
    { s with
      protocolLevel := connect.protocolLevel
      keepAlive := if connect.keepAlive = 0 then cfg.keepAliveDefault else connect.keepAlive
      cleanStart := hasFlag flagCleanStart connect.connectFlags
      state := .connected
      willMessage :=
        if hasFlag flagWillFlag connect.connectFlags then some (willOf connect) else s.willMessage }
  match connect.protocolLevel with
  | .v5_0 => negotiate cfg connect.properties s
  | .v3_1_1 => s

/-- What the broker announces. -/
def connackProperties (cfg : MqttServerConfig) (connect : MqttConnectPacket) (clientId : Bytes) :
    MqttProperties :=
  { receiveMaximum := some cfg.receiveMaximum
    topicAliasMaximum := some cfg.topicAliasMaximum
    maximumQos := some cfg.maximumQos
    retainAvailable := some (if cfg.retainAvailable then 1 else 0)
    wildcardSubscriptionAvailable := some (if cfg.wildcardSubscriptionAvailable then 1 else 0)
    subscriptionIdentifierAvailable := some (if cfg.subscriptionIdentifierAvailable then 1 else 0)
    sharedSubscriptionAvailable := some (if cfg.sharedSubscriptionAvailable then 1 else 0)
    maximumPacketSize := some cfg.maxPacketSize
    assignedClientIdentifier := some clientId
    serverKeepAlive :=
      if connect.keepAlive = 0 ∧ cfg.keepAliveDefault ≠ 60 then some cfg.keepAliveDefault
      else none }

def connackFor (cfg : MqttServerConfig) (connect : MqttConnectPacket) (clientId : Bytes)
    (sessionPresent : Bool) : MqttConnackPacket where
  sessionPresent := if sessionPresent then 1 else 0
  reasonCode := ConnackCode.accepted.code
  properties :=
    match connect.protocolLevel with
    | .v5_0 => connackProperties cfg connect clientId
    | .v3_1_1 => {}

/-- A version 5 client may leave the client id to the broker. -/
def clientIdFor (connect : MqttConnectPacket) (sid : Nat) : Bytes :=
  if connect.clientId = [] then text "auto-" ++ text (toString sid) else connect.clientId

namespace Broker

variable (cfg : MqttServerConfig) (handler : MqttHandler)

/-- The end of `handle_connect`, after all checks. -/
def acceptConnect (b : Broker) (sid : Nat) (connect : MqttConnectPacket) (clientId : Bytes) :
    Broker × Bytes :=
  let cleanStart := hasFlag flagCleanStart connect.connectFlags
  let (b, present) := b.sessionPresent sid clientId cleanStart
  let b := b.discardSubscriptions sid clientId cleanStart
  let b := b.bindClientId sid clientId
  (b.modifySession sid (establish cfg connect),
    encodeConnack (connackFor cfg connect clientId present) connect.protocolLevel)

def handleConnect (b : Broker) (sid : Nat) (s : MqttSession) (data : Bytes) : Broker × Bytes :=
  match decodeConnect data with
  | none => (b.setState sid .disconnecting, protocolErrorDisconnect s .malformedPacket)
  | some connect =>
    let level := connect.protocolLevel
    if level ∉ cfg.supportedVersions then
      b.refuseConnect sid level .v5UnsupportedProtocolVersion .unacceptableProtocolVersion
    else if connect.clientId = [] ∧ level ≠ .v5_0 then
      b.refuseConnect sid level .identifierRejected .identifierRejected
    else
      let clientId := clientIdFor connect sid
      let b := b.takeOver sid clientId (hasFlag flagCleanStart connect.connectFlags)
      if cfg.requireAuthentication ∧ connect.username.getD [] = [] then
        b.refuseConnect sid level .v5BadUserNameOrPassword .badUserNameOrPassword
      else if !handler.onConnect then
        b.refuseConnect sid level .v5NotAuthorized .notAuthorized
      else b.acceptConnect cfg sid connect clientId

end Broker

/-- The topic of a packet with a topic alias.  There is none if the alias is not valid. -/
def resolveTopic : Option (MqttSession × MqttPublishPacket) :=
  match s.protocolLevel, pkt.properties.topicAlias with
  | .v5_0, some topicAlias =>
    if topicAlias = 0 then none
    else if s.topicAliasMaximum > 0 ∧ topicAlias > s.topicAliasMaximum then none
    else if pkt.topic = [] then
      (s.resolveTopicAlias topicAlias).map fun topic => (s, { pkt with topic })
    else some (s.setTopicAlias topicAlias pkt.topic, pkt)
  | _, _ => some (s, pkt)

/-- The checks of `handle_publish` that look at the packet only.  An alias is kept also if the topic
turns out not to be valid. -/
def admitPublish (data : Bytes) (flags : UInt8) :
    MqttSession × Except DisconnectReason MqttPublishPacket :=
  match decodePublish data flags s.protocolLevel with
  | none => (s, .error .malformedPacket)
  | some pkt =>
    match resolveTopic s pkt with
    | none => (s, .error .topicAliasInvalid)
    | some (s, pkt) =>
      if !validateTopicName pkt.topic then (s, .error .topicAliasInvalid)
      else if pkt.qos ≠ .atMostOnce ∧ pkt.packetId.getD 0 = 0 then (s, .error .malformedPacket)
      else (s, .ok pkt)

def retainedMessage (level : ProtocolLevel) (pkt : MqttPublishPacket) : MqttRetainedMessage :=
  let rm : MqttRetainedMessage := { topic := pkt.topic, payload := pkt.payload, qos := pkt.qos }
  match level with
  | .v5_0 =>
    { rm with
      payloadFormatIndicator := pkt.properties.payloadFormatIndicator
      messageExpiryInterval := pkt.properties.messageExpiryInterval
      contentType := pkt.properties.contentType
      userProperties := pkt.properties.userProperties }
  | .v3_1_1 => rm

/-- The answer to a PUBLISH that the handler refuses. -/
def refusePublish : Bytes :=
  match pkt.qos with
  | .atLeastOnce =>
    encodePuback (pkt.packetId.getD 0) PublishReason.notAuthorized.code s.protocolLevel {}
  | .exactlyOnce =>
    encodePubrec (pkt.packetId.getD 0) PublishReason.notAuthorized.code s.protocolLevel {}
  | _ => []

namespace Broker

variable (cfg : MqttServerConfig) (handler : MqttHandler)

/-- A message without a payload takes the retained one away. -/
def retain (b : Broker) (level : ProtocolLevel) (pkt : MqttPublishPacket) : Broker :=
  if pkt.retain = 0 then b
  else { b with retainedStore := b.retainedStore.store (retainedMessage level pkt) }

variable (b : Broker) (sid : Nat) (s : MqttSession) (data : Bytes)

/-- `handle_publish`, after the handler accepted the message. -/
def acceptPublish (pkt : MqttPublishPacket) : Broker × Bytes :=
  let b := b.emit (.accepted sid pkt)
  let b := b.retain s.protocolLevel pkt
  let b := b.publishToSubscribers sid pkt
  let pid := pkt.packetId.getD 0
  match pkt.qos with
  | .atMostOnce => (b, [])
  | .atLeastOnce => (b, encodePuback pid PublishReason.success.code s.protocolLevel {})
  | _ =>
    (b.modifySession sid (·.addInflightPacketId pid),
      encodePubrec pid PublishReason.success.code s.protocolLevel {})

def handlePublish (flags : UInt8) : Broker × Bytes :=
  let (s, admitted) := admitPublish s data flags
  let b := b.modifySession sid fun _ => s
  match admitted with
  | .error reason => (b, protocolErrorDisconnect s reason)
  | .ok pkt =>
    let pid := pkt.packetId.getD 0
    if pkt.qos = .exactlyOnce ∧ s.inflightCount ≥ s.receiveMaximum.toNat then
      (b, protocolErrorDisconnect s .receiveMaximumExceeded)
    else if pkt.qos = .exactlyOnce ∧ s.hasInflightPacketId pid then
      (b, encodePubrec pid PublishReason.packetIdentifierInUse.code s.protocolLevel {})
    else if !handler.onPublish then (b, refusePublish s pkt)
    else b.acceptPublish sid s pkt

def handlePuback : Broker × Bytes :=
  match decodePuback data s.protocolLevel with
  | none => (b, protocolErrorDisconnect s .malformedPacket)
  | some _ => (b, [])

def handlePubrec : Broker × Bytes :=
  match decodePubrec data s.protocolLevel with
  | none => (b, protocolErrorDisconnect s .malformedPacket)
  | some pubrec =>
    if pubrec.packetId = 0 then (b, protocolErrorDisconnect s .protocolError)
    else (b, encodePubrel pubrec.packetId reasonSuccess s.protocolLevel {})

def handlePubrel : Broker × Bytes :=
  match decodePubrel data s.protocolLevel with
  | none => (b, protocolErrorDisconnect s .malformedPacket)
  | some pubrel =>
    let pid := pubrel.packetId
    if pid = 0 then (b, protocolErrorDisconnect s .protocolError)
    else
      let b := b.emit (.released sid pid)
      if !s.hasInflightPacketId pid then
        (b, encodePubcomp pid PubcompReason.packetIdentifierNotFound.code s.protocolLevel {})
      else
        (b.modifySession sid (·.removeInflightPacketId pid),
          encodePubcomp pid PubcompReason.success.code s.protocolLevel {})

def handlePubcomp : Broker × Bytes :=
  match decodePubcomp data s.protocolLevel with
  | none => (b, protocolErrorDisconnect s .malformedPacket)
  | some pubcomp => (b.modifySession sid (·.removeOutgoingPacketId pubcomp.packetId), [])

end Broker

def extractSharedGroup (filter : Bytes) : Option Bytes :=
  if isSharedSubscription filter then
    if sharedGroup filter = [] then none else some (sharedGroup filter)
  else none

/-- Why a filter is not subscribed to.  There is one code for all reasons before version 5. -/
def refuseSubscription (cfg : MqttServerConfig) (level : ProtocolLevel) (pkt : MqttSubscribePacket)
    (allowed : Bool) (sub : MqttSubOption) : Option SubackReason :=
  let v5 (reason : SubackReason) := if level = .v5_0 then reason else .unspecifiedError
  if !validateTopicFilter sub.topicFilter then some (v5 .topicFilterInvalid)
  else if isSharedSubscription sub.topicFilter ∧ !cfg.sharedSubscriptionAvailable then
    some (v5 .sharedSubscriptionNotSupported)
  else if !cfg.wildcardSubscriptionAvailable ∧
      (plus ∈ sub.topicFilter ∨ hash ∈ sub.topicFilter) then
    some (v5 .wildcardSubscriptionsNotSupported)
  else if level = .v5_0 ∧ pkt.properties.subscriptionIdentifier.isSome ∧
      !cfg.subscriptionIdentifierAvailable then
    some .subscriptionIdentifiersNotSupported
  else if !allowed then some (v5 .notAuthorized)
  else none

def grantedQos (cfg : MqttServerConfig) (sub : MqttSubOption) : QoS :=
  if sub.maximumQos.toNat > cfg.maximumQos.toNat then QoS.ofBits cfg.maximumQos.toNat
  else sub.maximumQos

/-- `tree_sub`. -/
def treeSubscription (cfg : MqttServerConfig) (sid : Nat) (level : ProtocolLevel)
    (pkt : MqttSubscribePacket) (sub : MqttSubOption) : MqttSubscription where
  sessionId := sid
  qos := grantedQos cfg sub
  noLocal := sub.noLocal
  retainAsPublished := sub.retainAsPublished
  retainHandling := sub.retainHandling
  subscriptionIdentifier :=
    if level = .v5_0 then pkt.properties.subscriptionIdentifier else none
  sharedGroup := (extractSharedGroup sub.topicFilter).getD []
  sharedFilter := if (extractSharedGroup sub.topicFilter).isSome then sub.topicFilter else []

def publishRetained (rm : MqttRetainedMessage) (granted : QoS) (s : MqttSession) :
    MqttPublishPacket :=
  let qos := granted.limit rm.qos
  { retain := 1
    topic := rm.topic
    payload := rm.payload
    qos
    packetId := if qos ≠ .atMostOnce then some s.nextPacketId else none
    properties :=
      match s.protocolLevel with
      | .v5_0 =>
        { payloadFormatIndicator := rm.payloadFormatIndicator
          messageExpiryInterval := rm.messageExpiryInterval
          contentType := rm.contentType
          userProperties := rm.userProperties }
      | .v3_1_1 => {} }

namespace Broker

variable (cfg : MqttServerConfig) (handler : MqttHandler)

variable (b : Broker) (sid : Nat) (s : MqttSession) (data : Bytes)

/-- One round of the loop over the retained messages. -/
def sendRetained (granted : QoS) (b : Broker) (rm : MqttRetainedMessage) : Broker :=
  match b.session? sid with
  | none => b
  | some s =>
    let pub := publishRetained rm granted s
    let b := if pub.qos ≠ .atMostOnce then b.modifySession sid (·.advancePacketId) else b
    if s.connection then b.emit (.retained sid (encodePublish pub s.protocolLevel)) else b

/-- A filter that passed the checks. -/
def subscribeFilter (level : ProtocolLevel) (pkt : MqttSubscribePacket) (sub : MqttSubOption) :
    Broker :=
  let granted := grantedQos cfg sub
  let b := { b with
    topicTree := (b.topicTree.subscribe sub.topicFilter
      (treeSubscription cfg sid level pkt sub)).1 }
  let b := b.modifySession sid (·.addSubscription sub.topicFilter granted)
  if sub.retainHandling = 2 then b
  else (b.retainedStore.matchFilter sub.topicFilter).foldl (sendRetained sid granted) b

/-- One round of the loop of `handle_subscribe`, for the filter with a number.  The reason codes are
collected on the way. -/
def subscribeRound (level : ProtocolLevel) (pkt : MqttSubscribePacket) (b : Broker × List UInt8)
    (sub : MqttSubOption × Nat) : Broker × List UInt8 :=
  match refuseSubscription cfg level pkt (handler.onSubscribe sub.2) sub.1 with
  | some reason => (b.1, b.2 ++ [reason.code])
  | none =>
    (b.1.subscribeFilter cfg sid level pkt sub.1,
      b.2 ++ [UInt8.ofNat (grantedQos cfg sub.1).toNat])

def handleSubscribe : Broker × Bytes :=
  match decodeSubscribe data s.protocolLevel with
  | none => (b, protocolErrorDisconnect s .malformedPacket)
  | some pkt =>
    if pkt.packetId = 0 ∨ pkt.subscriptions = [] then
      (b, protocolErrorDisconnect s .malformedPacket)
    else
      let (b, reasonCodes) := run (subscribeRound cfg handler sid s.protocolLevel pkt) (b, [])
        pkt.subscriptions.zipIdx
      (b, encodeSuback pkt.packetId reasonCodes s.protocolLevel {})

/-- One round of the loop of `handle_unsubscribe`. -/
def unsubscribeRound (b : Broker) (filter : Bytes) : Broker :=
  { b with topicTree := (b.topicTree.unsubscribe filter sid).1 }.modifySession sid
    (·.removeSubscription filter)

def handleUnsubscribe : Broker × Bytes :=
  match decodeUnsubscribe data s.protocolLevel with
  | none => (b, protocolErrorDisconnect s .malformedPacket)
  | some pkt =>
    if pkt.packetId = 0 ∨ pkt.topicFilters = [] then
      (b, protocolErrorDisconnect s .malformedPacket)
    else
      (run (unsubscribeRound sid) b pkt.topicFilters,
        encodeUnsuback pkt.packetId (pkt.topicFilters.map fun _ => reasonSuccess)
          s.protocolLevel {})

/-- The will stays only if a version 5 client asks for it. -/
def keepsWill : Bool :=
  s.protocolLevel = .v5_0 ∧ data ≠ [] ∧
    (decodeDisconnect data).any (·.reasonCode = DisconnectReason.disconnectWithWillMessage.code)

def handleDisconnect : Broker × Bytes :=
  let b := b.modifySession sid fun s =>
    { s with
      state := .disconnected
      willMessage := if keepsWill s data then s.willMessage else none }
  (if s.state = .connected ∧ s.sessionExpiryInterval = 0 then b.removeAll sid else b, [])

def handleAuth : Broker × Bytes :=
  match s.protocolLevel with
  | .v3_1_1 => (b, [])
  | .v5_0 =>
    match decodeAuth data with
    | none => (b, protocolErrorDisconnect s .malformedPacket)
    | some auth =>
      if auth.properties.authenticationMethod.getD [] = [] then
        (b, protocolErrorDisconnect s .badAuthenticationMethod)
      else if handler.onAuth then (b, encodeAuth reasonSuccess {})
      else (b, encodeDisconnect DisconnectReason.badAuthenticationMethod.code s.protocolLevel {})

end Broker

def isValidPublishFlags (flags : UInt8) : Bool :=
  let qosBits := flags >>> 1 &&& 0x03
  qosBits ≠ 3 ∧ ¬(qosBits = 0 ∧ flags &&& 0x08 ≠ 0)

def isValidPacketFlags (type : Option PacketType) (flags : UInt8) : Bool :=
  match type with
  | some .pubrel | some .subscribe | some .unsubscribe => flags = 0x02
  | some .publish => isValidPublishFlags flags
  | _ => flags = 0x00

namespace Broker

variable (cfg : MqttServerConfig) (handler : MqttHandler)

/-- The switch of `dispatch`. -/
def handlePacket (b : Broker) (sid : Nat) (s : MqttSession) (type : Option PacketType)
    (flags : UInt8) (body : Bytes) : Broker × Bytes :=
  match type with
  | some .connect => b.handleConnect cfg handler sid s body
  | some .publish => b.handlePublish handler sid s body flags
  | some .puback => b.handlePuback s body
  | some .pubrec => b.handlePubrec s body
  | some .pubrel => b.handlePubrel sid s body
  | some .pubcomp => b.handlePubcomp sid s body
  | some .subscribe => b.handleSubscribe cfg handler sid s body
  | some .unsubscribe => b.handleUnsubscribe sid s body
  | some .pingreq => (b, encodePingresp)
  | some .disconnect => b.handleDisconnect sid s body
  | some .auth => b.handleAuth handler s body
  | _ => (b, [])

/-- `dispatch`, for a session that is there. -/
def dispatch (b : Broker) (sid : Nat) (data : Bytes) : Broker × Bytes :=
  match b.session? sid, data with
  | none, _ | _, [] => (b, [])
  | some s, firstByte :: _ =>
    let type := PacketType.ofCode (firstByte >>> 4)
    let flags := firstByte &&& 0x0F
    if s.state ≠ .connected ∧ type ≠ some .connect then
      (b, protocolErrorDisconnect s .protocolError)
    else if s.state = .connected ∧ type = some .connect then
      (b.setState sid .disconnecting, protocolErrorDisconnect s .protocolError)
    else if !isValidPacketFlags type flags then
      (b.setState sid .disconnecting, protocolErrorDisconnect s .malformedPacket)
    else
      match parseRemainingLength data with
      | none => (b, protocolErrorDisconnect s .malformedPacket)
      | some (headerLen, _) => b.handlePacket cfg handler sid s type flags (data.drop headerLen)

end Broker

def willPublish (level : ProtocolLevel) (will : MqttWillMessage) : MqttPublishPacket where
  topic := will.topic
  payload := will.payload
  qos := will.qos
  retain := if will.retain then 1 else 0
  properties :=
    match level with
    | .v5_0 =>
      { payloadFormatIndicator := will.payloadFormatIndicator
        messageExpiryInterval := will.messageExpiryInterval
        contentType := will.contentType
        responseTopic := will.responseTopic
        correlationData := will.correlationData
        userProperties := will.userProperties }
    | .v3_1_1 => {}

namespace Broker

def sendWillMessage (b : Broker) (sid : Nat) (s : MqttSession) : Broker :=
  match s.willMessage with
  | none => b
  | some will =>
    let pub := willPublish s.protocolLevel will
    let b := b.publishToSubscribers sid pub
    let b := b.retain s.protocolLevel pub
    b.modifySession sid fun s => { s with willMessage := none }

/-- The will is sent unless its delay is longer than the time since the last activity. -/
def shouldSendWill (s : MqttSession) (elapsed : Nat) : Bool :=
  s.protocolLevel ≠ .v5_0 ∨
    ¬s.willMessage.any fun will => will.willDelayInterval.any fun delay => elapsed < delay.toNat

/-- `on_session_closed`, `elapsed` seconds after the last activity. -/
def onSessionClosed (b : Broker) (sid : Nat) (elapsed : Nat) : Broker :=
  match b.session? sid with
  | none => b
  | some s =>
    let b := if shouldSendWill s elapsed then b.sendWillMessage sid s else b
    let b := if s.sessionExpiryInterval = 0 then b.removeAll sid else b
    b.setState sid .disconnected

end Broker

end ServerLib.Mqtt
