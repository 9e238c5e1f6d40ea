import Mathlib.Data.Finset.Card
import ServerLib.Lib.Table
import ServerLib.Mqtt.Properties

/-! The sessions of the broker, and the manager that keeps them by session id and finds them by
client id. -/

namespace ServerLib.Mqtt

open Lib

inductive MqttSessionState
  | disconnected
  | connecting
  | connected
  | disconnecting
deriving DecidableEq

structure MqttWillMessage where
  topic : Bytes
  payload : Bytes
  qos : QoS := .atMostOnce
  retain : Bool := false
  willDelayInterval : Option UInt32 := none
  payloadFormatIndicator : Option UInt8 := none
  messageExpiryInterval : Option UInt32 := none
  contentType : Option Bytes := none
  responseTopic : Option Bytes := none
  correlationData : Option Bytes := none
  userProperties : List UserProperty := []

/-- `connection` says whether the pointer to the connection still leads to one.  The session id is
the key of the session in the manager. -/
structure MqttSession where
  connection : Bool := true
  clientId : Bytes := []
  protocolLevel : ProtocolLevel := .v3_1_1
  state : MqttSessionState := .disconnected
  keepAlive : UInt16 := 60
  subscriptions : AList (fun _ : Bytes => QoS) := ∅
  nextPacketId : UInt16 := 1
  inflightPacketIds : Finset UInt16 := ∅
  outgoingPacketIds : Finset UInt16 := ∅
  willMessage : Option MqttWillMessage := none
  cleanStart : Bool := true
  sessionExpiryInterval : UInt32 := 0
  receiveMaximum : UInt16 := 65535
  clientReceiveMaximum : UInt16 := 65535
  maximumPacketSize : UInt32 := 0
  topicAliasMaximum : UInt16 := 0
  topicAliases : AList (fun _ : UInt16 => Bytes) := ∅

namespace MqttSession

variable (s : MqttSession) (pid : UInt16)

/-- `next_packet_id`, after the id was taken: 0 is left out. -/
def advancePacketId : MqttSession :=
  { s with nextPacketId := if s.nextPacketId + 1 = 0 then 1 else s.nextPacketId + 1 }

def addInflightPacketId : MqttSession :=
  { s with inflightPacketIds := insert pid s.inflightPacketIds }

def hasInflightPacketId : Bool := pid ∈ s.inflightPacketIds

def removeInflightPacketId : MqttSession :=
  { s with inflightPacketIds := s.inflightPacketIds.erase pid }

def inflightCount : Nat := s.inflightPacketIds.card

def removeOutgoingPacketId : MqttSession :=
  { s with outgoingPacketIds := s.outgoingPacketIds.erase pid }

def addSubscription (filter : Bytes) (qos : QoS) : MqttSession :=
  { s with subscriptions := s.subscriptions.insert filter qos }

def removeSubscription (filter : Bytes) : MqttSession :=
  { s with subscriptions := s.subscriptions.erase filter }

def setTopicAlias (topicAlias : UInt16) (topic : Bytes) : MqttSession :=
  { s with topicAliases := s.topicAliases.insert topicAlias topic }

def resolveTopicAlias (topicAlias : UInt16) : Option Bytes :=
  s.topicAliases.lookup topicAlias

end MqttSession

structure MqttSessionManager where
  sessions : AList (fun _ : Nat => MqttSession) := ∅
  clientIdIndex : AList (fun _ : Bytes => Nat) := ∅

namespace MqttSessionManager

variable (m : MqttSessionManager) (sid : Nat) (clientId : Bytes)

def modifySession (f : MqttSession → MqttSession) : MqttSessionManager :=
  { m with sessions := modify m.sessions sid f }

def clientIdOf : Bytes :=
  ((m.sessions.lookup sid).map (·.clientId)).getD []

def bindClientId : MqttSessionManager :=
  let oldClientId := m.clientIdOf sid
  let index :=
    if oldClientId ≠ [] ∧ oldClientId ≠ clientId then m.clientIdIndex.erase oldClientId
    else m.clientIdIndex
  { sessions := modify m.sessions sid fun s => { s with clientId }
    clientIdIndex := if clientId ≠ [] then index.insert clientId sid else index }

def removeSession : MqttSessionManager :=
  match m.sessions.lookup sid with
  | none => m
  | some s =>
    { sessions := m.sessions.erase sid
      clientIdIndex :=
        if s.clientId ≠ [] ∧ m.clientIdIndex.lookup s.clientId = some sid then
          m.clientIdIndex.erase s.clientId
        else m.clientIdIndex }

/-- The session that the index names, if it is there and has the client id. -/
def indexed : Option Nat :=
  (m.clientIdIndex.lookup clientId).filter fun sid =>
    (m.sessions.lookup sid).any (·.clientId = clientId)

/-- The first session with the client id, in the order of a `std::map`. -/
def firstWithClientId : Option Nat :=
  ((m.sessions.entries.filter (·.2.clientId = clientId)).map Sigma.fst).min?

/-- The index is repaired on the way. -/
def findByClientId : MqttSessionManager × Option Nat :=
  match m.indexed clientId with
  | some sid => (m, some sid)
  | none =>
    match m.firstWithClientId clientId with
    | some sid => ({ m with clientIdIndex := m.clientIdIndex.insert clientId sid }, some sid)
    | none => (m, none)

end MqttSessionManager

end ServerLib.Mqtt
