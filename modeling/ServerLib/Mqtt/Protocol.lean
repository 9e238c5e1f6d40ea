import ServerLib.Mqtt.Topic

/-! The enumerations and small records of MQTT that all parts of the broker share. -/

namespace ServerLib.Mqtt

/-- `reserved` is what a cast gives for both bits. -/
inductive QoS
  | atMostOnce
  | atLeastOnce
  | exactlyOnce
  | reserved
deriving DecidableEq

namespace QoS

/-- `static_cast<QoS>`, for two bits. -/
def ofBits : Nat → QoS
  | 0 => .atMostOnce
  | 1 => .atLeastOnce
  | 2 => .exactlyOnce
  | _ => .reserved

def toNat : QoS → Nat
  | .atMostOnce => 0
  | .atLeastOnce => 1
  | .exactlyOnce => 2
  | .reserved => 3

def limit (qos bound : QoS) : QoS := if qos.toNat > bound.toNat then bound else qos

end QoS

inductive ProtocolLevel
  | v3_1_1
  | v5_0
deriving DecidableEq

structure UserProperty where
  key : Bytes
  value : Bytes
deriving DecidableEq

end ServerLib.Mqtt
