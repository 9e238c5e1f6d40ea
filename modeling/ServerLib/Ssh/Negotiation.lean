import Mathlib.Data.List.Infix

/-! Key exchange: the lists of names that the two sides send, and the algorithms that come of
them. -/

namespace ServerLib.Ssh

/-- The name of an algorithm, and also a list of names with commas between them. -/
abbrev Text := List Char

/-- `split_name_list`, and the loop over `getline` in `negotiate_name_list`: empty names are left
out. -/
def splitNameList (names : Text) : List Text := (names.splitOn ',').filter (· ≠ [])

def joinNameList (names : List Text) : Text := [','].intercalate names

/-- The names that are registered. -/
structure SshAlgorithmRegistry where
  kexNames : List Text
  hostKeyNames : List Text
  cipherNames : List Text
  macNames : List Text
  compressionNames : List Text
deriving DecidableEq

/-- `register_defaults`, with or without zlib. -/
def SshAlgorithmRegistry.defaults (zlib : Bool) : SshAlgorithmRegistry where
  kexNames :=
    ["curve25519-sha256".toList, "curve25519-sha256@libssh.org".toList,
      "ecdh-sha2-nistp256".toList, "ecdh-sha2-nistp384".toList, "ecdh-sha2-nistp521".toList,
      "diffie-hellman-group14-sha256".toList, "diffie-hellman-group16-sha512".toList,
      "diffie-hellman-group18-sha512".toList]
  hostKeyNames :=
    ["ssh-ed25519".toList, "ecdsa-sha2-nistp256".toList, "ecdsa-sha2-nistp384".toList,
      "ecdsa-sha2-nistp521".toList, "rsa-sha2-512".toList, "rsa-sha2-256".toList,
      "ssh-rsa".toList]
  cipherNames :=
    ["chacha20-poly1305@openssh.com".toList, "aes128-gcm@openssh.com".toList,
      "aes256-gcm@openssh.com".toList, "aes128-ctr".toList, "aes192-ctr".toList,
      "aes256-ctr".toList]
  macNames := ["hmac-sha2-256".toList, "hmac-sha2-512".toList, "hmac-sha1".toList, []]
  compressionNames :=
    "none".toList :: if zlib then ["zlib".toList, "zlib@openssh.com".toList] else []

structure SshNegotiatedAlgorithms where
  kexName : Text
  kexHashName : Text
  hostKeyName : Text
  clientToServerCipherName : Text
  serverToClientCipherName : Text
  clientToServerMacName : Text
  serverToClientMacName : Text
  clientToServerCompressionName : Text
  serverToClientCompressionName : Text
deriving DecidableEq

instance : LawfulBEq Text := inferInstance

/-- The first of our names that the peer has, too. -/
def negotiateNameList (ourPrefs : List Text) (peerList : Text) : Option Text :=
  ourPrefs.find? (· ∈ splitNameList peerList)

def kexHashName (kexName : Text) : Text :=
  if "sha512".toList <:+: kexName ∨ "sha2-512".toList <:+: kexName then "sha512".toList
  else if "sha384".toList <:+: kexName then "sha384".toList
  else if "sha1".toList <:+: kexName then "sha1".toList
  else "sha256".toList

/-- Our names, one list for each kind. -/
structure Preferences where
  kex : List Text
  hostKey : List Text
  cipher : List Text
  mac : List Text
  compression : List Text

/-- The lists of a message, those for the kinds with a direction once for each direction. -/
structure NameLists where
  kexAlgorithms : Text
  serverHostKeyAlgorithms : Text
  encryptionAlgorithmsClientToServer : Text
  encryptionAlgorithmsServerToClient : Text
  macAlgorithmsClientToServer : Text
  macAlgorithmsServerToClient : Text
  compressionAlgorithmsClientToServer : Text
  compressionAlgorithmsServerToClient : Text
deriving DecidableEq

/-- Our one list for a kind serves both directions. -/
def negotiate (our : Preferences) (peer : NameLists) : Option SshNegotiatedAlgorithms := do
  let kex ← negotiateNameList our.kex peer.kexAlgorithms
  let hostKey ← negotiateNameList our.hostKey peer.serverHostKeyAlgorithms
  let cipherC2s ← negotiateNameList our.cipher peer.encryptionAlgorithmsClientToServer
  let cipherS2c ← negotiateNameList our.cipher peer.encryptionAlgorithmsServerToClient
  let macC2s ← negotiateNameList our.mac peer.macAlgorithmsClientToServer
  let macS2c ← negotiateNameList our.mac peer.macAlgorithmsServerToClient
  let compC2s ← negotiateNameList our.compression peer.compressionAlgorithmsClientToServer
  let compS2c ← negotiateNameList our.compression peer.compressionAlgorithmsServerToClient
  return {
    kexName := kex
    kexHashName := kexHashName kex
    hostKeyName := hostKey
    clientToServerCipherName := cipherC2s
    serverToClientCipherName := cipherS2c
    clientToServerMacName := macC2s
    serverToClientMacName := macS2c
    clientToServerCompressionName := compC2s
    serverToClientCompressionName := compS2c }

/-- The lists of `SshServerConfig`. -/
structure SshServerConfig where
  hostKeyAlgorithms : List Text :=
    ["ssh-ed25519".toList, "ecdsa-sha2-nistp256".toList, "ecdsa-sha2-nistp384".toList,
      "ecdsa-sha2-nistp521".toList, "rsa-sha2-512".toList, "rsa-sha2-256".toList]
  kexAlgorithms : List Text :=
    ["curve25519-sha256".toList, "curve25519-sha256@libssh.org".toList,
      "ecdh-sha2-nistp256".toList, "ecdh-sha2-nistp384".toList, "ecdh-sha2-nistp521".toList,
      "diffie-hellman-group14-sha256".toList, "diffie-hellman-group16-sha512".toList,
      "diffie-hellman-group18-sha512".toList]
  cipherAlgorithms : List Text :=
    ["chacha20-poly1305@openssh.com".toList, "aes256-gcm@openssh.com".toList,
      "aes128-gcm@openssh.com".toList, "aes256-ctr".toList, "aes192-ctr".toList,
      "aes128-ctr".toList]
  macAlgorithms : List Text :=
    ["hmac-sha2-256".toList, "hmac-sha2-512".toList, "hmac-sha1".toList]
  compressionAlgorithms : List Text :=
    ["none".toList, "zlib@openssh.com".toList, "zlib".toList]

structure SshKexInitMessage where
  lists : NameLists
  firstKexPacketFollows : Bool := false

structure SshTransport where
  registry : Option SshAlgorithmRegistry
  weAreServer : Bool
  negotiated : Option SshNegotiatedAlgorithms := none
  kexAlgo : Option Text := none
  ignoreNextKexPacket : Bool := false

def firstNameInList (names : Text) : Text := names.takeWhile (· ≠ ',')

def filterSupportedAlgorithms (preferred supported : List Text) : List Text :=
  if supported = [] then preferred else preferred.filter (· ∈ supported)

/-- The names of the configuration that are registered. -/
def SshAlgorithmRegistry.supported (registry : SshAlgorithmRegistry) (config : SshServerConfig) :
    Preferences where
  kex := filterSupportedAlgorithms config.kexAlgorithms registry.kexNames
  hostKey := filterSupportedAlgorithms config.hostKeyAlgorithms registry.hostKeyNames
  cipher := filterSupportedAlgorithms config.cipherAlgorithms registry.cipherNames
  mac := filterSupportedAlgorithms config.macAlgorithms registry.macNames
  compression := filterSupportedAlgorithms config.compressionAlgorithms registry.compressionNames

/-- The same list for both directions. -/
def Preferences.lists (our : Preferences) : NameLists where
  kexAlgorithms := joinNameList our.kex
  serverHostKeyAlgorithms := joinNameList our.hostKey
  encryptionAlgorithmsClientToServer := joinNameList our.cipher
  encryptionAlgorithmsServerToClient := joinNameList our.cipher
  macAlgorithmsClientToServer := joinNameList our.mac
  macAlgorithmsServerToClient := joinNameList our.mac
  compressionAlgorithmsClientToServer := joinNameList our.compression
  compressionAlgorithmsServerToClient := joinNameList our.compression

/-- The peer's names, for a direction those from the client to the server. -/
def NameLists.preferences (lists : NameLists) : Preferences where
  kex := splitNameList lists.kexAlgorithms
  hostKey := splitNameList lists.serverHostKeyAlgorithms
  cipher := splitNameList lists.encryptionAlgorithmsClientToServer
  mac := splitNameList lists.macAlgorithmsClientToServer
  compression := splitNameList lists.compressionAlgorithmsClientToServer

/-- The filtered list is sent unless it is empty. -/
def orAll (filtered all : List Text) : List Text := if filtered = [] then all else filtered

variable (transport : SshTransport)

def SshTransport.buildKexInit (config : SshServerConfig) : SshKexInitMessage :=
  let all : Preferences :=
    { kex := config.kexAlgorithms
      hostKey := config.hostKeyAlgorithms
      cipher := config.cipherAlgorithms
      mac := config.macAlgorithms
      compression := config.compressionAlgorithms }
  match transport.registry with
  | none => { lists := all.lists }
  | some registry =>
    let local_ := registry.supported config
    let sent : Preferences :=
      { kex := orAll local_.kex all.kex
        hostKey := orAll local_.hostKey all.hostKey
        cipher := orAll local_.cipher all.cipher
        mac := orAll local_.mac all.mac
        compression := orAll local_.compression all.compression }
    { lists := sent.lists }

def SshTransport.negotiation (msg : SshKexInitMessage) (config : SshServerConfig) :
    Option SshNegotiatedAlgorithms :=
  match transport.registry with
  | none => none
  | some registry =>
    let local_ := registry.supported config
    if transport.weAreServer then negotiate msg.lists.preferences local_.lists
    else negotiate local_ msg.lists

def SshTransport.processKexInit (msg : SshKexInitMessage) (config : SshServerConfig) :
    Option SshNegotiatedAlgorithms × SshTransport :=
  match transport.negotiation msg config with
  | none => (none, transport)
  | some result =>
    (some result, { transport with
      negotiated := some result
      kexAlgo := (transport.registry.map SshAlgorithmRegistry.kexNames).bind
        fun names => names.find? (· = result.kexName)
      ignoreNextKexPacket := msg.firstKexPacketFollows ∧
        (firstNameInList msg.lists.kexAlgorithms ≠ result.kexName ∨
          firstNameInList msg.lists.serverHostKeyAlgorithms ≠ result.hostKeyName) })

end ServerLib.Ssh
