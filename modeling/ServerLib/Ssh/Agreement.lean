import Mathlib.Data.List.Find
import ServerLib.Ssh.Negotiation

/-! What the two sides agree on. -/

namespace ServerLib.Ssh

open SshNegotiatedAlgorithms SshAlgorithmRegistry SshTransport List

/-- The eight names that are negotiated. -/
structure Slots where
  kex : Text
  hostKey : Text
  cipherC2s : Text
  cipherS2c : Text
  macC2s : Text
  macS2c : Text
  compressionC2s : Text
  compressionS2c : Text

def SshNegotiatedAlgorithms.slots (n : SshNegotiatedAlgorithms) : Slots :=
  ⟨n.kexName, n.hostKeyName, n.clientToServerCipherName, n.serverToClientCipherName,
    n.clientToServerMacName, n.serverToClientMacName, n.clientToServerCompressionName,
    n.serverToClientCompressionName⟩

/-- All eight, or none. -/
def slotsOf (kex hostKey cipherC2s cipherS2c macC2s macS2c compressionC2s compressionS2c :
    Option Text) : Option Slots := do
  let kex ← kex
  let hostKey ← hostKey
  let cipherC2s ← cipherC2s
  let cipherS2c ← cipherS2c
  let macC2s ← macC2s
  let macS2c ← macS2c
  let compressionC2s ← compressionC2s
  let compressionS2c ← compressionS2c
  return ⟨kex, hostKey, cipherC2s, cipherS2c, macC2s, macS2c, compressionC2s, compressionS2c⟩

/-- The first name of the client's list that the server supports. -/
def firstCommon (names : Text) (supported : List Text) : Option Text :=
  (splitNameList names).find? (· ∈ supported)

/-- What the client's lists and the server's names should come to. -/
def expectedSlots (client : NameLists) (server : Preferences) : Option Slots :=
  slotsOf (firstCommon client.kexAlgorithms server.kex)
    (firstCommon client.serverHostKeyAlgorithms server.hostKey)
    (firstCommon client.encryptionAlgorithmsClientToServer server.cipher)
    (firstCommon client.encryptionAlgorithmsServerToClient server.cipher)
    (firstCommon client.macAlgorithmsClientToServer server.mac)
    (firstCommon client.macAlgorithmsServerToClient server.mac)
    (firstCommon client.compressionAlgorithmsClientToServer server.compression)
    (firstCommon client.compressionAlgorithmsServerToClient server.compression)

def CommaFree (names : List Text) : Prop := ∀ name ∈ names, ',' ∉ name

instance (names : List Text) : Decidable (CommaFree names) :=
  inferInstanceAs (Decidable (∀ name ∈ names, ',' ∉ name))

/-- There are names of every kind. -/
def SshAlgorithmRegistry.Named (registry : SshAlgorithmRegistry) : Prop :=
  ∀ names ∈ [registry.kexNames, registry.hostKeyNames, registry.cipherNames, registry.macNames,
    registry.compressionNames], names ≠ [] ∧ CommaFree names

instance (registry : SshAlgorithmRegistry) : Decidable registry.Named :=
  inferInstanceAs (Decidable (∀ _ ∈ _, _ ∧ _))

def SshServerConfig.Named (config : SshServerConfig) : Prop :=
  ∀ names ∈ [config.kexAlgorithms, config.hostKeyAlgorithms, config.cipherAlgorithms,
    config.macAlgorithms, config.compressionAlgorithms], CommaFree names

theorem named_defaults (zlib : Bool) : (defaults zlib).Named := by
  cases zlib with
  | false | true => decide +kernel

/-- If all else is found, the client's two lists of each kind lead to the same name. -/
def SameBothWays (client : NameLists) (server : Preferences) : Prop :=
  (firstCommon client.kexAlgorithms server.kex).isSome →
  (firstCommon client.serverHostKeyAlgorithms server.hostKey).isSome →
  (firstCommon client.encryptionAlgorithmsClientToServer server.cipher).isSome →
  (firstCommon client.macAlgorithmsClientToServer server.mac).isSome →
  (firstCommon client.compressionAlgorithmsClientToServer server.compression).isSome →
    firstCommon client.encryptionAlgorithmsServerToClient server.cipher =
        firstCommon client.encryptionAlgorithmsClientToServer server.cipher ∧
      firstCommon client.macAlgorithmsServerToClient server.mac =
        firstCommon client.macAlgorithmsClientToServer server.mac ∧
      firstCommon client.compressionAlgorithmsServerToClient server.compression =
        firstCommon client.compressionAlgorithmsClientToServer server.compression

section Lists

variable {names supported config registered : List Text}

theorem splitNameList_joinNameList (h : CommaFree names) :
    splitNameList (joinNameList names) = names.filter (· ≠ []) := by
  rw [splitNameList, joinNameList]
  cases names with
  | nil => rfl
  | cons name names => rw [splitOn_intercalate ',' h (cons_ne_nil _ _)]

theorem ne_nil_of_mem_splitNameList (h : name ∈ splitNameList list) : name ≠ [] := by
  simpa using (mem_filter.mp h).2

theorem negotiateNameList_joinNameList (h : CommaFree supported) (list : Text) :
    negotiateNameList (splitNameList list) (joinNameList supported) =
      firstCommon list supported := by
  rw [negotiateNameList, splitNameList_joinNameList h, firstCommon]
  apply find?_congr
  intro name hmem
  have hne := ne_nil_of_mem_splitNameList hmem
  simp [hne]

theorem filterSupportedAlgorithms_eq (h : registered ≠ []) :
    filterSupportedAlgorithms config registered = config.filter (· ∈ registered) := if_neg h

theorem commaFree_filter (h : CommaFree registered) :
    CommaFree (config.filter (· ∈ registered)) := by
  intro name hmem
  exact h name (by simpa using (mem_filter.mp hmem).2)

theorem find?_orAll (h : ∀ name, p name → name ∈ registered) :
    (orAll (config.filter (· ∈ registered)) config).find? p =
      (config.filter (· ∈ registered)).find? p := by
  rw [orAll]
  split_ifs with hnil
  · rw [hnil, find?_nil, find?_eq_none]
    intro name hmem hp
    have hkept : name ∈ config.filter (· ∈ registered) :=
      mem_filter.mpr ⟨hmem, by simpa using h name hp⟩
    rw [hnil] at hkept
    cases hkept
  · rfl

theorem mem_orAll (h : name ∈ registered) :
    name ∈ orAll (config.filter (· ∈ registered)) config ↔
      name ∈ config.filter (· ∈ registered) := by
  rw [orAll]
  split_ifs with hnil
  · simp [h]
  · rfl

theorem commaFree_orAll (h : CommaFree config) :
    CommaFree (orAll (config.filter (· ∈ registered)) config) := by
  rw [orAll]
  split
  · exact h
  · exact fun name hmem => h name (mem_of_mem_filter hmem)

theorem negotiateNameList_both (hne : registered ≠ []) (hclient : CommaFree client)
    (hserver : CommaFree server) :
    negotiateNameList (filterSupportedAlgorithms client registered)
        (joinNameList (orAll (filterSupportedAlgorithms server registered) server)) =
      negotiateNameList
        (splitNameList (joinNameList (orAll (filterSupportedAlgorithms client registered) client)))
        (joinNameList (filterSupportedAlgorithms server registered)) := by
  have hkept : CommaFree (server.filter (· ∈ registered)) :=
    fun name hmem => hserver name (mem_of_mem_filter hmem)
  simp only [filterSupportedAlgorithms_eq hne, negotiateNameList,
    splitNameList_joinNameList (commaFree_orAll hserver), splitNameList_joinNameList hkept,
    splitNameList_joinNameList (commaFree_orAll hclient)]
  symm
  rw [find?_filter, find?_orAll]
  · apply find?_congr
    intro name hmem
    have hregistered : name ∈ registered := by simpa using (mem_filter.mp hmem).2
    have hiff : name ∈ orAll (server.filter (· ∈ registered)) server ↔
        name ∈ server.filter (· ∈ registered) := mem_orAll hregistered
    by_cases hnil : name = []
    · simp [hnil]
    · simp only [mem_filter (p := (fun name => decide (name ≠ []))), hiff]
      simp
  · intro name hp
    simp only [decide_eq_true_eq, mem_filter] at hp
    exact hp.2.1.2

end Lists

theorem slots_negotiate (our : Preferences) (peer : NameLists) :
    (negotiate our peer).map slots =
      slotsOf (negotiateNameList our.kex peer.kexAlgorithms)
        (negotiateNameList our.hostKey peer.serverHostKeyAlgorithms)
        (negotiateNameList our.cipher peer.encryptionAlgorithmsClientToServer)
        (negotiateNameList our.cipher peer.encryptionAlgorithmsServerToClient)
        (negotiateNameList our.mac peer.macAlgorithmsClientToServer)
        (negotiateNameList our.mac peer.macAlgorithmsServerToClient)
        (negotiateNameList our.compression peer.compressionAlgorithmsClientToServer)
        (negotiateNameList our.compression peer.compressionAlgorithmsServerToClient) := by
  rw [negotiate, slotsOf]
  simp only [Option.map_bind, Option.bind_eq_bind, Function.comp_def]
  rfl

theorem slotsOf_eq_iff (k h c c' m m' z z' : Option Text) :
    slotsOf k h c c m m z z = slotsOf k h c c' m m' z z' ↔
      (k.isSome → h.isSome → c.isSome → m.isSome → z.isSome → c' = c ∧ m' = m ∧ z' = z) := by
  cases k with
  | none => simp [slotsOf]
  | some k =>
    cases h with
    | none => simp [slotsOf]
    | some h =>
      cases c with
      | none => simp [slotsOf]
      | some c =>
        cases m with
        | none => cases c' <;> simp [slotsOf]
        | some m =>
          cases z with
          | none => cases c' <;> cases m' <;> simp [slotsOf]
          | some z =>
            cases c' <;> cases m' <;> cases z' <;> simp [slotsOf, eq_comm]

theorem fst_processKexInit (transport : SshTransport) (msg : SshKexInitMessage)
    (config : SshServerConfig) :
    (transport.processKexInit msg config).1 = transport.negotiation msg config := by
  rw [processKexInit]
  cases transport.negotiation msg config with
  | none | some result => rfl

theorem slots_server {registry : SshAlgorithmRegistry} (hregistry : registry.Named)
    (transport : SshTransport) (htransport : transport.registry = some registry)
    (hserver : transport.weAreServer) (msg : SshKexInitMessage) (config : SshServerConfig) :
    ((transport.processKexInit msg config).1.map slots =
        expectedSlots msg.lists (registry.supported config)) ↔
      SameBothWays msg.lists (registry.supported config) := by
  simp only [SshAlgorithmRegistry.Named, forall_mem_cons] at hregistry
  obtain ⟨hkex, hhost, hcipher, hmac, hcompression, -⟩ := hregistry
  have hfree : ∀ {names config : List Text}, (names ≠ [] ∧ CommaFree names) →
      CommaFree (filterSupportedAlgorithms config names) := by
    intro names config h
    rw [filterSupportedAlgorithms_eq h.1]
    exact commaFree_filter h.2
  rw [fst_processKexInit, negotiation, htransport]
  simp only [hserver, if_true]
  rw [slots_negotiate]
  simp only [NameLists.preferences, Preferences.lists, supported,
    negotiateNameList_joinNameList (hfree hkex), negotiateNameList_joinNameList (hfree hhost),
    negotiateNameList_joinNameList (hfree hcipher), negotiateNameList_joinNameList (hfree hmac),
    negotiateNameList_joinNameList (hfree hcompression), expectedSlots, SameBothWays]
  exact slotsOf_eq_iff _ _ _ _ _ _ _ _

theorem slots_both {registry : SshAlgorithmRegistry} (hregistry : registry.Named)
    (client server : SshTransport) (hclient : client.registry = some registry)
    (hserver : server.registry = some registry) (hroleC : client.weAreServer = false)
    (hroleS : server.weAreServer) (hconfigC : clientConfig.Named)
    (hconfigS : serverConfig.Named) :
    (client.processKexInit (server.buildKexInit serverConfig) clientConfig).1.map
        slots =
      (server.processKexInit (client.buildKexInit clientConfig) serverConfig).1.map
        slots := by
  simp only [SshAlgorithmRegistry.Named, forall_mem_cons] at hregistry
  obtain ⟨hkex, hhost, hcipher, hmac, hcompression, -⟩ := hregistry
  simp only [SshServerConfig.Named, forall_mem_cons] at hconfigC hconfigS
  obtain ⟨hkexC, hhostC, hcipherC, hmacC, hcompressionC, -⟩ := hconfigC
  obtain ⟨hkexS, hhostS, hcipherS, hmacS, hcompressionS, -⟩ := hconfigS
  rw [fst_processKexInit, fst_processKexInit, negotiation, negotiation,
    buildKexInit, buildKexInit, hclient, hserver]
  simp only [hroleC, hroleS, if_true, if_false, Bool.false_eq_true]
  rw [slots_negotiate, slots_negotiate]
  simp only [NameLists.preferences, Preferences.lists, supported,
    negotiateNameList_both hkex.1 hkexC hkexS, negotiateNameList_both hhost.1 hhostC hhostS,
    negotiateNameList_both hcipher.1 hcipherC hcipherS,
    negotiateNameList_both hmac.1 hmacC hmacS,
    negotiateNameList_both hcompression.1 hcompressionC hcompressionS]

/-- The server takes the first common name in every slot exactly if the client's two lists of each
kind lead to the same name; and two transports agree on what they sent each other. -/
theorem server_takes_first_iff {registry : SshAlgorithmRegistry} (hregistry : registry.Named) :
    (∀ (server : SshTransport) (msg : SshKexInitMessage) (config : SshServerConfig),
      server.registry = some registry → server.weAreServer = true →
      ((server.processKexInit msg config).1.map slots =
          expectedSlots msg.lists (registry.supported config) ↔
        SameBothWays msg.lists (registry.supported config))) ∧
    ∀ (client server : SshTransport) (clientConfig serverConfig : SshServerConfig),
      client.registry = some registry → server.registry = some registry →
      client.weAreServer = false → server.weAreServer = true →
      clientConfig.Named → serverConfig.Named →
      (client.processKexInit (server.buildKexInit serverConfig) clientConfig).1.map
          slots =
        (server.processKexInit (client.buildKexInit clientConfig) serverConfig).1.map
          slots :=
  ⟨fun server msg config hserver hrole =>
      slots_server hregistry server hserver hrole msg config,
    fun client server _ _ hclient hserver hroleC hroleS hconfigC hconfigS =>
      slots_both hregistry client server hclient hserver hroleC hroleS hconfigC hconfigS⟩

def defaultServer : SshTransport :=
  { registry := some (.defaults false), weAreServer := true }

/-- The lists of a client with one name for each kind but for the ciphers. -/
def clientLists (c2s s2c : Text) : NameLists where
  kexAlgorithms := "curve25519-sha256".toList
  serverHostKeyAlgorithms := "ssh-ed25519".toList
  encryptionAlgorithmsClientToServer := c2s
  encryptionAlgorithmsServerToClient := s2c
  macAlgorithmsClientToServer := "hmac-sha1".toList
  macAlgorithmsServerToClient := "hmac-sha1".toList
  compressionAlgorithmsClientToServer := "none".toList
  compressionAlgorithmsServerToClient := "none".toList

theorem server_takes_first_aes : let msg : SshKexInitMessage :=
      { lists := clientLists "aes128-ctr,aes256-ctr".toList "aes128-ctr".toList }
    (defaultServer.processKexInit msg {}).1.map slots =
      expectedSlots msg.lists ((defaults false).supported {}) := by
  refine ((server_takes_first_iff (named_defaults false)).1 defaultServer _ {} rfl rfl).mpr ?_
  intro _ _ _ _ _
  decide +kernel

/-- Another cipher for each direction: the server takes that from the client for both. -/
theorem server_not_takes_first : let msg : SshKexInitMessage :=
      { lists := clientLists "aes128-ctr".toList "aes256-ctr".toList }
    ((defaultServer.processKexInit msg {}).1.map fun n => n.slots.cipherS2c) =
        some "aes128-ctr".toList ∧
      (expectedSlots msg.lists ((defaults false).supported {})).map
        Slots.cipherS2c = some "aes256-ctr".toList := by
  decide +kernel

end ServerLib.Ssh
