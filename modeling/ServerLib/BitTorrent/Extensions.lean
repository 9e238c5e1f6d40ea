import ServerLib.BitTorrent.RoundTrip
import ServerLib.Lib.Run

/-! The extension protocol.  Each side announces the numbers of its extensions in a handshake.  The
managers of `NatManager` decide on their own whether a later message is theirs. -/

namespace ServerLib.BitTorrent

open Lib BaseData BencodingDataConverter List Option

def ascii (s : String) : Bytes := s.toList.map Char.toUInt8

/-- The dictionary in a `std::string`, which a zero follows. -/
def dictionary? (text : Bytes) : Option (List (Bytes × BaseData)) :=
  match parse text [0] with
  | some (.dictionary datas) => some datas
  | _ => none

def integer? (datas : List (Bytes × BaseData)) (name : String) : Option Int64 :=
  match getVal datas (ascii name) with
  | some (.integer data) => some data
  | _ => none

def extensions (datas : List (Bytes × BaseData)) : List (Bytes × BaseData) :=
  match getVal datas (ascii "m") with
  | some (.dictionary m) => m
  | _ => []

/-- The number that a handshake announces for an extension. -/
def announced (text : Bytes) (name : String) : Option Int64 :=
  (dictionary? text).bind fun datas => integer? (extensions datas) name

def ourUtPexId : Nat := 1

def ourUtMetadataExtId : Nat := 2

def sizeText (size : Int) : Bytes :=
  if 0 < size then ascii "13:metadata_sizei" ++ signedDecimal size ++ ascii "e" else []

/-- `PexManager::build_ext_handshake` -/
def pexHandshake : Bytes :=
  ascii "d1:md6:ut_pexi" ++ decimal ourUtPexId ++ ascii "ee4:reqqi50e1:v6:YZ0001e"

/-- `MetadataManager::build_ext_handshake` -/
def metadataHandshake (metadataSize : Int32) : Bytes :=
  ascii "d1:md11:ut_metadatai" ++ decimal ourUtMetadataExtId ++ ascii "ee" ++
    sizeText metadataSize.toInt ++ ascii "e"

def addIds (ids datas : List (Bytes × BaseData)) : List (Bytes × BaseData) :=
  (extensions datas).foldl
    (fun ids entry => match entry.2 with
      | .integer _ => add ids entry.1 entry.2
      | _ => ids) ids

structure NatManager where
  enablePex : Bool
  metadataSize : Int32

/-- What both managers know of a peer.  One that no handshake has come from is like one without
extensions. -/
structure PeerState where
  utPexMsgId : Option Int32 := none
  supportsMetadata : Bool := false

structure ExtendedMessage where
  extId : UInt8
  payload : Bytes

/-- The handshake that `register_peer` sends: those of both managers in one. -/
def NatManager.extHandshake (n : NatManager) : Bytes :=
  if n.enablePex then
    let pex := (dictionary? pexHandshake).getD []
    let metadata := (dictionary? (metadataHandshake n.metadataSize)).getD []
    ascii "d1:md" ++ ((addIds (addIds [] pex) metadata).insertionSort keyLe).flatMap encodeEntry ++
      ascii "e" ++ sizeText ((integer? metadata "metadata_size").elim (-1) Int64.toInt) ++
      ascii "4:reqqi50e1:v6:YZ0001e"
  else metadataHandshake n.metadataSize

/-- `PexManager::on_extended_message` goes on to `parse_pex_message`. -/
def NatManager.takesPex (n : NatManager) (p : PeerState) (extId : UInt8) : Bool :=
  n.enablePex && extId != 0 && p.utPexMsgId.any fun id => extId == id.toInt8.toUInt8

/-- `MetadataManager::on_extended_message` goes on to read the payload. -/
def PeerState.takesMetadata (p : PeerState) (extId : UInt8) : Bool :=
  extId != 0 && p.supportsMetadata && extId == UInt8.ofNat ourUtMetadataExtId

namespace ExtendedMessage

variable (message : ExtendedMessage)

def rejects : Bool :=
  (dictionary? message.payload).any fun datas => integer? datas "msg_type" == some 2

/-- A message with our number for metadata in which the peer rejects a request. -/
def rejectsMetadata : Bool := message.extId == 2 && message.rejects

/-- What the message leaves of the peer: a handshake sets it anew, and `handle_metadata_reject`
takes the metadata away. -/
def handle (p : PeerState) : PeerState :=
  if message.extId = 0 then
    match dictionary? message.payload with
    | some datas => {
        utPexMsgId := (integer? (extensions datas) "ut_pex").map Int64.toInt32
        supportsMetadata := (integer? (extensions datas) "ut_metadata").isSome }
    | none => p
  else if p.takesMetadata message.extId && message.rejects then { p with supportsMetadata := false }
  else p

end ExtendedMessage

theorem length_decimal_le (n : Nat) : (decimal n).length ≤ n / 10 + 1 := by
  induction n using Nat.strong_induction_on with
  | _ n ih =>
    rw [decimal_eq]
    split
    · simp
    · have := ih (n / 10) (by omega)
      rw [length_append, length_singleton]
      omega

def ids (pex : Bool) : List (Bytes × BaseData) :=
  (ascii "ut_metadata", .integer 2) :: if pex then [(ascii "ut_pex", .integer 1)] else []

def others (pex : Bool) : List (Bytes × BaseData) :=
  if pex then [(ascii "reqq", .integer 50), (ascii "v", .string (ascii "YZ0001"))] else []

/-- The tree of a handshake. -/
def handshake (pex : Bool) (size : Int32) : List (Bytes × BaseData) :=
  (ascii "m", .dictionary (ids pex)) ::
    if 0 < size.toInt then (ascii "metadata_size", .integer size.toInt64) :: others pex
    else others pex

section

variable (pex : Bool) (size : Int32)

theorem insertionSort_handshake :
    (handshake pex size).insertionSort keyLe = handshake pex size := by
  rw [handshake]
  cases pex <;> split <;> rfl

theorem doEncode_handshake : doEncode (.dictionary (handshake pex size)) =
    ascii "d1:md" ++ (ids pex).flatMap encodeEntry ++ ascii "e" ++ sizeText size.toInt ++
      ((others pex).flatMap encodeEntry ++ ascii "e") := by
  rw [doEncode_dictionary, insertionSort_handshake, sizeText, handshake]
  by_cases h : 0 < size.toInt
  · simp only [if_pos h, flatMap_cons, append_assoc, encodeEntry, doEncode,
      Int32.toInt_toInt64, cons_append]
    cases pex <;> rfl
  · rw [if_neg h, if_neg h]
    cases pex <;> rfl

theorem length_sizeText : (sizeText size.toInt).length < 2 ^ 30 := by
  have hlt := size.toInt_lt
  have hdecimal := length_decimal_le size.toInt.natAbs
  rw [sizeText]
  split
  · rw [signedDecimal, if_neg (by omega), length_append, length_append]
    change 17 + _ + 1 < _
    omega
  · decide

theorem dictionary?_doEncode (hdistinct : (BaseData.dictionary datas).Distinct)
    (hlength : (doEncode (.dictionary datas)).length < 2 ^ 31)
    (hrestored : restored (.dictionary datas) = .dictionary datas) :
    dictionary? (doEncode (.dictionary datas)) = some datas := by
  rw [dictionary?, parse_doEncode hdistinct hlength, hrestored]

theorem dictionary?_handshake :
    dictionary? (doEncode (.dictionary (handshake pex size))) = some (handshake pex size) := by
  refine dictionary?_doEncode ?_ ?_ ?_
  · rw [handshake]
    cases pex <;> split <;> simp [Distinct, DistinctEntries, ids, others] <;> decide
  · have hsize := length_sizeText size
    have hhead : (ascii "d1:md" ++ (ids pex).flatMap encodeEntry ++ ascii "e").length ≤ 99 := by
      cases pex <;> decide
    have hlast : ((others pex).flatMap encodeEntry ++ ascii "e").length ≤ 99 := by
      cases pex <;> decide
    rw [doEncode_handshake, length_append, length_append]
    omega
  · rw [handshake]
    cases pex <;> split <;> rfl

end

theorem dictionary?_pexHandshake : dictionary? pexHandshake =
    some ((ascii "m", .dictionary [(ascii "ut_pex", .integer 1)]) :: others true) := by
  have htext : pexHandshake = doEncode (.dictionary
      ((ascii "m", .dictionary [(ascii "ut_pex", .integer 1)]) :: others true)) := rfl
  rw [htext]
  refine dictionary?_doEncode ?_ (by decide) rfl
  simp [Distinct, DistinctEntries, others]
  decide

theorem extHandshake_eq (n : NatManager) :
    n.extHandshake = doEncode (.dictionary (handshake n.enablePex n.metadataSize)) := by
  have hmetadata : metadataHandshake n.metadataSize =
      doEncode (.dictionary (handshake false n.metadataSize)) :=
    (doEncode_handshake false n.metadataSize).symm
  rw [NatManager.extHandshake, hmetadata, dictionary?_handshake, dictionary?_pexHandshake]
  cases n.enablePex with
  | false => rfl
  | true =>
    have hsize : sizeText ((integer? (handshake false n.metadataSize) "metadata_size").elim
        (-1) Int64.toInt) = sizeText n.metadataSize.toInt := by
      rw [handshake]
      by_cases h : 0 < n.metadataSize.toInt
      · rw [if_pos h]
        exact congrArg sizeText n.metadataSize.toInt_toInt64
      · rw [if_neg h, sizeText, sizeText, if_neg h]
        rfl
    rw [doEncode_handshake true]
    simp only [getD_some, hsize, if_true]
    rfl

theorem announced_extHandshake (n : NatManager) (name : String) :
    announced n.extHandshake name = integer? (ids n.enablePex) name := by
  rw [extHandshake_eq, announced, dictionary?_handshake]
  rfl

theorem takesMetadata_eq (p : PeerState) (extId : UInt8) :
    p.takesMetadata extId = (p.supportsMetadata && extId == 2) := by
  rw [PeerState.takesMetadata, show UInt8.ofNat ourUtMetadataExtId = 2 from rfl]
  by_cases h : extId = 2
  · simp [h]
  · simp [beq_eq_false_iff_ne.mpr h]

theorem handle_hello (p : PeerState) (hpex : announced hello "ut_pex" = some x)
    (hmetadata : announced hello "ut_metadata" = some y) :
    ExtendedMessage.handle ⟨0, hello⟩ p = ⟨some x.toInt32, true⟩ := by
  rw [announced] at hpex hmetadata
  cases hdatas : dictionary? hello with
  | none => simp [hdatas] at hpex
  | some datas =>
    rw [hdatas, bind_some] at hpex hmetadata
    simp [ExtendedMessage.handle, hdatas, hpex, hmetadata]

theorem run_handle {messages : List ExtendedMessage}
    (h : ∀ m ∈ messages, m.extId = 0 → dictionary? m.payload = none) (id : Option Int32)
    (supports : Bool) :
    run (fun p m => m.handle p) ⟨id, supports⟩ messages =
      ⟨id, supports && !messages.any ExtendedMessage.rejectsMetadata⟩ := by
  induction messages generalizing supports with
  | nil => simp
  | cons message messages ih =>
    have hstep : message.handle ⟨id, supports⟩ = ⟨id, supports && !message.rejectsMetadata⟩ := by
      rw [ExtendedMessage.handle, ExtendedMessage.rejectsMetadata, takesMetadata_eq]
      by_cases hid : message.extId = 0
      · simp [hid, h message (by simp) hid]
      · cases supports <;> cases hreject : message.extId == 2 && message.rejects <;>
          simp [hid, hreject]
    rw [run_cons, hstep, ih fun m hm => h m (by simp [hm])]
    simp [Bool.and_assoc]

/-- Each message is taken by the manager whose extension our handshake announces its number for,
and by no other, exactly if the peer numbers PEX as we do and never rejects a request. -/
theorem takes_iff_announced (n : NatManager) (p : PeerState) {hello : Bytes} {x y : Int64}
    (hpex : announced hello "ut_pex" = some x) (hmetadata : announced hello "ut_metadata" = some y)
    {messages : List ExtendedMessage}
    (h : ∀ m ∈ messages, m.extId = 0 → dictionary? m.payload = none) :
    let q := run (fun p m => m.handle p) p (⟨0, hello⟩ :: messages)
    let ours := fun name => (announced n.extHandshake name).map Int64.toInt
    (∀ extId : UInt8, (n.takesPex q extId ↔ ours "ut_pex" = some (extId.toNat : Int)) ∧
      (q.takesMetadata extId ↔ ours "ut_metadata" = some (extId.toNat : Int)) ∧
      ¬(n.takesPex q extId ∧ q.takesMetadata extId)) ↔
    (n.enablePex → x.toInt8.toUInt8 = 1) ∧ ¬messages.any ExtendedMessage.rejectsMetadata := by
  intro q ours
  have hq : q = ⟨some x.toInt32, !messages.any ExtendedMessage.rejectsMetadata⟩ := by
    simp [q, run_cons, run_handle h, handle_hello p hpex hmetadata]
  have hsame (k extId : UInt8) : some (k.toNat : Int) = some (extId.toNat : Int) ↔ extId = k := by
    rw [some_inj, Int.natCast_inj, UInt8.toNat_inj, eq_comm]
  have hmetadata (extId : UInt8) : ours "ut_metadata" = some (extId.toNat : Int) ↔ extId = 2 := by
    simp only [ours, announced_extHandshake]
    exact hsame 2 extId
  have hpex (extId : UInt8) :
      ours "ut_pex" = some (extId.toNat : Int) ↔ n.enablePex ∧ extId = 1 := by
    simp only [ours, announced_extHandshake]
    cases n.enablePex
    · simpa using nofun
    · simp only [true_and]
      exact hsame 1 extId
  have htakes (extId : UInt8) :
      n.takesPex q extId ↔ n.enablePex ∧ extId ≠ 0 ∧ extId = x.toInt8.toUInt8 := by
    simp [hq, NatManager.takesPex, and_assoc]
  simp only [hmetadata, hpex, htakes, takesMetadata_eq]
  rw [hq]
  generalize x.toInt8.toUInt8 = id
  constructor
  · intro h
    have hone := h 1
    have htwo := h 2
    simp at hone htwo
    grind
  · rintro ⟨hid, hreject⟩ extId
    grind

def hello (pex : String) : Bytes :=
  ascii "d1:md11:ut_metadatai3e6:ut_pexi" ++ ascii pex ++ ascii "eee"

def askPiece : ExtendedMessage := ⟨2, ascii "d8:msg_typei0ee"⟩

/-- A peer that numbers PEX as we do asks for metadata. -/
theorem takes_iff_announced_request :
    PeerState.takesMetadata (run (fun p m => m.handle p) {} [⟨0, hello "1"⟩, askPiece]) 2 := by
  have hpex : announced (hello "1") "ut_pex" = some 1 := by decide +kernel
  have hmetadata : announced (hello "1") "ut_metadata" = some 3 := by decide +kernel
  have hlater : ∀ m ∈ [askPiece], m.extId = 0 → dictionary? m.payload = none := by
    simp [askPiece]
  have htakes := (takes_iff_announced ⟨true, 100⟩ {} hpex hmetadata hlater).mpr
    (by decide +kernel) 2
  exact htakes.2.1.mpr (congrArg (Option.map Int64.toInt) (announced_extHandshake _ _))

/-- A peer that gives PEX the number 2, which is ours for metadata: its messages with this number
are taken as both, and those with our number for PEX as neither. -/
theorem takes_both :
    let q := ExtendedMessage.handle ⟨0, hello "2"⟩ {}
    announced (hello "2") "ut_pex" = some 2 ∧ announced (hello "2") "ut_metadata" = some 3 ∧
      announced (NatManager.extHandshake ⟨true, 0⟩) "ut_pex" = some 1 ∧
      NatManager.takesPex ⟨true, 0⟩ q 2 ∧ q.takesMetadata 2 ∧ ¬NatManager.takesPex ⟨true, 0⟩ q 1 ∧
      ¬q.takesMetadata 1 := by
  decide +kernel

end ServerLib.BitTorrent
