import ServerLib.Dns.Names

/-!
Messages in wire form.  A pointer in a name counts from the first byte of the message, and goes
back.  `deserialize` counts it from the first byte of the question or record it stands in.
-/

namespace ServerLib.Dns

open Lib DnsResourceRecord List Option

/-- The name at `p`, which ends before `e`. -/
inductive NameAt (message : Bytes) : Nat → List Bytes → Nat → Prop
  | root {p} (h : pieceAt message p = .root) : NameAt message p [] (p + 1)
  | label {p e text labels} (h : pieceAt message p = .label text)
      (hrest : NameAt message (p + 1 + text.length) labels e) :
      NameAt message p (text :: labels) e
  | pointer {p e offset labels} (h : pieceAt message p = .pointer offset)
      (hearlier : offset < p) (hname : NameAt message offset labels e) :
      NameAt message p labels (p + 2)

variable (message : Bytes) (packet : DnsPacket)

/-- The bytes stand at `p`, and `e` is the place after them. -/
def BytesAt (bytes : Bytes) (p e : Nat) : Prop :=
  message.drop p = bytes ++ message.drop e ∧ e = p + bytes.length

def DnsQuestion.fieldBytes (question : DnsQuestion) : Bytes :=
  writeU16 question.type.code ++ writeU16 question.class_.code

def DnsResourceRecord.fieldBytes (record : DnsResourceRecord) : Bytes :=
  writeU16 record.type.code ++ (writeU16 record.class_.code ++
    (writeU32 record.ttl ++ writeBlock record.rdata))

def QuestionAt (p : Nat) (question : DnsQuestion) (e : Nat) : Prop :=
  ∃ labels middle, NameAt message p labels middle ∧ question.name = nameText labels ∧
    BytesAt message question.fieldBytes middle e

def RecordAt (p : Nat) (record : DnsResourceRecord) (e : Nat) : Prop :=
  record.rdata.length < 2 ^ 16 ∧
    ∃ labels middle, NameAt message p labels middle ∧ record.name = nameText labels ∧
      BytesAt message record.fieldBytes middle e

/-- Entries one after the other, with the places where they begin and their names. -/
inductive SectionAt {α : Type} (entryAt : Nat → α → Nat → Prop) (name : α → Bytes) :
    Nat → List α → List (Nat × Bytes) → Nat → Prop
  | nil {p} : SectionAt entryAt name p [] [] p
  | cons {p q e entry entries names} (h : entryAt p entry q)
      (hrest : SectionAt entryAt name q entries names e) :
      SectionAt entryAt name p (entry :: entries) ((p, name entry) :: names) e

/-- The numbers of entries and the two fields of four bits fit into the header. -/
structure DnsPacket.FitsHeader (packet : DnsPacket) : Prop where
  opcode : packet.opcode.code.toNat < 2 ^ 4
  responseCode : packet.responseCode.code.toNat < 2 ^ 4
  questions : packet.questions.length < 2 ^ 16
  answers : packet.answers.length < 2 ^ 16
  authorities : packet.authorities.length < 2 ^ 16
  additionals : packet.additionals.length < 2 ^ 16

/-- The message is that of the packet, and ends before `e`.  `names` has the place and the name of
every question and record. -/
def MessageAt (names : List (Nat × Bytes)) (e : Nat) : Prop :=
  packet.FitsHeader ∧ ∃ p₀ p₁ p₂ p₃, ∃ n₀ n₁ n₂ n₃,
    BytesAt message packet.headerBytes 0 p₀ ∧
    SectionAt (QuestionAt message) DnsQuestion.name p₀ packet.questions n₀ p₁ ∧
    SectionAt (RecordAt message) name p₁ packet.answers n₁ p₂ ∧
    SectionAt (RecordAt message) name p₂ packet.authorities n₂ p₃ ∧
    SectionAt (RecordAt message) name p₃ packet.additionals n₃ e ∧
    names = n₀ ++ (n₁ ++ (n₂ ++ n₃))

def SpellsFrom (p : Nat) (name : Bytes) : Prop :=
  ∃ labels, Spells (message.drop p) 0 labels ∧ name = nameText labels

section Names

variable {message : Bytes}

theorem NameAt.endsAt (h : NameAt message p labels e) : EndsAt message p e := by
  induction h with
  | root h => exact .root h
  | label h _ ih => exact .label h ih
  | pointer h => exact .of_pointer h

theorem NameAt.lt (h : NameAt message p labels e) : p < e := by
  induction h with
  | root | label _ _ ih | pointer => omega

theorem readName_at (h : NameAt message p labels e) (name rest : Bytes) :
    readName (message.drop p) = some (name, rest) ↔
      SpellsFrom message p name ∧ rest = message.drop e := by
  have hlt := h.lt
  have hends : EndsAt (message.drop p) 0 (e - p) := by
    apply EndsAt.drop
    rw [Nat.add_zero, Nat.add_sub_cancel' (Nat.le_of_lt hlt)]
    exact h.endsAt
  have hdrop : (message.drop p).drop (e - p) = message.drop e := by
    rw [drop_drop, Nat.add_sub_cancel' (Nat.le_of_lt hlt)]
  rw [readName, map_eq_some_iff]
  constructor
  · rintro ⟨⟨found, next⟩, hdecode, heq⟩
    cases heq
    obtain ⟨rfl, hspells⟩ := (decodeName_eq_some_iff hends _ _).mp hdecode
    exact ⟨hspells, hdrop⟩
  · rintro ⟨hspells, rfl⟩
    refine ⟨(name, e - p), (decodeName_eq_some_iff hends _ _).mpr ⟨rfl, hspells⟩, ?_⟩
    exact Prod.ext rfl hdrop

theorem reads_at {α : Type} {read : Reader α} {bytes : Bytes} {a : α} (h : Reads read bytes a)
    (hat : BytesAt message bytes p e) : read (message.drop p) = some (a, message.drop e) := by
  rw [hat.1]
  exact h _

end Names

/-- The entry at `p` is read exactly if its name is spelled there, and whatever is read ends before
`e`. -/
structure TakenIf {α : Type} (message : Bytes) (read : Reader α) (p : Nat) (a : α) (e : Nat)
    (C : Prop) : Prop where
  iff : read (message.drop p) = some (a, message.drop e) ↔ C
  rest : ∀ found rest, read (message.drop p) = some (found, rest) → rest = message.drop e

section Entries

variable {message : Bytes} {α : Type}

theorem takenIf_named {f : Bytes → α} (hinj : Function.Injective f)
    {fields : Bytes → Reader α} {bytes : Bytes}
    (hreads : ∀ name, Reads (fields name) bytes (f name))
    {labels : List Bytes} (hname : NameAt message p labels q) (hbytes : BytesAt message bytes q e)
    (name : Bytes) :
    TakenIf message (readName >>= fields) p (f name) e (SpellsFrom message p name) := by
  have hfields : ∀ name, fields name (message.drop q) = some (f name, message.drop e) :=
    fun name => reads_at (hreads name) hbytes
  constructor
  · rw [bind_eq_some]
    constructor
    · rintro ⟨found, rest, hfound, heq⟩
      obtain ⟨hspells, rfl⟩ := (readName_at hname _ _).mp hfound
      rw [hfields] at heq
      cases hinj (Prod.mk.inj (some.inj heq)).1
      exact hspells
    · intro hspells
      exact ⟨name, message.drop q, (readName_at hname _ _).mpr ⟨hspells, rfl⟩, hfields name⟩
  · intro found rest h
    obtain ⟨name', rest', hfound, heq⟩ := bind_eq_some.mp h
    obtain ⟨-, rfl⟩ := (readName_at hname _ _).mp hfound
    rw [hfields] at heq
    cases heq
    rfl

theorem takenIf_question {question : DnsQuestion} (h : QuestionAt message p question e) :
    TakenIf message DnsQuestion.deserialize p question e
      (SpellsFrom message p question.name) := by
  obtain ⟨labels, middle, hname, -, hbytes⟩ := h
  have hreads : ∀ name, Reads (do
      let type ← readU16
      let class_ ← readU16
      return { name, type := ⟨type⟩, class_ := ⟨class_⟩ })
      question.fieldBytes { question with name } := by
    intro name
    refine (reads_u16 _).bind ?_
    exact (reads_u16 _).map _
  exact takenIf_named (f := fun name => { question with name })
    (fun _ _ heq => congrArg DnsQuestion.name heq) hreads hname hbytes question.name

theorem takenIf_record (h : RecordAt message p record e) :
    TakenIf message deserialize p record e
      (SpellsFrom message p record.name) := by
  obtain ⟨hdata, labels, middle, hname, -, hbytes⟩ := h
  have hreads : ∀ name, Reads (do
      let type ← readU16
      let class_ ← readU16
      let ttl ← readU32
      let rdata ← readBlock
      return { name, type := ⟨type⟩, class_ := ⟨class_⟩, ttl, rdata })
      record.fieldBytes { record with name } := by
    intro name
    refine (reads_u16 _).bind ?_
    refine (reads_u16 _).bind ?_
    refine (reads_u32 _).bind ?_
    exact (reads_block hdata).map _
  exact takenIf_named (f := fun name => { record with name })
    (fun _ _ heq => congrArg name heq) hreads hname hbytes record.name

theorem takenIf_section {name : α → Bytes} {read : Reader α}
    (hentry : ∀ p entry q, entryAt p entry q →
      TakenIf message read p entry q (SpellsFrom message p (name entry)))
    (h : SectionAt entryAt name p entries names e) :
    TakenIf message (readMany read entries.length) p entries e
      (∀ x ∈ names, SpellsFrom message x.1 x.2) := by
  induction h with
  | nil =>
    refine ⟨⟨by simp, fun _ => rfl⟩, fun found rest h => ?_⟩
    cases h
    rfl
  | @cons p q e entry entries names h _ ih =>
    have hfirst := hentry p entry q h
    constructor
    · rw [forall_mem_cons, ← hfirst.iff, ← ih.iff]
      constructor
      · intro hread
        obtain ⟨found, rest, hfound, hread⟩ := bind_eq_some.mp hread
        cases hfirst.rest _ _ hfound
        obtain ⟨later, rest, hlater, heq⟩ := bind_eq_some.mp hread
        cases heq
        exact ⟨hfound, hlater⟩
      · rintro ⟨hfound, hlater⟩
        exact bind_eq_some.mpr ⟨_, _, hfound, bind_eq_some.mpr ⟨_, _, hlater, rfl⟩⟩
    · intro found rest hread
      obtain ⟨first, rest', hfound, hread⟩ := bind_eq_some.mp hread
      cases hfirst.rest _ _ hfound
      obtain ⟨later, rest, hlater, heq⟩ := bind_eq_some.mp hread
      cases heq
      exact ih.rest _ _ hlater

end Entries

/-- What is left of the header: four bits of the two codes. -/
def DnsPacket.header : DnsPacket :=
  { packet with
    opcode := ⟨UInt8.ofNat (packet.opcode.code.toNat % 2 ^ 4)⟩
    responseCode := ⟨UInt8.ofNat (packet.responseCode.code.toNat % 2 ^ 4)⟩
    questions := []
    answers := []
    authorities := []
    additionals := [] }

def DnsPacket.counts : Counts :=
  { qdcount := UInt16.ofNat packet.questions.length
    ancount := UInt16.ofNat packet.answers.length
    nscount := UInt16.ofNat packet.authorities.length
    arcount := UInt16.ofNat packet.additionals.length }

theorem decide_toNat (b : Bool) : decide (b.toNat = 1) = b := by
  cases b with
  | false | true => rfl

theorem flags_le :
    packet.isResponse.toNat ≤ 1 ∧ packet.authoritativeAnswer.toNat ≤ 1 ∧
      packet.truncated.toNat ≤ 1 ∧ packet.recursionDesired.toNat ≤ 1 ∧
      packet.recursionAvailable.toNat ≤ 1 :=
  ⟨Bool.toNat_le _, Bool.toNat_le _, Bool.toNat_le _, Bool.toNat_le _, Bool.toNat_le _⟩

theorem toNat_flags :
    packet.flags.toNat = packet.isResponse.toNat * 2 ^ 15 +
      packet.opcode.code.toNat % 2 ^ 4 * 2 ^ 11 + packet.authoritativeAnswer.toNat * 2 ^ 10 +
      packet.truncated.toNat * 2 ^ 9 + packet.recursionDesired.toNat * 2 ^ 8 +
      packet.recursionAvailable.toNat * 2 ^ 7 + packet.responseCode.code.toNat % 2 ^ 4 := by
  have hle := flags_le packet
  rw [DnsPacket.flags, UInt16.toNat_ofNat', Nat.mod_eq_of_lt (by omega)]

theorem reads_header : Reads readHeader packet.headerBytes (packet.header, packet.counts) := by
  have hread : Reads readHeader packet.headerBytes ({
      sessionId := packet.sessionId
      isResponse := flag packet.flags 15
      opcode := ⟨UInt8.ofNat (packet.flags.toNat / 2 ^ 11 % 2 ^ 4)⟩
      authoritativeAnswer := flag packet.flags 10
      truncated := flag packet.flags 9
      recursionDesired := flag packet.flags 8
      recursionAvailable := flag packet.flags 7
      responseCode := ⟨UInt8.ofNat (packet.flags.toNat % 2 ^ 4)⟩ }, packet.counts) := by
    refine (reads_u16 _).bind ?_
    refine (reads_u16 _).bind ?_
    refine (reads_u16 _).bind ?_
    refine (reads_u16 _).bind ?_
    refine (reads_u16 _).bind ?_
    exact (reads_u16 _).map _
  have hflags := toNat_flags packet
  have hle := flags_le packet
  have hresponse : packet.flags.toNat / 2 ^ 15 % 2 = packet.isResponse.toNat := by omega
  have hopcode : packet.flags.toNat / 2 ^ 11 % 2 ^ 4 = packet.opcode.code.toNat % 2 ^ 4 := by omega
  have hauthoritative :
      packet.flags.toNat / 2 ^ 10 % 2 = packet.authoritativeAnswer.toNat := by omega
  have htruncated : packet.flags.toNat / 2 ^ 9 % 2 = packet.truncated.toNat := by omega
  have hdesired : packet.flags.toNat / 2 ^ 8 % 2 = packet.recursionDesired.toNat := by omega
  have havailable : packet.flags.toNat / 2 ^ 7 % 2 = packet.recursionAvailable.toNat := by omega
  have hcode : packet.flags.toNat % 2 ^ 4 = packet.responseCode.code.toNat % 2 ^ 4 := by omega
  simp only [flag, hresponse, hopcode, hauthoritative, htruncated, hdesired, havailable, hcode,
    decide_toNat] at hread
  exact hread

theorem toNat_count (h : n < 2 ^ 16) : (UInt16.ofNat n).toNat = n := by
  rw [UInt16.toNat_ofNat', Nat.mod_eq_of_lt h]

theorem DnsPacket.FitsHeader.header_eq {packet : DnsPacket} (h : packet.FitsHeader) :
    packet.header =
      { packet with questions := [], answers := [], authorities := [], additionals := [] } := by
  have hopcode : UInt8.ofNat (packet.opcode.code.toNat % 2 ^ 4) = packet.opcode.code := by
    rw [Nat.mod_eq_of_lt h.opcode, UInt8.ofNat_toNat]
  have hcode : UInt8.ofNat (packet.responseCode.code.toNat % 2 ^ 4) =
      packet.responseCode.code := by
    rw [Nat.mod_eq_of_lt h.responseCode, UInt8.ofNat_toNat]
  rw [DnsPacket.header, hopcode, hcode]

/-- A message is read as it is meant exactly if every name in it spells the same when its pointers
count from the first byte of its own question or record. -/
theorem deserialize_iff_spellsFrom {message : Bytes} {packet : DnsPacket}
    {names : List (Nat × Bytes)} {e : Nat} (h : MessageAt message packet names e) :
    DnsPacket.deserialize message = some (packet, message.drop e) ↔
      ∀ x ∈ names, SpellsFrom message x.1 x.2 := by
  obtain ⟨hfits, p₀, p₁, p₂, p₃, n₀, n₁, n₂, n₃, hheader, h₀, h₁, h₂, h₃, rfl⟩ := h
  have hread := reads_at (reads_header packet) hheader
  rw [drop_zero, hfits.header_eq] at hread
  have t₀ := takenIf_section (fun _ _ _ => takenIf_question) h₀
  have t₁ := takenIf_section (fun _ _ _ => takenIf_record) h₁
  have t₂ := takenIf_section (fun _ _ _ => takenIf_record) h₂
  have t₃ := takenIf_section (fun _ _ _ => takenIf_record) h₃
  simp only [forall_mem_append]
  rw [← t₀.iff, ← t₁.iff, ← t₂.iff, ← t₃.iff]
  have hq := toNat_count hfits.questions
  have han := toNat_count hfits.answers
  have hns := toNat_count hfits.authorities
  have har := toNat_count hfits.additionals
  constructor
  · intro hpacket
    obtain ⟨⟨header, counts⟩, rest, hfound, hpacket⟩ := bind_eq_some.mp hpacket
    rw [hread] at hfound
    cases hfound
    obtain ⟨questions, rest, hquestions, hpacket⟩ := bind_eq_some.mp hpacket
    rw [DnsPacket.counts, hq] at hquestions
    cases t₀.rest _ _ hquestions
    obtain ⟨answers, rest, hanswers, hpacket⟩ := bind_eq_some.mp hpacket
    rw [DnsPacket.counts, han] at hanswers
    cases t₁.rest _ _ hanswers
    obtain ⟨authorities, rest, hauthorities, hpacket⟩ := bind_eq_some.mp hpacket
    rw [DnsPacket.counts, hns] at hauthorities
    cases t₂.rest _ _ hauthorities
    obtain ⟨additionals, rest, hadditionals, hpacket⟩ := bind_eq_some.mp hpacket
    rw [DnsPacket.counts, har] at hadditionals
    cases t₃.rest _ _ hadditionals
    have hfields := (Prod.mk.inj (some.inj hpacket)).1
    obtain rfl : questions = packet.questions := congrArg DnsPacket.questions hfields
    obtain rfl : answers = packet.answers := congrArg DnsPacket.answers hfields
    obtain rfl : authorities = packet.authorities := congrArg DnsPacket.authorities hfields
    obtain rfl : additionals = packet.additionals := congrArg DnsPacket.additionals hfields
    exact ⟨hquestions, hanswers, hauthorities, hadditionals⟩
  · rintro ⟨hquestions, hanswers, hauthorities, hadditionals⟩
    refine bind_eq_some.mpr ⟨_, _, hread, ?_⟩
    refine bind_eq_some.mpr ⟨packet.questions, message.drop p₁, ?_, ?_⟩
    · rw [DnsPacket.counts, hq]
      exact hquestions
    refine bind_eq_some.mpr ⟨packet.answers, message.drop p₂, ?_, ?_⟩
    · rw [DnsPacket.counts, han]
      exact hanswers
    refine bind_eq_some.mpr ⟨packet.authorities, message.drop p₃, ?_, ?_⟩
    · rw [DnsPacket.counts, hns]
      exact hauthorities
    refine bind_eq_some.mpr ⟨packet.additionals, message.drop e, ?_, rfl⟩
    · rw [DnsPacket.counts, har]
      exact hadditionals

def questionA : DnsQuestion := ⟨['a'.toUInt8], ⟨1⟩, ⟨1⟩⟩

section

variable (address : UInt8 × UInt8 × UInt8 × UInt8)

def answerA : DnsResourceRecord :=
  ⟨['a'.toUInt8], ⟨1⟩, ⟨1⟩, 60, [address.1, address.2.1, address.2.2.1, address.2.2.2]⟩

def replyA : DnsPacket :=
  { isResponse := true, questions := [questionA], answers := [answerA address] }

/-- The question is at 12, and the record after it at 19. -/
def namesA : List (Nat × Bytes) := [(12, ['a'.toUInt8]), (19, ['a'.toUInt8])]

def compressedReply : Bytes :=
  (replyA address).headerBytes ++ questionA.serialize ++ [0xC0, 12] ++ (answerA address).fieldBytes

theorem messageAt_compressedReply (hpointer : pieceAt (compressedReply address) 19 = .pointer 12) :
    MessageAt (compressedReply address) (replyA address) namesA 35 := by
  have hname : NameAt (compressedReply address) 12 [['a'.toUInt8]] 15 := .label rfl (.root rfl)
  have hname' : NameAt (compressedReply address) 19 [['a'.toUInt8]] 21 :=
    .pointer hpointer (by decide) hname
  have hquestion : QuestionAt (compressedReply address) 12 questionA 19 :=
    ⟨_, _, hname, rfl, rfl, rfl⟩
  have hanswer : RecordAt (compressedReply address) 19 (answerA address) 35 :=
    ⟨by simp [answerA], _, _, hname', rfl, rfl, rfl⟩
  have hheader : (replyA address).FitsHeader := by constructor <;> exact Nat.le_of_ble_eq_true rfl
  exact ⟨hheader, 12, 19, 35, 35, _, _, _, _, ⟨rfl, rfl⟩,
    .cons hquestion .nil, .cons hanswer .nil, .nil, .nil, rfl⟩

end

/-- The pointer is followed from the place of the record, where it leads to the address, and this
happens to spell the name. -/
theorem deserialize_compressedReply :
    DnsPacket.deserialize (compressedReply (1, 97, 0, 0)) =
      some (replyA (1, 97, 0, 0), (compressedReply (1, 97, 0, 0)).drop 35) := by
  have hmessage := messageAt_compressedReply (1, 97, 0, 0) (by decide +kernel)
  refine (deserialize_iff_spellsFrom hmessage).mpr fun x hmem => ?_
  rcases mem_cons.mp hmem with rfl | hmem
  · exact ⟨[['a'.toUInt8]], ⟨2, rfl⟩, rfl⟩
  · cases mem_singleton.mp hmem
    exact ⟨[['a'.toUInt8]], ⟨3, rfl⟩, rfl⟩

/-- Here it leads to bytes that are no name. -/
theorem not_deserialize_compressedReply :
    MessageAt (compressedReply (1, 2, 3, 4)) (replyA (1, 2, 3, 4)) namesA 35 ∧
      DnsPacket.deserialize (compressedReply (1, 2, 3, 4)) = none :=
  ⟨messageAt_compressedReply _ (by decide +kernel), by decide +kernel⟩

end ServerLib.Dns
