import ServerLib.Dns.Messages

/-! A packet that was written is read back. -/

namespace ServerLib.Dns

open Lib DnsPacket List

/-- A label that can be written: 1 to 63 bytes, and no dot among them. -/
def LabelFits (label : Bytes) : Prop := label ≠ [] ∧ label.length ≤ 63 ∧ dot ∉ label

instance (label : Bytes) : Decidable (LabelFits label) := inferInstanceAs (Decidable (_ ∧ _))

/-- A name is empty, or labels with dots between them. -/
def NameFits (name : Bytes) : Prop :=
  ∃ labels, (∀ label ∈ labels, LabelFits label) ∧ name = nameText labels

variable {labels : List Bytes}

theorem nameText_cons (label : Bytes) (h : labels ≠ []) :
    nameText (label :: labels) = label ++ dot :: nameText labels := by
  cases labels with
  | nil => exact absurd rfl h
  | cons next labels => simp [nameText]

theorem encodeLoop_nil (limit : Nat) : encodeLoop limit [] = [] := by
  cases limit with
  | zero => rfl
  | succ limit => rw [encodeLoop, if_pos rfl]

theorem encodeLoop_nameText (h : ∀ label ∈ labels, LabelFits label) (limit : Nat)
    (hlimit : (nameText labels).length ≤ limit) :
    encodeLoop limit (nameText labels) = labels.flatMap encodeLabel := by
  induction labels generalizing limit with
  | nil => exact encodeLoop_nil limit
  | cons label labels ih =>
    obtain ⟨⟨hne, -, hdot⟩, hlater⟩ := forall_mem_cons.mp h
    have hpos := length_pos_of_ne_nil hne
    cases labels with
    | nil =>
      have hname : nameText [label] = label := by simp [nameText]
      rw [hname] at hlimit ⊢
      obtain ⟨limit, rfl⟩ : ∃ n, limit = n + 1 := ⟨limit - 1, by omega⟩
      rw [encodeLoop, if_neg hne, takeWhile_ne_of_not_mem hdot]
      simp only
      rw [drop_eq_nil_of_le (by omega), encodeLoop_nil]
      simp
    | cons next labels =>
      rw [nameText_cons label (cons_ne_nil _ _)] at hlimit ⊢
      simp only [length_append, length_cons] at hlimit
      obtain ⟨limit, rfl⟩ : ∃ n, limit = n + 1 := ⟨limit - 1, by omega⟩
      have hdrop : (label ++ dot :: nameText (next :: labels)).drop (label.length + 1) =
          nameText (next :: labels) := by
        rw [← drop_drop, drop_left, drop_one, tail_cons]
      rw [encodeLoop, if_neg (by simp), takeWhile_append_cons, takeWhile_ne_of_not_mem hdot]
      simp only
      rw [hdrop, ih hlater limit (by omega)]
      exact (flatMap_cons ..).symm

theorem encodeName_nameText (h : ∀ label ∈ labels, LabelFits label) :
    encodeName (nameText labels) = labels.flatMap encodeLabel ++ [0] := by
  rw [encodeName, encodeLoop_nameText h _ le_rfl]

theorem pieceAt_encodeLabel (h : LabelFits label) (front rest : Bytes) :
    pieceAt (front ++ (encodeLabel label ++ rest)) front.length = .label label := by
  obtain ⟨hne, hlength, -⟩ := h
  have hpos := length_pos_of_ne_nil hne
  have hnat : (UInt8.ofNat label.length).toNat = label.length := by
    rw [UInt8.toNat_ofNat']
    omega
  have hzero : UInt8.ofNat label.length ≠ 0 := by
    intro hzero
    rw [hzero] at hnat
    exact absurd hnat (by simpa using Nat.ne_of_lt hpos)
  have hbyte : (front ++ (encodeLabel label ++ rest))[front.length]? =
      some (UInt8.ofNat label.length) := by
    simp [encodeLabel]
  have htype : labelType (UInt8.ofNat label.length) = 0 := by
    rw [labelType, hnat]
    omega
  have hinside : front.length + 1 + (UInt8.ofNat label.length).toNat ≤
      (front ++ (encodeLabel label ++ rest)).length := by
    rw [hnat]
    simp [encodeLabel]
    omega
  rw [pieceAt_of_label hbyte hzero htype hinside, hnat, ← drop_drop, drop_left]
  simp [encodeLabel]

theorem spells_written (h : ∀ label ∈ labels, LabelFits label) (front rest : Bytes) :
    Spells (front ++ (labels.flatMap encodeLabel ++ 0 :: rest)) front.length labels ∧
      EndsAt (front ++ (labels.flatMap encodeLabel ++ 0 :: rest)) front.length
        (front.length + (labels.flatMap encodeLabel).length + 1) := by
  induction labels generalizing front with
  | nil =>
    have hpiece : pieceAt (front ++ 0 :: rest) front.length = .root :=
      pieceAt_of_root (by simp)
    exact ⟨⟨1, by simp [spell, hpiece]⟩, .root (by simpa using hpiece)⟩
  | cons label labels ih =>
    obtain ⟨hlabel, hlater⟩ := forall_mem_cons.mp h
    have hpiece := pieceAt_encodeLabel hlabel front (labels.flatMap encodeLabel ++ 0 :: rest)
    obtain ⟨⟨limit, hspell⟩, hends⟩ := ih hlater (front ++ encodeLabel label)
    have hnext : (front ++ encodeLabel label).length = front.length + 1 + label.length := by
      simp [encodeLabel]
      omega
    rw [hnext] at hspell hends
    simp only [append_assoc] at hspell hends
    simp only [flatMap_cons, append_assoc]
    constructor
    · refine ⟨limit + 1, ?_⟩
      rw [spell, hpiece]
      exact Option.map_eq_some_iff.mpr ⟨labels, hspell, rfl⟩
    · have hlength : front.length + (encodeLabel label ++ labels.flatMap encodeLabel).length + 1 =
          front.length + 1 + label.length + (labels.flatMap encodeLabel).length + 1 := by
        simp [encodeLabel]
        omega
      rw [hlength]
      exact .label hpiece hends

theorem reads_name (h : NameFits name) : Reads readName (encodeName name) name := by
  obtain ⟨labels, hlabels, rfl⟩ := h
  intro rest
  obtain ⟨hspells, hends⟩ := spells_written hlabels [] rest
  simp only [nil_append, length_nil, Nat.zero_add] at hspells hends
  have htext : encodeName (nameText labels) ++ rest = labels.flatMap encodeLabel ++ 0 :: rest := by
    rw [encodeName_nameText hlabels]
    simp
  have hdecode := (decodeName_eq_some_iff hends (nameText labels) _).mpr ⟨rfl, labels, hspells, rfl⟩
  have hdrop : (labels.flatMap encodeLabel ++ 0 :: rest).drop
      ((labels.flatMap encodeLabel).length + 1) = rest := by
    rw [← drop_drop, drop_left, drop_one, tail_cons]
  rw [htext, readName, hdecode]
  exact congrArg (fun rest => some (nameText labels, rest)) hdrop

theorem reads_question {question : DnsQuestion} (h : NameFits question.name) :
    Reads DnsQuestion.deserialize question.serialize question := by
  refine (reads_name h).bind ?_
  refine (reads_u16 _).bind ?_
  exact (reads_u16 _).map _

theorem reads_record (h : NameFits record.name) (hdata : record.rdata.length < 2 ^ 16) :
    Reads DnsResourceRecord.deserialize record.serialize record := by
  refine (reads_name h).bind ?_
  refine (reads_u16 _).bind ?_
  refine (reads_u16 _).bind ?_
  refine (reads_u32 _).bind ?_
  exact (reads_block hdata).map _

/-- The names, the data and the numbers of entries can be written. -/
structure DnsPacket.Fits (packet : DnsPacket) : Prop where
  questions : ∀ question ∈ packet.questions, NameFits question.name
  records : ∀ record ∈ packet.answers ++ packet.authorities ++ packet.additionals,
    NameFits record.name ∧ record.rdata.length < 2 ^ 16
  questionCount : packet.questions.length < 2 ^ 16
  answerCount : packet.answers.length < 2 ^ 16
  authorityCount : packet.authorities.length < 2 ^ 16
  additionalCount : packet.additionals.length < 2 ^ 16

/-- The packet with what the header keeps of the two codes. -/
def DnsPacket.kept (packet : DnsPacket) : DnsPacket :=
  { packet with
    opcode := ⟨UInt8.ofNat (packet.opcode.code.toNat % 2 ^ 4)⟩
    responseCode := ⟨UInt8.ofNat (packet.responseCode.code.toNat % 2 ^ 4)⟩ }

theorem reads_packet {packet : DnsPacket} (h : packet.Fits) :
    Reads deserialize packet.serialize packet.kept := by
  have hmany : ∀ records : List DnsResourceRecord,
      (∀ record ∈ records, NameFits record.name ∧ record.rdata.length < 2 ^ 16) →
      records.length < 2 ^ 16 →
      Reads (readMany DnsResourceRecord.deserialize (UInt16.ofNat records.length).toNat)
        (records.flatMap DnsResourceRecord.serialize) records := by
    intro records hrecords hlength
    rw [toNat_count hlength]
    apply reads_many
    intro record hmem
    exact reads_record (hrecords record hmem).1 (hrecords record hmem).2
  have hquestions : Reads (readMany DnsQuestion.deserialize
      (UInt16.ofNat packet.questions.length).toNat)
      (packet.questions.flatMap DnsQuestion.serialize) packet.questions := by
    rw [toNat_count h.questionCount]
    exact reads_many fun question hmem => reads_question (h.questions question hmem)
  have hrecords := h.records
  simp only [forall_mem_append] at hrecords
  refine (reads_header packet).bind ?_
  refine hquestions.bind ?_
  refine (hmany _ hrecords.1.1 h.answerCount).bind ?_
  refine (hmany _ hrecords.1.2 h.authorityCount).bind ?_
  exact (hmany _ hrecords.2 h.additionalCount).map _

theorem kept_code : UInt8.ofNat (code.toNat % 2 ^ 4) = code ↔ code.toNat < 2 ^ 4 := by
  rw [← UInt8.toNat_inj, UInt8.toNat_ofNat']
  have := code.toNat_lt
  omega

/-- A packet is read back with the low four bits of its opcode and of its response code, and nothing
more is taken from the bytes after it.  So it is read back as it is exactly if both codes have four
bits. -/
theorem reads_serialize_iff {packet : DnsPacket} (h : packet.Fits) :
    Reads deserialize packet.serialize packet.kept ∧
      (Reads deserialize packet.serialize packet ↔
        packet.opcode.code.toNat < 2 ^ 4 ∧ packet.responseCode.code.toNat < 2 ^ 4) := by
  have hread := reads_packet h
  refine ⟨hread, ?_, ?_⟩
  · intro hsame
    have heq := hsame []
    rw [hread []] at heq
    have hpacket : packet.kept = packet := (Prod.mk.inj (Option.some.inj heq)).1
    have hopcode := congrArg (fun packet => packet.opcode.code) hpacket
    have hcode := congrArg (fun packet => packet.responseCode.code) hpacket
    exact ⟨kept_code.mp hopcode, kept_code.mp hcode⟩
  · rintro ⟨hopcode, hcode⟩
    have hpacket : packet.kept = packet := by
      rw [kept, kept_code.mpr hopcode, kept_code.mpr hcode]
    rwa [hpacket] at hread

theorem nameFits_a : NameFits ['a'.toUInt8] :=
  ⟨[['a'.toUInt8]], by decide, rfl⟩

theorem fits_replyA : (replyA (1, 2, 3, 4)).Fits :=
  ⟨by simp [replyA, questionA, nameFits_a], by simp [replyA, answerA, nameFits_a],
    by decide, by decide, by decide, by decide⟩

theorem reads_serialize_replyA :
    Reads deserialize (replyA (1, 2, 3, 4)).serialize (replyA (1, 2, 3, 4)) :=
  (reads_serialize_iff fits_replyA).2.mpr ⟨by decide, by decide⟩

def wideOpcode : DnsPacket := { opcode := ⟨16⟩ }

/-- An opcode of five bits comes back as 0. -/
theorem not_reads_wideOpcode :
    wideOpcode.Fits ∧
      deserialize wideOpcode.serialize = some ({ wideOpcode with opcode := ⟨0⟩ }, []) ∧
      ¬ Reads deserialize wideOpcode.serialize wideOpcode := by
  have hread : deserialize wideOpcode.serialize =
      some ({ wideOpcode with opcode := ⟨0⟩ }, []) := by
    decide +kernel
  refine ⟨⟨by simp [wideOpcode], by simp [wideOpcode], by decide, by decide, by decide, by decide⟩,
    hread, fun h => ?_⟩
  have heq := h []
  rw [append_nil, hread] at heq
  cases heq

end ServerLib.Dns
