import Mathlib.Data.List.Perm.Subperm
import ServerLib.Dns.Packet

/-! The names that `decode_name` reads: the labels from a place on, when pointers count from the
first byte of the data. -/

namespace ServerLib.Dns

open Lib List

/-- What stands at a place in the data. -/
inductive Piece
  | root
  | label (text : Bytes)
  | pointer (offset : Nat)
  | bad
  /-- The data ends here. -/
  | cut
deriving DecidableEq

def pieceAt (data : Bytes) (p : Nat) : Piece :=
  match data[p]? with
  | none => .cut
  | some byte =>
    if byte = 0 then .root
    else if labelType byte = 3 then
      match data[p + 1]? with
      | none => .bad
      | some low =>
        if data.length ≤ pointerOffset byte low then .bad else .pointer (pointerOffset byte low)
    else if labelType byte ≠ 0 then .bad
    else if data.length < p + 1 + byte.toNat then .bad
    else .label ((data.drop (p + 1)).take byte.toNat)

/-- The labels joined by dots. -/
def nameText : List Bytes → Bytes
  | [] => []
  | label :: labels => label ++ labels.flatMap fun label => dot :: label

/-- The labels from `p` on, at most `limit` pieces.  The end of the data is taken for the end of
the name. -/
def spell (data : Bytes) : Nat → Nat → Option (List Bytes)
  | 0, _ => none
  | limit + 1, p =>
    match pieceAt data p with
    | .root => some []
    | .label text => (spell data limit (p + 1 + text.length)).map (text :: ·)
    | .pointer offset => spell data limit offset
    | .bad => none
    | .cut => some []

def Spells (data : Bytes) (p : Nat) (labels : List Bytes) : Prop :=
  ∃ limit, spell data limit p = some labels

/-- The place after a piece at `p`, and the label that it adds. -/
def Piece.next (p : Nat) : Piece → Option (Nat × List Bytes)
  | .label text => some (p + 1 + text.length, [text])
  | .pointer offset => some (offset, [])
  | _ => none

/-- The way along a name: its places, and its labels, up to a zero byte or the end of the data. -/
inductive Route (data : Bytes) (last : Piece) : Nat → List Nat → List Bytes → Prop
  | stop {p} (h : pieceAt data p = last) (hlast : last = .root ∨ last = .cut) :
      Route data last p [p] []
  | step {p q part places labels} (h : (pieceAt data p).next p = some (q, part))
      (later : Route data last q places labels) : Route data last p (p :: places) (part ++ labels)

/-- The name that begins at `p` ends, at that place, before `e`. -/
inductive EndsAt (data : Bytes) : Nat → Nat → Prop
  | root {p} (h : pieceAt data p = .root) : EndsAt data p (p + 1)
  | label {p e text} (h : pieceAt data p = .label text)
      (hnext : EndsAt data (p + 1 + text.length) e) : EndsAt data p e
  | pointer {p byte} (h : data[p]? = some byte) (hbyte : labelType byte = 3) :
      EndsAt data p (p + 2)

section Pieces

variable {data : Bytes} {text : Bytes}

theorem lt_length_of_piece (h : pieceAt data p ≠ .cut) : p < data.length := by
  by_contra hlt
  apply h
  rw [pieceAt, getElem?_eq_none (Nat.le_of_not_lt hlt)]

theorem pieceAt_spec (data : Bytes) (p : Nat) :
    match pieceAt data p with
    | .cut => data[p]? = none
    | .root => data[p]? = some 0
    | .label text => ∃ byte, data[p]? = some byte ∧ byte ≠ 0 ∧ labelType byte = 0 ∧
        p + 1 + byte.toNat ≤ data.length ∧ text = (data.drop (p + 1)).take byte.toNat
    | .pointer offset => ∃ byte low, data[p]? = some byte ∧ byte ≠ 0 ∧ labelType byte = 3 ∧
        data[p + 1]? = some low ∧ offset = pointerOffset byte low ∧ offset < data.length
    | .bad => True := by
  rw [pieceAt]
  cases hbyte : data[p]? with
  | none => rfl
  | some byte =>
    dsimp only
    split_ifs with hzero htype hlabel hlength
    · simp [hzero]
    · cases hlow : data[p + 1]? with
      | none => trivial
      | some low =>
        dsimp only
        split_ifs with hoffset
        · trivial
        · exact ⟨byte, low, rfl, hzero, htype, rfl, rfl, Nat.not_le.mp hoffset⟩
    · trivial
    · trivial
    · exact ⟨byte, rfl, hzero, not_not.mp hlabel, Nat.not_lt.mp hlength, rfl⟩

theorem length_of_pieceAt {byte : UInt8} (hlength : p + 1 + byte.toNat ≤ data.length) :
    ((data.drop (p + 1)).take byte.toNat).length = byte.toNat := by
  rw [length_take, length_drop]
  omega

theorem label_ne_nil (h : pieceAt data p = .label text) : text ≠ [] := by
  have hspec := pieceAt_spec data p
  rw [h] at hspec
  obtain ⟨byte, -, hzero, -, hlength, rfl⟩ := hspec
  apply ne_nil_of_length_pos
  rw [length_of_pieceAt hlength]
  exact Nat.pos_of_ne_zero fun hnat => hzero (UInt8.toNat_inj.mp hnat)

theorem pieceAt_of_label (h : data[p]? = some byte) (hzero : byte ≠ 0) (htype : labelType byte = 0)
    (hlength : p + 1 + byte.toNat ≤ data.length) :
    pieceAt data p = .label ((data.drop (p + 1)).take byte.toNat) := by
  rw [pieceAt, h]
  simp only [if_neg hzero, htype]
  rw [if_neg (by decide), if_neg (by simp), if_neg (by omega)]

theorem pieceAt_of_root (h : data[p]? = some 0) : pieceAt data p = .root := by
  rw [pieceAt, h]
  rfl

theorem pieceAt_pointer (h : data[p]? = some byte) (htype : labelType byte = 3) :
    (∃ offset, pieceAt data p = .pointer offset) ∨ pieceAt data p = .bad := by
  have hzero : byte ≠ 0 := by
    rintro rfl
    cases htype
  rw [pieceAt, h]
  simp only [if_neg hzero, if_pos htype]
  cases data[p + 1]? with
  | none => exact .inr rfl
  | some low =>
    dsimp only
    split
    · exact .inr rfl
    · exact .inl ⟨_, rfl⟩

theorem EndsAt.of_pointer (h : pieceAt data p = .pointer offset) : EndsAt data p (p + 2) := by
  have hspec := pieceAt_spec data p
  rw [h] at hspec
  obtain ⟨byte, low, hbyte, -, htype, -⟩ := hspec
  exact .pointer hbyte htype

theorem EndsAt.inv (h : EndsAt data p e) :
    match pieceAt data p with
    | .root => e = p + 1
    | .label text => EndsAt data (p + 1 + text.length) e
    | .pointer _ | .bad => e = p + 2
    | .cut => False := by
  cases h with
  | root h => rw [h]
  | label h hnext =>
    rw [h]
    exact hnext
  | pointer h htype =>
    obtain ⟨offset, heq⟩ | heq := pieceAt_pointer h htype <;> rw [heq]

theorem EndsAt.drop (h : EndsAt data (o + q) (o + e)) : EndsAt (data.drop o) q e := by
  generalize hp : o + q = p at h
  generalize he : o + e = e' at h
  induction h generalizing q with
  | @root p h =>
    obtain rfl : e = q + 1 := by omega
    have hspec := pieceAt_spec data p
    rw [h] at hspec
    refine .root (pieceAt_of_root ?_)
    rw [getElem?_drop, hp]
    exact hspec
  | @label p _ text h _ ih =>
    subst hp
    have hspec := pieceAt_spec data (o + q)
    rw [h] at hspec
    obtain ⟨byte, hbyte, hzero, htype, hlength, rfl⟩ := hspec
    have hpiece : pieceAt (data.drop o) q =
        .label (((data.drop o).drop (q + 1)).take byte.toNat) := by
      refine pieceAt_of_label ?_ hzero htype ?_
      · rw [getElem?_drop, hbyte]
      · rw [length_drop]
        omega
    rw [drop_drop, ← Nat.add_assoc] at hpiece
    exact .label hpiece (ih (by omega) he)
  | pointer h hbyte =>
    obtain rfl : e = q + 2 := by omega
    refine .pointer ?_ hbyte
    rw [getElem?_drop, hp]
    exact h

theorem EndsAt.unique (h : EndsAt data p e) (h' : EndsAt data p e') : e = e' := by
  induction h with
  | root h =>
    have hinv := h'.inv
    rw [h] at hinv
    exact hinv.symm
  | label h _ ih =>
    have hinv := h'.inv
    rw [h] at hinv
    exact ih hinv
  | pointer h htype =>
    have hinv := h'.inv
    obtain ⟨offset, heq⟩ | heq := pieceAt_pointer h htype <;> rw [heq] at hinv <;> exact hinv.symm

theorem EndsAt.inside (h : EndsAt data p e) : p < data.length := by
  cases h with
  | root h | label h => exact lt_length_of_piece (by simp [h])
  | pointer h => exact (List.getElem?_eq_some_iff.mp h).1

end Pieces

section Spelling

variable {labels : List Bytes}

namespace Route

variable (h : Route data last p places labels)
include h

theorem ends : last = .root ∨ last = .cut := by
  induction h with
  | stop _ hlast => exact hlast
  | step _ _ ih => exact ih

theorem unique (h' : Route data last' p places' labels') :
    last = last' ∧ places = places' := by
  induction h generalizing places' labels' with
  | stop h hlast =>
    cases h' with
    | stop h' => exact ⟨h.symm.trans h', rfl⟩
    | step h' => rcases hlast with rfl | rfl <;> simp [h, Piece.next] at h'
  | step h _ ih =>
    cases h' with
    | stop h' hlast => rcases hlast with rfl | rfl <;> simp [h', Piece.next] at h
    | step h' later =>
      cases h.symm.trans h'
      obtain ⟨hlast, rfl⟩ := ih later
      exact ⟨hlast, rfl⟩

theorem mem (hq : q ∈ places) :
    ∃ places' labels', Route data last q places' labels' ∧ places'.length ≤ places.length := by
  induction h with
  | stop h hlast =>
    obtain rfl := mem_singleton.mp hq
    exact ⟨_, _, .stop h hlast, le_rfl⟩
  | step h later ih =>
    rcases mem_cons.mp hq with rfl | hq
    · exact ⟨_, _, .step h later, le_rfl⟩
    · obtain ⟨places', labels', hroute, hle⟩ := ih hq
      exact ⟨places', labels', hroute, hle.trans (Nat.le_succ _)⟩

/-- A way that came back to a place would be longer than itself. -/
theorem nodup : places.Nodup := by
  induction h with
  | stop => simp
  | step h later ih =>
    refine nodup_cons.mpr ⟨fun hmem => ?_, ih⟩
    obtain ⟨places', _, hroute, hle⟩ := later.mem hmem
    rw [← ((Route.step h later).unique hroute).2, length_cons] at hle
    omega

theorem spells : Spells data p labels := by
  induction h with
  | stop h hlast =>
    refine ⟨1, ?_⟩
    rcases hlast with rfl | rfl <;> rw [spell, h]
  | @step p _ _ _ _ h _ ih =>
    obtain ⟨limit, hlimit⟩ := ih
    refine ⟨limit + 1, ?_⟩
    cases hpiece : pieceAt data p <;> rw [hpiece] at h <;> cases h <;>
      simp [spell, hpiece, hlimit]

theorem ne_nil : ∀ label ∈ labels, label ≠ [] := by
  induction h with
  | stop => exact nofun
  | @step p _ _ _ _ h _ ih =>
    refine forall_mem_append.mpr ⟨?_, ih⟩
    cases hpiece : pieceAt data p with
    | label text =>
      rw [hpiece] at h
      cases h
      exact forall_mem_singleton.mpr (label_ne_nil hpiece)
    | _ =>
      rw [hpiece] at h
      cases h
      try exact nofun

theorem inside (hp : p ≤ data.length) :
    ∀ q ∈ places, q ≤ data.length := by
  induction h with
  | stop => exact forall_mem_singleton.mpr hp
  | @step p _ _ _ _ h _ ih =>
    refine forall_mem_cons.mpr ⟨hp, ih ?_⟩
    have hspec := pieceAt_spec data p
    cases hpiece : pieceAt data p with
    | label text =>
      rw [hpiece] at h hspec
      cases h
      obtain ⟨byte, -, -, -, hlength, rfl⟩ := hspec
      rwa [length_of_pieceAt hlength]
    | pointer offset =>
      rw [hpiece] at h hspec
      cases h
      obtain ⟨_, _, -, -, -, -, -, hlt⟩ := hspec
      exact hlt.le
    | _ =>
      rw [hpiece] at h
      cases h

end Route

theorem Spells.route (h : Spells data p labels) :
    ∃ last places, Route data last p places labels := by
  obtain ⟨limit, h⟩ := h
  induction limit generalizing p labels with
  | zero => cases h
  | succ limit ih =>
    rw [spell] at h
    cases hpiece : pieceAt data p with
    | root | cut =>
      rw [hpiece] at h
      cases h
      exact ⟨_, _, .stop hpiece (by simp)⟩
    | bad =>
      rw [hpiece] at h
      cases h
    | label text =>
      simp only [hpiece] at h
      obtain ⟨rest, hrest, rfl⟩ := Option.map_eq_some_iff.mp h
      obtain ⟨last, places, hroute⟩ := ih hrest
      exact ⟨last, _, .step (by rw [hpiece]; rfl) hroute⟩
    | pointer offset =>
      simp only [hpiece] at h
      obtain ⟨last, places, hroute⟩ := ih h
      exact ⟨last, _, .step (by rw [hpiece]; rfl) hroute⟩

theorem foldl_joinLabel {name : Bytes} (hname : name ≠ []) (labels : List Bytes) :
    labels.foldl joinLabel name = name ++ labels.flatMap fun label => dot :: label := by
  induction labels generalizing name with
  | nil => simp
  | cons label labels ih =>
    have hnext : joinLabel name label = name ++ dot :: label := by
      simp [joinLabel, if_neg hname]
    rw [foldl_cons, hnext, ih (by simp)]
    simp

theorem foldl_joinLabel_nil (h : ∀ label ∈ labels, label ≠ []) :
    labels.foldl joinLabel [] = nameText labels := by
  cases labels with
  | nil => rfl
  | cons label labels =>
    rw [foldl_cons, show joinLabel [] label = label by simp [joinLabel],
      foldl_joinLabel (h label mem_cons_self), nameText]

end Spelling

section Loop

variable (c : Cursor) (offset : Nat)

theorem advanced_jump : (c.jump offset).advanced := by
  rw [Cursor.jump, Cursor.advance]
  split
  · assumption
  · rfl

theorem name_jump : (c.jump offset).name = c.name := by
  rw [Cursor.jump, Cursor.advance]
  split
  · rfl
  · rfl

theorem visited_jump : (c.jump offset).visited = c.visited := by
  rw [Cursor.jump, Cursor.advance]
  split
  · rfl
  · rfl

theorem nextPos_jump :
    (c.jump offset).nextPos = if c.advanced then c.nextPos else c.current + 2 := by
  rw [Cursor.jump, Cursor.advance]
  split
  · rfl
  · rfl

variable {c : Cursor}

theorem decodeLoop_eq :
    decodeLoop data (limit + 1) c =
      match pieceAt data c.current with
      | .cut => if c.advanced then some (c.name, c.nextPos) else none
      | .bad => none
      | .root =>
        if c.current ∈ c.visited then none
        else some (c.name, (c.advance (c.current + 1)).nextPos)
      | .label text =>
        if c.current ∈ c.visited then none else decodeLoop data limit (c.visit.addLabel text)
      | .pointer offset =>
        if c.current ∈ c.visited then none
        else if data.length < c.jumps + 1 then none
        else decodeLoop data limit (c.visit.jump offset) := by
  rw [decodeLoop, pieceAt]
  cases data[c.current]? with
  | none => rfl
  | some byte =>
    dsimp only
    by_cases hzero : byte = 0
    · simp only [if_pos hzero]
    by_cases htype : labelType byte = 3
    · simp only [if_neg hzero, if_pos htype]
      cases data[c.current + 1]? with
      | none => exact ite_self _
      | some low =>
        dsimp only
        split_ifs <;> rfl
    by_cases hlabel : labelType byte = 0
    · have hsmall : ¬(byte.toNat = 0 ∨ 63 < byte.toNat) := by
        rw [labelType] at hlabel
        have hnat : byte.toNat ≠ 0 := fun hnat => hzero (UInt8.toNat_inj.mp hnat)
        omega
      split_ifs <;> rfl
    · simp only [if_neg hzero, if_neg htype, ne_eq, hlabel, not_false_eq_true, if_true]
      exact ite_self _

theorem spells_of_decodeLoop (h : decodeLoop data limit c = some (name, e)) :
    ∃ labels, Spells data c.current labels ∧ name = labels.foldl joinLabel c.name ∧
      (c.advanced → e = c.nextPos) ∧
      (c.advanced = false → EndsAt data c.current e) := by
  induction limit generalizing c with
  | zero => cases h
  | succ limit ih =>
    rw [decodeLoop_eq] at h
    cases hpiece : pieceAt data c.current with
    | cut =>
      simp only [hpiece] at h
      split at h
      · rename_i hadvanced
        cases h
        refine ⟨[], ⟨1, by rw [spell, hpiece]⟩, rfl, fun _ => rfl, fun hnot => ?_⟩
        rw [hadvanced] at hnot
        cases hnot
      · cases h
    | bad =>
      rw [hpiece] at h
      cases h
    | root =>
      simp only [hpiece] at h
      split at h
      · cases h
      · cases h
        refine ⟨[], ⟨1, by rw [spell, hpiece]⟩, rfl, fun hadvanced => ?_, fun hnot => ?_⟩
        · rw [Cursor.advance, if_pos hadvanced]
        · rw [Cursor.advance, if_neg (by simp [hnot])]
          exact .root hpiece
    | label text =>
      simp only [hpiece] at h
      split at h
      · cases h
      obtain ⟨labels, ⟨d, hspell⟩, rfl, hadvanced, hnot⟩ := ih h
      refine ⟨text :: labels, ⟨d + 1, ?_⟩, rfl, fun hyes => ?_, fun hno => ?_⟩
      · rw [spell, hpiece]
        exact Option.map_eq_some_iff.mpr ⟨labels, hspell, rfl⟩
      · rw [hadvanced hyes]
        exact if_pos hyes
      · exact .label hpiece (hnot hno)
    | pointer offset =>
      simp only [hpiece] at h
      split at h
      · cases h
      split at h
      · cases h
      obtain ⟨labels, ⟨d, hspell⟩, hname, hadvanced, -⟩ := ih h
      have hyes : (c.visit.jump offset).advanced := advanced_jump _ _
      have hnext := hadvanced hyes
      refine ⟨labels, ⟨d + 1, ?_⟩, ?_, fun hyes => ?_, fun hno => ?_⟩
      · rw [spell, hpiece]
        exact hspell
      · rw [hname, name_jump]
        rfl
      · rw [hnext, nextPos_jump]
        exact if_pos hyes
      · rw [hnext, nextPos_jump, if_neg (by simpa [Cursor.visit] using hno)]
        exact .of_pointer hpiece

theorem length_le_of_nodup {places : List Nat} (hnodup : places.Nodup)
    (h : ∀ q ∈ places, q < n) : places.length ≤ n := by
  simpa using (hnodup.subperm fun q hq => mem_range.mpr (h q hq)).length_le

theorem decodeLoop_of_route (h : Route data last c.current places labels)
    (hlimit : places.length ≤ limit) (hjumps : c.jumps + places.length ≤ data.length + 1)
    (hnew : ∀ q ∈ places, q ∉ c.visited) (hnot : c.advanced = false → EndsAt data c.current e)
    (hadvanced : c.advanced → e = c.nextPos) :
    decodeLoop data limit c = some (labels.foldl joinLabel c.name, e) := by
  generalize hp : c.current = p at h
  induction h generalizing c limit with
  | @stop p h hlast =>
    subst hp
    obtain ⟨limit, rfl⟩ : ∃ n, limit = n + 1 := ⟨limit - 1, (Nat.sub_add_cancel hlimit).symm⟩
    rw [decodeLoop_eq]
    rcases hlast with rfl | rfl
    · rw [h]
      dsimp only
      rw [if_neg (hnew _ mem_cons_self), Cursor.advance]
      split_ifs with hyes
      · rw [hadvanced hyes]
        rfl
      · rw [(hnot (by simpa using hyes)).unique (.root h)]
        rfl
    · have hyes : c.advanced := by
        by_contra hno
        have hinv := (hnot (by simpa using hno)).inv
        rw [h] at hinv
        exact hinv
      rw [h]
      dsimp only
      rw [if_pos hyes, hadvanced hyes]
      rfl
  | @step p q part places labels h later ih =>
    subst hp
    have hnodup := nodup_cons.mp (Route.step h later).nodup
    obtain ⟨limit, rfl⟩ : ∃ n, limit = n + 1 :=
      ⟨limit - 1, (Nat.sub_add_cancel (Nat.one_le_of_lt hlimit)).symm⟩
    rw [length_cons] at hlimit hjumps
    have hvisited : ∀ q ∈ places, q ∉ c.current :: c.visited := fun q hq hmem =>
      (mem_cons.mp hmem).elim (fun heq => hnodup.1 (heq ▸ hq)) (hnew q (mem_cons_of_mem _ hq))
    rw [decodeLoop_eq]
    cases hpiece : pieceAt data c.current with
    | label text =>
      rw [hpiece] at h
      cases h
      dsimp only
      rw [if_neg (hnew _ mem_cons_self), ih (c := c.visit.addLabel text)]
      · rfl
      · omega
      · simp only [Cursor.addLabel, Cursor.visit]
        omega
      · exact hvisited
      · intro hno
        have hinv := (hnot hno).inv
        rw [hpiece] at hinv
        exact hinv
      · intro hyes
        rw [hadvanced hyes]
        exact (if_pos hyes).symm
      · rfl
    | pointer offset =>
      rw [hpiece] at h
      cases h
      have hsome : 0 < places.length := by cases later <;> simp
      dsimp only
      rw [if_neg (hnew _ mem_cons_self), if_neg (by omega), ih (c := c.visit.jump q),
        name_jump]
      · rfl
      · omega
      · simp only [Cursor.jump, Cursor.visit]
        omega
      · rwa [visited_jump]
      · intro hno
        rw [advanced_jump] at hno
        cases hno
      · intro _
        rw [nextPos_jump]
        split_ifs with hyes
        · exact hadvanced hyes
        · have hinv := (hnot (by simpa [Cursor.visit] using hyes)).inv
          rw [hpiece] at hinv
          exact hinv
      · rfl
    | _ =>
      rw [hpiece] at h
      cases h

end Loop

theorem decodeName_eq_some_iff (hends : EndsAt data p e) (name : Bytes) (next : Nat) :
    decodeName data p = some (name, next) ↔
      next = e ∧ ∃ labels, Spells data p labels ∧ name = nameText labels := by
  have hinside := hends.inside
  rw [decodeName, if_neg (Nat.not_le.mpr hinside)]
  constructor
  · intro h
    obtain ⟨labels, hspells, hname, -, hnot⟩ := spells_of_decodeLoop h
    obtain ⟨_, _, hroute⟩ := hspells.route
    refine ⟨(hnot rfl).unique hends, labels, hspells, ?_⟩
    rw [hname]
    exact foldl_joinLabel_nil hroute.ne_nil
  · rintro ⟨rfl, labels, hspells, rfl⟩
    obtain ⟨_, places, hroute⟩ := hspells.route
    have hlength := length_le_of_nodup hroute.nodup fun q hq =>
      Nat.lt_succ_of_le (hroute.inside hinside.le q hq)
    rw [← foldl_joinLabel_nil hroute.ne_nil]
    exact decodeLoop_of_route (c := { current := p, nextPos := p }) hroute hlength
      (by simpa using hlength) (fun _ _ => not_mem_nil) (fun _ => hends) nofun

end ServerLib.Dns
