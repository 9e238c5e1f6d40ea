import ServerLib.Dns.Names

/-! Which names `decode_name` accepts. -/

namespace ServerLib.Dns

open Lib List

/-- The loop ends: no place is visited twice, and all are places of the data. -/
theorem decodeLoop_of_le (hnodup : c.visited.Nodup) (hinside : ∀ v ∈ c.visited, v < data.length)
    (hlimit : data.length < limit + c.visited.length) (hle : limit ≤ limit') :
    decodeLoop data limit' c = decodeLoop data limit c := by
  induction limit generalizing c limit' with
  | zero =>
    have := length_le_of_nodup hnodup hinside
    omega
  | succ limit ih =>
    obtain ⟨limit', rfl⟩ : ∃ n, limit' = n + 1 := ⟨limit' - 1, by omega⟩
    have hvisit : ∀ {c' : Cursor}, pieceAt data c.current ≠ .cut → c.current ∉ c.visited →
        c'.visited = c.current :: c.visited →
        decodeLoop data limit' c' = decodeLoop data limit c' := by
      intro c' hpiece hnew hvisited
      apply ih
      · simp [hvisited, hnew, hnodup]
      · simpa [hvisited, lt_length_of_piece hpiece] using hinside
      · rw [hvisited, length_cons]
        omega
      · omega
    rw [decodeLoop_eq, decodeLoop_eq]
    cases hpiece : pieceAt data c.current with
    | cut | bad | root => rfl
    | label text =>
      dsimp only
      split_ifs with hnew
      · rfl
      · exact hvisit (by simp [hpiece]) hnew rfl
    | pointer offset =>
      dsimp only
      split_ifs with hnew
      · rfl
      · rfl
      · exact hvisit (by simp [hpiece]) hnew (visited_jump _ _)

/-- A name is accepted exactly if its way ends in a zero byte and visits no place twice.  A place
outside of the data, where `pieceAt` is `cut`, is not read. -/
structure Exact (data : Bytes) (p : Nat) : Prop where
  terminates : ∀ limit > data.length,
    decodeLoop data limit { current := p, nextPos := p } =
      decodeLoop data (data.length + 1) { current := p, nextPos := p }
  accepts : ∀ name next, decodeName data p = some (name, next) ↔
    ∃ places labels, Route data .root p places labels ∧ places.Nodup ∧ name = nameText labels ∧
      EndsAt data p next

/-- After a pointer the end of the data is taken for the end of a name. -/
theorem exact_iff (data : Bytes) (p : Nat) :
    Exact data p ↔ ¬∃ places labels e, Route data .cut p places labels ∧ EndsAt data p e := by
  constructor
  · rintro h ⟨places, labels, e, hroute, hends⟩
    have hname := (decodeName_eq_some_iff hends (nameText labels) e).mpr
      ⟨rfl, labels, hroute.spells, rfl⟩
    obtain ⟨_, _, hroot, -⟩ := (h.accepts _ _).mp hname
    cases (hroute.unique hroot).1
  · intro hcut
    refine ⟨fun limit => decodeLoop_of_le nodup_nil nofun (Nat.lt_succ_self _), ?_⟩
    intro name next
    constructor
    · intro h
      have hends : EndsAt data p next := by
        rw [decodeName] at h
        split at h
        · cases h
        · obtain ⟨_, -, -, -, hnot⟩ := spells_of_decodeLoop h
          exact hnot rfl
      obtain ⟨-, labels, hspells, rfl⟩ := (decodeName_eq_some_iff hends name next).mp h
      obtain ⟨last, places, hroute⟩ := hspells.route
      obtain rfl | rfl := hroute.ends
      · exact ⟨places, labels, hroute, hroute.nodup, rfl, hends⟩
      · exact absurd ⟨places, labels, next, hroute, hends⟩ hcut
    · rintro ⟨places, labels, hroute, -, rfl, hends⟩
      exact (decodeName_eq_some_iff hends _ _).mpr ⟨rfl, labels, hroute.spells, rfl⟩

/-- A label at the end of the data, behind a pointer. -/
theorem not_exact_cut : ¬Exact [0xC0, 2, 1, 0x61] 0 := by
  intro h
  have hroute : Route [0xC0, 2, 1, 0x61] .cut 0 [0, 2, 4] ([] ++ ([[0x61]] ++ [])) :=
    .step (by decide) (.step (q := 4) (by decide) (.stop (by decide) (.inr rfl)))
  obtain ⟨_, _, hroot, -⟩ := (h.accepts [0x61] 2).mp (by decide)
  cases (hroute.unique hroot).1

end ServerLib.Dns
