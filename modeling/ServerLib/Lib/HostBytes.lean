import ServerLib.Lib.Reader

/-! Numbers as the bytes that stand for them in memory, and the byte order of the network. -/

namespace ServerLib.Lib

/-- The bytes of a number in memory: the lowest comes first. -/
def hostBytes : Nat → Nat → List UInt8
  | 0, _ => []
  | size + 1, v => UInt8.ofNat v :: hostBytes size (v / 2 ^ 8)

def ofHostBytes : List UInt8 → Nat
  | [] => 0
  | b :: rest => b.toNat + 2 ^ 8 * ofHostBytes rest

/-- `htons`, `htonl` and `htonll` turn the bytes in memory round. -/
def hostToNetwork (size v : Nat) : Nat := ofHostBytes (hostBytes size v).reverse

theorem length_hostBytes (size v : Nat) : (hostBytes size v).length = size := by
  induction size generalizing v with
  | zero => rfl
  | succ size ih => simp [hostBytes, ih]

theorem ofHostBytes_lt (bytes : List UInt8) : ofHostBytes bytes < 2 ^ (8 * bytes.length) := by
  induction bytes with
  | nil => simp [ofHostBytes]
  | cons b rest ih =>
    have hb := b.toNat_lt
    rw [ofHostBytes, List.length_cons, Nat.mul_succ, Nat.add_comm _ 8, pow_add]
    omega

theorem hostBytes_ofHostBytes (bytes : List UInt8) :
    hostBytes bytes.length (ofHostBytes bytes) = bytes := by
  induction bytes with
  | nil => rfl
  | cons b rest ih =>
    have hb := b.toNat_lt
    have hdiv : (b.toNat + 2 ^ 8 * ofHostBytes rest) / 2 ^ 8 = ofHostBytes rest := by omega
    have hfirst : UInt8.ofNat (b.toNat + 2 ^ 8 * ofHostBytes rest) = b := by
      apply UInt8.toNat_inj.mp
      rw [UInt8.toNat_ofNat']
      omega
    rw [List.length_cons, ofHostBytes, hostBytes, hdiv, hfirst, ih]

theorem hostBytes_hostToNetwork (size v : Nat) :
    hostBytes size (hostToNetwork size v) = (hostBytes size v).reverse := by
  have h := hostBytes_ofHostBytes (hostBytes size v).reverse
  rw [List.length_reverse, length_hostBytes] at h
  exact h

theorem reverse_hostBytes_four (v : UInt32) : (hostBytes 4 v.toNat).reverse = writeU32 v := by
  simp only [hostBytes, Nat.div_div_eq_div_mul, ← pow_add]
  rfl

theorem hostToNetwork_ofHostBytes (bytes : List UInt8) :
    hostToNetwork bytes.length (ofHostBytes bytes) = ofHostBytes bytes.reverse := by
  rw [hostToNetwork, hostBytes_ofHostBytes]

end ServerLib.Lib
