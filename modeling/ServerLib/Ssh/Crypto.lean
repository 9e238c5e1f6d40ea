import ServerLib.Lib.Keystream
import ServerLib.Lib.Reader
import ServerLib.Ssh.Negotiation

/-! Ciphers, message authentication codes and keys.  The functions of the cryptographic library are
a parameter. -/

namespace ServerLib.Ssh

open Lib List

abbrev Bytes := List UInt8

inductive HashAlg
  | sha1
  | sha256
  | sha384
  | sha512

def HashAlg.size : HashAlg → Nat
  | sha1 => 20
  | sha256 => 32
  | sha384 => 48
  | sha512 => 64

inductive MacAlg
  | hmacSha256
  | hmacSha512
  | hmacSha1
deriving DecidableEq

namespace MacAlg

def all : List MacAlg := [hmacSha256, hmacSha512, hmacSha1]

def name : MacAlg → Text
  | hmacSha256 => "hmac-sha2-256".toList
  | hmacSha512 => "hmac-sha2-512".toList
  | hmacSha1 => "hmac-sha1".toList

def digestSize : MacAlg → Nat
  | hmacSha256 => 32
  | hmacSha512 => 64
  | hmacSha1 => 20

def keySize (alg : MacAlg) : Nat := alg.digestSize

end MacAlg

/-- The length of the tag of both ciphers with a tag. -/
def tagLength : Nat := 16

/-- A cipher with a tag over the text and over the additional data. -/
structure Aead where
  encrypt : (key nonce aad text : Bytes) → Bytes × Bytes
  decrypt : (key nonce aad text tag : Bytes) → Option Bytes
  length_text : ∀ key nonce aad text, (encrypt key nonce aad text).1.length = text.length
  length_tag : ∀ key nonce aad text, (encrypt key nonce aad text).2.length = tagLength
  decrypt_encrypt : ∀ key nonce aad text,
    decrypt key nonce aad (encrypt key nonce aad text).1 (encrypt key nonce aad text).2 = some text
  length_decrypt : ∀ key nonce aad text tag plain,
    decrypt key nonce aad text tag = some plain → plain.length = text.length

structure Primitives where
  hash : HashAlg → Bytes → Bytes
  length_hash : ∀ alg data, (hash alg data).length = alg.size
  hmac : MacAlg → (key data : Bytes) → Bytes
  length_hmac : ∀ alg key data, (hmac alg key data).length = alg.digestSize
  /-- The stream of AES in counter mode. -/
  aesCtr : (key iv : Bytes) → Nat → UInt8
  /-- The stream of ChaCha20, with which lengths are encrypted. -/
  chacha20 : (key nonce : Bytes) → Nat → UInt8
  aesGcm : Aead
  chacha20Poly1305 : Aead

/-- A number without zeros in front, but with one if it would look negative. -/
def mpint (value : Bytes) : Bytes :=
  let trimmed := value.dropWhile (· = 0)
  let padded := if trimmed.head?.any fun b => 128 ≤ b then 0 :: trimmed else trimmed
  writeU32 (UInt32.ofNat padded.length) ++ padded

def hashOfName (name : Text) : HashAlg :=
  if name = "sha512".toList then .sha512
  else if name = "sha384".toList then .sha384
  else if name = "sha1".toList then .sha1
  else .sha256

/-- The hash for the keys. -/
def SshNegotiatedAlgorithms.hashName (n : SshNegotiatedAlgorithms) : Text :=
  if n.kexHashName = [] then "sha256".toList else n.kexHashName

/-- What the keys are derived from. -/
structure Secrets where
  k : Bytes
  h : Bytes
  sessionId : Bytes

/-- The loop of `derive_key`: every turn adds bytes. -/
def extendKey (p : Primitives) (hash : HashAlg) (secrets : Secrets) (keyLen : Nat) :
    Nat → Bytes → Bytes
  | 0, result => result
  | limit + 1, result =>
    if result.length < keyLen then
      let more := p.hash hash (mpint secrets.k ++ secrets.h ++ result)
      extendKey p hash secrets keyLen limit (result ++ more.take (keyLen - result.length))
    else result

def deriveKey (p : Primitives) (secrets : Secrets) (letter : Char) (keyLen : Nat)
    (hashName : Text) : Bytes :=
  let hash := hashOfName hashName
  let first := p.hash hash (mpint secrets.k ++ secrets.h ++ [letter.toUInt8] ++ secrets.sessionId)
  if keyLen ≤ first.length then first.take keyLen
  else (extendKey p hash secrets keyLen keyLen first).take keyLen

theorem length_extendKey (p : Primitives) (hash : HashAlg) (secrets : Secrets) (keyLen : Nat)
    (limit : Nat) (result : Bytes) (hlimit : keyLen ≤ limit + result.length)
    (hresult : result.length ≤ keyLen) :
    (extendKey p hash secrets keyLen limit result).length = keyLen := by
  induction limit generalizing result with
  | zero =>
    rw [extendKey]
    omega
  | succ limit ih =>
    rw [extendKey]
    split
    · have hpos : 0 < hash.size := by cases hash <;> decide
      apply ih
      · rw [length_append, length_take, p.length_hash]
        omega
      · rw [length_append, length_take]
        omega
    · omega

theorem length_deriveKey (p : Primitives) (secrets : Secrets) (letter : Char) (keyLen : Nat)
    (hashName : Text) : (deriveKey p secrets letter keyLen hashName).length = keyLen := by
  rw [deriveKey]
  split
  · rw [length_take]
    omega
  · rw [length_take, length_extendKey] <;> omega

inductive CipherAlg
  | chacha20Poly1305
  | aes128Gcm
  | aes256Gcm
  | aes128Ctr
  | aes192Ctr
  | aes256Ctr
deriving DecidableEq

/-- The three classes of ciphers. -/
inductive CipherMode
  | chacha
  | gcm
  | ctr
deriving DecidableEq

namespace CipherAlg

def all : List CipherAlg :=
  [chacha20Poly1305, aes128Gcm, aes256Gcm, aes128Ctr, aes192Ctr, aes256Ctr]

def name : CipherAlg → Text
  | chacha20Poly1305 => "chacha20-poly1305@openssh.com".toList
  | aes128Gcm => "aes128-gcm@openssh.com".toList
  | aes256Gcm => "aes256-gcm@openssh.com".toList
  | aes128Ctr => "aes128-ctr".toList
  | aes192Ctr => "aes192-ctr".toList
  | aes256Ctr => "aes256-ctr".toList

def mode : CipherAlg → CipherMode
  | chacha20Poly1305 => .chacha
  | aes128Gcm => .gcm
  | aes256Gcm => .gcm
  | aes128Ctr => .ctr
  | aes192Ctr => .ctr
  | aes256Ctr => .ctr

def keySize : CipherAlg → Nat
  | chacha20Poly1305 => 64
  | aes128Gcm => 16
  | aes256Gcm => 32
  | aes128Ctr => 16
  | aes192Ctr => 24
  | aes256Ctr => 32

end CipherAlg

namespace CipherMode

def ivSize : CipherMode → Nat
  | chacha => 0
  | gcm => 12
  | ctr => 16

def blockSize : CipherMode → Nat
  | chacha => 8
  | gcm => 16
  | ctr => 16

def tagSize : CipherMode → Nat
  | chacha => tagLength
  | gcm => tagLength
  | ctr => 0

def isAead : CipherMode → Bool
  | chacha => true
  | gcm => true
  | ctr => false

end CipherMode

/-- A cipher with its keys.  Counter mode has one place in the stream for each of its two
contexts. -/
structure SshCipher where
  alg : CipherAlg
  key : Bytes := []
  iv : Bytes := []
  encPos : Nat := 0
  decPos : Nat := 0
deriving DecidableEq

namespace SshCipher

def mode (c : SshCipher) : CipherMode := c.alg.mode

def seqBytes (seq : UInt32) : Bytes := writeU32 seq

/-- `compute_nonce` of GCM. -/
def gcmNonce (c : SshCipher) (seq : UInt32) : Bytes :=
  let nonce := (c.iv ++ List.replicate 12 0).take 12
  nonce.take 8 ++ List.zipWith (· ^^^ ·) (nonce.drop 8) (seqBytes seq)

/-- `build_nonce` of ChaCha20. -/
def chachaNonce (seq : UInt32) : Bytes := List.replicate 8 0 ++ seqBytes seq

/-- The first half of the key, the only one that is used. -/
def k2 (c : SshCipher) : Bytes := if c.key.length < 64 then [] else c.key.take 32

variable (p : Primitives)

/-- `encrypt` in counter mode.  Before `init` there is no key, and nothing is encrypted. -/
def encrypt (c : SshCipher) (data : Bytes) : Bytes × SshCipher :=
  if c.key = [] then ([], c)
  else (mask (p.aesCtr c.key c.iv) c.encPos data, { c with encPos := c.encPos + data.length })

def decrypt (c : SshCipher) (data : Bytes) : Bytes × SshCipher :=
  if c.key = [] then ([], c)
  else (mask (p.aesCtr c.key c.iv) c.decPos data, { c with decPos := c.decPos + data.length })

/-- ChaCha20 encrypts the length, which is the additional data, and puts it in front. -/
def encryptAead (c : SshCipher) (aad data : Bytes) (seq : UInt32) : Bytes :=
  match c.mode with
  | .gcm =>
    let out := p.aesGcm.encrypt c.key (c.gcmNonce seq) aad data
    out.1 ++ out.2
  | .chacha =>
    let encLength := mask (p.chacha20 c.k2 (chachaNonce seq)) 0 aad
    let out := p.chacha20Poly1305.encrypt c.k2 (chachaNonce seq) encLength data
    encLength ++ out.1 ++ out.2
  | .ctr => []

/-- ChaCha20 ignores the additional data: it takes it from the front of the text. -/
def decryptAead (c : SshCipher) (aad data tag : Bytes) (seq : UInt32) : Option Bytes :=
  match c.mode with
  | .gcm =>
    if tag.length ≠ tagLength then none
    else p.aesGcm.decrypt c.key (c.gcmNonce seq) aad data tag
  | .chacha =>
    if data.length < 4 ∨ tag.length ≠ tagLength then none
    else p.chacha20Poly1305.decrypt c.k2 (chachaNonce seq) (data.take 4) (data.drop 4) tag
  | .ctr => none

/-- The first four bytes decrypted, without a change of the place in the stream. -/
def decryptLength (c : SshCipher) (encLength : Bytes) (seq : UInt32) : Option Bytes :=
  match c.mode with
  | .ctr =>
    if c.key = [] ∨ encLength.length < 4 then none
    else some (mask (p.aesCtr c.key c.iv) c.decPos (encLength.take 4))
  | .chacha =>
    if encLength.length < 4 ∨ c.k2 = [] then none
    else some (mask (p.chacha20 c.k2 (chachaNonce seq)) 0 encLength)
  | .gcm => none

end SshCipher

structure SshMac where
  alg : MacAlg
  key : Bytes := []
deriving DecidableEq

namespace SshMac

def digestSize (mac : SshMac) : Nat := mac.alg.digestSize

variable (p : Primitives)

def compute (mac : SshMac) (seq : UInt32) (data : Bytes) : Bytes :=
  p.hmac mac.alg mac.key (SshCipher.seqBytes seq ++ data)

@[simp] theorem length_compute (mac : SshMac) (seq : UInt32) (data : Bytes) :
    (mac.compute p seq data).length = mac.digestSize :=
  p.length_hmac _ _ _

def verify (mac : SshMac) (seq : UInt32) (data code : Bytes) : Prop :=
  mac.compute p seq data = code

instance (mac : SshMac) (seq : UInt32) (data code : Bytes) :
    Decidable (mac.verify p seq data code) :=
  inferInstanceAs (Decidable (_ = _))

end SshMac

/-- The tag tells texts apart whose lengths differ by four. -/
def Aead.bareTag (text : Bytes) : Bytes :=
  List.replicate tagLength (UInt8.ofNat (1 + text.length / 4 % 2))

def Aead.bare : Aead where
  encrypt _ _ _ text := (text, bareTag text)
  decrypt _ _ _ text tag := if tag = bareTag text then some text else none
  length_text _ _ _ _ := rfl
  length_tag _ _ _ _ := length_replicate
  decrypt_encrypt _ _ _ _ := if_pos rfl
  length_decrypt := by
    intro key nonce aad text tag plain h
    split at h
    · cases h
      rfl
    · cases h

/-- Hashes are one byte again and again, and so are codes. -/
def Primitives.bare (hashByte : UInt8) (macByte : (key data : Bytes) → UInt8) : Primitives where
  hash alg _ := List.replicate alg.size hashByte
  length_hash _ _ := length_replicate
  hmac alg key data := List.replicate alg.digestSize (macByte key data)
  length_hmac _ _ _ := length_replicate
  aesCtr _ _ _ := 0
  chacha20 _ _ _ := 0
  aesGcm := Aead.bare
  chacha20Poly1305 := Aead.bare

theorem extendKey_bare {hash : HashAlg} (h : ∀ x ∈ result, x = b) :
    ∀ x ∈ extendKey (Primitives.bare b macByte) hash secrets keyLen limit result, x = b := by
  induction limit generalizing result with
  | zero => exact h
  | succ limit ih =>
    rw [extendKey]
    split
    · apply ih
      intro x hx
      rcases mem_append.mp hx with hx | hx
      · exact h x hx
      · exact eq_of_mem_replicate (mem_of_mem_take hx)
    · exact h

theorem deriveKey_bare (b : UInt8) (macByte : Bytes → Bytes → UInt8) (secrets : Secrets)
    (letter : Char) (keyLen : Nat) (hashName : Text) :
    deriveKey (Primitives.bare b macByte) secrets letter keyLen hashName =
      List.replicate keyLen b := by
  apply eq_replicate_iff.mpr
  refine ⟨length_deriveKey _ _ _ _ _, ?_⟩
  intro x hx
  rw [deriveKey] at hx
  split at hx
  · exact eq_of_mem_replicate (mem_of_mem_take hx)
  · exact extendKey_bare (fun x hx => eq_of_mem_replicate hx) x (mem_of_mem_take hx)

namespace SshAlgorithmRegistry

variable (registry : SshAlgorithmRegistry)

def createCipher (name : Text) : Option CipherAlg :=
  if name ∈ registry.cipherNames then CipherAlg.all.find? (·.name = name) else none

/-- The empty name may be registered, but there is no such code. -/
def createMac (name : Text) : Option MacAlg :=
  if name ∈ registry.macNames then MacAlg.all.find? (·.name = name) else none

variable {zlib : Bool} {name : Text}

theorem createCipher_of_mem (h : name ∈ (defaults zlib).cipherNames) :
    ∃ alg, (defaults zlib).createCipher name = some alg := by
  have hall : ∀ name ∈ (defaults false).cipherNames,
      (CipherAlg.all.find? (·.name = name)).isSome := by
    decide +kernel
  rw [createCipher, if_pos h]
  exact Option.isSome_iff_exists.mp (hall name h)

theorem createMac_of_mem (h : name ∈ (defaults zlib).macNames) (hne : name ≠ []) :
    ∃ alg, (defaults zlib).createMac name = some alg := by
  have hall : ∀ name ∈ (defaults false).macNames, name ≠ [] →
      (MacAlg.all.find? (·.name = name)).isSome := by
    decide +kernel
  rw [createMac, if_pos h]
  exact Option.isSome_iff_exists.mp (hall name h hne)

theorem createMac_nil : (defaults zlib).createMac [] = none := by
  cases zlib with
  | false | true => decide +kernel

end SshAlgorithmRegistry

end ServerLib.Ssh
