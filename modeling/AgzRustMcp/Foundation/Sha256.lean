import Mathlib

/-!
# SHA-256

The hash function of FIPS 180-4 on byte arrays, with 32-bit words as natural numbers reduced modulo
`2 ^ 32`.  Every definition is structurally recursive, so that it evaluates in the kernel.  The
development quantifies over the hash function; this is the one that concrete runs use.
-/

namespace Sha256

/-! ## Functions on words -/

def wordSize : ℕ := 2 ^ 32

def rotateRight (x n : ℕ) : ℕ := ((x >>> n) ||| (x <<< (32 - n))) % wordSize

/-- The bits of `y` where `x` is set and those of `z` elsewhere. -/
def choose (x y z : ℕ) : ℕ := (x &&& y) ^^^ ((wordSize - 1 - x) &&& z)

/-- The majority of three words, bit by bit. -/
def majority (x y z : ℕ) : ℕ := (x &&& y) ^^^ (x &&& z) ^^^ (y &&& z)

/-- The function `Σ₀` of the standard. -/
def sigma0 (x : ℕ) : ℕ := rotateRight x 2 ^^^ rotateRight x 13 ^^^ rotateRight x 22

/-- The function `Σ₁` of the standard. -/
def sigma1 (x : ℕ) : ℕ := rotateRight x 6 ^^^ rotateRight x 11 ^^^ rotateRight x 25

/-- The function `σ₀` of the message schedule. -/
def schedule0 (x : ℕ) : ℕ := rotateRight x 7 ^^^ rotateRight x 18 ^^^ (x >>> 3)

/-- The function `σ₁` of the message schedule. -/
def schedule1 (x : ℕ) : ℕ := rotateRight x 17 ^^^ rotateRight x 19 ^^^ (x >>> 10)

def roundConstants : List ℕ := [
  0x428a2f98, 0x71374491, 0xb5c0fbcf, 0xe9b5dba5, 0x3956c25b, 0x59f111f1, 0x923f82a4, 0xab1c5ed5,
  0xd807aa98, 0x12835b01, 0x243185be, 0x550c7dc3, 0x72be5d74, 0x80deb1fe, 0x9bdc06a7, 0xc19bf174,
  0xe49b69c1, 0xefbe4786, 0x0fc19dc6, 0x240ca1cc, 0x2de92c6f, 0x4a7484aa, 0x5cb0a9dc, 0x76f988da,
  0x983e5152, 0xa831c66d, 0xb00327c8, 0xbf597fc7, 0xc6e00bf3, 0xd5a79147, 0x06ca6351, 0x14292967,
  0x27b70a85, 0x2e1b2138, 0x4d2c6dfc, 0x53380d13, 0x650a7354, 0x766a0abb, 0x81c2c92e, 0x92722c85,
  0xa2bfe8a1, 0xa81a664b, 0xc24b8b70, 0xc76c51a3, 0xd192e819, 0xd6990624, 0xf40e3585, 0x106aa070,
  0x19a4c116, 0x1e376c08, 0x2748774c, 0x34b0bcb5, 0x391c0cb3, 0x4ed8aa4a, 0x5b9cca4f, 0x682e6ff3,
  0x748f82ee, 0x78a5636f, 0x84c87814, 0x8cc70208, 0x90befffa, 0xa4506ceb, 0xbef9a3f7, 0xc67178f2]

/-! ## Blocks -/

/-- The eight working variables. -/
structure Registers where
  a : ℕ
  b : ℕ
  c : ℕ
  d : ℕ
  e : ℕ
  f : ℕ
  g : ℕ
  h : ℕ

/-- The initial hash value. -/
def initial : Registers :=
  ⟨0x6a09e667, 0xbb67ae85, 0x3c6ef372, 0xa54ff53a, 0x510e527f, 0x9b05688c, 0x1f83d9ab, 0x5be0cd19⟩

def round (r : Registers) (constant word : ℕ) : Registers :=
  let t₁ := (r.h + sigma1 r.e + choose r.e r.f r.g + constant + word) % wordSize
  let t₂ := (sigma0 r.a + majority r.a r.b r.c) % wordSize
  ⟨(t₁ + t₂) % wordSize, r.a, r.b, r.c, (r.d + t₁) % wordSize, r.e, r.f, r.g⟩

/-- The rounds of one block; the second argument is the window of the message schedule. -/
def rounds : List ℕ → List ℕ → Registers → Registers
  | constant :: constants, w₀ :: w₁ :: w₂ :: w₃ :: w₄ :: w₅ :: w₆ :: w₇ ::
        w₈ :: w₉ :: w₁₀ :: w₁₁ :: w₁₂ :: w₁₃ :: w₁₄ :: w₁₅ :: _, r =>
    let next := (schedule1 w₁₄ + w₉ + schedule0 w₁ + w₀) % wordSize
    rounds constants
      [w₁, w₂, w₃, w₄, w₅, w₆, w₇, w₈, w₉, w₁₀, w₁₁, w₁₂, w₁₃, w₁₄, w₁₅, next]
      (round r constant w₀)
  | _, _, r => r

/-- The hash value after one block of sixteen words. -/
def compress (r : Registers) (block : List ℕ) : Registers :=
  let s := rounds roundConstants block r
  ⟨(r.a + s.a) % wordSize, (r.b + s.b) % wordSize, (r.c + s.c) % wordSize, (r.d + s.d) % wordSize,
    (r.e + s.e) % wordSize, (r.f + s.f) % wordSize, (r.g + s.g) % wordSize, (r.h + s.h) % wordSize⟩

/-- The hash value after the given number of blocks. -/
def blocks : ℕ → List ℕ → Registers → Registers
  | 0, _, r => r
  | n + 1, words, r => blocks n (words.drop 16) (compress r (words.take 16))

/-- The padded message: a one bit, zeros, and the length in bits. -/
def pad (bytes : List ℕ) : List ℕ :=
  bytes ++ 128 :: List.replicate ((119 - bytes.length % 64) % 64) 0 ++
    (List.range 8).map fun i => (8 * bytes.length) >>> (8 * (7 - i)) % 256

/-- The words of a message, four bytes each. -/
def toWords : List ℕ → List ℕ
  | a :: b :: c :: d :: rest => (((a * 256 + b) * 256 + c) * 256 + d) :: toWords rest
  | _ => []

def hexDigit (n : ℕ) : Char := if n < 10 then Char.ofNat (48 + n) else Char.ofNat (87 + n)

def hexWord (x : ℕ) : List Char := (List.range 8).map fun i => hexDigit (x >>> (4 * (7 - i)) % 16)

/-- The SHA-256 digest of a byte array in hexadecimal digits. -/
def sha256Hex (bytes : ByteArray) : String :=
  let message := pad (bytes.toList.map UInt8.toNat)
  let r := blocks (message.length / 64) (toWords message) initial
  String.ofList ([r.a, r.b, r.c, r.d, r.e, r.f, r.g, r.h].flatMap hexWord)

example : sha256Hex "abc".toByteArray =
    "ba7816bf8f01cfea414140de5dae2223b00361a396177a9cb410ff61f20015ad" := by decide +kernel

/-! ## Digests without collisions -/

/-- A function without collisions that is the hash at one message. -/
def exactAt (message bytes : ByteArray) : String :=
  if bytes = message then sha256Hex message
  else String.ofList ('-' :: bytes.data.toList.map fun byte => Char.ofNat (byte.toNat + 1))

lemma exists_of_mem_sha256Hex {bytes : ByteArray} {c : Char} (h : c ∈ (sha256Hex bytes).toList) :
    ∃ n < 16, c = hexDigit n := by
  simp only [sha256Hex, String.toList_ofList, List.mem_flatMap, hexWord, List.mem_map] at h
  obtain ⟨word, -, i, -, rfl⟩ := h
  exact ⟨_, Nat.mod_lt _ (by norm_num), rfl⟩

lemma notMem_sha256Hex {bytes : ByteArray} {c : Char} (h : ∀ n < 16, c ≠ hexDigit n) :
    c ∉ (sha256Hex bytes).toList := by
  intro hc
  obtain ⟨n, hn, heq⟩ := exists_of_mem_sha256Hex hc
  exact h n hn heq

lemma ofNat_succ_injective : Function.Injective fun byte : UInt8 => Char.ofNat (byte.toNat + 1) := by
  intro a b h
  have hvalid : ∀ byte : UInt8, (byte.toNat + 1).isValidChar := by
    intro byte
    have := byte.toNat_lt
    exact Or.inl (by omega)
  have hnat := congrArg Char.toNat h
  simp only [Char.toNat_ofNat, hvalid, if_true] at hnat
  exact UInt8.toNat_inj.mp (by omega)

lemma exactAt_injective (message : ByteArray) : Function.Injective (exactAt message) := by
  have hdash : '-' ∉ (sha256Hex message).toList := notMem_sha256Hex (by decide)
  intro a b h
  unfold exactAt at h
  split_ifs at h with ha hb hb
  · rw [ha, hb]
  · rw [h] at hdash
    simp at hdash
  · rw [← h] at hdash
    simp at hdash
  · have hlist := congrArg String.toList h
    simp only [String.toList_ofList, List.cons.injEq, true_and] at hlist
    exact ByteArray.ext (Array.toList_inj.mp (ofNat_succ_injective.list_map hlist))

lemma nul_notMem_exactAt (message bytes : ByteArray) : '\x00' ∉ (exactAt message bytes).toList := by
  unfold exactAt
  split_ifs
  · exact notMem_sha256Hex (by decide)
  · rw [String.toList_ofList]
    intro h
    rcases List.mem_cons.mp h with h | h
    · exact absurd h (by decide)
    · obtain ⟨byte, -, hbyte⟩ := List.mem_map.mp h
      have hnat := congrArg Char.toNat hbyte
      have hlt := byte.toNat_lt
      have hvalid : (byte.toNat + 1).isValidChar := Or.inl (by omega)
      simp only [Char.toNat_ofNat, hvalid, if_true] at hnat
      exact absurd hnat (by simp)

end Sha256
