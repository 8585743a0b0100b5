import Mathlib.Data.Nat.Bitwise

/-!
# FNV-1a

The 64-bit hash as a function into the natural numbers: from the offset basis on, each byte is
xored into the hash, and the hash is multiplied by the prime modulo `2 ^ 64`.
-/

namespace Fnv

def offsetBasis : ℕ := 0xCBF29CE484222325

def prime : ℕ := 2 ^ 40 + 2 ^ 8 + 0xB3

/-- One byte. -/
def mix (hash : ℕ) (byte : UInt8) : ℕ := (hash ^^^ byte.toNat) * prime % 2 ^ 64

def fnv1a (data : List UInt8) : ℕ := data.foldl mix offsetBasis

/-- A loop of 64-bit words that takes each byte as the hash does computes the hash. -/
theorem toNat_foldl {f : UInt64 → UInt8 → UInt64}
    (hf : ∀ hash byte, (f hash byte).toNat = mix hash.toNat byte) (seed : UInt64)
    (data : List UInt8) : (data.foldl f seed).toNat = data.foldl mix seed.toNat := by
  induction data generalizing seed with
  | nil => rfl
  | cons byte data ih => rw [List.foldl_cons, List.foldl_cons, ih, hf]

/-- The published values for the letter `a` and the word `foobar`. -/
example : fnv1a [0x61] = 0xAF63DC4C8601EC8C := by decide

example : fnv1a [0x66, 0x6F, 0x6F, 0x62, 0x61, 0x72] = 0x85944171F73967E8 := by decide

end Fnv
