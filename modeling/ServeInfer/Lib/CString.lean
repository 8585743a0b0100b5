import Mathlib.Data.List.TakeWhile
import ServeInfer.Lib.Utf16

/-!
# Strings that pass through C

A string goes as UTF-8 bytes, which end at the first zero byte, and comes back from them. What has
a U+0000 is cut there, and a lone surrogate comes back as a replacement.
-/

namespace Utf8

variable {s : List CodeUnit} {t : List Char}

/-- The bytes of a C string. -/
def cBytes (s : List CodeUnit) : List UInt8 := (toBytes s).takeWhile (· != 0)

/-- A string as it comes back from C. -/
def cString (s : List CodeUnit) : List CodeUnit := decode (cBytes s)

/-- The character of a code point. -/
def pointChar (n : ℕ) : Char := if n.isValidChar then Char.ofNat n else Char.ofNat 0xFFFD

theorem toBytes_eq_encode (s : List CodeUnit) : toBytes s = encode ((points s).map pointChar) := by
  rw [toBytes, encode, List.flatMap_map]
  refine List.flatMap_congr fun n _ => ?_
  unfold pointBytes pointChar
  split <;> rfl

theorem zero_notMem_encodeChar {c : Char} (hc : c.toNat ≠ 0) : (0 : UInt8) ∉ encodeChar c := by
  intro hzero
  by_cases hascii : c.toNat < 0x80
  · rw [encodeChar] at hzero
    simp only [hascii, if_true, List.mem_singleton] at hzero
    have hnat := congrArg UInt8.toNat hzero
    rw [toNat_ofNat_lt (by omega)] at hnat
    exact hc hnat.symm
  · have hle := le_encodeChar (Nat.not_lt.mp hascii) 0 hzero
    exact absurd hle (by decide)

theorem encodeChar_zero {c : Char} (hc : c.toNat = 0) : encodeChar c = [0] := by
  simp [encodeChar, hc]

/-- The bytes end where the text has its first U+0000. -/
theorem takeWhile_encode (t : List Char) :
    (encode t).takeWhile (· != 0) = encode (t.takeWhile fun c => c.toNat != 0) := by
  induction t with
  | nil => rfl
  | cons c t ih =>
      have hcons : encode (c :: t) = encodeChar c ++ encode t := rfl
      by_cases hc : c.toNat = 0
      · rw [hcons, encodeChar_zero hc, List.takeWhile_cons_of_neg (by simp [hc])]
        rfl
      · have hall : ∀ b ∈ encodeChar c, (b != 0) = true := by
          intro b hb
          rw [bne_iff_ne]
          rintro rfl
          exact zero_notMem_encodeChar hc hb
        rw [hcons, List.takeWhile_append_of_pos hall, ih,
          List.takeWhile_cons_of_pos (by simpa using hc)]
        rfl

/-- What comes back is a text without U+0000. -/
theorem cString_eq (s : List CodeUnit) :
    cString s = utf16 (((points s).map pointChar).takeWhile fun c => c.toNat != 0) := by
  rw [cString, cBytes, toBytes_eq_encode, takeWhile_encode, decode_encode]

theorem cString_utf16 (ht : ∀ c ∈ t, c.toNat ≠ 0) : cString (utf16 t) = utf16 t := by
  have hall : ∀ c ∈ t, (c.toNat != 0) = true := fun c hc => bne_iff_ne.mpr (ht c hc)
  rw [cString, cBytes, toBytes_utf16, takeWhile_encode, List.takeWhile_eq_self_iff.mpr hall,
    decode_encode]

/-- A string comes back as it went exactly when it is a text without U+0000. -/
theorem cString_eq_self_iff : cString s = s ↔ ∃ t, s = utf16 t ∧ ∀ c ∈ t, c.toNat ≠ 0 := by
  constructor
  · intro h
    refine ⟨_, h.symm.trans (cString_eq s), fun c hc => ?_⟩
    have hkept : (c.toNat != 0) = true := List.mem_takeWhile_imp (p := fun c : Char => c.toNat != 0) hc
    exact bne_iff_ne.mp hkept
  · rintro ⟨t, rfl, ht⟩
    exact cString_utf16 ht

end Utf8
