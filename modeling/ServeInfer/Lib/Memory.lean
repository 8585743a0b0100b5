import Mathlib.Algebra.Order.Ring.Int
import Mathlib.Data.List.Basic
import Mathlib.Tactic.Ring

/-!
# Bytes in memory

A region of memory is a list of bytes. A load takes the bytes at an offset, a
store replaces them; a number lies in memory with its lowest byte first.
-/

namespace Memory

/-- The bytes from an offset on. -/
def load (mem : List UInt8) (offset width : ℕ) : List UInt8 := (mem.drop offset).take width

/-- The region with other bytes from an offset on. -/
def store (mem : List UInt8) (offset : ℕ) (bytes : List UInt8) : List UInt8 :=
  mem.take offset ++ bytes ++ mem.drop (offset + bytes.length)

/-- The region cut to a size, or filled up with zeros to it. -/
def resize (mem : List UInt8) (size : ℕ) : List UInt8 :=
  mem.take size ++ List.replicate (size - mem.length) 0

/-- The low bytes of a number. -/
def littleEndian : ℕ → ℕ → List UInt8
  | 0, _ => []
  | width + 1, v => UInt8.ofNat v :: littleEndian width (v / 256)

/-- The number that bytes stand for. -/
def ofLittleEndian : List UInt8 → ℕ
  | [] => 0
  | b :: bytes => b.toNat + 256 * ofLittleEndian bytes

variable {mem bytes : List UInt8} {offset i width size : ℕ}

@[simp] theorem length_littleEndian (width v : ℕ) : (littleEndian width v).length = width := by
  induction width generalizing v with
  | zero => rfl
  | succ width ih => rw [littleEndian, List.length_cons, ih]

/-- What is read back is what its width leaves of a number. -/
theorem ofLittleEndian_littleEndian (width v : ℕ) :
    ofLittleEndian (littleEndian width v) = v % 256 ^ width := by
  induction width generalizing v with
  | zero => rw [littleEndian, ofLittleEndian, pow_zero, Nat.mod_one]
  | succ width ih =>
      calc
        ofLittleEndian (littleEndian (width + 1) v) =
            (UInt8.ofNat v).toNat + 256 * ofLittleEndian (littleEndian width (v / 256)) := rfl
        _ = v % 256 + 256 * (v / 256 % 256 ^ width) := by rw [ih, UInt8.toNat_ofNat']
        _ = v % (256 * 256 ^ width) := (Nat.mod_mul ..).symm
        _ = v % 256 ^ (width + 1) := by rw [pow_succ']

@[simp] theorem ofLittleEndian_zeros (n : ℕ) : ofLittleEndian (List.replicate n 0) = 0 := by
  induction n with
  | zero => rfl
  | succ n ih => rw [List.replicate_succ, ofLittleEndian, ih]; rfl

@[simp] theorem length_resize : (resize mem size).length = size := by
  rw [resize, List.length_append, List.length_take, List.length_replicate]
  omega

/-- A region that is large enough keeps its front. -/
theorem load_resize (h : size ≤ mem.length) (hi : i + width ≤ size) :
    load (resize mem size) i width = load mem i width := by
  rw [resize, Nat.sub_eq_zero_of_le h, List.replicate_zero, List.append_nil, load, List.drop_take,
    List.take_take, Nat.min_eq_left (by omega), load]

section Store

variable (hfit : offset + bytes.length ≤ mem.length)

include hfit

theorem length_store : (store mem offset bytes).length = mem.length := by
  rw [store, List.length_append, List.length_append, List.length_take, List.length_drop]
  omega

/-- What was stored is what is loaded. -/
theorem load_store : load (store mem offset bytes) offset bytes.length = bytes := by
  have hfront : (mem.take offset).length = offset := List.length_take_of_le (by omega)
  rw [load, store, List.append_assoc, List.drop_left' hfront, List.take_left]

/-- Bytes beside the stored ones stay. -/
theorem load_store_disjoint (h : i + width ≤ offset ∨ offset + bytes.length ≤ i) :
    load (store mem offset bytes) i width = load mem i width := by
  have hfront : (mem.take offset).length = offset := List.length_take_of_le (by omega)
  apply List.ext_getElem?
  intro j
  simp only [load, List.getElem?_take, List.getElem?_drop, store]
  split
  · rcases h with hbefore | hbehind
    · rw [List.append_assoc, List.getElem?_append_left (by omega), List.getElem?_take,
        if_pos (by omega)]
    · have hlen : (mem.take offset ++ bytes).length = offset + bytes.length := by
        rw [List.length_append, hfront]
      rw [List.getElem?_append_right (by omega), hlen, List.getElem?_drop]
      congr 1
      omega
  · rfl

end Store

/-- In a region of zeros there are only zeros. -/
theorem load_zeros (h : i + width ≤ size) :
    load (List.replicate size 0) i width = List.replicate width 0 := by
  rw [load, List.drop_replicate, List.take_replicate, Nat.min_eq_left (by omega)]

end Memory
