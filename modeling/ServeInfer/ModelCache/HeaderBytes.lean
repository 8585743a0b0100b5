import ServeInfer.Lib.Memory
import ServeInfer.ModelCache.Segments

/-!
# The bytes of the metadata header

The header at its offsets in the segment, as the stores write it and as the
supervisor's poll judges it, and the header record that it stands for.
-/

namespace ServeInfer.ModelCache

open Memory

/-- `sizeof(SharedModelHeader)`. -/
def headerSize : ℕ := 256

/-- `"EDGE"`. -/
def edge : List UInt8 := [0x45, 0x44, 0x47, 0x45]

namespace Store

/-- `offsetof` the field. -/
def offset : Store → ℕ
  | .magic => 0
  | .modelSize => 8
  | .checksum => 16
  | .loadedAt => 24
  | .version => 32
  | .notReady => 36
  | .ready => 36
  | .runNonce => 40

/-- How many bytes are stored. -/
def width : Store → ℕ
  | .magic => 4
  | .modelSize => 8
  | .checksum => 8
  | .loadedAt => 8
  | .version => 4
  | .notReady => 1
  | .ready => 1
  | .runNonce => 8

/-- The bytes that are stored. -/
def bytes (model : List UInt8) (runNonce checksum : UInt64) (now : ℤ) : Store → List UInt8
  | .magic => edge
  | .modelSize => littleEndian 8 model.length
  | .checksum => littleEndian 8 checksum.toNat
  | .loadedAt => littleEndian 8 (now % 2 ^ 64).toNat
  | .version => littleEndian 4 sharedModelHeaderVersion
  | .notReady => littleEndian 1 0
  | .ready => littleEndian 1 1
  | .runNonce => littleEndian 8 runNonce.toNat

end Store

/-- A field's bytes in the segment. -/
def fieldBytes (bytes : List UInt8) (field : Store) : List UInt8 :=
  load bytes field.offset field.width

/-- `evaluateModelHeader`, over the bytes that are mapped. -/
def evaluateModelHeaderBytes (bytes : List UInt8) (expectedNonce : UInt64) : ModelReadyState :=
  if bytes.length < headerSize ∨ expectedNonce = 0 then .malformed
  else if fieldBytes bytes .magic ≠ edge then .malformed
  else if ofLittleEndian (fieldBytes bytes .runNonce) ≠ expectedNonce.toNat then .foreignRun
  else if ofLittleEndian (fieldBytes bytes .ready) = 1 then .ready
  else .notReady

/-- The header record that the bytes stand for. -/
def Header.ofBytes (bytes : List UInt8) : Header where
  magic := if fieldBytes bytes .magic = edge then "EDGE" else ""
  modelSize := ofLittleEndian (fieldBytes bytes .modelSize)
  checksum := UInt64.ofNat (ofLittleEndian (fieldBytes bytes .checksum))
  loadedAt := (ofLittleEndian (fieldBytes bytes .loadedAt) : ℤ).bmod (2 ^ 64)
  version := ofLittleEndian (fieldBytes bytes .version)
  ready := ofLittleEndian (fieldBytes bytes .ready)
  runNonce := ofLittleEndian (fieldBytes bytes .runNonce)

/-- The header in a segment, if the segment has the size for one. -/
def header? (bytes : List UInt8) : Option Header :=
  if bytes.length < headerSize then none else some (Header.ofBytes bytes)

variable {bytes model : List UInt8} {runNonce checksum expectedNonce : UInt64} {now : ℤ}

/-- Judging the bytes is judging the record. -/
theorem evaluateModelHeader_header? :
    evaluateModelHeader (header? bytes) expectedNonce.toNat =
      evaluateModelHeaderBytes bytes expectedNonce := by
  have hzero : expectedNonce.toNat = 0 ↔ expectedNonce = 0 := by
    rw [← UInt64.toNat_inj, UInt64.toNat_zero]
  by_cases hsize : bytes.length < headerSize
  · simp only [header?, hsize, evaluateModelHeader, evaluateModelHeaderBytes, if_true, true_or]
  · by_cases hedge : fieldBytes bytes .magic = edge
    · simp only [header?, hsize, evaluateModelHeader, evaluateModelHeaderBytes, Header.ofBytes,
        if_false, false_or, hzero, hedge, if_true, ne_eq, not_true_eq_false]
    · have hmagic : ("" : String) ≠ "EDGE" := by decide
      simp only [header?, hsize, evaluateModelHeader, evaluateModelHeaderBytes, Header.ofBytes,
        if_false, false_or, hzero, hedge, ne_eq, not_false_eq_true, hmagic, if_true]

namespace Store

@[simp] theorem length_bytes (field : Store) :
    (field.bytes model runNonce checksum now).length = field.width := by
  cases field with
  | magic => rfl
  | _ => exact length_littleEndian ..

/-- Every field lies within the header. -/
theorem offset_add_width_le (field : Store) : field.offset + field.width ≤ headerSize := by
  cases field <;> decide

/-- Two fields are the same or do not overlap. -/
theorem disjoint (f g : Store) :
    (g.offset = f.offset ∧ g.width = f.width) ∨ g.offset + g.width ≤ f.offset ∨
      f.offset + f.width ≤ g.offset := by
  cases f <;> cases g <;> decide

end Store

/-- The bytes with one field stored. -/
def storeField (bytes model : List UInt8) (runNonce checksum : UInt64) (now : ℤ) (field : Store) :
    List UInt8 :=
  store bytes field.offset (field.bytes model runNonce checksum now)

theorem length_storeField (field : Store) (hsize : headerSize ≤ bytes.length) :
    (storeField bytes model runNonce checksum now field).length = bytes.length := by
  apply length_store
  rw [Store.length_bytes]
  exact field.offset_add_width_le.trans hsize

/-- A store changes its own field's bytes alone. -/
theorem fieldBytes_storeField (f g : Store) (hsize : headerSize ≤ bytes.length) :
    fieldBytes (storeField bytes model runNonce checksum now f) g =
      if g.offset = f.offset then f.bytes model runNonce checksum now else fieldBytes bytes g := by
  have hfit : f.offset + (f.bytes model runNonce checksum now).length ≤ bytes.length := by
    rw [Store.length_bytes]
    exact f.offset_add_width_le.trans hsize
  have hstored := load_store hfit
  rw [Store.length_bytes] at hstored
  split
  · rename_i hsame
    have hwidth : g.width = f.width := by
      cases f <;> cases g <;> first | rfl | cases hsame
    rw [fieldBytes, storeField, hsame, hwidth, hstored]
  · rename_i hother
    apply load_store_disjoint hfit
    rw [Store.length_bytes]
    exact (f.disjoint g).resolve_left fun h => hother h.1

/-- A store into the bytes is the store into the record. -/
theorem Header.ofBytes_storeField (field : Store) (k : Cache) (hsize : headerSize ≤ bytes.length)
    (hmodel : model.length < 2 ^ 64) (hlow : -2 ^ 63 ≤ now) (hhigh : now < 2 ^ 63) :
    Header.ofBytes (storeField bytes model runNonce k.checksum now field) =
      k.stored model runNonce.toNat now field (Header.ofBytes bytes) := by
  have hwide (v : ℕ) (h : v < 2 ^ 64) : ofLittleEndian (littleEndian 8 v) = v := by
    rw [ofLittleEndian_littleEndian]
    exact Nat.mod_eq_of_lt h
  have hnonce := hwide _ runNonce.toNat_lt
  have hchecksum := hwide _ k.checksum.toNat_lt
  have hloadedAt : (ofLittleEndian (littleEndian 8 (now % 2 ^ 64).toNat) : ℤ).bmod (2 ^ 64) =
      now := by
    rw [hwide _ (by omega), Int.toNat_of_nonneg (by omega)]
    calc
      (now % 2 ^ 64).bmod (2 ^ 64) = now.bmod (2 ^ 64) := Int.emod_bmod ..
      _ = now := Int.bmod_eq_of_le (by omega) (by omega)
  have hversion : ofLittleEndian (littleEndian 4 sharedModelHeaderVersion) =
      sharedModelHeaderVersion := by decide
  unfold Header.ofBytes
  cases field with
  | magic => simp [fieldBytes_storeField, hsize, Store.offset, Store.bytes, Cache.stored]
  | version => simp [fieldBytes_storeField, hsize, Store.offset, Store.bytes, Cache.stored, hversion]
  | runNonce => simp [fieldBytes_storeField, hsize, Store.offset, Store.bytes, Cache.stored, hnonce]
  | notReady => simp [fieldBytes_storeField, hsize, Store.offset, Store.bytes, Cache.stored]; decide
  | modelSize =>
      simp [fieldBytes_storeField, hsize, Store.offset, Store.bytes, Cache.stored, hwide _ hmodel]
  | checksum => simp [fieldBytes_storeField, hsize, Store.offset, Store.bytes, Cache.stored, hchecksum]
  | loadedAt =>
      simpa [fieldBytes_storeField, hsize, Store.offset, Store.bytes, Cache.stored] using hloadedAt
  | ready => simp [fieldBytes_storeField, hsize, Store.offset, Store.bytes, Cache.stored]; decide

end ServeInfer.ModelCache
