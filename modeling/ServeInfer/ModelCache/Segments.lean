import Mathlib.Algebra.Order.Ring.Int
import Mathlib.Data.List.Basic
import Mathlib.Logic.Function.Basic

/-!
# The two shared-memory segments

The metadata header and the weights, as POSIX shared-memory objects: a name
leads to an object until it is unlinked, and an object outlives its name as
long as a process has it open or mapped. The model cache's program and a
worker's attaching are given step by step, one system call or header store each.
-/

namespace ServeInfer.ModelCache

/-- `SharedModelHeader`; `magic` is empty when its bytes are zero. -/
structure Header where
  magic : String := ""
  modelSize : ℕ := 0
  checksum : UInt64 := 0
  loadedAt : ℤ := 0
  version : ℕ := 0
  ready : ℕ := 0
  runNonce : ℕ := 0
  deriving DecidableEq, Repr

def sharedModelHeaderVersion : ℕ := 2

inductive ModelReadyState
  | malformed
  | foreignRun
  | notReady
  | ready
  deriving DecidableEq, Repr

/-- `evaluateModelHeader`; `none` when there are not enough bytes for a header. -/
def evaluateModelHeader (header : Option Header) (expectedNonce : ℕ) : ModelReadyState :=
  match header with
  | none => .malformed
  | some header =>
      if expectedNonce = 0 then .malformed
      else if header.magic ≠ "EDGE" then .malformed
      else if header.runNonce ≠ expectedNonce then .foreignRun
      else if header.ready = 1 then .ready
      else .notReady

/-- The objects by number, the numbers given out so far, and the two names. A metadata object
without a header has size 0. -/
structure Shm where
  metas : ℕ → Option Header := fun _ => none
  weights : ℕ → List UInt8 := fun _ => []
  nextMeta : ℕ := 0
  nextWeights : ℕ := 0
  metaName : Option ℕ := none
  weightsName : Option ℕ := none

namespace Shm

/-- What an earlier run may have left under the two names. -/
def leftover (header : Option (Option Header)) (weights : Option (List UInt8)) : Shm where
  metas := fun _ => header.getD none
  weights := fun _ => weights.getD []
  nextMeta := 1
  nextWeights := 1
  metaName := header.map fun _ => 0
  weightsName := weights.map fun _ => 0

/-- The metadata object that the name leads to. -/
def header (shm : Shm) : Option Header := shm.metaName.bind shm.metas

/-- `shm_open(metaName, O_CREAT | O_RDWR)`. -/
def openMeta (shm : Shm) : ℕ × Shm :=
  match shm.metaName with
  | some m => (m, shm)
  | none =>
      (shm.nextMeta, { shm with
        metas := Function.update shm.metas shm.nextMeta none
        nextMeta := shm.nextMeta + 1
        metaName := some shm.nextMeta })

/-- `shm_open(shmName, O_CREAT | O_RDWR)`. -/
def openWeights (shm : Shm) : ℕ × Shm :=
  match shm.weightsName with
  | some o => (o, shm)
  | none =>
      (shm.nextWeights, { shm with
        weights := Function.update shm.weights shm.nextWeights []
        nextWeights := shm.nextWeights + 1
        weightsName := some shm.nextWeights })

def setMeta (shm : Shm) (m : ℕ) (header : Option Header) : Shm :=
  { shm with metas := Function.update shm.metas m header }

def setWeights (shm : Shm) (o : ℕ) (bytes : List UInt8) : Shm :=
  { shm with weights := Function.update shm.weights o bytes }

end Shm

def fnvOffsetBasis : UInt64 := 14695981039346656037

def fnvPrime : UInt64 := 1099511628211

def updateChecksum (seed : UInt64) (data : List UInt8) : UInt64 :=
  data.foldl (fun hash byte => (hash ^^^ byte.toUInt64) * fnvPrime) seed

/-- The stores into single header fields, those of `claimHeader` first. -/
inductive Store
  | magic
  | version
  | runNonce
  | notReady
  | modelSize
  | checksum
  | loadedAt
  | ready
  deriving DecidableEq, Repr

/-- The model cache's program, with the program points of its cleanup. -/
inductive CachePoint
  | openModel
  | openMeta
  | sizeMeta
  | clearHeader
  | store (field : Store)
  | openWeights
  | sizeWeights
  | zeroWeights
  | copy
  | sync
  | serving
  | unlinkWeights
  | unlinkMeta
  | gone
  deriving DecidableEq, Repr

/-- A model cache process. -/
structure Cache where
  point : CachePoint := .openModel
  metaFd : Option ℕ := none
  shmFd : Option ℕ := none
  written : ℕ := 0
  checksum : UInt64 := fnvOffsetBasis
  deriving DecidableEq, Repr

namespace Cache

def enter (k : Cache) (point : CachePoint) : Cache := { k with point := point }

/-- The header with one field stored. -/
def stored (k : Cache) (model : List UInt8) (runNonce : ℕ) (now : ℤ) (field : Store)
    (h : Header) : Header :=
  match field with
  | .magic => { h with magic := "EDGE" }
  | .version => { h with version := sharedModelHeaderVersion }
  | .runNonce => { h with runNonce := runNonce }
  | .notReady => { h with ready := 0 }
  | .modelSize => { h with modelSize := model.length }
  | .checksum => { h with checksum := k.checksum }
  | .loadedAt => { h with loadedAt := now }
  | .ready => { h with ready := 1 }

/-- The program point behind a store. -/
def afterStore : Store → CachePoint
  | .magic => .store .version
  | .version => .store .runNonce
  | .runNonce => .store .notReady
  | .notReady => .openWeights
  | .modelSize => .copy
  | .checksum => .store .loadedAt
  | .loadedAt => .store .ready
  | .ready => .sync

/-- The object that the process has open for the weights and is about to change. -/
def touches (k : Cache) (model : List UInt8) : Option ℕ :=
  match k.point with
  | .sizeWeights => k.shmFd
  | .zeroWeights => k.shmFd
  | .copy => if k.written < model.length then k.shmFd else none
  | _ => none

/-- One step. `n` is what `read` returns in the copy loop, which asks for at most a megabyte;
a model cache that serves waits for a signal. -/
def step (k : Cache) (model : List UInt8) (runNonce n : ℕ) (now : ℤ) (shm : Shm) :
    Option (Cache × Shm) :=
  match k.point, k.metaFd, k.shmFd with
  | .openModel, _, _ =>
      some (k.enter (if model.length = 0 then .unlinkWeights else .openMeta), shm)
  | .openMeta, _, _ =>
      let (m, shm) := shm.openMeta
      some ({ k.enter .sizeMeta with metaFd := some m }, shm)
  | .sizeMeta, some m, _ =>
      some (k.enter .clearHeader, shm.setMeta m (some ((shm.metas m).getD {})))
  | .clearHeader, some m, _ => some (k.enter (.store .magic), shm.setMeta m (some {}))
  | .store field, some m, _ =>
      some (k.enter (afterStore field),
        shm.setMeta m ((shm.metas m).map (k.stored model runNonce now field)))
  | .openWeights, _, _ =>
      let (o, shm) := shm.openWeights
      some ({ k.enter .sizeWeights with shmFd := some o }, shm)
  | .sizeWeights, _, some o =>
      let bytes := (shm.weights o).take model.length
      some (k.enter .zeroWeights,
        shm.setWeights o (bytes ++ List.replicate (model.length - bytes.length) 0))
  | .zeroWeights, _, some o =>
      some (k.enter (.store .modelSize), shm.setWeights o (List.replicate model.length 0))
  | .copy, _, some o =>
      if k.written < model.length then
        let chunk := (model.drop k.written).take n
        if 0 < n ∧ n ≤ min (2 ^ 20) (model.length - k.written) then
          some ({ k with
              written := k.written + n
              checksum := updateChecksum k.checksum chunk },
            shm.setWeights o ((shm.weights o).take k.written ++ chunk ++
              (shm.weights o).drop (k.written + n)))
        else none
      else some (k.enter (.store .checksum), shm)
  | .sync, _, _ => some (k.enter .serving, shm)
  | .unlinkWeights, _, _ => some (k.enter .unlinkMeta, { shm with weightsName := none })
  | .unlinkMeta, _, _ => some (k.enter .gone, { shm with metaName := none })
  | _, _, _ => none

/-- A failing call (`open`, `shm_open`, `ftruncate`, `mmap`, `read`, `msync`) ends `initialize`,
a signal ends the serving; either way the destructor cleans up. -/
def fails (k : Cache) : Option Cache :=
  match k.point with
  | .store _ => none
  | .unlinkWeights => none
  | .unlinkMeta => none
  | .gone => none
  | _ => some (k.enter .unlinkWeights)

end Cache

/-- How far a worker process has come in `attachSharedMemory`. -/
inductive Reader
  | openMeta
  | readHeader (m : ℕ)
  | readSize (m : ℕ)
  | openWeights (modelSize : ℕ)
  | statWeights (modelSize o : ℕ)
  | mapWeights (o : ℕ)
  | attached (o : ℕ)
  | failed
  deriving DecidableEq, Repr

/-- `validHeader`. -/
def Header.valid (h : Header) : Bool := h.magic = "EDGE" && h.ready = 1 && 0 < h.modelSize

namespace Reader

/-- One step. Reading a header that is not there is a bus error, which is no step. -/
def step (shm : Shm) : Reader → Option Reader
  | .openMeta =>
      match shm.metaName with
      | none => some .failed
      | some m => some (.readHeader m)
  | .readHeader m => (shm.metas m).map fun h => if h.valid then .readSize m else .failed
  | .readSize m => (shm.metas m).map fun h => .openWeights h.modelSize
  | .openWeights modelSize =>
      match shm.weightsName with
      | none => some .failed
      | some o => some (.statWeights modelSize o)
  | .statWeights modelSize o =>
      if (shm.weights o).length = 0 ∨ (shm.weights o).length ≠ modelSize then some .failed
      else some (.mapWeights o)
  | .mapWeights o => some (.attached o)
  | .attached _ => none
  | .failed => none

/-- A failing call before the weights are mapped. -/
def fails : Reader → Option Reader
  | .attached _ => none
  | _ => some .failed

/-- The process is attaching and goes by a header that says ready. -/
def attaching (shm : Shm) : Reader → Bool
  | .readHeader m => (shm.metas m).any Header.valid
  | .readSize _ => true
  | .openWeights _ => true
  | .statWeights _ _ => true
  | .mapWeights _ => true
  | _ => false

end Reader

end ServeInfer.ModelCache
