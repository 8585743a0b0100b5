import ServeInfer.Lib.Fnv
import ServeInfer.ModelCache.Handshake

/-!
# The copy loop

`loadModelIntoSharedMemory` over whatever its reads return: short pieces, interrupts, an error
or an early end of the file. The segments are kept as they were before each store, so that it
can be said in which of them the header says ready.
-/

namespace ServeInfer.ModelCache

/-- What one `read` of the model file comes to. -/
inductive FileRead
  | bytes (n : ℕ)
  | interrupted
  | error
  | endOfFile
  deriving DecidableEq, Repr

/-- How `loadModelIntoSharedMemory` ends, by what it logs. -/
inductive LoadEnd
  | readFailed
  | unexpectedEof
  | msyncFailed
  | metaMsyncFailed
  | loaded
  deriving DecidableEq, Repr

/-- Its result. -/
def LoadEnd.ok (e : LoadEnd) : Bool := e = .loaded

/-- The two segments as they are mapped. -/
structure Mapped where
  header : Header
  weights : List UInt8
  deriving DecidableEq, Repr

/-- The zeroed header with the fields of `claimHeader`. -/
def claimHeader (runNonce : ℕ) : Header where
  magic := "EDGE"
  version := sharedModelHeaderVersion
  runNonce := runNonce
  ready := 0

/-- What `createSharedMemory` leaves. -/
def createSharedMemory (runNonce modelSize : ℕ) : Mapped where
  header := claimHeader runNonce
  weights := List.replicate modelSize 0

/-- The segments, what they were before each store, the descriptor's offset in the file and the
variables of the loop. -/
structure LoadState where
  mapped : Mapped
  past : List Mapped := []
  offset : ℕ := 0
  written : ℕ := 0
  checksum : UInt64 := fnvOffsetBasis
  deriving DecidableEq, Repr

namespace LoadState

def store (s : LoadState) (mapped : Mapped) : LoadState :=
  { s with
    mapped := mapped
    past := s.past ++ [s.mapped] }

def storeHeader (s : LoadState) (f : Header → Header) : LoadState :=
  s.store { s.mapped with header := f s.mapped.header }

/-- The bytes of the buffer have been copied, summed and counted. -/
def take (s : LoadState) (buffer : List UInt8) : LoadState :=
  { s.store { s.mapped with weights := Memory.store s.mapped.weights s.written buffer } with
    offset := s.offset + buffer.length
    written := s.written + buffer.length
    checksum := updateChecksum s.checksum buffer }

end LoadState

/-- The loop, with its failure if it has one; `none` while it waits for a read, and for a read of
more than was asked for or than the file has. -/
def copyLoop (file : List UInt8) (modelSize : ℕ) :
    List FileRead → LoadState → Option (Option LoadEnd × LoadState)
  | [], s => if s.written < modelSize then none else some (none, s)
  | result :: reads, s =>
      if s.written < modelSize then
        let need := min (2 ^ 20) (modelSize - s.written)
        match result with
        | .interrupted => copyLoop file modelSize reads s
        | .error => some (some .readFailed, s)
        | .endOfFile => some (some .unexpectedEof, s)
        | .bytes n =>
            let buffer := (file.drop s.offset).take n
            if 0 < n ∧ n ≤ need ∧ buffer.length = n then
              copyLoop file modelSize reads (s.take buffer)
            else none
      else some (none, s)

/-- The stores behind the loop; ready is the last of them. -/
def LoadState.publish (s : LoadState) (now : ℤ) : LoadState :=
  ((s.storeHeader fun h => { h with checksum := s.checksum }).storeHeader
    fun h => { h with loadedAt := now }).storeHeader fun h => { h with ready := 1 }

/-- The end of a load whose copy is done, by the two `msync` calls. -/
def syncEnd (weightsSynced metaSynced : Bool) : LoadEnd :=
  if !weightsSynced then .msyncFailed
  else if !metaSynced then .metaMsyncFailed
  else .loaded

/-- `loadModelIntoSharedMemory`, with what its reads and the two `msync` calls come to. -/
def loadModelIntoSharedMemory (file : List UInt8) (modelSize : ℕ) (reads : List FileRead) (now : ℤ)
    (weightsSynced metaSynced : Bool) (mapped : Mapped) : Option (LoadEnd × LoadState) :=
  let s := ({ mapped := mapped } : LoadState).storeHeader fun h => { h with modelSize := modelSize }
  (copyLoop file modelSize reads s).map fun out =>
    match out with
    | (some failure, s) => (failure, s)
    | (none, s) => (syncEnd weightsSynced metaSynced, s.publish now)

/-- The segments hold the file, its size and its FNV-1a hash. -/
structure Mapped.IsCopy (file : List UInt8) (m : Mapped) : Prop where
  weights : m.weights = file
  modelSize : m.header.modelSize = file.length
  checksum : m.header.checksum.toNat = Fnv.fnv1a file

/-- What a load leaves: the whole file and ready where it succeeds, not ready where the copy fails;
ready is never shown before the last store, and never over anything but the whole file. -/
structure LoadSound (file : List UInt8) (out : LoadEnd × LoadState) : Prop where
  loaded : out.1.ok = true → out.2.mapped.IsCopy file ∧ out.2.mapped.header.ready = 1
  failed : out.1 = .readFailed ∨ out.1 = .unexpectedEof → out.2.mapped.header.ready = 0
  past : ∀ m ∈ out.2.past, m.header.ready = 0
  whole : out.2.mapped.header.ready ≠ 0 → out.2.mapped.IsCopy file

variable {file : List UInt8} {s s' : LoadState} {reads : List FileRead}
  {failure : Option LoadEnd}

/-- The sum of two pieces is that of the one piece they make. -/
theorem updateChecksum_append (seed : UInt64) (front back : List UInt8) :
    updateChecksum seed (front ++ back) = updateChecksum (updateChecksum seed front) back :=
  List.foldl_append ..

/-- The sum of a whole file is its hash. -/
theorem toNat_updateChecksum (file : List UInt8) :
    (updateChecksum fnvOffsetBasis file).toNat = Fnv.fnv1a file := by
  apply Fnv.toNat_foldl
  intro hash byte
  rw [UInt64.toNat_mul, UInt64.toNat_xor, UInt8.toNat_toUInt64]
  rfl

namespace LoadState

/-- Between two reads the front of the file is copied and summed, and the header says that the
model is not ready. -/
structure Copying (file : List UInt8) (s : LoadState) : Prop where
  length : s.mapped.weights.length = file.length
  le : s.written ≤ file.length
  offset : s.offset = s.written
  front : s.mapped.weights.take s.written = file.take s.written
  checksum : s.checksum = updateChecksum fnvOffsetBasis (file.take s.written)
  modelSize : s.mapped.header.modelSize = file.length
  unready : s.mapped.header.ready = 0
  past : ∀ m ∈ s.past, m.header.ready = 0

/-- A state that has been left joins the past. -/
theorem past_left (hpast : ∀ m ∈ s.past, m.header.ready = 0)
    (hready : s.mapped.header.ready = 0) : ∀ m ∈ s.past ++ [s.mapped], m.header.ready = 0 := by
  intro m hm
  rcases List.mem_append.mp hm with hm | hm
  · exact hpast m hm
  · exact List.mem_singleton.mp hm ▸ hready

/-- One read adds its piece. -/
theorem Copying.take {n : ℕ} (h : s.Copying file) (hn : s.written + n ≤ file.length) :
    (s.take ((file.drop s.offset).take n)).Copying file := by
  have hchunk : ((file.drop s.written).take n).length = n := by
    rw [List.length_take, List.length_drop]
    omega
  obtain ⟨hlength, hfront⟩ := copied_chunk h.length hn h.front
  rw [h.offset]
  unfold LoadState.take
  constructor
  · simpa only [store, Memory.store, hchunk] using hlength
  · rw [hchunk]
    exact hn
  · exact congrArg (· + _) h.offset
  · simpa only [store, Memory.store, hchunk] using hfront
  · calc
      updateChecksum s.checksum ((file.drop s.written).take n) =
          updateChecksum fnvOffsetBasis (file.take s.written ++ (file.drop s.written).take n) := by
        rw [updateChecksum_append, h.checksum]
      _ = updateChecksum fnvOffsetBasis (file.take (s.written + n)) := by rw [List.take_add]
      _ = _ := by rw [hchunk]
  · exact h.modelSize
  · exact h.unready
  · exact past_left h.past h.unready

end LoadState

/-- The loop has two ways to fail. -/
theorem copyLoop_failure {e : LoadEnd} {modelSize : ℕ}
    (hrun : copyLoop file modelSize reads s = some (some e, s')) :
    (e = .readFailed ∨ e = .unexpectedEof) ∧ e.ok = false := by
  induction reads generalizing s with
  | nil =>
      rw [copyLoop] at hrun
      split at hrun <;> cases hrun
  | cons result reads ih =>
      rw [copyLoop] at hrun
      split at hrun
      · cases result with
        | interrupted => exact ih hrun
        | error =>
            cases hrun
            exact ⟨.inl rfl, rfl⟩
        | endOfFile =>
            cases hrun
            exact ⟨.inr rfl, rfl⟩
        | bytes n =>
            dsimp only at hrun
            split at hrun
            · exact ih hrun
            · cases hrun
      · cases hrun

/-- However the reads split the file, the loop keeps to its front, and where it does not fail it
ends with all of it. -/
theorem copying_copyLoop (h : s.Copying file)
    (hrun : copyLoop file file.length reads s = some (failure, s')) :
    s'.Copying file ∧ (failure = none → s'.written = file.length) := by
  have hdone : ∀ {s : LoadState}, s.Copying file → ¬ s.written < file.length →
      s.written = file.length := by
    intro s hs hle
    have hat := hs.le
    omega
  induction reads generalizing s with
  | nil =>
      rw [copyLoop] at hrun
      split at hrun
      · cases hrun
      · rename_i hle
        cases hrun
        exact ⟨h, fun _ => hdone h hle⟩
  | cons result reads ih =>
      rw [copyLoop] at hrun
      split at hrun
      · cases result with
        | interrupted => exact ih h hrun
        | error =>
            cases hrun
            exact ⟨h, by simp⟩
        | endOfFile =>
            cases hrun
            exact ⟨h, by simp⟩
        | bytes n =>
            dsimp only at hrun
            split at hrun
            · rename_i hn
              exact ih (h.take (by omega)) hrun
            · cases hrun
      · rename_i hle
        cases hrun
        exact ⟨h, fun _ => hdone h hle⟩

theorem copying_start (runNonce : ℕ) (file : List UInt8) :
    (({ mapped := createSharedMemory runNonce file.length } : LoadState).storeHeader
      fun h => { h with modelSize := file.length }).Copying file := by
  constructor
  · exact List.length_replicate ..
  · exact Nat.zero_le _
  · rfl
  · rfl
  · rfl
  · rfl
  · rfl
  · exact LoadState.past_left (s := { mapped := createSharedMemory runNonce file.length })
      (by simp) rfl

/-- Behind the loop no end is one of its failures. -/
theorem syncEnd_copied (weightsSynced metaSynced : Bool) :
    ¬ (syncEnd weightsSynced metaSynced = .readFailed ∨
      syncEnd weightsSynced metaSynced = .unexpectedEof) := by
  cases weightsSynced <;> cases metaSynced <;> decide

/-- For every file, and however its reads are split, interrupted or broken off, a load leaves what
it should. -/
theorem load_sound (file : List UInt8) (runNonce : ℕ) (reads : List FileRead) (now : ℤ)
    (weightsSynced metaSynced : Bool) {out : LoadEnd × LoadState}
    (hrun : loadModelIntoSharedMemory file file.length reads now weightsSynced metaSynced
      (createSharedMemory runNonce file.length) = some out) : LoadSound file out := by
  unfold loadModelIntoSharedMemory at hrun
  obtain ⟨⟨failure, s⟩, hloop, rfl⟩ := Option.map_eq_some_iff.mp hrun
  obtain ⟨hs, hall⟩ := copying_copyLoop (copying_start runNonce file) hloop
  cases failure with
  | some e =>
      obtain ⟨-, hne⟩ := copyLoop_failure hloop
      dsimp only
      constructor
      · intro hok
        rw [hne] at hok
        cases hok
      · exact fun _ => hs.unready
      · exact hs.past
      · exact fun hready => absurd hs.unready hready
  | none =>
      have hwhole : s.written = file.length := hall rfl
      have hcopy : (s.publish now).mapped.IsCopy file := by
        constructor
        · calc
            s.mapped.weights = s.mapped.weights.take s.written := by
              rw [hwhole, ← hs.length, List.take_length]
            _ = file.take s.written := hs.front
            _ = file := by rw [hwhole, List.take_length]
        · exact hs.modelSize
        · have hsum : s.checksum = updateChecksum fnvOffsetBasis file :=
            hs.checksum.trans (by rw [hwhole, List.take_length])
          exact (congrArg UInt64.toNat hsum).trans (toNat_updateChecksum file)
      dsimp only
      constructor
      · exact fun _ => ⟨hcopy, rfl⟩
      · intro hfailed
        exact absurd hfailed (syncEnd_copied weightsSynced metaSynced)
      · let summed := s.storeHeader fun h => { h with checksum := s.checksum }
        let dated := summed.storeHeader fun h => { h with loadedAt := now }
        have hsummed := LoadState.past_left hs.past hs.unready
        have hdated := LoadState.past_left (s := summed) hsummed hs.unready
        exact LoadState.past_left (s := dated) hdated hs.unready
      · exact fun _ => hcopy

/-- Three bytes in two reads, with an interrupt between them. -/
theorem load_sound_threeBytes : ∃ out,
    loadModelIntoSharedMemory [1, 2, 3] 3 [.bytes 2, .interrupted, .bytes 1] 1000 true true
      (createSharedMemory 7 3) = some out ∧ out.1.ok = true ∧ LoadSound [1, 2, 3] out :=
  ⟨_, rfl, rfl, load_sound [1, 2, 3] 7 [.bytes 2, .interrupted, .bytes 1] 1000 true true rfl⟩

namespace Handshake

variable {t t' : Handshake} {runNonce : UInt64}

/-- The segments of the model cache's run are those of the load, and so are its counts. -/
structure Shows (t : Handshake) (s : LoadState) : Prop where
  header : ∃ bytes, t.header = some bytes ∧ headerSize ≤ bytes.length ∧
    Header.ofBytes bytes = s.mapped.header
  weights : t.weights = s.mapped.weights
  written : t.cache.written = s.written
  checksum : t.cache.checksum = s.checksum
  offset : s.offset = s.written

theorem Shows.enter (h : t.Shows s) (point : CachePoint) : (t.enter point).Shows s :=
  ⟨h.header, h.weights, h.written, h.checksum, h.offset⟩

/-- A store into the bytes of the header is the one into its record. -/
theorem Shows.store (runNonce : UInt64) (h : t.Shows s) {field : Store}
    (hp : t.cache.point = .store field) (n : ℕ) {now : ℤ} (hfile : file.length < 2 ^ 64)
    (hlow : -2 ^ 63 ≤ now) (hhigh : now < 2 ^ 63) :
    ∃ t', t.step file runNonce (.cache n now) = some t' ∧
      t'.cache.point = Cache.afterStore field ∧
      t'.Shows (s.storeHeader (t.cache.stored file runNonce.toNat now field)) := by
  obtain ⟨⟨bytes, hheader, hsize, hrecord⟩, hweights, hwritten, hchecksum, hoffset⟩ := h
  have hstep : t.step file runNonce (.cache n now) = some { t.enter (Cache.afterStore field) with
      header := t.header.map fun bytes =>
        storeField bytes file runNonce t.cache.checksum now field } := by
    simp only [step, cacheStep, hp]
  refine ⟨_, hstep, rfl,
    ⟨storeField bytes file runNonce t.cache.checksum now field, ?_, ?_, ?_⟩, hweights, hwritten,
    hchecksum, hoffset⟩
  · rw [hheader]
    rfl
  · rw [length_storeField field hsize]
    exact hsize
  · rw [Header.ofBytes_storeField field t.cache hsize hfile hlow hhigh, hrecord]
    rfl

/-- The loop is a run of the model cache. -/
theorem exec_copyLoop (runNonce : UInt64) (h : t.Shows s) (hp : t.cache.point = .copy)
    (hrun : copyLoop file file.length reads s = some (failure, s')) :
    ∃ actions t', Machine.exec (step file runNonce) t actions = some t' ∧ t'.Shows s' ∧
      t'.cache.point = if failure = none then .store .checksum else .unlinkWeights := by
  have hdone : ∀ {t : Handshake} {s : LoadState}, t.Shows s → t.cache.point = .copy →
      ¬ s.written < file.length → ∃ actions t',
        Machine.exec (step file runNonce) t actions = some t' ∧ t'.Shows s ∧
          t'.cache.point = .store .checksum := by
    intro t s h hp hall
    refine ⟨[.cache 0 0], t.enter (.store .checksum), ?_, h.enter _, rfl⟩
    simp only [Machine.exec_cons, Machine.exec_nil, step, cacheStep, hp, h.written, hall, if_false,
      Option.bind_some]
  have hfails : ∀ {t : Handshake} {s : LoadState}, t.Shows s → t.cache.point = .copy →
      ∃ actions t', Machine.exec (step file runNonce) t actions = some t' ∧ t'.Shows s ∧
        t'.cache.point = .unlinkWeights := by
    intro t s h hp
    refine ⟨[.cacheFails], t.enter .unlinkWeights, ?_, h.enter _, rfl⟩
    simp only [Machine.exec_cons, Machine.exec_nil, step, Cache.fails, hp, Option.map_some,
      Option.bind_some, enter]
  induction reads generalizing s t with
  | nil =>
      rw [copyLoop] at hrun
      split at hrun
      · cases hrun
      · rename_i hall
        cases hrun
        exact hdone h hp hall
  | cons result reads ih =>
      rw [copyLoop] at hrun
      split at hrun
      · rename_i hmore
        cases result with
        | interrupted => exact ih h hp hrun
        | error =>
            cases hrun
            exact hfails h hp
        | endOfFile =>
            cases hrun
            exact hfails h hp
        | bytes n =>
            dsimp only at hrun
            split at hrun
            · rename_i hn
              have hstep : t.step file runNonce (.cache n 0) = some { t with
                  cache := { t.cache with
                    written := t.cache.written + n
                    checksum := updateChecksum t.cache.checksum
                      ((file.drop t.cache.written).take n) }
                  weights := Memory.store t.weights t.cache.written
                    ((file.drop t.cache.written).take n) } := by
                simp only [step, cacheStep, hp, h.written, hmore, if_true, hn.1, hn.2.1, and_self]
              have hshows : Shows { t with
                  cache := { t.cache with
                    written := t.cache.written + n
                    checksum := updateChecksum t.cache.checksum
                      ((file.drop t.cache.written).take n) }
                  weights := Memory.store t.weights t.cache.written
                    ((file.drop t.cache.written).take n) }
                  (s.take ((file.drop s.offset).take n)) := by
                refine ⟨h.header, ?_, ?_, ?_, ?_⟩
                · rw [h.weights, h.written, h.offset]
                  rfl
                · exact congrArg₂ _ h.written hn.2.2.symm
                · rw [h.checksum, h.written, h.offset]
                  rfl
                · exact congrArg (· + _) h.offset
              obtain ⟨actions, t', hexec, hrest⟩ := ih hshows hp hrun
              refine ⟨.cache n 0 :: actions, t', ?_, hrest⟩
              rw [Machine.exec_cons, hstep, Option.bind_some]
              exact hexec
            · cases hrun
      · rename_i hall
        cases hrun
        exact hdone h hp hall

/-- The whole load is a run of the model cache, from its first store to its last `msync`. -/
theorem exec_load {mapped : Mapped} (h : t.Shows { mapped := mapped })
    (hp : t.cache.point = .store .modelSize) (hfile : file.length < 2 ^ 64) {now : ℤ}
    (hlow : -2 ^ 63 ≤ now) (hhigh : now < 2 ^ 63) (weightsSynced metaSynced : Bool)
    {out : LoadEnd × LoadState}
    (hrun : loadModelIntoSharedMemory file file.length reads now weightsSynced metaSynced mapped =
      some out) :
    ∃ actions t', Machine.exec (step file runNonce) t actions = some t' ∧ t'.Shows out.2 ∧
      t'.cache.point = if out.1.ok then .serving else .unlinkWeights := by
  unfold loadModelIntoSharedMemory at hrun
  obtain ⟨⟨failure, s⟩, hloop, rfl⟩ := Option.map_eq_some_iff.mp hrun
  obtain ⟨t₁, hsized, hp₁, h₁⟩ := h.store runNonce hp 0 hfile hlow hhigh
  obtain ⟨copied, t₂, hcopied, h₂, hp₂⟩ := exec_copyLoop runNonce h₁ hp₁ hloop
  cases failure with
  | some e =>
      refine ⟨.cache 0 now :: copied, t₂, ?_, h₂, ?_⟩
      · rw [Machine.exec_cons, hsized, Option.bind_some]
        exact hcopied
      · rw [hp₂, (copyLoop_failure hloop).2]
        rfl
  | none =>
      obtain ⟨t₃, hsummed, hp₃, h₃⟩ := h₂.store runNonce hp₂ 0 hfile hlow hhigh
      obtain ⟨t₄, hdated, hp₄, h₄⟩ := h₃.store runNonce hp₃ 0 hfile hlow hhigh
      obtain ⟨t₅, hready, hp₅, h₅⟩ := h₄.store runNonce hp₄ 0 hfile hlow hhigh
      have hpublished : t₅.Shows (s.publish now) := by
        rw [LoadState.publish, ← h₂.checksum]
        exact h₅
      obtain ⟨stores, hstored⟩ : ∃ stores,
          Machine.exec (step file runNonce) t stores = some t₅ := by
        refine ⟨(.cache 0 now :: copied) ++ [.cache 0 now, .cache 0 now, .cache 0 now], ?_⟩
        rw [Machine.exec_append, Machine.exec_cons, hsized, Option.bind_some, hcopied,
          Option.bind_some, Machine.exec_cons, hsummed, Option.bind_some, Machine.exec_cons, hdated,
          Option.bind_some, Machine.exec_cons, hready]
        rfl
      cases hok : (syncEnd weightsSynced metaSynced).ok with
      | true =>
          refine ⟨stores ++ [.cache 0 now], t₅.enter .serving, ?_, hpublished.enter _, ?_⟩
          · rw [Machine.exec_append, hstored]
            simp [step, cacheStep, hp₅, Cache.afterStore]
          · rfl
      | false =>
          refine ⟨stores ++ [.cacheFails], t₅.enter .unlinkWeights, ?_, hpublished.enter _, ?_⟩
          · rw [Machine.exec_append, hstored]
            simp [step, Cache.fails, hp₅, Cache.afterStore, enter]
          · rfl

end Handshake

end ServeInfer.ModelCache
