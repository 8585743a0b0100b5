import ServeInfer.Lib.Machine
import ServeInfer.ModelCache.HeaderBytes
import ServeInfer.ModelCache.Loading

/-!
# The ready handshake

One run of the model cache over a metadata segment with any earlier content,
store by store. The supervisor's poll reads the segment as it is at some moment
and changes nothing, so it is judged in every state that the run passes through.
-/

namespace ServeInfer.ModelCache

open Memory

/-- A model cache with the bytes under the metadata name and those of the weights object.
`cleared` counts the header bytes that `claimHeader` has set to zero so far. -/
structure Handshake where
  cache : Cache := {}
  header : Option (List UInt8)
  weights : List UInt8
  cleared : ℕ := 0
  deriving DecidableEq, Repr

inductive HandshakeAction
  | cache (n : ℕ) (now : ℤ)
  | cacheFails
  deriving DecidableEq, Repr

namespace Handshake

/-- The model cache has been started over what an earlier run left. -/
def start (header : Option (List UInt8)) (weights : List UInt8) : Handshake where
  header := header
  weights := weights

def enter (s : Handshake) (point : CachePoint) : Handshake :=
  { s with cache := s.cache.enter point }

/-- One step of the model cache. `n` is how many bytes `memset` clears next in the header, from
the front and in any pieces, and what `read` returns in the copy loop. -/
def cacheStep (model : List UInt8) (runNonce : UInt64) (s : Handshake) (n : ℕ) (now : ℤ) :
    Option Handshake :=
  match s.cache.point with
  | .openModel => some (s.enter (if model.length = 0 then .unlinkWeights else .openMeta))
  | .openMeta => some { s.enter .sizeMeta with header := some (s.header.getD []) }
  | .sizeMeta =>
      some { s.enter .clearHeader with
        header := s.header.map fun bytes => resize bytes headerSize }
  | .clearHeader =>
      if s.cleared < headerSize then
        if 0 < n ∧ n ≤ headerSize - s.cleared then
          some { s with
            header := s.header.map fun bytes => store bytes s.cleared (List.replicate n 0)
            cleared := s.cleared + n }
        else none
      else some (s.enter (.store .magic))
  | .store field =>
      some { s.enter (Cache.afterStore field) with
        header := s.header.map fun bytes =>
          storeField bytes model runNonce s.cache.checksum now field }
  | .openWeights => some (s.enter .sizeWeights)
  | .sizeWeights =>
      some { s.enter .zeroWeights with weights := resize s.weights model.length }
  | .zeroWeights =>
      some { s.enter (.store .modelSize) with weights := List.replicate model.length 0 }
  | .copy =>
      if s.cache.written < model.length then
        let chunk := (model.drop s.cache.written).take n
        if 0 < n ∧ n ≤ min (2 ^ 20) (model.length - s.cache.written) then
          some { s with
            cache := { s.cache with
              written := s.cache.written + n
              checksum := updateChecksum s.cache.checksum chunk }
            weights := store s.weights s.cache.written chunk }
        else none
      else some (s.enter (.store .checksum))
  | .sync => some (s.enter .serving)
  | .serving => none
  | .unlinkWeights => some (s.enter .unlinkMeta)
  | .unlinkMeta => some { s.enter .gone with header := none }
  | .gone => none

/-- One step of the model cache, or its failing. -/
def step (model : List UInt8) (runNonce : UInt64) (s : Handshake) :
    HandshakeAction → Option Handshake
  | .cache n now => s.cacheStep model runNonce n now
  | .cacheFails => s.cache.fails.map fun k => { s with cache := k }

/-- A poll of `waitForModelReady`. -/
def poll (s : Handshake) (expectedNonce : UInt64) : ModelReadyState :=
  match s.header with
  | none => .malformed
  | some bytes => evaluateModelHeaderBytes bytes expectedNonce

/-- All of the model has been copied. -/
def Loaded (model : List UInt8) (s : Handshake) : Prop :=
  s.cache.written = model.length ∧ s.weights = model

end Handshake

/-- The earlier content, brought to the header's size, is a ready header of this very run. -/
def ReadyBefore (stale : Option (List UInt8)) (runNonce : UInt64) : Prop :=
  evaluateModelHeaderBytes (resize (stale.getD []) headerSize) runNonce = .ready

variable {bytes model weights : List UInt8} {stale : Option (List UInt8)} {runNonce nonce : UInt64}
  {s s' : Handshake} {n : ℕ} {now : ℤ}

/-- When the bytes are judged ready. -/
theorem evaluateModelHeaderBytes_eq_ready :
    evaluateModelHeaderBytes bytes nonce = .ready ↔
      headerSize ≤ bytes.length ∧ nonce ≠ 0 ∧ fieldBytes bytes .magic = edge ∧
        ofLittleEndian (fieldBytes bytes .runNonce) = nonce.toNat ∧
        ofLittleEndian (fieldBytes bytes .ready) = 1 := by
  rw [← not_lt]
  unfold evaluateModelHeaderBytes
  split_ifs with hmalformed hmagic hnonce hready
  · constructor
    · exact nofun
    · rintro ⟨hsize, hzero, -⟩
      exact absurd hmalformed (not_or_intro hsize hzero)
  · exact ⟨nofun, fun h => absurd h.2.2.1 hmagic⟩
  · exact ⟨nofun, fun h => absurd h.2.2.2.1 hnonce⟩
  · obtain ⟨hsize, hzero⟩ := not_or.mp hmalformed
    exact ⟨fun _ => ⟨hsize, hzero, not_not.mp hmagic, not_not.mp hnonce, hready⟩, fun _ => rfl⟩
  · exact ⟨nofun, fun h => absurd h.2.2.2.2 hready⟩

/-- No run waits for nonce 0. -/
theorem evaluateModelHeaderBytes_zero : evaluateModelHeaderBytes bytes 0 = .malformed :=
  if_pos (.inr rfl)

/-- A header of another nonce, the missing bytes of a short one being zeros, is not this run's. -/
theorem not_readyBefore_of_nonce
    (h : ofLittleEndian (fieldBytes (resize (stale.getD []) headerSize) .runNonce) ≠
      runNonce.toNat) : ¬ ReadyBefore stale runNonce :=
  fun hready => h (evaluateModelHeaderBytes_eq_ready.mp hready).2.2.2.1

theorem fieldBytes_resize (field : Store) (h : headerSize ≤ bytes.length) :
    fieldBytes (resize bytes headerSize) field = fieldBytes bytes field :=
  load_resize h field.offset_add_width_le

/-- Content that is judged ready as it lies there is so at the header's size. -/
theorem readyBefore_of_ready (h : evaluateModelHeaderBytes bytes nonce = .ready) :
    ReadyBefore (some bytes) nonce := by
  rw [evaluateModelHeaderBytes_eq_ready] at h
  obtain ⟨hsize, hrest⟩ := h
  apply evaluateModelHeaderBytes_eq_ready.mpr
  simp only [Option.getD_some, length_resize, le_refl, true_and, fieldBytes_resize _ hsize]
  exact hrest

/-- Content whose first bytes are cleared is judged ready only if none is. -/
theorem readyBefore_of_cleared {cleared : ℕ}
    (h : evaluateModelHeaderBytes
      (List.replicate cleared 0 ++ (resize (stale.getD []) headerSize).drop cleared) nonce =
        .ready) : ReadyBefore stale nonce := by
  cases cleared with
  | zero => exact h
  | succ cleared =>
      have hmagic := (evaluateModelHeaderBytes_eq_ready.mp h).2.2.1
      rw [fieldBytes, load, List.replicate_succ, List.cons_append] at hmagic
      cases hmagic

namespace Handshake

/-- The header is there and says that the model is not ready. -/
def Unready (s : Handshake) : Prop :=
  ∃ bytes, s.header = some bytes ∧ bytes.length = headerSize ∧ fieldBytes bytes .ready = [0]

/-- The weights object has the model's size, and its front is the model's. -/
structure Copying (model : List UInt8) (s : Handshake) : Prop where
  length : s.weights.length = model.length
  le : s.cache.written ≤ model.length
  front : s.weights.take s.cache.written = model.take s.cache.written

/-- What holds at each point of the model cache's program. -/
def Sound (model : List UInt8) (stale : Option (List UInt8)) (runNonce : UInt64)
    (s : Handshake) : Prop :=
  match s.cache.point with
  | .openModel | .openMeta => s.header = stale ∧ s.cleared = 0 ∧ s.cache.written = 0
  | .sizeMeta => s.header = some (stale.getD []) ∧ s.cleared = 0 ∧ s.cache.written = 0
  | .clearHeader =>
      s.header = some (List.replicate s.cleared 0 ++
          (resize (stale.getD []) headerSize).drop s.cleared) ∧
        s.cleared ≤ headerSize ∧ s.cache.written = 0
  | .store .magic | .store .version | .store .runNonce | .store .notReady | .openWeights
  | .sizeWeights | .zeroWeights => s.Unready ∧ s.cache.written = 0
  | .store .modelSize | .copy => s.Unready ∧ s.Copying model
  | .store .checksum | .store .loadedAt | .store .ready => s.Unready ∧ s.Loaded model
  | .sync | .serving => s.Loaded model
  | .unlinkWeights | .unlinkMeta | .gone => s.poll runNonce = .ready → s.Loaded model

theorem Unready.poll_ne (h : s.Unready) : s.poll nonce ≠ .ready := by
  obtain ⟨bytes, hheader, -, hready⟩ := h
  intro hpoll
  rw [poll, hheader] at hpoll
  have hone := (evaluateModelHeaderBytes_eq_ready.mp hpoll).2.2.2.2
  rw [hready] at hone
  cases hone

/-- The earlier content, when it is judged ready as it lies there. -/
theorem readyBefore_of_poll (hheader : s.header = stale) (hpoll : s.poll nonce = .ready) :
    ReadyBefore stale nonce := by
  cases hstale : stale with
  | none =>
      rw [poll, hheader, hstale] at hpoll
      cases hpoll
  | some bytes =>
      rw [poll, hheader, hstale] at hpoll
      exact readyBefore_of_ready hpoll

/-- A sound cache's header is judged ready only over the whole model. -/
theorem Sound.loaded (hstale : ¬ ReadyBefore stale runNonce) (h : s.Sound model stale runNonce)
    (hpoll : s.poll runNonce = .ready) : s.Loaded model := by
  cases hp : s.cache.point with
  | openModel =>
      simp only [Sound, hp] at h
      exact absurd (readyBefore_of_poll h.1 hpoll) hstale
  | openMeta =>
      simp only [Sound, hp] at h
      exact absurd (readyBefore_of_poll h.1 hpoll) hstale
  | sizeMeta =>
      simp only [Sound, hp] at h
      exact absurd (readyBefore_of_poll h.1 hpoll) hstale
  | clearHeader =>
      simp only [Sound, hp] at h
      rw [poll, h.1] at hpoll
      exact absurd (readyBefore_of_cleared hpoll) hstale
  | store field =>
      simp only [Sound, hp] at h
      cases field <;> exact absurd hpoll h.1.poll_ne
  | openWeights =>
      simp only [Sound, hp] at h
      exact absurd hpoll h.1.poll_ne
  | sizeWeights =>
      simp only [Sound, hp] at h
      exact absurd hpoll h.1.poll_ne
  | zeroWeights =>
      simp only [Sound, hp] at h
      exact absurd hpoll h.1.poll_ne
  | copy =>
      simp only [Sound, hp] at h
      exact absurd hpoll h.1.poll_ne
  | sync =>
      simp only [Sound, hp] at h
      exact h
  | serving =>
      simp only [Sound, hp] at h
      exact h
  | unlinkWeights =>
      simp only [Sound, hp] at h
      exact h hpoll
  | unlinkMeta =>
      simp only [Sound, hp] at h
      exact h hpoll
  | gone =>
      simp only [Sound, hp] at h
      exact h hpoll

/-- A store into an unready header leaves it unready, but for the last one. -/
theorem Unready.store (h : s.Unready) (field : Store) (hf : field ≠ .ready) {k : Cache}
    {checksum : UInt64} :
    Unready { s with
      cache := k
      header := s.header.map fun bytes =>
        storeField bytes model runNonce checksum now field } := by
  obtain ⟨bytes, hheader, hsize, hready⟩ := h
  refine ⟨storeField bytes model runNonce checksum now field, ?_, ?_, ?_⟩
  · simp only [hheader, Option.map_some]
  · rw [length_storeField field hsize.ge, hsize]
  · rw [fieldBytes_storeField field .ready hsize.ge]
    cases field with
    | ready => exact absurd rfl hf
    | notReady => rfl
    | _ => exact hready

theorem Sound.store (h : s.Sound model stale runNonce) {field : Store}
    (hp : s.cache.point = .store field) (hs : s.cacheStep model runNonce n now = some s') :
    s'.Sound model stale runNonce := by
  simp only [cacheStep, hp] at hs
  cases hs
  cases field with
  | ready =>
      simp only [Sound, hp] at h
      exact h.2
  | magic =>
      simp only [Sound, hp] at h
      exact ⟨h.1.store .magic nofun, h.2⟩
  | version =>
      simp only [Sound, hp] at h
      exact ⟨h.1.store .version nofun, h.2⟩
  | runNonce =>
      simp only [Sound, hp] at h
      exact ⟨h.1.store .runNonce nofun, h.2⟩
  | notReady =>
      simp only [Sound, hp] at h
      exact ⟨h.1.store .notReady nofun, h.2⟩
  | modelSize =>
      simp only [Sound, hp] at h
      exact ⟨h.1.store .modelSize nofun, ⟨h.2.length, h.2.le, h.2.front⟩⟩
  | checksum =>
      simp only [Sound, hp] at h
      exact ⟨h.1.store .checksum nofun, h.2⟩
  | loadedAt =>
      simp only [Sound, hp] at h
      exact ⟨h.1.store .loadedAt nofun, h.2⟩

/-- Clearing goes on where it stopped. -/
theorem store_cleared {cleared : ℕ} (rest : List UInt8) :
    Memory.store (List.replicate cleared 0 ++ rest.drop cleared) cleared (List.replicate n 0) =
      List.replicate (cleared + n) 0 ++ rest.drop (cleared + n) := by
  have hbehind : (List.replicate cleared 0 ++ rest.drop cleared).drop (cleared + n) =
      rest.drop (cleared + n) := by
    rw [List.drop_append, List.drop_replicate, List.length_replicate, List.drop_drop]
    have hnone : cleared - (cleared + n) = 0 := by omega
    have hskip : cleared + (cleared + n - cleared) = cleared + n := by omega
    rw [hnone, hskip, List.replicate_zero, List.nil_append]
  rw [Memory.store, List.take_left' (List.length_replicate ..), List.length_replicate,
    List.replicate_append_replicate, hbehind]

theorem Sound.clear (h : s.Sound model stale runNonce) (hp : s.cache.point = .clearHeader)
    (hs : s.cacheStep model runNonce n now = some s') : s'.Sound model stale runNonce := by
  simp only [cacheStep, hp] at hs
  simp only [Sound, hp] at h
  obtain ⟨hheader, hle, hwritten⟩ := h
  split at hs
  · split at hs
    · rename_i hn
      cases hs
      simp only [Sound, hp]
      refine ⟨?_, by omega, hwritten⟩
      rw [hheader, Option.map_some, store_cleared]
    · cases hs
  · rename_i hall
    cases hs
    have hcleared : s.cleared = headerSize := by omega
    rw [hcleared, List.drop_of_length_le length_resize.le, List.append_nil] at hheader
    refine ⟨⟨_, hheader, List.length_replicate .., ?_⟩, hwritten⟩
    exact load_zeros (by decide)

theorem Sound.copy (h : s.Sound model stale runNonce) (hp : s.cache.point = .copy)
    (hs : s.cacheStep model runNonce n now = some s') : s'.Sound model stale runNonce := by
  simp only [cacheStep, hp] at hs
  simp only [Sound, hp] at h
  obtain ⟨hunready, hlen, hle, hfront⟩ := h
  split at hs
  · split at hs
    · rename_i hn
      cases hs
      have hfit : s.cache.written + n ≤ model.length := by omega
      have hchunk : ((model.drop s.cache.written).take n).length = n := by
        rw [List.length_take, List.length_drop]
        omega
      obtain ⟨hlen', hfront'⟩ := copied_chunk hlen hfit hfront
      simp only [Sound]
      refine ⟨hunready, ?_, hfit, ?_⟩
      · simpa only [Memory.store, hchunk] using hlen'
      · simpa only [Memory.store, hchunk] using hfront'
    · cases hs
  · cases hs
    have hall : s.cache.written = model.length := by omega
    refine ⟨hunready, hall, ?_⟩
    calc
      s.weights = s.weights.take s.cache.written := by rw [hall, ← hlen, List.take_length]
      _ = model.take s.cache.written := hfront
      _ = model := by rw [hall, List.take_length]

/-- One step of the model cache keeps it sound. -/
theorem Sound.cacheStep (h : s.Sound model stale runNonce)
    (hstale : ¬ ReadyBefore stale runNonce)
    (hs : s.cacheStep model runNonce n now = some s') : s'.Sound model stale runNonce := by
  cases hp : s.cache.point with
  | store field => exact h.store hp hs
  | clearHeader => exact h.clear hp hs
  | copy => exact h.copy hp hs
  | openModel =>
      have hnot := h.loaded hstale
      simp only [Handshake.cacheStep, hp] at hs
      simp only [Sound, hp] at h
      cases hs
      unfold enter Cache.enter
      split
      · exact hnot
      · exact h
  | openMeta =>
      simp only [Handshake.cacheStep, hp] at hs
      simp only [Sound, hp] at h
      cases hs
      obtain ⟨rfl, hcleared, hwritten⟩ := h
      exact ⟨rfl, hcleared, hwritten⟩
  | sizeMeta =>
      simp only [Handshake.cacheStep, hp] at hs
      simp only [Sound, hp] at h
      cases hs
      obtain ⟨hheader, hcleared, hwritten⟩ := h
      refine ⟨?_, ?_, hwritten⟩
      · simp only [enter, hheader, hcleared, Option.map_some, List.replicate_zero, List.drop_zero,
          List.nil_append]
      · exact hcleared.trans_le (Nat.zero_le _)
  | openWeights =>
      simp only [Handshake.cacheStep, hp] at hs
      simp only [Sound, hp] at h
      cases hs
      exact h
  | sizeWeights =>
      simp only [Handshake.cacheStep, hp] at hs
      simp only [Sound, hp] at h
      cases hs
      exact h
  | zeroWeights =>
      simp only [Handshake.cacheStep, hp] at hs
      simp only [Sound, hp] at h
      cases hs
      obtain ⟨hunready, hwritten⟩ := h
      have hw : (s.enter (.store .modelSize)).cache.written = 0 := hwritten
      refine ⟨hunready, List.length_replicate .., ?_, ?_⟩
      · exact hw.trans_le (Nat.zero_le _)
      · rw [hw, List.take_zero, List.take_zero]
  | sync =>
      simp only [Handshake.cacheStep, hp] at hs
      simp only [Sound, hp] at h
      cases hs
      exact h
  | serving =>
      simp only [Handshake.cacheStep, hp] at hs
      cases hs
  | unlinkWeights =>
      simp only [Handshake.cacheStep, hp] at hs
      simp only [Sound, hp] at h
      cases hs
      exact h
  | unlinkMeta =>
      simp only [Handshake.cacheStep, hp] at hs
      cases hs
      exact nofun
  | gone =>
      simp only [Handshake.cacheStep, hp] at hs
      cases hs

/-- A failing call leaves a sound cache to its cleanup. -/
theorem Sound.cacheFails (h : s.Sound model stale runNonce) (hstale : ¬ ReadyBefore stale runNonce)
    (hs : s.step model runNonce .cacheFails = some s') : s'.Sound model stale runNonce := by
  have hnot := h.loaded hstale
  obtain ⟨k, hk, rfl⟩ := Option.map_eq_some_iff.mp hs
  unfold Cache.fails at hk
  split at hk <;> cases hk
  exact hnot

end Handshake

/-- In every run over any earlier content that is not itself a ready header of this run, a poll
finds the header ready only once all of the model has been copied; with nonce 0 none does. -/
theorem ready_handshake {actions : List HandshakeAction} (hstale : ¬ ReadyBefore stale runNonce)
    (hrun : Machine.exec (Handshake.step model runNonce) (.start stale weights) actions = some s) :
    (s.poll runNonce = .ready → s.Loaded model) ∧ s.poll 0 ≠ .ready := by
  have hsound : s.Sound model stale runNonce := by
    apply Machine.exec_invariant (P := Handshake.Sound model stale runNonce) ?_ ?_ hrun
    · exact ⟨rfl, rfl, rfl⟩
    · intro t a t' ht hs
      cases a with
      | cache n now => exact ht.cacheStep hstale hs
      | cacheFails => exact ht.cacheFails hstale hs
  constructor
  · exact hsound.loaded hstale
  · intro hpoll
    unfold Handshake.poll at hpoll
    split at hpoll
    · cases hpoll
    · rw [evaluateModelHeaderBytes_zero] at hpoll
      cases hpoll

/-- Over content that is a ready header of this run, the poll is misled before the claim. -/
theorem poll_of_readyBefore (hmodel : model ≠ []) (h : ReadyBefore stale runNonce) (now : ℤ) :
    ∃ s, Machine.exec (Handshake.step model runNonce) (.start stale weights)
        (List.replicate 3 (.cache 0 now)) = some s ∧
      s.poll runNonce = .ready ∧ s.cache.written = 0 := by
  have hlength : model.length ≠ 0 := mt List.eq_nil_of_length_eq_zero hmodel
  refine ⟨{ (Handshake.start stale weights).enter .clearHeader with
    header := some (resize (stale.getD []) headerSize) }, ?_, h, rfl⟩
  simp [List.replicate_succ, Handshake.step, Handshake.cacheStep, Handshake.start,
    Handshake.enter, Cache.enter, hlength]

/-- The header that a run under nonce 5 left ready. -/
def publishedBefore : List UInt8 :=
  [Store.magic, .version, .runNonce, .modelSize, .checksum, .loadedAt, .ready].foldl
    (fun bytes field => storeField bytes [1, 2, 3] 5 0 0 field) (List.replicate headerSize 0)

/-- A whole start-up of the model cache. -/
def startUp : List HandshakeAction :=
  [.cache 0 0, .cache 0 0, .cache 0 0, .cache 100 0, .cache 156 0] ++
    List.replicate 9 (.cache 0 0) ++ [.cache 2 0, .cache 1 0] ++ List.replicate 4 (.cache 0 0)

theorem ready_handshake_startUp :
    ∃ s, Machine.exec (Handshake.step [7, 8, 9] 6) (.start (some publishedBefore) [1, 2]) startUp =
        some s ∧ s.poll 6 = .ready ∧ s.Loaded [7, 8, 9] := by
  have hstale : ¬ ReadyBefore (some publishedBefore) 6 :=
    not_readyBefore_of_nonce (by decide)
  have hrun : (Machine.exec (Handshake.step [7, 8, 9] 6) (.start (some publishedBefore) [1, 2])
      startUp).map (fun s => s.poll 6) = some .ready := by
    decide +kernel
  obtain ⟨s, hs, hready⟩ := Option.map_eq_some_iff.mp hrun
  exact ⟨s, hs, hready, (ready_handshake hstale hs).1 hready⟩

end ServeInfer.ModelCache
