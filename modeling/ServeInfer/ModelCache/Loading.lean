import ServeInfer.ModelCache.Integrity

/-!
# The model cache's program

From the header's clearing to its last store the header says that the model is
not ready, and by that store the object under the weights' name holds all of it.
-/

namespace ServeInfer.ModelCache

/-- The header that the name leads to does not say ready. -/
def Shm.Unready (shm : Shm) : Prop := ∀ h, shm.header = some h → h.ready = 0

namespace Cache

/-- The cache has the named metadata object open. -/
def Named (shm : Shm) (k : Cache) : Prop := ∃ m, k.metaFd = some m ∧ shm.metaName = some m

/-- The cache has the named weights object open. -/
def Holds (shm : Shm) (k : Cache) : Prop := ∃ o, k.shmFd = some o ∧ shm.weightsName = some o

/-- The object has the model's size, and its front is the model's. -/
structure Copied (model : List UInt8) (shm : Shm) (k : Cache) (o : ℕ) : Prop where
  fd : k.shmFd = some o
  name : shm.weightsName = some o
  length : (shm.weights o).length = model.length
  le : k.written ≤ model.length
  front : (shm.weights o).take k.written = model.take k.written

/-- The object is the model. -/
structure Loaded (model : List UInt8) (shm : Shm) (k : Cache) (o : ℕ) : Prop where
  fd : k.shmFd = some o
  name : shm.weightsName = some o
  whole : shm.weights o = model

end Cache

/-- What holds at each point of a model cache's program. -/
def CacheSound (model : List UInt8) (shm : Shm) (k : Cache) : Prop :=
  match k.point with
  | .openModel | .openMeta => k.written = 0
  | .sizeMeta | .clearHeader => k.written = 0 ∧ k.Named shm
  | .store .magic | .store .version | .store .runNonce | .store .notReady | .openWeights =>
      k.written = 0 ∧ k.Named shm ∧ shm.Unready
  | .sizeWeights | .zeroWeights => k.written = 0 ∧ k.Named shm ∧ shm.Unready ∧ k.Holds shm
  | .store .modelSize | .copy => k.Named shm ∧ shm.Unready ∧ ∃ o, k.Copied model shm o
  | .store .checksum | .store .loadedAt | .store .ready =>
      k.Named shm ∧ shm.Unready ∧ ∃ o, k.Loaded model shm o
  | _ => True

variable {model : List UInt8} {shm shm' : Shm} {k k' : Cache} {runNonce n : ℕ} {now : ℤ}

theorem CacheSound.fails (hf : k.fails = some k') : CacheSound model shm k' := by
  unfold Cache.fails at hf
  split at hf <;> cases hf
  trivial

theorem openMeta_name : shm.openMeta.2.metaName = some shm.openMeta.1 := by
  cases h : shm.metaName <;> simp [Shm.openMeta, h]

theorem openWeights_name : shm.openWeights.2.weightsName = some shm.openWeights.1 := by
  cases h : shm.weightsName <;> simp [Shm.openWeights, h]

theorem openWeights_metaName : shm.openWeights.2.metaName = shm.metaName := by
  cases h : shm.weightsName <;> simp [Shm.openWeights, h]

theorem header_openWeights : shm.openWeights.2.header = shm.header := by
  rw [Shm.header, openWeights_metaName, (openWeights_metas shm).1, Shm.header]

/-- A store into the header of the named object leaves it unready, but for the last one. -/
theorem unready_stored {m : ℕ} (hm : shm.metaName = some m) (hu : shm.Unready) (k : Cache)
    (field : Store) (hf : field ≠ .ready) :
    (shm.setMeta m ((shm.metas m).map (k.stored model runNonce now field))).Unready := by
  intro g hg
  rw [header_setMeta hm] at hg
  obtain ⟨h, hh, rfl⟩ := Option.map_eq_some_iff.mp hg
  have hready : h.ready = 0 := hu h (by rw [Shm.header, hm]; exact hh)
  cases field with
  | ready => exact absurd rfl hf
  | notReady => rfl
  | magic => exact hready
  | version => exact hready
  | runNonce => exact hready
  | modelSize => exact hready
  | checksum => exact hready
  | loadedAt => exact hready

/-- Behind one more chunk one more piece of the model stands. -/
theorem copied_chunk {bytes : List UInt8} {written : ℕ} (hlen : bytes.length = model.length)
    (hn : written + n ≤ model.length) (hdone : bytes.take written = model.take written) :
    (bytes.take written ++ (model.drop written).take n ++ bytes.drop (written + n)).length =
        model.length ∧
      (bytes.take written ++ (model.drop written).take n ++ bytes.drop (written + n)).take
        (written + n) = model.take (written + n) := by
  have hfront : bytes.take written ++ (model.drop written).take n = model.take (written + n) := by
    rw [hdone, List.take_add]
  have hfrontLen : (model.take (written + n)).length = written + n :=
    List.length_take_of_le hn
  rw [hfront]
  constructor
  · rw [List.length_append, hfrontLen, List.length_drop]
    omega
  · exact List.take_left' hfrontLen

theorem setWeights_self (o : ℕ) (b : List UInt8) : (shm.setWeights o b).weights o = b :=
  Function.update_self ..

/-- The copy loop puts the next chunk where the copied part ends, and ends with the model. -/
theorem CacheSound.copy (h : CacheSound model shm k) (hp : k.point = .copy)
    (hs : k.step model runNonce n now shm = some (k', shm')) : CacheSound model shm' k' := by
  obtain ⟨point, metaFd, shmFd, written, checksum⟩ := k
  obtain rfl : point = .copy := hp
  obtain ⟨hnamed, hunready, o, hfd, hname, hlen, hle, hfront⟩ := h
  obtain rfl : shmFd = some o := hfd
  simp only [Cache.step] at hs
  split at hs
  · split at hs
    · rename_i hn
      cases hs
      have hfit : written + n ≤ model.length := by omega
      obtain ⟨hlen', hfront'⟩ := copied_chunk hlen hfit hfront
      refine ⟨hnamed, hunready, o, rfl, hname, ?_, hfit, ?_⟩
      · rw [setWeights_self]
        exact hlen'
      · rw [setWeights_self]
        exact hfront'
    · cases hs
  · cases hs
    have hall : written = model.length := by
      have hle' : written ≤ model.length := hle
      omega
    refine ⟨hnamed, hunready, o, rfl, hname, ?_⟩
    calc
      shm.weights o = (shm.weights o).take written := by rw [hall, ← hlen, List.take_length]
      _ = model.take written := hfront
      _ = model := by rw [hall, List.take_length]

theorem CacheSound.named_of_store (h : CacheSound model shm k) {field : Store}
    (hp : k.point = .store field) : k.Named shm ∧ shm.Unready := by
  unfold CacheSound at h
  rw [hp] at h
  cases field with
  | magic => exact h.2
  | version => exact h.2
  | runNonce => exact h.2
  | notReady => exact h.2
  | modelSize => exact ⟨h.1, h.2.1⟩
  | checksum => exact ⟨h.1, h.2.1⟩
  | loadedAt => exact ⟨h.1, h.2.1⟩
  | ready => exact ⟨h.1, h.2.1⟩

/-- A store other than the last keeps the header unready, and the weights as they are. -/
theorem CacheSound.store (h : CacheSound model shm k) {field : Store} (hp : k.point = .store field)
    (hf : field ≠ .ready) (hs : k.step model runNonce n now shm = some (k', shm')) :
    CacheSound model shm' k' := by
  obtain ⟨point, metaFd, shmFd, written, checksum⟩ := k
  obtain rfl : point = .store field := hp
  obtain ⟨⟨m, hfd, hm⟩, -⟩ := h.named_of_store rfl
  obtain rfl : metaFd = some m := hfd
  have hstored : shm.Unready → (shm.setMeta m ((shm.metas m).map (Cache.stored
      ⟨.store field, some m, shmFd, written, checksum⟩ model runNonce now field))).Unready :=
    fun hu => unready_stored hm hu _ field hf
  cases field with
  | ready => exact absurd rfl hf
  | magic =>
      cases hs
      exact ⟨h.1, ⟨m, rfl, hm⟩, hstored h.2.2⟩
  | version =>
      cases hs
      exact ⟨h.1, ⟨m, rfl, hm⟩, hstored h.2.2⟩
  | runNonce =>
      cases hs
      exact ⟨h.1, ⟨m, rfl, hm⟩, hstored h.2.2⟩
  | notReady =>
      cases hs
      exact ⟨h.1, ⟨m, rfl, hm⟩, hstored h.2.2⟩
  | modelSize =>
      cases hs
      obtain ⟨o, hc⟩ := h.2.2
      exact ⟨⟨m, rfl, hm⟩, hstored h.2.1, o, ⟨hc.fd, hc.name, hc.length, hc.le, hc.front⟩⟩
  | checksum =>
      cases hs
      obtain ⟨o, hl⟩ := h.2.2
      exact ⟨⟨m, rfl, hm⟩, hstored h.2.1, o, ⟨hl.fd, hl.name, hl.whole⟩⟩
  | loadedAt =>
      cases hs
      obtain ⟨o, hl⟩ := h.2.2
      exact ⟨⟨m, rfl, hm⟩, hstored h.2.1, o, ⟨hl.fd, hl.name, hl.whole⟩⟩

/-- One step keeps the cache sound. -/
theorem CacheSound.step (h : CacheSound model shm k)
    (hs : k.step model runNonce n now shm = some (k', shm')) : CacheSound model shm' k' := by
  obtain ⟨point, metaFd, shmFd, written, checksum⟩ := k
  cases point with
  | copy => exact h.copy rfl hs
  | openModel =>
      cases hs
      unfold Cache.enter
      split
      · trivial
      · exact h
  | openMeta =>
      cases hs
      exact ⟨h, _, rfl, openMeta_name⟩
  | sizeMeta =>
      obtain ⟨hwritten, m, hfd, hname⟩ := h
      obtain rfl : metaFd = some m := hfd
      cases hs
      exact ⟨hwritten, m, rfl, hname⟩
  | clearHeader =>
      obtain ⟨hwritten, m, hfd, hname⟩ := h
      obtain rfl : metaFd = some m := hfd
      cases hs
      refine ⟨hwritten, ⟨m, rfl, hname⟩, ?_⟩
      intro g hg
      rw [header_setMeta hname] at hg
      obtain rfl := Option.some.inj hg
      rfl
  | store field =>
      by_cases hf : field = .ready
      · subst hf
        obtain ⟨⟨m, hfd, -⟩, -⟩ := h
        obtain rfl : metaFd = some m := hfd
        cases hs
        trivial
      · exact h.store rfl hf hs
  | openWeights =>
      obtain ⟨hwritten, ⟨m, hfd, hname⟩, hunready⟩ := h
      cases hs
      refine ⟨hwritten, ⟨m, hfd, openWeights_metaName.trans hname⟩, ?_, _, rfl, openWeights_name⟩
      intro g hg
      exact hunready g (header_openWeights ▸ hg)
  | sizeWeights =>
      obtain ⟨hwritten, hnamed, hunready, o, hfd, hname⟩ := h
      obtain rfl : shmFd = some o := hfd
      cases hs
      exact ⟨hwritten, hnamed, hunready, o, rfl, hname⟩
  | zeroWeights =>
      obtain ⟨hwritten, hnamed, hunready, o, hfd, hname⟩ := h
      obtain rfl : shmFd = some o := hfd
      obtain rfl : written = 0 := hwritten
      cases hs
      refine ⟨hnamed, hunready, o, rfl, hname, ?_, Nat.zero_le _, by simp [Cache.enter]⟩
      rw [setWeights_self, List.length_replicate]
  | sync =>
      cases hs
      trivial
  | serving => cases hs
  | unlinkWeights =>
      cases hs
      trivial
  | unlinkMeta =>
      cases hs
      trivial
  | gone => cases hs

/-- The header that a store changes is the one that the name leads to, and the last store finds
the weights whole. -/
theorem CacheSound.change_store (h : CacheSound model shm k) {field : Store}
    (hp : k.point = .store field) (hs : k.step model runNonce n now shm = some (k', shm')) :
    Change model shm (k.touches model) shm' := by
  obtain ⟨point, metaFd, shmFd, written, checksum⟩ := k
  obtain rfl : point = .store field := hp
  obtain ⟨⟨m, hfd, hm⟩, hunready⟩ := h.named_of_store rfl
  obtain rfl : metaFd = some m := hfd
  cases hs
  refine .header m _ rfl hm fun g hg hready => .inr ?_
  by_cases hf : field = .ready
  · subst hf
    obtain ⟨-, -, o, hl⟩ := h
    intro o' ho'
    obtain rfl := Option.some.inj (hl.name.symm.trans ho')
    exact .inl hl.whole
  · have hnot := unready_stored hm hunready _ field hf g ((header_setMeta hm _).trans hg)
    omega

/-- What a sound cache's step does to the segments. -/
theorem CacheSound.change (h : CacheSound model shm k)
    (hs : k.step model runNonce n now shm = some (k', shm')) :
    Change model shm (k.touches model) shm' := by
  obtain ⟨point, metaFd, shmFd, written, checksum⟩ := k
  cases point with
  | openModel =>
      cases hs
      exact .none rfl
  | openMeta =>
      cases hs
      exact .openMeta rfl
  | sizeMeta =>
      obtain ⟨-, m, hfd, hname⟩ := h
      obtain rfl : metaFd = some m := hfd
      cases hs
      refine .header m _ rfl hname fun g hg hready => .inl ?_
      obtain rfl := Option.some.inj hg
      cases hmeta : shm.metas m with
      | none => simp [hmeta] at hready
      | some g => rfl
  | clearHeader =>
      obtain ⟨-, m, hfd, hname⟩ := h
      obtain rfl : metaFd = some m := hfd
      cases hs
      refine .header m _ rfl hname fun g hg hready => ?_
      obtain rfl := Option.some.inj hg
      cases hready
  | store field => exact h.change_store rfl hs
  | openWeights =>
      cases hs
      exact .openWeights rfl
  | sizeWeights =>
      obtain ⟨-, -, hunready, o, hfd, -⟩ := h
      obtain rfl : shmFd = some o := hfd
      cases hs
      exact .bytes o _ rfl hunready
  | zeroWeights =>
      obtain ⟨-, -, hunready, o, hfd, -⟩ := h
      obtain rfl : shmFd = some o := hfd
      cases hs
      exact .bytes o _ rfl hunready
  | copy =>
      obtain ⟨-, hunready, o, hfd, -⟩ := h
      obtain rfl : shmFd = some o := hfd
      simp only [Cache.step] at hs
      split at hs
      · rename_i hmore
        split at hs
        · cases hs
          refine .bytes o _ ?_ hunready
          simp only [Cache.touches, if_pos hmore]
        · cases hs
      · rename_i hdone
        cases hs
        refine .none ?_
        simp only [Cache.touches, if_neg hdone]
  | sync =>
      cases hs
      exact .none rfl
  | serving => cases hs
  | unlinkWeights =>
      cases hs
      exact .unlinkWeights rfl
  | unlinkMeta =>
      cases hs
      exact .unlinkMeta rfl
  | gone => cases hs

end ServeInfer.ModelCache
