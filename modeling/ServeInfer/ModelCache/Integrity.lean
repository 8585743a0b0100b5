import ServeInfer.ModelCache.World

/-!
# Integrity of the mapped weights

A model cache that starts over opens the objects that its killed predecessor
left under their names, and fills them anew. As long as that happens only while
no live worker has the object mapped or is attaching by a header that says
ready, every live worker maps the complete model.
-/

namespace ServeInfer.ModelCache

/-- Every live worker that attached maps the complete model, and no mapped object was changed. -/
structure ModelIntact (model : List UInt8) (s : World) : Prop where
  mapped : ∀ n ∈ s.liveWorkers, ∀ o, s.readers n = .attached o → s.shm.weights o = model
  unwritten : ∀ w ∈ s.writes, w.mappedBy = []

/-- A model cache changes a weights object only while no live worker has it mapped and none is
attaching by a header that says ready. -/
def NoReaderTouched (model : List UInt8) (s : World) : Action → Prop
  | .cache serial _ _ =>
      ∀ o ∈ (s.caches serial).touches model, ∀ n ∈ s.liveWorkers,
        (s.readers n).attaching s.shm = false ∧ s.readers n ≠ .attached o
  | _ => True

instance (model : List UInt8) (s : World) : (a : Action) → Decidable (NoReaderTouched model s a)
  | .cache serial _ _ =>
      inferInstanceAs (Decidable (∀ o ∈ (s.caches serial).touches model, ∀ n ∈ s.liveWorkers,
        (s.readers n).attaching s.shm = false ∧ s.readers n ≠ .attached o))
  | .supervisor _ => isTrue trivial
  | .cacheFails _ => isTrue trivial
  | .reader _ => isTrue trivial
  | .readerFails _ => isTrue trivial

/-- The named weights object, if there is one, is the complete model or has just been made. -/
def Whole (model : List UInt8) (shm : Shm) : Prop :=
  ∀ o, shm.weightsName = some o → shm.weights o = model ∨ shm.weights o = []

/-- What a worker may rely on at each point of its attaching. -/
def ReaderSound (model : List UInt8) (shm : Shm) : Reader → Prop
  | .openMeta => True
  | .readHeader m => m < shm.nextMeta ∧ ((shm.metas m).any Header.valid = true → Whole model shm)
  | .readSize m => m < shm.nextMeta ∧ Whole model shm
  | .openWeights _ => Whole model shm
  | .statWeights _ o => o < shm.nextWeights ∧ (shm.weights o = model ∨ shm.weights o = [])
  | .mapWeights o => o < shm.nextWeights ∧ shm.weights o = model
  | .attached o => o < shm.nextWeights ∧ shm.weights o = model
  | .failed => True

/-- What the supervisor and the workers may rely on when they look at the two names. -/
structure Posted (model : List UInt8) (runNonce : ℕ) (seenReady : Bool) (shm : Shm) : Prop where
  metaName_lt : ∀ m, shm.metaName = some m → m < shm.nextMeta
  weightsName_lt : ∀ o, shm.weightsName = some o → o < shm.nextWeights
  ours : runNonce ≠ 0 → ∀ h, shm.header = some h → h.ready = 1 → h.runNonce = runNonce →
    Whole model shm
  seen : seenReady = true → ∀ h, shm.header = some h → h.valid = true → Whole model shm

variable {model : List UInt8} {shm shm' : Shm}

/-- What a step of a model cache can do to the segments. `touched` is the weights object it
changes. -/
inductive Change (model : List UInt8) (shm : Shm) (touched : Option ℕ) : Shm → Prop
  | none (h : touched = none) : Change model shm touched shm
  | openMeta (h : touched = none) : Change model shm touched shm.openMeta.2
  | openWeights (h : touched = none) : Change model shm touched shm.openWeights.2
  | header (m : ℕ) (h' : Option Header) (h : touched = none) (name : shm.metaName = some m)
      (ready : ∀ g, h' = some g → g.ready = 1 → shm.metas m = some g ∨ Whole model shm) :
      Change model shm touched (shm.setMeta m h')
  | bytes (o : ℕ) (b : List UInt8) (h : touched = some o)
      (unready : ∀ h, shm.header = some h → h.ready = 0) :
      Change model shm touched (shm.setWeights o b)
  | unlinkWeights (h : touched = none) : Change model shm touched { shm with weightsName := none }
  | unlinkMeta (h : touched = none) : Change model shm touched { shm with metaName := none }

theorem whole_openMeta : Whole model shm.openMeta.2 ↔ Whole model shm := by
  unfold Shm.openMeta
  split <;> exact Iff.rfl

theorem whole_openWeights (h : Whole model shm) : Whole model shm.openWeights.2 := by
  unfold Shm.openWeights
  split
  · exact h
  · intro o ho
    obtain rfl := Option.some.inj ho
    exact .inr (Function.update_self ..)

theorem Header.ready_of_valid {h : Header} (hv : h.valid = true) : h.ready = 1 := by
  simp only [Header.valid, Bool.and_eq_true, decide_eq_true_eq] at hv
  exact hv.1.2

theorem header_openMeta (h : shm.metaName = none) : shm.openMeta.2.header = none := by
  simp [Shm.openMeta, Shm.header, h]

theorem header_setMeta {m : ℕ} (hm : shm.metaName = some m) (h : Option Header) :
    (shm.setMeta m h).header = h := by
  simp [Shm.setMeta, Shm.header, hm]

/-- No change of a model cache's makes a header ready over weights that are not whole. -/
theorem Posted.change {runNonce : ℕ} {seenReady : Bool} {touched : Option ℕ}
    (h : Posted model runNonce seenReady shm) (hc : Change model shm touched shm') :
    Posted model runNonce seenReady shm' := by
  cases hc with
  | none _ => exact h
  | openMeta _ =>
      cases hname : shm.metaName with
      | some m =>
          have hsame : shm.openMeta.2 = shm := by simp [Shm.openMeta, hname]
          rw [hsame]
          exact h
      | none =>
          have hheader := header_openMeta hname
          refine ⟨?_, ?_, ?_, ?_⟩
          · simp [Shm.openMeta, hname]
          · simpa [Shm.openMeta, hname] using h.weightsName_lt
          · intro _ g hg
            rw [hheader] at hg
            cases hg
          · intro _ g hg
            rw [hheader] at hg
            cases hg
  | openWeights _ =>
      cases hname : shm.weightsName with
      | some o =>
          have hsame : shm.openWeights.2 = shm := by simp [Shm.openWeights, hname]
          rw [hsame]
          exact h
      | none =>
          have hheader : shm.openWeights.2.header = shm.header := by
            simp [Shm.openWeights, Shm.header, hname]
          refine ⟨?_, ?_, ?_, ?_⟩
          · simpa [Shm.openWeights, hname] using h.metaName_lt
          · simp [Shm.openWeights, hname]
          · intro h0 g hg hready hnonce
            exact whole_openWeights (h.ours h0 g (hheader ▸ hg) hready hnonce)
          · intro h0 g hg hvalid
            exact whole_openWeights (h.seen h0 g (hheader ▸ hg) hvalid)
  | header m h' _ name ready =>
      have hnew : (shm.setMeta m h').header = h' := header_setMeta name h'
      have hold : shm.header = shm.metas m := by simp [Shm.header, name]
      refine ⟨h.metaName_lt, h.weightsName_lt, ?_, ?_⟩
      · intro h0 g hg hready hnonce
        obtain hsame | hwhole := ready g (hnew.symm.trans hg) hready
        · exact h.ours h0 g (hold.trans hsame) hready hnonce
        · exact hwhole
      · intro h0 g hg hvalid
        obtain hsame | hwhole := ready g (hnew.symm.trans hg) (Header.ready_of_valid hvalid)
        · exact h.seen h0 g (hold.trans hsame) hvalid
        · exact hwhole
  | bytes o b _ unready =>
      refine ⟨h.metaName_lt, h.weightsName_lt, ?_, ?_⟩
      · intro _ g hg hready
        exact absurd (unready g hg) (by omega)
      · intro _ g hg hvalid
        have hready := Header.ready_of_valid hvalid
        exact absurd (unready g hg) (by omega)
  | unlinkWeights _ =>
      have hwhole : Whole model { shm with weightsName := none } := fun o ho => by cases ho
      exact ⟨h.metaName_lt, fun o ho => by (cases ho), fun _ _ _ _ _ => hwhole,
        fun _ _ _ _ => hwhole⟩
  | unlinkMeta _ =>
      exact ⟨fun m hm => by (cases hm), h.weightsName_lt, fun _ _ hg => by (cases hg),
        fun _ _ hg => by cases hg⟩

theorem setWeights_weights {o o' : ℕ} (shm : Shm) (b : List UInt8) (h : o' ≠ o) :
    (shm.setWeights o b).weights o' = shm.weights o' :=
  Function.update_of_ne h ..

theorem openWeights_weights {o : ℕ} (h : o < shm.nextWeights) :
    shm.openWeights.2.weights o = shm.weights o := by
  unfold Shm.openWeights
  split
  · rfl
  · exact Function.update_of_ne h.ne ..

theorem openWeights_next : shm.nextWeights ≤ shm.openWeights.2.nextWeights := by
  unfold Shm.openWeights
  split
  · exact le_rfl
  · exact Nat.le_succ _

theorem openWeights_metas (shm : Shm) : shm.openWeights.2.metas = shm.metas ∧
    shm.openWeights.2.nextMeta = shm.nextMeta := by
  unfold Shm.openWeights
  split <;> exact ⟨rfl, rfl⟩

theorem openMeta_metas {m : ℕ} (h : m < shm.nextMeta) :
    shm.openMeta.2.metas m = shm.metas m ∧ m < shm.openMeta.2.nextMeta := by
  unfold Shm.openMeta
  split
  · exact ⟨rfl, h⟩
  · exact ⟨Function.update_of_ne h.ne .., h.trans (Nat.lt_succ_self _)⟩

theorem openMeta_weights (shm : Shm) : shm.openMeta.2.weights = shm.weights ∧
    shm.openMeta.2.nextWeights = shm.nextWeights := by
  unfold Shm.openMeta
  split <;> exact ⟨rfl, rfl⟩

/-- A change under a reader leaves it sound, if no attaching or attached reader is touched. -/
theorem ReaderSound.change {r : Reader} {touched : Option ℕ} (h : ReaderSound model shm r)
    (hfree : ∀ o ∈ touched, r.attaching shm = false ∧ r ≠ .attached o)
    (hc : Change model shm touched shm') : ReaderSound model shm' r := by
  cases hc with
  | none _ => exact h
  | openMeta _ =>
      obtain ⟨hweights, hnext⟩ := openMeta_weights shm
      cases r with
      | openMeta => trivial
      | failed => trivial
      | readHeader m =>
          obtain ⟨hmetas, hlt⟩ := openMeta_metas h.1
          refine ⟨hlt, fun hvalid => ?_⟩
          rw [hmetas] at hvalid
          exact whole_openMeta.mpr (h.2 hvalid)
      | readSize m => exact ⟨(openMeta_metas h.1).2, whole_openMeta.mpr h.2⟩
      | openWeights modelSize => exact whole_openMeta.mpr h
      | statWeights modelSize o =>
          rw [ReaderSound, hweights, hnext]
          exact h
      | mapWeights o =>
          rw [ReaderSound, hweights, hnext]
          exact h
      | attached o =>
          rw [ReaderSound, hweights, hnext]
          exact h
  | openWeights _ =>
      obtain ⟨hmetas, hnext⟩ := openWeights_metas shm
      cases r with
      | openMeta => trivial
      | failed => trivial
      | readHeader m =>
          rw [ReaderSound, hmetas, hnext]
          exact ⟨h.1, fun hvalid => whole_openWeights (h.2 hvalid)⟩
      | readSize m =>
          rw [ReaderSound, hnext]
          exact ⟨h.1, whole_openWeights h.2⟩
      | openWeights modelSize => exact whole_openWeights h
      | statWeights modelSize o =>
          rw [ReaderSound, openWeights_weights h.1]
          exact ⟨h.1.trans_le openWeights_next, h.2⟩
      | mapWeights o =>
          rw [ReaderSound, openWeights_weights h.1]
          exact ⟨h.1.trans_le openWeights_next, h.2⟩
      | attached o =>
          rw [ReaderSound, openWeights_weights h.1]
          exact ⟨h.1.trans_le openWeights_next, h.2⟩
  | header m h' _ name ready =>
      cases r with
      | readHeader m' =>
          refine ⟨h.1, fun hvalid => ?_⟩
          by_cases hm : m' = m
          · subst hm
            have hnew : (shm.setMeta m' h').metas m' = h' := Function.update_self ..
            rw [hnew] at hvalid
            obtain ⟨g, hg, hv⟩ := (Option.any_eq_true _ _).mp hvalid
            obtain hsame | hwhole := ready g hg (Header.ready_of_valid hv)
            · exact h.2 (by rw [hsame]; exact hv)
            · exact hwhole
          · have hkeep : (shm.setMeta m h').metas m' = shm.metas m' :=
              Function.update_of_ne hm ..
            rw [hkeep] at hvalid
            exact h.2 hvalid
      | openMeta => trivial
      | readSize m' => exact h
      | openWeights modelSize => exact h
      | statWeights modelSize o => exact h
      | mapWeights o => exact h
      | attached o => exact h
      | failed => trivial
  | bytes o b touch unready =>
      obtain ⟨hquiet, hother⟩ := hfree o touch
      cases r with
      | openMeta => trivial
      | failed => trivial
      | readHeader m =>
          refine ⟨h.1, fun hvalid => ?_⟩
          have hnot : (shm.metas m).any Header.valid = false := hquiet
          exact absurd (hnot.symm.trans hvalid) (by simp)
      | readSize m => cases hquiet
      | openWeights modelSize => cases hquiet
      | statWeights modelSize o' => cases hquiet
      | mapWeights o' => cases hquiet
      | attached o' =>
          have hne : o' ≠ o := fun heq => hother (heq ▸ rfl)
          rw [ReaderSound, setWeights_weights shm b hne]
          exact h
  | unlinkWeights _ =>
      have hwhole : Whole model { shm with weightsName := none } := fun o ho => by cases ho
      cases r with
      | openMeta => trivial
      | failed => trivial
      | readHeader m => exact ⟨h.1, fun _ => hwhole⟩
      | readSize m => exact ⟨h.1, hwhole⟩
      | openWeights modelSize => exact hwhole
      | statWeights modelSize o => exact h
      | mapWeights o => exact h
      | attached o => exact h
  | unlinkMeta _ =>
      cases r <;> exact h

end ServeInfer.ModelCache
