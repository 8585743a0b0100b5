import ServeInfer.ModelCache.Loading
import ServeInfer.Supervisor.Incarnations
import ServeInfer.Supervisor.Survivors

/-!
# A model cache that starts over

The invariant of the whole, kept by every step in which the model cache changes
no weights under a worker; and the restart after a kill, which does so.
-/

namespace ServeInfer.ModelCache

open Supervisor (Child ProcessType)

/-- The invariant of the whole. -/
structure Intact (model : List UInt8) (s : World) : Prop where
  orderly : s.sup.Orderly
  fresh : ∀ n, s.sup.forks ≤ n → s.caches n = {} ∧ s.readers n = .openMeta
  boot : s.seenReady = false → s.sup.Booting
  posted : Posted model s.sup.runNonce s.seenReady s.shm
  reader : ∀ c ∈ s.sup.children, c.type = .worker → c.status = none →
    ReaderSound model s.shm (s.readers c.serial)
  cache : ∀ c ∈ s.sup.children, c.type = .modelCache → c.status = none →
    CacheSound model s.shm (s.caches c.serial)
  unwritten : ∀ w ∈ s.writes, w.mappedBy = []

variable {model : List UInt8} {cfg : Supervisor.Config} {s s' : World} {c : Child} {n : ℕ}

theorem World.mem_liveWorkers :
    n ∈ s.liveWorkers ↔ ∃ c ∈ s.sup.children, c.type = .worker ∧ c.status = none ∧ c.serial = n := by
  simp [World.liveWorkers, List.mem_filter, and_assoc]

theorem World.live_eq_some {type : ProcessType} (h : s.live type n = some c) :
    c ∈ s.sup.children ∧ c.serial = n ∧ c.type = type ∧ c.status = none := by
  have hp := List.find?_some h
  simp only [Bool.decide_and, Bool.and_eq_true, decide_eq_true_eq] at hp
  exact ⟨List.mem_of_find?_eq_some h, hp⟩

theorem Intact.modelIntact (h : Intact model s) : ModelIntact model s where
  mapped n hn o ho := by
    obtain ⟨c, hc, htype, hstatus, rfl⟩ := World.mem_liveWorkers.mp hn
    have hsound := h.reader c hc htype hstatus
    rw [ho] at hsound
    exact hsound.2
  unwritten := h.unwritten

theorem cacheSound_default (model : List UInt8) (shm : Shm) : CacheSound model shm {} := rfl

theorem posted_leftover (model : List UInt8) (header : Option (Option Header))
    (weights : Option (List UInt8)) : Posted model 0 false (Shm.leftover header weights) where
  metaName_lt m hm := by
    obtain ⟨_, -, rfl⟩ := Option.map_eq_some_iff.mp hm
    exact Nat.one_pos
  weightsName_lt o ho := by
    obtain ⟨_, -, rfl⟩ := Option.map_eq_some_iff.mp ho
    exact Nat.one_pos
  ours h0 := absurd rfl h0
  seen h0 := by cases h0

theorem intact_init (model : List UInt8) (cfg : Supervisor.Config)
    (header : Option (Option Header)) (weights : Option (List UInt8)) :
    Intact model (init cfg (Shm.leftover header weights)) where
  orderly := Supervisor.orderly_init cfg
  fresh _ _ := ⟨rfl, rfl⟩
  boot _ := ⟨.inl rfl, fun _ hc => (List.not_mem_nil hc).elim⟩
  posted := posted_leftover model header weights
  reader _ hc := (List.not_mem_nil hc).elim
  cache _ hc := (List.not_mem_nil hc).elim
  unwritten _ hw := (List.not_mem_nil hw).elim

/-- The live cache is the only one, and has the supervisor's nonce. -/
theorem Intact.live_cache (h : Intact model s) (hl : s.live .modelCache n = some c) :
    c.runNonce = s.sup.runNonce ∧ CacheSound model s.shm (s.caches n) ∧
      n < s.sup.forks ∧ ∀ d ∈ s.sup.children, d.type = .modelCache → d.serial = n := by
  obtain ⟨hc, rfl, htype, hstatus⟩ := World.live_eq_some hl
  refine ⟨h.orderly.oneCache.nonce c hc htype, h.cache c hc htype hstatus,
    h.orderly.books.numbered c hc, ?_⟩
  intro d hd hdtype
  have hpid := h.orderly.oneCache.unique d hd c hc hdtype htype
  rw [List.inj_on_of_nodup_map h.orderly.books.pids hd hc hpid]

theorem evaluateModelHeader_ready {header : Option Header} {expectedNonce : ℕ}
    (h : evaluateModelHeader header expectedNonce = .ready) :
    expectedNonce ≠ 0 ∧ ∃ g, header = some g ∧ g.ready = 1 ∧ g.runNonce = expectedNonce := by
  unfold evaluateModelHeader at h
  split at h
  · cases h
  · split at h
    · cases h
    · rename_i h0
      split at h
      · cases h
      · split at h
        · cases h
        · rename_i hnonce
          split at h
          · rename_i hready
            exact ⟨h0, _, rfl, hready, not_not.mp hnonce⟩
          · cases h

/-- The supervisor's step leaves the segments as they are; a yes is true. -/
theorem Posted.supervise {a : Supervisor.Action}
    (h : Posted model s.sup.runNonce s.seenReady s.shm) (hs : s.superviseStep cfg a = some s') :
    Posted model s'.sup.runNonce s'.seenReady s'.shm := by
  unfold World.superviseStep at hs
  split at hs
  · rename_i hallows
    split at hs
    · cases hs
    · rename_i sup hsup
      split at hs
      · rename_i hnonce
        cases hs
        refine ⟨h.metaName_lt, h.weightsName_lt, ?_, ?_⟩
        · intro h0 g hg hready hg0
          obtain hsame | ⟨-, hfresh⟩ := hnonce
          · have hsame : sup.runNonce = s.sup.runNonce := hsame
            exact h.ours (hsame ▸ h0) g hg hready (hg0.trans hsame)
          · obtain ⟨m, hm, hgm⟩ := Option.bind_eq_some_iff.mp hg
            exact absurd hg0 (hfresh m (h.metaName_lt m hm) g hgm)
        · intro hseen g hg hvalid
          cases hold : s.seenReady with
          | true => exact h.seen hold g hg hvalid
          | false =>
              obtain rfl : a = .ready true := by simpa [hold] using hseen
              have hyes : evaluateModelHeader s.shm.header s.sup.runNonce = .ready := by
                simpa [World.allows] using hallows
              obtain ⟨h0, g', hg', hready, hg0⟩ := evaluateModelHeader_ready hyes
              exact h.ours h0 g' hg' hready hg0
      · cases hs
  · cases hs

/-- What a supervisor's step does to the rest of the world: nothing, unless it was told yes. -/
theorem superviseStep_eq {a : Supervisor.Action} (hs : s.superviseStep cfg a = some s') :
    ∃ sup, Supervisor.step cfg s.sup a = some sup ∧
      s' = { s with sup := sup, seenReady := s.seenReady || a = .ready true } := by
  unfold World.superviseStep at hs
  split at hs
  · split at hs
    · cases hs
    · rename_i sup hsup
      split at hs <;> cases hs
      exact ⟨sup, hsup, rfl⟩
  · cases hs

theorem Intact.supervise {a : Supervisor.Action} (h : Intact model s)
    (hs : s.superviseStep cfg a = some s') : Intact model s' := by
  have hposted := h.posted.supervise hs
  obtain ⟨sup, hsup, rfl⟩ := superviseStep_eq hs
  have houtlives := h.orderly.outlives hsup
  refine ⟨h.orderly.step hsup, ?_, ?_, hposted, ?_, ?_, h.unwritten⟩
  · intro n hn
    exact h.fresh n (houtlives.forks.trans hn)
  · intro hseen
    obtain ⟨hold, hno⟩ := Bool.or_eq_false_iff.mp hseen
    exact (h.boot hold).step (of_decide_eq_false hno) hsup
  · intro d hd htype hstatus
    obtain ⟨c, hc, hserial, hctype, hcstatus⟩ | hnew := houtlives.live d hd hstatus
    · have hsound := h.reader c hc (hctype.trans htype) hcstatus
      rwa [hserial] at hsound
    · have hfresh : s.readers d.serial = .openMeta := (h.fresh d.serial hnew).2
      show ReaderSound model s.shm (s.readers d.serial)
      rw [hfresh]
      trivial
  · intro d hd htype hstatus
    obtain ⟨c, hc, hserial, hctype, hcstatus⟩ | hnew := houtlives.live d hd hstatus
    · have hsound := h.cache c hc (hctype.trans htype) hcstatus
      rwa [hserial] at hsound
    · have hfresh : s.caches d.serial = {} := (h.fresh d.serial hnew).1
      show CacheSound model s.shm (s.caches d.serial)
      rw [hfresh]
      exact cacheSound_default model s.shm

/-- The one cache goes on; the guard keeps it from the workers' objects. -/
theorem Intact.cacheStep (h : Intact model s) {serial : ℕ} {now : ℤ}
    (hok : NoReaderTouched model s (.cache serial n now))
    (hs : s.cacheStep model serial n now = some s') : Intact model s' := by
  unfold World.cacheStep at hs
  split at hs
  · cases hs
  · rename_i c hlive
    obtain ⟨⟨k, shm⟩, hk, rfl⟩ := Option.map_eq_some_iff.mp hs
    obtain ⟨-, hsound, hserial, honly⟩ := h.live_cache hlive
    have hchange := hsound.change hk
    refine ⟨h.orderly, ?_, h.boot, h.posted.change hchange, ?_, ?_, ?_⟩
    · intro m hm
      have hne : m ≠ serial := (hserial.trans_le hm).ne'
      exact ⟨(Function.update_of_ne hne ..).trans (h.fresh m hm).1, (h.fresh m hm).2⟩
    · intro d hd htype hstatus
      refine (h.reader d hd htype hstatus).change ?_ hchange
      intro o ho
      exact hok o ho d.serial (World.mem_liveWorkers.mpr ⟨d, hd, htype, hstatus, rfl⟩)
    · intro d hd htype hstatus
      have hself : Function.update s.caches serial k d.serial = k := by
        rw [honly d hd htype, Function.update_self]
      show CacheSound model shm (Function.update s.caches serial k d.serial)
      rw [hself]
      exact hsound.step hk
    · intro w hw
      obtain hw | hw := List.mem_append.mp hw
      · exact h.unwritten w hw
      · obtain ⟨o, ho, rfl⟩ := Option.map_eq_some_iff.mp (Option.mem_toList.mp hw)
        refine List.filter_eq_nil_iff.mpr fun m hm => ?_
        simpa using (hok o ho m hm).2

theorem Intact.cacheFails (h : Intact model s) {serial : ℕ} (hs : s.cacheFails serial = some s') :
    Intact model s' := by
  unfold World.cacheFails at hs
  split at hs
  · cases hs
  · rename_i c hlive
    obtain ⟨k, hk, rfl⟩ := Option.map_eq_some_iff.mp hs
    obtain ⟨-, -, hserial, honly⟩ := h.live_cache hlive
    refine ⟨h.orderly, ?_, h.boot, h.posted, h.reader, ?_, h.unwritten⟩
    · intro m hm
      have hne : m ≠ serial := (hserial.trans_le hm).ne'
      exact ⟨(Function.update_of_ne hne ..).trans (h.fresh m hm).1, (h.fresh m hm).2⟩
    · intro d hd htype hstatus
      have hself : Function.update s.caches serial k d.serial = k := by
        rw [honly d hd htype, Function.update_self]
      show CacheSound model s.shm (Function.update s.caches serial k d.serial)
      rw [hself]
      exact .fails hk

/-- A worker's step looks at the segments and finds what the invariant promises. -/
theorem ReaderSound.step {shm : Shm} {runNonce : ℕ} {r r' : Reader} (h : ReaderSound model shm r)
    (hp : Posted model runNonce true shm) (hs : r.step shm = some r') :
    ReaderSound model shm r' := by
  cases r with
  | openMeta =>
      cases hname : shm.metaName with
      | none =>
          simp only [Reader.step, hname] at hs
          cases hs
          trivial
      | some m =>
          simp only [Reader.step, hname] at hs
          cases hs
          refine ⟨hp.metaName_lt m hname, fun hvalid => ?_⟩
          obtain ⟨g, hg, hv⟩ := (Option.any_eq_true _ _).mp hvalid
          have hheader : shm.header = some g := by simpa [Shm.header, hname] using hg
          exact hp.seen rfl g hheader hv
  | readHeader m =>
      obtain ⟨g, hg, rfl⟩ := Option.map_eq_some_iff.mp hs
      split
      · rename_i hv
        exact ⟨h.1, h.2 (by rw [hg]; exact hv)⟩
      · trivial
  | readSize m =>
      obtain ⟨g, hg, rfl⟩ := Option.map_eq_some_iff.mp hs
      exact h.2
  | openWeights modelSize =>
      cases hname : shm.weightsName with
      | none =>
          simp only [Reader.step, hname] at hs
          cases hs
          trivial
      | some o =>
          simp only [Reader.step, hname] at hs
          cases hs
          exact ⟨hp.weightsName_lt o hname, h o hname⟩
  | statWeights modelSize o =>
      simp only [Reader.step] at hs
      split at hs
      · cases hs
        trivial
      · rename_i hsize
        cases hs
        refine ⟨h.1, h.2.resolve_right fun hempty => hsize (.inl ?_)⟩
        rw [hempty, List.length_nil]
  | mapWeights o =>
      cases hs
      exact h
  | attached o => cases hs
  | failed => cases hs

theorem ReaderSound.fails {shm : Shm} {r r' : Reader} (hs : r.fails = some r') :
    ReaderSound model shm r' := by
  unfold Reader.fails at hs
  split at hs <;> cases hs
  trivial

theorem Intact.readerStep {next : Reader → Option Reader} (h : Intact model s) {serial : ℕ}
    (hnext : ∀ r r', s.seenReady = true → ReaderSound model s.shm r → next r = some r' →
      ReaderSound model s.shm r')
    (hs : s.readerStep next serial = some s') : Intact model s' := by
  unfold World.readerStep at hs
  split at hs
  · cases hs
  · rename_i c hlive
    obtain ⟨r, hr, rfl⟩ := Option.map_eq_some_iff.mp hs
    obtain ⟨hc, rfl, htype, hstatus⟩ := World.live_eq_some hlive
    have hserial := h.orderly.books.numbered c hc
    have hseen : s.seenReady = true := by
      by_contra hno
      exact (h.boot (Bool.eq_false_of_not_eq_true hno)).noWorker c hc htype
    refine ⟨h.orderly, ?_, h.boot, h.posted, ?_, h.cache, h.unwritten⟩
    · intro m hm
      have hne : m ≠ c.serial := (hserial.trans_le hm).ne'
      exact ⟨(h.fresh m hm).1, (Function.update_of_ne hne ..).trans (h.fresh m hm).2⟩
    · intro d hd hdtype hdstatus
      show ReaderSound model s.shm (Function.update s.readers c.serial r d.serial)
      by_cases hsame : d.serial = c.serial
      · rw [hsame, Function.update_self]
        exact hnext _ r hseen (h.reader c hc htype hstatus) hr
      · rw [Function.update_of_ne hsame]
        exact h.reader d hd hdtype hdstatus

/-- The step lemma. -/
theorem Intact.step (h : Intact model s) {a : Action} (hok : NoReaderTouched model s a)
    (hs : step cfg model s a = some s') : Intact model s' := by
  cases a with
  | supervisor a => exact h.supervise hs
  | cache serial n now => exact h.cacheStep hok hs
  | cacheFails serial => exact h.cacheFails hs
  | reader serial =>
      apply h.readerStep _ hs
      intro r r' hseen hsound hr
      exact hsound.step (hseen ▸ h.posted) hr
  | readerFails serial => exact h.readerStep (fun _ _ _ _ hr => .fails hr) hs

/-- One worker, on the gpu, and the shipped limits. -/
def gpuWorker : Supervisor.Config :=
  { Supervisor.oneWorker with assignments := [⟨0, .cuda, 0, ""⟩] }

/-- A boot with a model of two bytes, until the worker has it mapped. -/
def bootRun : List Action :=
  .supervisor (.start { pid := some 10 } 7) :: List.replicate 18 (.cache 0 2 1000) ++
    [.supervisor (.ready true), .supervisor (.start { pid := some 11 } 0),
      .supervisor (.start { pid := some 12 } 0), .supervisor (.start { pid := none } 0)] ++
    List.replicate 6 (.reader 2)

/-- The model cache dies with this status and is forked again. -/
def respawn (status : ℕ) : List Action :=
  [.supervisor (.die 0 status), .supervisor .wake,
    .supervisor (.reap 10 { fork := { pid := some 13 }, runNonce := 8 })]

/-- A cache that exits takes the names away; the next one fills a new object, and the worker
keeps the old one. -/
def exitRun : List Action :=
  bootRun ++ .cacheFails 0 :: List.replicate 2 (.cache 0 0 0) ++ respawn 256 ++
    List.replicate 18 (.cache 3 2 2000)

/-- A cache that is killed leaves its names; the next one zeroes the object they lead to. -/
def killRun : List Action := bootRun ++ respawn 9 ++ List.replicate 11 (.cache 3 2 2000)

end ServeInfer.ModelCache
