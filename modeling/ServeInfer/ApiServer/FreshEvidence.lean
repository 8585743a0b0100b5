import ServeInfer.ApiServer.RecoveryChain

/-!
# The evidence that brings a worker back

Nothing but a ready message or a probe's success takes a worker out of its crashed
state. A mark clears the worker's timer and leaves a probe that is in flight alone,
so the probe's success may be about the incarnation before the mark; it is about
the present one exactly when no probe answers across a mark.
-/

namespace ServeInfer.ApiServer

namespace WorkerPool

section Statements

variable (o : Options) (s : WorkerPool) (as : List PoolAction)

/-- No step of the run marks the worker crashed. -/
def Unmarked (w : ℤ) : Prop :=
  Machine.Guarded (poolStep o) (fun s a => s.rearms o a w = false) s as

/-- The probe was started in the run, and its worker has not been marked crashed since. -/
def FreshProbe (p : Probe) : Prop :=
  ∃ pre k mid t u, as = pre ++ k :: mid ∧ Machine.exec (poolStep o) s pre = some t ∧
    poolStep o t k = some u ∧ p ∉ t.probes ∧ p ∈ u.probes ∧ Unmarked o u mid p.workerId

/-- A worker leaves the crashed state by a ready message, or by the success of a fresh probe. -/
def RevivedByFreshEvidence : Prop :=
  ∀ pre a, pre ++ [a] <+: as → ∀ t t' w, Machine.exec (poolStep o) s pre = some t →
    poolStep o t a = some t' → t.status w = some .crashed → t'.status w ≠ some .crashed →
      (∃ now, a = .supervisor now (.workerReady w)) ∨
        ∃ id now p, a = .probe id now true ∧ t.probes.find? (fun p => p.id = id) = some p ∧
          p.workerId = w ∧ FreshProbe o s pre p

/-- No probe that was in flight as its worker was marked crashed answers yes while the worker is
crashed. -/
def NoLateAnswer : Prop :=
  ∀ pre m mid id now, pre ++ m :: mid ++ [.probe id now true] <+: as → ∀ t u w,
    Machine.exec (poolStep o) s pre = some t →
      Machine.exec (poolStep o) s (pre ++ m :: mid) = some u → ⟨id, w⟩ ∈ t.probes →
        t.rearms o m w = true → u.status w ≠ some .crashed

end Statements

variable {o : Options} {s s' t u : WorkerPool} {a : PoolAction} {as : List PoolAction} {w : ℤ}
  {v v' : Recovery} {p : Probe}

/-- A step takes a worker out of the crashed state by giving it its whole budget back, and not by
starting its recovery over. -/
theorem Turn.leaves (ht : Turn o s a w v v') (hdown : v.crashed = true)
    (hup : v'.crashed = false) : s.rearms o a w = false ∧ s.resets o a w = true := by
  have hanswer : ∀ (v : Recovery) new, v.crashed = true →
      (v.answer o.recoveryAttempts new false).crashed = true := by
    intro v new hdown
    rw [Recovery.answer, hdown]
    exact (v.crashed_schedule _ _).trans hdown
  cases ht with
  | idle => exact absurd hdown (by simp [hup])
  | rearmed v' hrearm h =>
      obtain ⟨recorded, id, rfl⟩ := h
      rw [Recovery.rearm, Recovery.crashed_schedule] at hup
      cases hup
  | readied hrearm hreset => exact ⟨hrearm, hreset⟩
  | fired id hrearm =>
      have hstill : v.crashed = false := hup
      exact absurd hdown (by simp [hstill])
  | refused id new =>
      rw [hanswer (v.fire id) new hdown] at hup
      cases hup
  | answered new alive hrearm _ _ halive =>
      cases alive with
      | false =>
          rw [hanswer { v with probes := v.probes - 1 } new hdown] at hup
          cases hup
      | true => exact ⟨hrearm, halive rfl hdown⟩

/-- What takes a worker out of the crashed state. -/
theorem Numbered.leaves_crashed (h : s.Numbered) (hs : poolStep o s a = some s')
    (hdown : s.status w = some .crashed) (hup : s'.status w ≠ some .crashed) :
    (∃ now, a = .supervisor now (.workerReady w)) ∨
      ∃ id now p, a = .probe id now true ∧ s.probes.find? (fun p => p.id = id) = some p ∧
        p.workerId = w := by
  obtain ⟨e, he, hcrashed⟩ := Option.map_eq_some_iff.mp hdown
  have hv := recovery_of_get? he
  obtain ⟨v', hv', hturn⟩ := (h.turns hs).recovery w _ hv
  have hback : v'.crashed = false := by
    by_contra hno
    exact hup ((crashed_iff hv').mp (Bool.eq_true_of_not_eq_false hno))
  obtain ⟨hrearm, hreset⟩ := hturn.leaves ((crashed_iff hv).mpr hdown) hback
  unfold resets at hreset
  rw [hrearm, Bool.false_or] at hreset
  cases a with
  | supervisor now msg =>
      cases msg with
      | workerReady w' =>
          obtain ⟨rfl, -⟩ := of_decide_eq_true hreset
          exact .inl ⟨now, rfl⟩
      | _ => cases hreset
  | probe id now alive =>
      cases alive with
      | true =>
          rw [Bool.and_eq_true] at hreset
          obtain ⟨p, hfind, hw⟩ := (Option.any_eq_true _ _).mp hreset.1
          exact .inr ⟨id, now, p, rfl, hfind, of_decide_eq_true hw⟩
      | false => cases hreset
  | _ => cases hreset

/-- The success of a probe takes its worker out of the crashed state. -/
theorem ready_of_probe {id : ℕ} {now : ℤ} (hs : poolStep o s (.probe id now true) = some s')
    (hfind : s.probes.find? (fun p => p.id = id) = some p)
    (hdown : s.status p.workerId = some .crashed) : s'.status p.workerId = some .ready := by
  unfold poolStep at hs
  split at hs
  · cases hs
  · obtain ⟨q, hq, rfl⟩ := Option.map_eq_some_iff.mp hs
    obtain rfl := Option.some.inj (hfind.symm.trans hq)
    obtain ⟨e, he, hcrashed⟩ := Option.map_eq_some_iff.mp hdown
    have he' : ({ s with probes := s.probes.filter fun q => q.id ≠ p.id } : WorkerPool).workers.get?
        p.workerId = some e := he
    simp only [onProbe, probed, he', hcrashed, ne_eq, not_true_eq_false, if_false, if_true]
    rw [status, get?_setWorker, if_pos rfl, he']
    rfl

/-- What a run keeps of the numbers, and which probes it can have in flight at its end. -/
structure Carried (s s' : WorkerPool) : Prop where
  numbered : s'.Numbered
  nextProbe : s.nextProbe ≤ s'.nextProbe
  probe : ∀ p ∈ s'.probes, p ∈ s.probes ∨ s.nextProbe ≤ p.id

theorem Numbered.carried (h : s.Numbered) (hrun : Machine.exec (poolStep o) s as = some s') :
    Carried s s' := by
  refine Machine.exec_invariant (P := Carried s) ⟨h, le_rfl, fun p hp => .inl hp⟩ ?_ hrun
  intro t a t' ht hs
  have hturns := ht.numbered.turns hs
  refine ⟨hturns.numbered, ht.nextProbe.trans hturns.nextProbe, fun p hp => ?_⟩
  obtain hold | hnew := hturns.probe p hp
  · exact ht.probe p hold
  · exact .inr (hnew ▸ ht.nextProbe)

/-- A probe that is in flight at the end of a run from a state without it was started in the run. -/
theorem Numbered.started (h : s.Numbered) (hp : p ∉ s.probes)
    (hrun : Machine.exec (poolStep o) s as = some s') (hp' : p ∈ s'.probes) :
    ∃ pre k mid t u, as = pre ++ k :: mid ∧ Machine.exec (poolStep o) s pre = some t ∧
      poolStep o t k = some u ∧ Machine.exec (poolStep o) u mid = some s' ∧ p ∉ t.probes ∧
      p ∈ u.probes := by
  induction as generalizing s with
  | nil =>
      obtain rfl := Option.some.inj hrun
      exact absurd hp' hp
  | cons a as ih =>
      rw [Machine.exec_cons] at hrun
      obtain ⟨t, ht, hrun⟩ := Option.bind_eq_some_iff.mp hrun
      by_cases hin : p ∈ t.probes
      · exact ⟨[], a, as, s, t, rfl, rfl, ht, hrun, hp, hin⟩
      · obtain ⟨pre, k, mid, u, u', rfl, hu, hk, hmid, hout, hin⟩ :=
          ih (h.turns ht).numbered hin hrun
        refine ⟨a :: pre, k, mid, u, u', rfl, ?_, hk, hmid, hout, hin⟩
        rw [Machine.exec_cons, ht]
        exact hu

/-- A probe that is in flight at the end of a run, and has a number at its beginning, has been in
flight all the time. -/
theorem Numbered.in_flight (h : s.Numbered) (hrun : Machine.exec (poolStep o) s as = some s')
    (hp : p ∈ s'.probes) (hid : p.id < s.nextProbe) : p ∈ s.probes :=
  ((h.carried hrun).probe p hp).resolve_right (Nat.not_le_of_lt hid)

/-- Without a late answer, whatever brings a worker back is fresh. -/
theorem Numbered.revivedByFreshEvidence (h : s.Numbered) (hnone : s.probes = [])
    (hok : NoLateAnswer o s as) : RevivedByFreshEvidence o s as := by
  intro q a hq t t' w ht hs hdown hup
  obtain hready | ⟨id, now, p, rfl, hfind, rfl⟩ := (h.carried ht).numbered.leaves_crashed hs hdown hup
  · exact .inl hready
  · refine .inr ⟨id, now, p, rfl, hfind, rfl, ?_⟩
    have hin := List.mem_of_find?_eq_some hfind
    obtain rfl : p.id = id := by simpa using List.find?_some hfind
    obtain ⟨pre, k, mid, u, u', rfl, hu, hk, hmid, hout, hstart⟩ :=
      h.started (by simp [hnone]) ht hin
    refine ⟨pre, k, mid, u, u', rfl, hu, hk, hout, hstart, ?_⟩
    -- a mark after the start would have found the probe in flight
    intro before m hm x hx
    by_contra hmark
    obtain ⟨rest, rfl⟩ := hm
    have hx' : Machine.exec (poolStep o) s (pre ++ k :: before) = some x := by
      rw [Machine.exec_append, hu, Option.bind_some, Machine.exec_cons, hk]
      exact hx
    have hnumbered := ((h.carried hu).numbered.turns hk).numbered
    rw [List.append_assoc, Machine.exec_append, hx, Option.bind_some] at hmid
    have hflight : p ∈ x.probes := by
      refine (h.carried hx').numbered.in_flight hmid hin ?_
      exact (hnumbered.probe p hstart).trans_le (hnumbered.carried hx).nextProbe
    have hwhole : pre ++ k :: before ++ m :: rest = pre ++ k :: (before ++ [m] ++ rest) := by simp
    refine hok (pre ++ k :: before) m rest p.id now ?_ x t p.workerId hx' ?_ hflight ?_ hdown
    · rw [hwhole]
      exact hq
    · rw [hwhole, ht]
    · exact Bool.eq_true_of_not_eq_false hmark

/-- Where only fresh evidence brings workers back, no answer is late. -/
theorem Numbered.noLateAnswer (h : s.Numbered) (hrun : Machine.exec (poolStep o) s as = some s')
    (hfresh : RevivedByFreshEvidence o s as) : NoLateAnswer o s as := by
  intro pre m mid id now hq t u w ht hu hflight hmark hdown
  have hbefore := h.carried ht
  -- the answer is the probe's
  obtain ⟨rest, rfl⟩ := hq
  rw [Machine.exec_append, Machine.exec_snoc, hu, Option.bind_some] at hrun
  obtain ⟨u', hs, -⟩ := Option.bind_eq_some_iff.mp hrun
  have hmid : Machine.exec (poolStep o) t (m :: mid) = some u := by
    rw [Machine.exec_append, ht] at hu
    exact hu
  obtain ⟨p, hfind⟩ : ∃ p, u.probes.find? (fun p => p.id = id) = some p := by
    unfold poolStep at hs
    split at hs
    · cases hs
    · obtain ⟨p, hfind, -⟩ := Option.map_eq_some_iff.mp hs
      exact ⟨p, hfind⟩
  have hid : p.id = id := by simpa using List.find?_some hfind
  obtain rfl : p = ⟨id, w⟩ := by
    have hold : p ∈ t.probes :=
      hbefore.numbered.in_flight hmid (List.mem_of_find?_eq_some hfind)
        (hid ▸ hbefore.numbered.probe _ hflight)
    exact List.inj_on_of_nodup_map hbefore.numbered.probes hold hflight hid
  have hup : u'.status w ≠ some .crashed := by
    rw [ready_of_probe hs hfind hdown]
    decide
  obtain ⟨now', hready⟩ | ⟨id', now', p, heq, hfind', -, hfresh⟩ :=
    hfresh (pre ++ m :: mid) _ (List.prefix_append _ rest) u u' w hu hs hdown hup
  · cases hready
  · cases heq
    obtain rfl := Option.some.inj (hfind.symm.trans hfind')
    obtain ⟨before, k, after, x, y, hsplit, hx, hk, hout, hin, hunmarked⟩ := hfresh
    have hnumbered := h.carried hx
    -- the probe was in flight before the mark, so the mark comes after its start
    obtain ⟨between, hpre, hafter⟩ | ⟨between, hpre, hafter⟩ := List.append_eq_append_iff.mp hsplit
    · have hlate : t.nextProbe ≤ x.nextProbe := by
        rw [hpre, Machine.exec_append, ht, Option.bind_some] at hx
        exact (hbefore.numbered.carried hx).nextProbe
      have hnew := ((hnumbered.numbered.turns hk).probe _ hin).resolve_left hout
      have hold := hbefore.numbered.probe _ hflight
      omega
    · cases between with
      | nil =>
          rw [List.append_nil] at hpre
          obtain rfl := Option.some.inj (ht.symm.trans (hpre ▸ hx))
          exact hout hflight
      | cons b between =>
          obtain ⟨rfl, rfl⟩ := List.cons.inj hafter
          have hx' : Machine.exec (poolStep o) y between = some t := by
            rw [hpre, Machine.exec_append, hx, Option.bind_some, Machine.exec_cons, hk] at ht
            exact ht
          have hno := hunmarked between m (by simp) t hx'
          rw [hno] at hmark
          cases hmark

/-- In exactly the runs without a late answer, workers leave the crashed state by fresh evidence
alone. -/
theorem fresh_evidence_iff {now : ℤ}
    (hrun : Machine.exec (poolStep o) (.new o now) as = some s) :
    RevivedByFreshEvidence o (.new o now) as ↔ NoLateAnswer o (.new o now) as :=
  ⟨(inOrder_new o now).numbered.noLateAnswer hrun,
    (inOrder_new o now).numbered.revivedByFreshEvidence rfl⟩

/-- Worker 0 is reported dead and is probed, and the probe succeeds. -/
def probedBack : List PoolAction :=
  [.supervisor 0 (.workerCrashed 0 []), .recoveryTimer 0 ⟨2000, fun _ => true⟩, .probe 0 2001 true]

theorem fresh_evidence_probedBack : ∃ s,
    Machine.exec (poolStep twoWorkers) (.new twoWorkers 0) probedBack = some s ∧
      (RevivedByFreshEvidence twoWorkers (.new twoWorkers 0) probedBack ↔
        NoLateAnswer twoWorkers (.new twoWorkers 0) probedBack) := by
  have hsome : (Machine.exec (poolStep twoWorkers) (.new twoWorkers 0) probedBack).isSome := by
    decide
  obtain ⟨s, hs⟩ := Option.isSome_iff_exists.mp hsome
  exact ⟨s, hs, fresh_evidence_iff hs⟩

/-- While the probe is in flight, the worker is reported restarted. -/
def probedAcross : List PoolAction := restartedWhileProbed ++ [.probe 0 2002 true]

/-- The success of a probe that was begun before the restart makes the restarted worker ready. -/
theorem not_fresh_evidence : ¬ ∀ (o : Options) (now : ℤ) (as : List PoolAction),
    RevivedByFreshEvidence o (.new o now) as := by
  intro hall
  have hrun : (Machine.exec (poolStep twoWorkers) (.new twoWorkers 0) probedAcross).isSome := by
    decide
  obtain ⟨s, hs⟩ := Option.isSome_iff_exists.mp hrun
  have hbefore : (Machine.exec (poolStep twoWorkers) (.new twoWorkers 0)
      (restartedWhileProbed.take 2)).any (fun t =>
        ⟨0, 0⟩ ∈ t.probes ∧ t.rearms twoWorkers (.supervisor 2001 (.workerRestarted 0)) 0 = true) =
          true := by
    decide
  have hafter : (Machine.exec (poolStep twoWorkers) (.new twoWorkers 0) restartedWhileProbed).any
      (fun u => u.status 0 = some .crashed) = true := by
    decide
  obtain ⟨t, ht, hmark⟩ := (Option.any_eq_true _ _).mp hbefore
  obtain ⟨u, hu, hdown⟩ := (Option.any_eq_true _ _).mp hafter
  obtain ⟨hflight, hmark⟩ := of_decide_eq_true hmark
  have hlate := (inOrder_new twoWorkers 0).numbered.noLateAnswer hs (hall _ _ _)
  exact hlate _ _ [] 0 2002 (List.prefix_refl _) t u 0 ht hu hflight hmark (of_decide_eq_true hdown)

end WorkerPool

end ServeInfer.ApiServer
