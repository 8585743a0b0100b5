import ServeInfer.Supervisor.Steps

/-!
# Which processes a step leaves

A child that lives after a step lived before it, or was forked by it. Until a
wait for the model has been answered with yes, no worker is forked at all.
-/

namespace ServeInfer.Supervisor

namespace State

variable {cfg : Config} {s s' s'' : State} {a : Action}

/-- Who lives after the step lived before it, or was forked by it. -/
structure Outlives (s s' : State) : Prop where
  forks : s.forks ≤ s'.forks
  live : ∀ d ∈ s'.children, d.status = none →
    (∃ c ∈ s.children, c.serial = d.serial ∧ c.type = d.type ∧ c.status = none) ∨
      s.forks ≤ d.serial

theorem Outlives.of_subset (hforks : s.forks ≤ s'.forks)
    (hsub : ∀ d ∈ s'.children, d ∈ s.children) : s.Outlives s' :=
  ⟨hforks, fun d hd hlive => .inl ⟨d, hsub d hd, rfl, rfl, hlive⟩⟩

theorem Outlives.refl (s : State) : s.Outlives s := .of_subset le_rfl fun _ hd => hd

theorem Outlives.trans (h : s.Outlives s') (h' : s'.Outlives s'') : s.Outlives s'' := by
  refine ⟨h.forks.trans h'.forks, fun d hd hlive => ?_⟩
  obtain ⟨c, hc, hserial, htype, hstatus⟩ | hnew := h'.live d hd hlive
  · rw [← hserial, ← htype]
    exact h.live c hc hstatus
  · exact .inr (h.forks.trans hnew)

theorem Outlives.forked {c : Child} (hf : s.Forked s' c) : s.Outlives s' := by
  refine ⟨hf.forks ▸ Nat.le_succ _, fun d hd hlive => ?_⟩
  rw [hf.children, List.mem_append, List.mem_singleton] at hd
  obtain hd | rfl := hd
  · exact .inl ⟨d, hd, rfl, rfl, hlive⟩
  · exact .inr hf.serial.ge

theorem Outlives.die (s : State) (serial status : ℕ) : s.Outlives (s.die serial status) := by
  refine ⟨le_rfl, fun d hd hlive => ?_⟩
  obtain ⟨c, hc, rfl⟩ := List.mem_map.mp hd
  refine .inl ⟨c, hc, (endChild_serial serial status c).symm, (endChild_type serial status c).symm,
    ?_⟩
  unfold endChild at hlive
  split at hlive
  · cases hlive
  · exact hlive

theorem Move.outlives (hm : Move cfg s s') : s.Outlives s' := by
  cases hm with
  | aside ha => exact .of_subset ha.forks.ge (ha.children ▸ fun _ hd => hd)
  | enter phase _ heq => exact heq ▸ .of_subset le_rfl fun _ hd => hd
  | renonce runNonce _ heq => exact heq ▸ .of_subset le_rfl fun _ hd => hd
  | singleton c hf => exact .forked hf.toForked
  | worker c now hf => exact .forked hf.toForked
  | removed pid hr =>
      exact .of_subset hr.forks.ge fun _ hd => (List.mem_filter.mp (hr.children ▸ hd)).1
  | killed w pid health now hk => exact hk.eq ▸ .of_subset le_rfl fun _ hd => hd
  | sent conn _ heq => exact heq ▸ .of_subset le_rfl fun _ hd => hd
  | ended serial status heq => exact heq ▸ .die s serial status

theorem Moves.outlives (h : Moves cfg s s') : s.Outlives s' := by
  induction h with
  | refl => exact .refl s
  | tail _ hm ih => exact ih.trans hm.outlives

theorem Orderly.outlives (h : s.Orderly) (hs : Supervisor.step cfg s a = some s') :
    s.Outlives s' := by
  by_cases ha : ∃ now, a = .accept now
  · obtain ⟨now, rfl⟩ := ha
    obtain ⟨conn, rest, w, busy, -, -, -, rfl⟩ := accept_cases h.books hs
    exact .of_subset le_rfl fun _ hd => hd
  · exact (h.moves_of_step (not_exists.mp ha) hs).outlives

/-- No wait for the model has been answered with yes: the supervisor is before or in its first
wait, or has given up. -/
structure Booting (s : State) : Prop where
  phase : s.phase = .startCache ∨ s.phase = .startReady ∨ s.phase = .exited
  noWorker : ∀ c ∈ s.children, c.type ≠ .worker

theorem noWorker_startModelCache (h : ∀ c ∈ s.children, c.type ≠ .worker) (fork : Fork)
    (runNonce : ℕ) : ∀ c ∈ (s.startModelCache fork runNonce).2.children, c.type ≠ .worker := by
  unfold startModelCache
  dsimp only
  obtain hfail | ⟨p, -, hfork⟩ := forkExec_cases { s with runNonce := runNonce } fork.pid
    { serial := 0, pid := 0, type := .modelCache, runNonce := runNonce }
  · rw [hfail]
    exact h
  · rw [hfork]
    intro c hc
    obtain hc | hc := List.mem_append.mp hc
    · exact h c hc
    · rw [List.mem_singleton.mp hc]
      simp

/-- Only a yes ends the booting. -/
theorem Booting.step (h : s.Booting) (ha : a ≠ .ready true)
    (hs : Supervisor.step cfg s a = some s') : s'.Booting := by
  have hphase := h.phase
  cases a with
  | beat serial busyMs device =>
      simp only [Supervisor.step, beat] at hs
      split at hs
      · cases hs
      · rename_i c hfind
        have hp := List.find?_some hfind
        simp only [Bool.decide_and, Bool.and_eq_true, decide_eq_true_eq] at hp
        exact absurd hp.2.1 (h.noWorker c (List.mem_of_find?_eq_some hfind))
  | die serial status =>
      cases hs
      refine ⟨h.phase, fun d hd => ?_⟩
      obtain ⟨c, hc, rfl⟩ := List.mem_map.mp hd
      rw [endChild_type]
      exact h.noWorker c hc
  | requestStop =>
      cases hs
      exact ⟨h.phase, h.noWorker⟩
  | start fork runNonce =>
      have hworkers := noWorker_startModelCache h.noWorker fork runNonce
      obtain hp | hp | hp := hphase
      · simp only [Supervisor.step, startNext, hp] at hs
        split at hs <;> rename_i heq <;> rw [heq] at hworkers <;> cases hs
        · exact ⟨.inr (.inl rfl), hworkers⟩
        · exact ⟨.inr (.inr rfl), hworkers⟩
      · simp [Supervisor.step, startNext, hp] at hs
      · simp [Supervisor.step, startNext, hp] at hs
  | ready observed =>
      cases observed with
      | true => exact absurd rfl ha
      | false =>
          obtain hp | hp | hp := hphase <;> simp [Supervisor.step, observeReady, hp] at hs
          subst hs
          exact ⟨.inr (.inr rfl), h.noWorker⟩
  | reap pid r => obtain hp | hp | hp := hphase <;> simp [Supervisor.step, reap, hp] at hs
  | reaped => obtain hp | hp | hp := hphase <;> simp [Supervisor.step, hp] at hs
  | stop => obtain hp | hp | hp := hphase <;> simp [Supervisor.step, stopNext, hp] at hs
  | waited => obtain hp | hp | hp := hphase <;> simp [Supervisor.step, waited, hp] at hs
  | accept now => obtain hp | hp | hp := hphase <;> simp [Supervisor.step, accept, hp] at hs
  | drained => obtain hp | hp | hp := hphase <;> simp [Supervisor.step, hp] at hs
  | check now => obtain hp | hp | hp := hphase <;> simp [Supervisor.step, hp] at hs
  | wake => obtain hp | hp | hp := hphase <;> simp [Supervisor.step, hp] at hs

end State

end ServeInfer.Supervisor
