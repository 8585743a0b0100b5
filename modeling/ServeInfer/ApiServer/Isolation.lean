import ServeInfer.ApiServer.Idempotency
import ServeInfer.ApiServer.InferRoutes
import ServeInfer.ApiServer.RunView

/-!
# Callers of one id

Callers that submit an id in flight share its promise. A disconnect can only
reject it through the handle of the stream that opened it, so a caller that is
still there fails for its run's own reasons as long as no such stream goes away
under another caller.
-/

namespace ServeInfer.ApiServer

/-- The action is a call of `run`. -/
def RegistryAction.starts {β : Type*} : RegistryAction β → Bool
  | .run .. => true
  | _ => false

namespace RegistryState

variable {β : Type*} {s s' : RegistryState β} {a : RegistryAction β} {p : ℕ} {x : Execution β}

/-- A step that is not a call of `run` takes one execution further at most. -/
theorem executions_of_step (ha : a.starts = false) (hs : registryStep s a = some s') :
    s'.executions = s.executions ∨ ∃ q y phase, s.executions.get? q = some y ∧ phase ≠ .waiting ∧
      s'.executions = s.executions.set q { y with phase := phase } := by
  unfold registryStep at hs
  split at hs
  · cases ha
  · split at hs
    · obtain rfl := Option.some.inj hs
      exact .inl rfl
    · cases hs
  · split at hs
    · obtain rfl := Option.some.inj hs
      exact .inl rfl
    · cases hs
  · split at hs
    · rename_i hy
      obtain rfl := Option.some.inj hs
      exact .inr ⟨_, _, .running, hy, by simp, rfl⟩
    · cases hs
  · split at hs
    · rename_i hy
      obtain rfl := Option.some.inj hs
      exact .inr ⟨_, _, .answered _, hy, by simp, rfl⟩
    · cases hs
  · split at hs
    · split at hs
      · rename_i hy
        obtain rfl := Option.some.inj hs
        exact .inr ⟨_, _, .settled _, hy, by simp, rfl⟩
      · cases hs
    · cases hs

theorem isSome_of_step (ha : a.starts = false) (hs : registryStep s a = some s')
    (hp : (s.executions.get? p).isSome = true) : (s'.executions.get? p).isSome = true := by
  obtain heq | ⟨q, y, phase, -, -, heq⟩ := executions_of_step ha hs
  · rw [heq, hp]
  · rw [heq, OrderedMap.get?_set]
    split
    · rfl
    · exact hp

/-- An execution that waits after such a step waited before it. -/
theorem waiting_of_step (ha : a.starts = false) (hs : registryStep s a = some s')
    (hx : s'.executions.get? p = some x) (hw : x.phase = .waiting) :
    s.executions.get? p = some x := by
  obtain heq | ⟨q, y, phase, -, hphase, heq⟩ := executions_of_step ha hs
  · rw [← heq, hx]
  · rw [heq, OrderedMap.get?_set] at hx
    split at hx
    · obtain rfl := Option.some.inj hx
      exact absurd hw hphase
    · exact hx

/-- The registry stays or takes a step that is not a call of `run`. -/
def Goes (s s' : RegistryState β) : Prop :=
  s' = s ∨ ∃ a, a.starts = false ∧ registryStep s a = some s'

theorem Goes.sound {ttl : ℤ} (h : s.Goes s') (hs : s.Sound ttl) : s'.Sound ttl := by
  obtain rfl | ⟨a, -, hstep⟩ := h
  · exact hs
  · exact hs.step hstep

theorem Goes.isSome (h : s.Goes s') (hp : (s.executions.get? p).isSome = true) :
    (s'.executions.get? p).isSome = true := by
  obtain rfl | ⟨a, ha, hstep⟩ := h
  · exact hp
  · exact isSome_of_step ha hstep hp

theorem Goes.waiting (h : s.Goes s') (hx : s'.executions.get? p = some x)
    (hw : x.phase = .waiting) : s.executions.get? p = some x := by
  obtain rfl | ⟨a, ha, hstep⟩ := h
  · exact hx
  · exact waiting_of_step ha hstep hx hw

end RegistryState

namespace WorkerPool

variable {o : Options} {s : WorkerPool}

/-- A request adds one run at most. -/
theorem runs_infer (s : WorkerPool) (reading : Reading) (request : InferRequest) :
    (s.infer o reading request).1 = none ∧ (s.infer o reading request).2.runs = s.runs ∨
      ∃ run, (s.infer o reading request).1 = some s.runs.length ∧
        (s.infer o reading request).2.runs = s.runs ++ [run] := by
  obtain heq | ⟨w, -, heq⟩ := infer_cases (o := o) s reading request
  · rw [heq]
    exact .inl ⟨rfl, runs_refreshWorkerReadiness s reading⟩
  · rw [heq]
    rw [openRun, runs_setWorker, runs_refreshWorkerReadiness]
    exact .inr ⟨_, rfl, rfl⟩

end WorkerPool

/-- The promise that a caller awaits or has awaited. -/
def Caller.promise (caller : Caller) : Option (AttemptPromise InferenceResult) :=
  caller.attempt.map Attempt.promise

/-- The caller's promise is that of the execution. -/
def Caller.Joined (caller : Caller) (p : ℕ) : Prop := caller.promise = some (.execution p)

namespace Server

variable {o : Options} {s s' : Server} {a : ServerAction} {ttl : ℤ} {p q r : ℕ} {x : Outcome}

/-- The execution's `execute` has opened the run. -/
def Opened (s : Server) (p r : ℕ) : Prop := ∃ request, s.launches.get? p = some ⟨request, .opened r⟩

theorem answer_eq_some : s.answer p = some x ↔
    (∃ request, s.launches.get? p = some ⟨request, .refused⟩ ∧
      x = .rejected WorkerPool.noReadyWorkers) ∨
    ∃ r run, s.Opened p r ∧ s.pool.runs[r]? = some run ∧ run.outcome = some x := by
  unfold answer Opened
  constructor
  · intro h
    split at h
    · rename_i request hl
      exact .inl ⟨request, hl, (Option.some.inj h).symm⟩
    · rename_i request r hl
      obtain ⟨run, hrun, hout⟩ := Option.bind_eq_some_iff.mp h
      exact .inr ⟨r, run, ⟨request, hl⟩, hrun, hout⟩
    · cases h
  · rintro (⟨request, hl, rfl⟩ | ⟨r, run, ⟨request, hl⟩, hrun, hout⟩)
    · simp only [hl]
    · simp only [hl, hrun, Option.bind_some, hout]

/-- What has been called stays called, and what is settled stays settled. -/
structure Grown (s s' : Server) : Prop where
  launch : ∀ {p request stage}, s.launches.get? p = some ⟨request, stage⟩ → stage ≠ .waiting →
    s'.launches.get? p = some ⟨request, stage⟩
  run : ∀ {r : ℕ} {run : Run}, s.pool.runs[r]? = some run →
    ∃ run', s'.pool.runs[r]? = some run' ∧ ∀ x, run.outcome = some x → run'.outcome = some x

theorem grown_of_eq (hl : s'.launches = s.launches) (hp : s'.pool = s.pool) : Grown s s' where
  launch := fun h _ => by rw [hl, h]
  run := fun h => ⟨_, by rw [hp, h], fun _ hx => hx⟩

theorem Grown.opened (h : Grown s s') (hr : s.Opened p r) : s'.Opened p r := by
  obtain ⟨request, hl⟩ := hr
  exact ⟨request, h.launch hl (by simp)⟩

theorem Grown.answer (h : Grown s s') (hx : s.answer p = some x) : s'.answer p = some x := by
  obtain ⟨request, hl, heq⟩ | ⟨r, run, hr, hrun, hout⟩ := answer_eq_some.mp hx
  · exact answer_eq_some.mpr (.inl ⟨request, h.launch hl (by simp), heq⟩)
  · obtain ⟨run', hrun', hkeep⟩ := h.run hrun
    exact answer_eq_some.mpr (.inr ⟨r, run', h.opened hr, hrun', hkeep x hout⟩)

/-- What a step does to the api-server. -/
inductive Served (o : Options) (s : Server) : ServerAction → Server → Prop
  | moved {a registry} (hgoes : s.registry.Goes registry) :
      Served o s a { s with registry := registry }
  | answered {a registry request reply} (hgoes : s.registry.Goes registry) :
      Served o s a ({ s with registry := registry }.answered request reply)
  | awaited {a p request now s'} (hdrained : s.drained = true)
      (hawait : s.await p request now = some s') : Served o s a s'
  | called {p reading request registry} (hl : s.launches.get? p = some ⟨request, .waiting⟩)
      (hgoes : s.registry.Goes registry)
      (hrunning : ∀ id, registry.executions.get? p ≠ some ⟨id, .waiting⟩) :
      Served o s (.callExecute p reading) { s.launch o p reading request with registry := registry }
  | resumed {c caller attempt x reply} (hc : s.callers[c]? = some caller)
      (hattempt : caller.attempt = some attempt) (hx : s.settled attempt.promise = some x) :
      Served o s (.resume c)
        (s.setCaller c fun caller => { caller with outcome := some x, reply := some reply })
  | parted {c caller} (hc : s.callers[c]? = some caller) (hconnected : caller.connected = true) :
      Served o s (.disconnect c)
        ((s.setCaller c fun caller => { caller with connected := false }).abort o caller)
  | pooled {a pool} (hstep : poolStep o s.pool a = some pool) :
      Served o s (.pool a) { s with pool := pool }

theorem goes_of_map {b : RegistryAction InferenceResult} (hb : b.starts = false)
    {f : RegistryState InferenceResult → Server}
    (h : (registryStep s.registry b).map f = some s') :
    ∃ registry, s.registry.Goes registry ∧ s' = f registry := by
  obtain ⟨registry, hstep, rfl⟩ := Option.map_eq_some_iff.mp h
  exact ⟨registry, .inr ⟨b, hb, hstep⟩, rfl⟩

theorem served_of_post {now : ℤ} {request : InferRequest} (hd : s.drained = true)
    (h : s.post p request now = some s') : Served o s a s' := by
  unfold post at h
  split at h
  · obtain rfl := Option.some.inj h
    exact .answered (.inl rfl)
  · exact .awaited hd h

theorem served_of_stream {now : ℤ} {request : InferRequest} (hd : s.drained = true)
    (h : s.stream p request now = some s') : Served o s a s' := by
  unfold stream at h
  split at h
  · obtain rfl := Option.some.inj h
    exact .answered (.inl rfl)
  · split at h
    · exact .awaited hd h
    · obtain ⟨registry, hgoes, rfl⟩ := goes_of_map rfl h
      exact .answered hgoes
    · obtain ⟨registry, hgoes, rfl⟩ := goes_of_map rfl h
      exact .answered hgoes

theorem served_of_callExecute {reading : Reading} (h : s.callExecute o p reading = some s') :
    Served o s (.callExecute p reading) s' := by
  unfold callExecute at h
  split at h
  · rename_i request hl
    obtain ⟨registry, hstep, rfl⟩ := Option.map_eq_some_iff.mp h
    refine .called hl (.inr ⟨_, rfl, hstep⟩) ?_
    intro id hid
    have hwas := RegistryState.waiting_of_step (a := .callExecute p) rfl hstep hid rfl
    simp only [registryStep, hwas] at hstep
    obtain rfl := Option.some.inj hstep
    simp [RegistryState.setPhase] at hid
  · cases h

theorem served_of_step (h : serverStep o s a = some s') : Served o s a s' := by
  unfold serverStep at h
  split at h
  · cases h
  cases a with
  | post p request now =>
      obtain ⟨hd, h⟩ := Option.ite_none_right_eq_some.mp h
      exact served_of_post hd h
  | stream p request now =>
      obtain ⟨hd, h⟩ := Option.ite_none_right_eq_some.mp h
      exact served_of_stream hd h
  | callExecute p reading => exact served_of_callExecute h
  | settleExecute p =>
      obtain ⟨x, -, h⟩ := Option.bind_eq_some_iff.mp h
      obtain ⟨registry, hgoes, rfl⟩ := goes_of_map rfl h
      exact .moved hgoes
  | react p now =>
      obtain ⟨registry, hgoes, rfl⟩ := goes_of_map rfl h
      exact .moved hgoes
  | resume c =>
      dsimp only [resume] at h
      split at h
      · rename_i hc
        obtain ⟨x, hx, rfl⟩ := Option.map_eq_some_iff.mp h
        exact .resumed hc rfl hx
      · cases h
  | disconnect c =>
      dsimp only [disconnect] at h
      split at h
      · rename_i caller hc
        obtain ⟨hconnected, h⟩ := Option.ite_none_right_eq_some.mp h
        obtain rfl := Option.some.inj h
        exact .parted hc hconnected
      · cases h
  | pool a =>
      obtain ⟨-, h⟩ := Option.ite_none_right_eq_some.mp h
      obtain ⟨pool, hstep, rfl⟩ := Option.map_eq_some_iff.mp h
      exact .pooled hstep
  | snapshot now =>
      obtain ⟨registry, hgoes, rfl⟩ := goes_of_map rfl h
      exact .moved hgoes

/-- The run that a caller's disconnect would end. -/
def ends (s : Server) (c : ℕ) : Option ℕ :=
  (s.callers[c]?).bind fun caller =>
    (s.handle caller).filter fun r => (s.pool.runs[r]?).any fun run => !run.done

/-- A caller, other than the one of the number, is still there and has the promise. -/
def sharedBy (s : Server) (c : ℕ) (promise : Option (AttemptPromise InferenceResult)) : Bool :=
  s.callers.zipIdx.any fun e => e.2 ≠ c && e.1.connected && e.1.promise = promise

/-- No disconnect ends a run that another caller, who is still there, waits for. -/
def unshared (s : Server) : ServerAction → Bool
  | .disconnect c =>
      (s.ends c).isNone || !s.sharedBy c ((s.callers[c]?).bind Caller.promise)
  | _ => true

theorem not_joined_of_unshared {c c' : ℕ} {gone caller : Caller}
    (h : s.unshared (.disconnect c) = true) (hr : s.ends c = some r)
    (hc : s.callers[c]? = some gone) (hgone : gone.Joined p) (hcc : c' ≠ c)
    (hc' : s.callers[c']? = some caller) (hconnected : caller.connected = true) :
    ¬ caller.Joined p := by
  intro hjoined
  have hfalse : s.sharedBy c gone.promise = false := by simpa [unshared, hr, hc] using h
  rw [sharedBy, List.any_eq_false] at hfalse
  refine hfalse (caller, c') (List.mem_zipIdx_iff_getElem?.mpr hc') ?_
  simp [hcc, hconnected, hjoined.trans hgone.symm]

/-- The execution failed because no worker was ready, or because its run did, which no disconnect
has ended. -/
def FailedItself (s : Server) (p : ℕ) (err : WorkerPoolError) : Prop :=
  (∃ request, s.launches.get? p = some ⟨request, .refused⟩ ∧ err = WorkerPool.noReadyWorkers) ∨
    ∃ r run, s.Opened p r ∧ s.pool.runs[r]? = some run ∧ run.outcome = some (.rejected err) ∧
      r ∉ s.cut

/-- A caller that is still there fails only if the execution it joined fails itself. -/
def Isolated (s : Server) : Prop :=
  ∀ (c : ℕ) caller err, s.callers[c]? = some caller → caller.connected = true →
    caller.outcome = some (.rejected err) → ∃ p, caller.Joined p ∧ s.FailedItself p err

/-- How the executions, their launches and the pool's runs belong together. -/
structure Linked (ttl : ℤ) (s : Server) : Prop where
  sound : s.registry.Sound ttl
  launched : ∀ {p l}, s.launches.get? p = some l → (s.registry.executions.get? p).isSome = true
  waiting : ∀ {p id l}, s.registry.executions.get? p = some ⟨id, .waiting⟩ →
    s.launches.get? p = some l → l.stage = .waiting
  bound : ∀ {p r}, s.Opened p r → r < s.pool.runs.length
  apart : ∀ {p q r}, s.Opened p r → s.Opened q r → p = q
  ended : ∀ {r}, r ∈ s.cut → ∃ run x, s.pool.runs[r]? = some run ∧ run.outcome = some x

theorem linked_init (o : Options) (ttl : ℤ) (file : Option JsString) (now : ℤ) :
    (init o ttl file now).Linked ttl where
  sound := RegistryState.sound_init ttl file now
  launched := fun h => by simp [init] at h
  waiting := fun _ h => by simp [init] at h
  bound := fun ⟨_, h⟩ => by simp [init] at h
  apart := fun ⟨_, h⟩ => by simp [init] at h
  ended := fun h => by simp [init] at h

/-- The registry moves, and what has been launched stays as it is. -/
theorem Linked.goes (h : s.Linked ttl) (hl : s'.launches = s.launches) (hp : s'.pool = s.pool)
    (hc : s'.cut = s.cut) (hgoes : s.registry.Goes s'.registry) : s'.Linked ttl where
  sound := hgoes.sound h.sound
  launched := fun hp => hgoes.isSome (h.launched (hl ▸ hp))
  waiting := fun hx hp => h.waiting (hgoes.waiting hx rfl) (hl ▸ hp)
  bound := fun ⟨request, hr⟩ => hp ▸ h.bound ⟨request, hl ▸ hr⟩
  apart := fun ⟨_, hp⟩ ⟨_, hq⟩ => h.apart ⟨_, hl ▸ hp⟩ ⟨_, hl ▸ hq⟩
  ended := fun hr => by
    rw [hc] at hr
    rw [hp]
    exact h.ended hr

/-- The pool moves, and a run that is cut has ended. -/
theorem Linked.pool (h : s.Linked ttl) (hl : s'.launches = s.launches)
    (hreg : s'.registry = s.registry) (hgrown : Grown s s')
    (hcut : ∀ r ∈ s'.cut, r ∉ s.cut →
      ∃ run x, s'.pool.runs[r]? = some run ∧ run.outcome = some x) : s'.Linked ttl where
  sound := hreg ▸ h.sound
  launched := fun hp => hreg ▸ h.launched (hl ▸ hp)
  waiting := fun hx hp => h.waiting (hreg ▸ hx) (hl ▸ hp)
  bound := fun {p r} ⟨request, hr⟩ => by
    have hlt := h.bound ⟨request, hl ▸ hr⟩
    obtain ⟨run', hrun', -⟩ := hgrown.run (List.getElem?_eq_getElem hlt)
    exact (List.getElem?_eq_some_iff.mp hrun').1
  apart := fun ⟨_, hp⟩ ⟨_, hq⟩ => h.apart ⟨_, hl ▸ hp⟩ ⟨_, hl ▸ hq⟩
  ended := fun {r} hr => by
    by_cases hold : r ∈ s.cut
    · obtain ⟨run, x, hrun, hx⟩ := h.ended hold
      obtain ⟨run', hrun', hkeep⟩ := hgrown.run hrun
      exact ⟨run', x, hrun', hkeep x hx⟩
    · exact hcut r hr hold

/-- `await` has the request launched under the number, or joins what there is. -/
inductive Files (s s' : Server) (p : ℕ) (request : InferRequest) : Prop
  | joined (hl : s'.launches = s.launches)
      (hx : s'.registry.executions = s.registry.executions)
  | started (hl : s'.launches = s.launches.set p { request := request })
      (hx : s'.registry.executions =
        s.registry.executions.set p { requestId := request.requestId })

section Await

variable {request : InferRequest} {now : ℤ} (hawait : s.await p request now = some s')

include hawait

theorem await_cases :
    s.registry.executions.get? p = none ∧ s.registry.clock ≤ now ∧
      s'.pool = s.pool ∧ s'.cut = s.cut ∧
      s'.registry = s.registry.onRun p request.requestId request.mfeId request.stream now ∧
      s'.callers = s.callers ++ [{
        request := request
        attempt := some (s.registry.registry.run p request.requestId request.mfeId request.stream
          now).1 }] ∧
      Files s s' p request := by
  unfold await at hawait
  obtain ⟨registry, hstep, rfl⟩ := Option.map_eq_some_iff.mp hawait
  simp only [registryStep] at hstep
  obtain ⟨⟨hle, hfresh⟩, hstep⟩ := Option.ite_none_right_eq_some.mp hstep
  obtain rfl := Option.some.inj hstep
  refine ⟨hfresh, hle, rfl, rfl, rfl, rfl, ?_⟩
  by_cases hnew : (s.registry.registry.run p request.requestId request.mfeId request.stream
      now).1.state = .new
  · exact .started (if_pos hnew) (if_pos hnew)
  · exact .joined (if_neg hnew) (if_neg hnew)

/-- A launch that `await` adds has not been called. -/
theorem launch_await {l : Launch} (hq : s'.launches.get? q = some l) :
    s.launches.get? q = some l ∨ q = p ∧ l = { request := request } := by
  obtain ⟨-, -, -, -, -, -, ⟨hl, -⟩ | ⟨hl, -⟩⟩ := await_cases hawait
  · exact .inl (hl ▸ hq)
  · rw [hl, OrderedMap.get?_set] at hq
    split at hq
    · rename_i hpq
      exact .inr ⟨hpq.symm, (Option.some.inj hq).symm⟩
    · exact .inl hq

/-- `await` opens no run. -/
theorem opened_await (hr : s'.Opened q r) : s.Opened q r := by
  obtain ⟨request', hl⟩ := hr
  obtain hl | ⟨-, heq⟩ := launch_await hawait hl
  · exact ⟨request', hl⟩
  · cases heq

theorem Linked.grown_await (h : s.Linked ttl) : Grown s s' := by
  obtain ⟨hfresh, -, hpool, -, -, -, hfiles⟩ := await_cases hawait
  refine ⟨fun {q request' stage} hq _ => ?_, fun hrun => ⟨_, by rw [hpool, hrun], fun _ hx => hx⟩⟩
  obtain ⟨hl, -⟩ | ⟨hl, -⟩ := hfiles
  · rw [hl, hq]
  · rw [hl, OrderedMap.get?_set, if_neg, hq]
    rintro rfl
    have hsome := h.launched hq
    rw [hfresh] at hsome
    cases hsome

theorem Linked.await (h : s.Linked ttl) : s'.Linked ttl := by
  obtain ⟨hfresh, hle, hpool, hcut, hregistry, -, hfiles⟩ := await_cases hawait
  have hother : ∀ {q l}, s.launches.get? q = some l → p ≠ q := by
    rintro q l hq rfl
    have hsome := h.launched hq
    rw [hfresh] at hsome
    cases hsome
  constructor
  · rw [hregistry]
    exact h.sound.onRun hle hfresh
  · intro q l hq
    obtain ⟨hl, hx⟩ | ⟨hl, hx⟩ := hfiles
    · rw [hx]
      exact h.launched (hl ▸ hq)
    · rw [hl, OrderedMap.get?_set] at hq
      rw [hx, OrderedMap.get?_set]
      split at hq
      · rename_i hpq
        rw [if_pos hpq]
        rfl
      · rename_i hpq
        rw [if_neg hpq]
        exact h.launched hq
  · intro q id l hx hq
    obtain hq | ⟨-, rfl⟩ := launch_await hawait hq
    · apply h.waiting _ hq
      · exact id
      · obtain ⟨-, heq⟩ | ⟨-, heq⟩ := hfiles
        · rw [← heq, hx]
        · rw [heq, OrderedMap.get?_set, if_neg (hother hq)] at hx
          exact hx
    · rfl
  · intro q r hr
    rw [hpool]
    exact h.bound (opened_await hawait hr)
  · intro q q' r hr hr'
    exact h.apart (opened_await hawait hr) (opened_await hawait hr')
  · intro r hr
    rw [hcut] at hr
    rw [hpool]
    exact h.ended hr

end Await

section Launch

variable {reading : Reading} {request : InferRequest} {registry : RegistryState InferenceResult}

/-- A launch opens the next run, if any. -/
theorem opened_launch (hr : (s.launch o p reading request).Opened q r) :
    s.Opened q r ∨ q = p ∧ r = s.pool.runs.length ∧
      ∃ run, (s.launch o p reading request).pool.runs = s.pool.runs ++ [run] := by
  obtain ⟨request', hl⟩ := hr
  simp only [launch, OrderedMap.get?_set] at hl
  split at hl
  · rename_i hpq
    obtain ⟨hnone, -⟩ | ⟨run, hsome, hruns⟩ := WorkerPool.runs_infer (o := o) s.pool reading request
    · rw [hnone] at hl
      cases hl
    · rw [hsome] at hl
      cases hl
      exact .inr ⟨hpq.symm, rfl, run, hruns⟩
  · exact .inl ⟨request', hl⟩

theorem grown_launch (o : Options) (reading : Reading)
    (hl : s.launches.get? p = some ⟨request, .waiting⟩) :
    Grown s (s.launch o p reading request) where
  launch := fun {q request' stage} hq hstage => by
    simp only [launch, OrderedMap.get?_set]
    rw [if_neg, hq]
    rintro rfl
    rw [hl] at hq
    cases hq
    exact hstage rfl
  run := fun {r run} hrun => by
    refine ⟨run, ?_, fun _ hx => hx⟩
    obtain ⟨-, hruns⟩ | ⟨run', -, hruns⟩ := WorkerPool.runs_infer (o := o) s.pool reading request
    · exact hruns ▸ hrun
    · show (s.pool.infer o reading request).2.runs[r]? = some run
      rw [hruns, List.getElem?_append_left (List.getElem?_eq_some_iff.mp hrun).1, hrun]

theorem Linked.launch (h : s.Linked ttl) (hl : s.launches.get? p = some ⟨request, .waiting⟩)
    (hgoes : s.registry.Goes registry)
    (hrunning : ∀ id, registry.executions.get? p ≠ some ⟨id, .waiting⟩) :
    Linked ttl { s.launch o p reading request with registry := registry } where
  sound := hgoes.sound h.sound
  launched := fun {q l} hq => by
    apply hgoes.isSome
    simp only [Server.launch, OrderedMap.get?_set] at hq
    split at hq
    · rename_i hpq
      exact hpq ▸ h.launched hl
    · exact h.launched hq
  waiting := fun {q id l} hx hq => by
    simp only [Server.launch, OrderedMap.get?_set] at hq
    split at hq
    · rename_i hpq
      exact absurd (hpq ▸ hx) (hrunning id)
    · exact h.waiting (hgoes.waiting hx rfl) hq
  bound := fun {q r} hr => by
    obtain hold | ⟨-, rfl, run, hruns⟩ := opened_launch (s := s) (o := o) hr
    · obtain ⟨run, hrun, -⟩ :=
        (grown_launch o reading hl).run (List.getElem?_eq_getElem (h.bound hold))
      exact (List.getElem?_eq_some_iff.mp hrun).1
    · show s.pool.runs.length < (s.launch o p reading request).pool.runs.length
      rw [hruns, List.length_append]
      exact Nat.lt_succ_self _
  apart := fun {q q' r} hr hr' => by
    obtain hold | ⟨rfl, rfl, -⟩ := opened_launch (s := s) (o := o) hr
    all_goals obtain hold' | ⟨rfl, heq, -⟩ := opened_launch (s := s) (o := o) hr'
    · exact h.apart hold hold'
    · exact absurd (h.bound hold) (by omega)
    · exact absurd (h.bound hold') (by omega)
    · rfl
  ended := fun {r} hr => by
    obtain ⟨run, x, hrun, hx⟩ := h.ended hr
    obtain ⟨run', hrun', hkeep⟩ := (grown_launch o reading hl).run hrun
    exact ⟨run', x, hrun', hkeep x hx⟩

end Launch

theorem grown_pool {b : PoolAction} {pool : WorkerPool} (hstep : poolStep o s.pool b = some pool) :
    Grown s { s with pool := pool } where
  launch := fun hl _ => hl
  run := fun {r run} hrun => by
    obtain ⟨run', hrun', hlater | ⟨-, -, rfl⟩⟩ := WorkerPool.later_of_step hstep hrun
    · exact ⟨run', hrun', hlater.outcome⟩
    · exact ⟨run.connect, hrun', fun _ hx => hx⟩

section Abort

variable {caller : Caller} {run : Run}

/-- The handle is that of the run which the caller's own attempt has opened. -/
theorem handle_eq_some (h : s.handle caller = some r) :
    caller.outcome = none ∧ ∃ p, caller.Joined p ∧ s.Opened p r := by
  unfold handle at h
  split at h
  · rename_i p hstream hattempt hout
    split at h
    · rename_i request r' hl
      obtain rfl := Option.some.inj h
      refine ⟨hout, p, ?_, request, hl⟩
      rw [Caller.Joined, Caller.promise, hattempt]
      rfl
    · cases h
  · cases h

/-- The run of a caller's handle after the disconnect. -/
theorem cancelled_run (hrun : s.pool.runs[r]? = some run) :
    (s.pool.cancel o r).runs[r]? = some (run.failInFlight Run.cancelled) := by
  rw [WorkerPool.cancel, WorkerPool.runs_failInFlight, List.getElem?_modify_eq, hrun]
  rfl

theorem abort_of_none (hnone : s.handle caller = none) : s.abort o caller = s := by
  unfold abort
  rw [hnone]

theorem abort_of_run (hr : s.handle caller = some r) (hrun : s.pool.runs[r]? = some run) :
    s.abort o caller =
      { s with pool := s.pool.cancel o r, cut := if run.done then s.cut else r :: s.cut } := by
  unfold abort
  rw [hr]
  cases hdone : run.done <;> simp [hrun, hdone]

theorem grown_abort (h : s.Linked ttl) (caller : Caller) : Grown s (s.abort o caller) := by
  cases hr : s.handle caller with
  | none => exact grown_of_eq (by rw [abort_of_none hr]) (by rw [abort_of_none hr])
  | some r =>
      obtain ⟨-, p, -, hopened⟩ := handle_eq_some hr
      rw [abort_of_run hr (List.getElem?_eq_getElem (h.bound hopened))]
      refine ⟨fun hl _ => hl, fun {k run} hrun => ?_⟩
      by_cases hkr : r = k
      · subst hkr
        exact ⟨_, cancelled_run hrun, (run.later_failInFlight _).outcome⟩
      · refine ⟨run, ?_, fun _ hx => hx⟩
        rw [WorkerPool.cancel, WorkerPool.runs_failInFlight, List.getElem?_modify_ne _ _ hkr, hrun]

theorem Linked.abort (h : s.Linked ttl) (caller : Caller) : (s.abort o caller).Linked ttl := by
  cases hr : s.handle caller with
  | none => rwa [abort_of_none hr]
  | some r =>
      have hgrown : Grown s (s.abort o caller) := grown_abort h caller
      obtain ⟨-, p, -, hopened⟩ := handle_eq_some hr
      have hrun := List.getElem?_eq_getElem (h.bound hopened)
      have heq := abort_of_run (o := o) hr hrun
      refine h.pool (by rw [heq]) (by rw [heq]) hgrown fun k hk hnot => ?_
      rw [heq] at hk ⊢
      dsimp only at hk ⊢
      split at hk
      · exact absurd hk hnot
      · rename_i hdone
        obtain rfl | hk := List.mem_cons.mp hk
        · obtain ⟨x, hx⟩ := Option.isSome_iff_exists.mp
            (Run.isSome_failInFlight (Bool.eq_false_of_not_eq_true hdone) Run.cancelled)
          exact ⟨_, x, cancelled_run hrun, hx⟩
        · exact absurd hk hnot

end Abort

theorem Linked.setCaller (h : s.Linked ttl) (c : ℕ) (f : Caller → Caller) :
    (s.setCaller c f).Linked ttl :=
  h.goes rfl rfl rfl (.inl rfl)

theorem Linked.served (h : s.Linked ttl) (hs : Served o s a s') : s'.Linked ttl := by
  cases hs with
  | moved hgoes => exact h.goes rfl rfl rfl hgoes
  | answered hgoes => exact h.goes rfl rfl rfl hgoes
  | awaited hdrained hawait => exact h.await hawait
  | called hl hgoes hrunning => exact h.launch hl hgoes hrunning
  | resumed hc hattempt hx => exact h.setCaller _ _
  | parted hc hconnected =>
      apply Linked.abort
      exact h.setCaller _ _
  | pooled hstep =>
      exact h.pool rfl rfl (grown_pool hstep) (fun r hr hnot => absurd hr hnot)

theorem Linked.grown (h : s.Linked ttl) (hs : Served o s a s') : Grown s s' := by
  cases hs with
  | moved hgoes => exact grown_of_eq rfl rfl
  | answered hgoes => exact grown_of_eq rfl rfl
  | awaited hdrained hawait => exact Linked.grown_await hawait h
  | @called p reading request registry hl hgoes hrunning =>
      have hgrown := grown_launch o reading hl
      exact ⟨hgrown.launch, hgrown.run⟩
  | resumed hc hattempt hx => exact grown_of_eq rfl rfl
  | @parted c caller hc hconnected =>
      have hgrown := fun f => grown_abort (o := o) (h.setCaller c f) caller
      exact ⟨(hgrown _).launch, (hgrown _).run⟩
  | pooled hstep => exact grown_pool hstep

/-- Nothing that a new caller may join has been cut. -/
theorem Linked.notMem_cut (h : s.Linked ttl) (hdrained : s.drained = true)
    {x : Execution InferenceResult} (hx : s.registry.executions.get? p = some x) (hopen : x.Open)
    (hr : s.Opened p r) : r ∉ s.cut := by
  intro hcut
  obtain ⟨request, hl⟩ := hr
  have hquiet := List.all_eq_true.mp hdrained _ (OrderedMap.get?_eq_some_iff.mp hx)
  obtain ⟨id, phase⟩ := x
  cases phase with
  | waiting => cases h.waiting hx hl
  | running =>
      obtain ⟨run, y, hrun, hy⟩ := h.ended hcut
      have hanswer := answer_eq_some.mpr (.inr ⟨r, run, ⟨request, hl⟩, hrun, hy⟩)
      rw [Option.isNone_iff_eq_none.mp hquiet] at hanswer
      cases hanswer
  | answered outcome => cases hquiet
  | settled outcome => exact hopen outcome rfl

/-- No caller that is still there waits for a run that is cut, and what a caller was told is how
its execution was settled. -/
structure Spared (s : Server) : Prop where
  kept : ∀ {c : ℕ} {caller p r}, s.callers[c]? = some caller → caller.connected = true →
    caller.Joined p → s.Opened p r → r ∉ s.cut
  told : ∀ {c : ℕ} {caller err}, s.callers[c]? = some caller →
    caller.outcome = some (.rejected err) →
      ∃ p, caller.Joined p ∧ s.answer p = some (.rejected err)

theorem spared_init (o : Options) (ttl : ℤ) (file : Option JsString) (now : ℤ) :
    (init o ttl file now).Spared where
  kept := fun h => by simp [init] at h
  told := fun h => by simp [init] at h

theorem Spared.isolated (h : s.Spared) : s.Isolated := by
  intro c caller err hc hconnected hout
  obtain ⟨p, hjoined, hanswer⟩ := h.told hc hout
  refine ⟨p, hjoined, ?_⟩
  obtain ⟨request, hl, heq⟩ | ⟨r, run, hr, hrun, hout'⟩ := answer_eq_some.mp hanswer
  · exact .inl ⟨request, hl, Outcome.rejected.inj heq⟩
  · exact .inr ⟨r, run, hr, hrun, hout', h.kept hc hconnected hjoined hr⟩

/-- The callers stay, and nothing is cut. -/
theorem Spared.grown (h : s.Spared) (hgrown : Grown s s') (hcallers : s'.callers = s.callers)
    (hopened : ∀ p r, s'.Opened p r → r ∈ s'.cut → s.Opened p r ∧ r ∈ s.cut) : s'.Spared where
  kept := fun hc hconnected hjoined hr hcut => by
    rw [hcallers] at hc
    obtain ⟨hr, hcut⟩ := hopened _ _ hr hcut
    exact h.kept hc hconnected hjoined hr hcut
  told := fun hc hout => by
    rw [hcallers] at hc
    obtain ⟨p, hjoined, hanswer⟩ := h.told hc hout
    exact ⟨p, hjoined, hgrown.answer hanswer⟩

/-- A caller comes in. -/
theorem Spared.append (h : s.Spared) {caller : Caller} (hout : caller.outcome = none)
    (hkept : ∀ p r, caller.Joined p → s.Opened p r → r ∉ s.cut) :
    Spared { s with callers := s.callers ++ [caller] } where
  kept := fun {c caller' p r} hc hconnected hjoined hr => by
    simp only [List.getElem?_append, List.getElem?_singleton] at hc
    split at hc
    · exact h.kept hc hconnected hjoined hr
    · split at hc
      · obtain rfl := Option.some.inj hc
        exact hkept p r hjoined hr
      · cases hc
  told := fun {c caller' err} hc hout' => by
    simp only [List.getElem?_append, List.getElem?_singleton] at hc
    split at hc
    · exact h.told hc hout'
    · split at hc
      · obtain rfl := Option.some.inj hc
        rw [hout] at hout'
        cases hout'
      · cases hc

/-- A caller is changed, and its attempt is not. -/
theorem Spared.setCaller (h : s.Spared) {c : ℕ} {caller : Caller} {f : Caller → Caller}
    (hc : s.callers[c]? = some caller) (hattempt : (f caller).attempt = caller.attempt)
    (hconnected : (f caller).connected = true → caller.connected = true)
    (htold : ∀ err, (f caller).outcome = some (.rejected err) →
      caller.outcome = some (.rejected err) ∨
        ∃ p, caller.Joined p ∧ s.answer p = some (.rejected err)) :
    (s.setCaller c f).Spared where
  kept := fun {c' caller' p r} hc' hconnected' hjoined hr => by
    simp only [Server.setCaller, List.getElem?_modify] at hc'
    split at hc'
    · rename_i hcc
      subst hcc
      rw [hc] at hc'
      obtain rfl := Option.some.inj hc'
      refine h.kept hc (hconnected hconnected') ?_ hr
      rwa [Caller.Joined, Caller.promise, ← hattempt]
    · exact h.kept (by simpa using hc') hconnected' hjoined hr
  told := fun {c' caller' err} hc' hout => by
    simp only [Server.setCaller, List.getElem?_modify] at hc'
    split at hc'
    · rename_i hcc
      subst hcc
      rw [hc] at hc'
      obtain rfl := Option.some.inj hc'
      have hjoin : ∀ {p}, caller.Joined p → (f caller).Joined p := by
        intro p hp
        rwa [Caller.Joined, Caller.promise, hattempt]
      obtain hold | ⟨p, hjoined, hanswer⟩ := htold err hout
      · obtain ⟨p, hjoined, hanswer⟩ := h.told hc hold
        exact ⟨p, hjoin hjoined, hanswer⟩
      · exact ⟨p, hjoin hjoined, hanswer⟩
    · exact h.told (by simpa using hc') hout

theorem Spared.await (h : s.Spared) (hlinked : s.Linked ttl) (hdrained : s.drained = true)
    {request : InferRequest} {now : ℤ} (hawait : s.await p request now = some s') : s'.Spared := by
  obtain ⟨hfresh, -, hpool, hcut, -, hcallers, -⟩ := await_cases hawait
  have hnew : Spared { s with callers := s.callers ++ [{
      request := request
      attempt := some (s.registry.registry.run p request.requestId request.mfeId request.stream
        now).1 }] } := h.append rfl ?_
  · have hgrown : Grown s s' := Linked.grown_await hawait hlinked
    refine hnew.grown ⟨hgrown.launch, hgrown.run⟩ hcallers fun q r hr hmem => ?_
    have hold : s.Opened q r := opened_await hawait hr
    exact ⟨hold, hcut ▸ hmem⟩
  · intro q r hjoined hr
    have hpromise := Option.some.inj hjoined
    obtain ⟨c, -, hrun⟩ | ⟨-, e, he, hrun⟩ | ⟨-, -, hrun⟩ :=
      s.registry.registry.run_cases p request.requestId request.mfeId request.stream now
    all_goals rw [hrun] at hpromise
    · cases hpromise
    · cases hpromise
      obtain ⟨x, hx, -, hopen⟩ := hlinked.sound.entry he
      exact hlinked.notMem_cut hdrained hx hopen hr
    · cases hpromise
      obtain ⟨request', hl⟩ := hr
      have hsome := hlinked.launched hl
      rw [hfresh] at hsome
      cases hsome

theorem Spared.launch (h : s.Spared) (hlinked : s.Linked ttl) {reading : Reading}
    {request : InferRequest} {registry : RegistryState InferenceResult}
    (hl : s.launches.get? p = some ⟨request, .waiting⟩) :
    Spared { s.launch o p reading request with registry := registry } := by
  have hgrown := grown_launch o reading hl
  refine h.grown ⟨hgrown.launch, hgrown.run⟩ rfl fun q r hr hcut => ⟨?_, hcut⟩
  obtain hold | ⟨-, rfl, -⟩ := opened_launch (s := s) (o := o) hr
  · exact hold
  · obtain ⟨run, x, hrun, -⟩ := hlinked.ended hcut
    exact absurd (List.getElem?_eq_some_iff.mp hrun).1 (lt_irrefl _)

/-- A disconnect that ends nobody else's run. -/
theorem Spared.abort (h : s.Spared) (hlinked : s.Linked ttl) {caller : Caller}
    (hunshared : ∀ p r run, s.handle caller = some r → s.pool.runs[r]? = some run →
      run.done = false → caller.Joined p → ∀ (c : ℕ) caller', s.callers[c]? = some caller' →
        caller'.connected = true → ¬ caller'.Joined p) :
    (s.abort o caller).Spared := by
  have hgrown : Grown s (s.abort o caller) := grown_abort hlinked caller
  cases hr : s.handle caller with
  | none => rwa [abort_of_none hr]
  | some r =>
      obtain ⟨-, p, hjoined, hopened⟩ := handle_eq_some hr
      have hrun := List.getElem?_eq_getElem (hlinked.bound hopened)
      have heq := abort_of_run (o := o) hr hrun
      refine ⟨fun {c caller' q k} hc hconnected hjoined' hk hcut => ?_,
        fun {c caller' err} hc hout => ?_⟩
      · rw [heq] at hc hk hcut
        dsimp only at hcut
        split at hcut
        · exact h.kept hc hconnected hjoined' hk hcut
        · rename_i hdone
          obtain rfl | hcut := List.mem_cons.mp hcut
          · obtain rfl := hlinked.apart hopened hk
            exact hunshared p k _ hr hrun (Bool.eq_false_of_not_eq_true hdone) hjoined c caller' hc
              hconnected hjoined'
          · exact h.kept hc hconnected hjoined' hk hcut
      · have hc' : s.callers[c]? = some caller' := by rw [heq] at hc; exact hc
        obtain ⟨q, hq, hanswer⟩ := h.told hc' hout
        exact ⟨q, hq, hgrown.answer hanswer⟩

theorem settled_eq {attempt : Attempt InferenceResult} {err : WorkerPoolError}
    (h : s.settled attempt.promise = some (.rejected err)) :
    ∃ p, attempt.promise = .execution p ∧ s.answer p = some (.rejected err) := by
  unfold settled at h
  split at h
  · cases h
  · rename_i p hp
    split at h
    · exact ⟨p, hp, h⟩
    · cases h

theorem Spared.served (h : s.Spared) (hlinked : s.Linked ttl) (hok : s.unshared a = true)
    (hs : Served o s a s') : s'.Spared := by
  cases hs with
  | moved hgoes => exact h.grown (grown_of_eq rfl rfl) rfl fun _ _ hr hcut => ⟨hr, hcut⟩
  | @answered _ registry request reply hgoes =>
      have hanswered : Spared
          { s with callers := s.callers ++ [{ request := request, reply := some reply }] } :=
        h.append rfl fun q r hjoined => by cases hjoined
      exact hanswered.grown (grown_of_eq rfl rfl) rfl fun _ _ hr hcut => ⟨hr, hcut⟩
  | awaited hdrained hawait => exact h.await hlinked hdrained hawait
  | called hl hgoes hrunning => exact h.launch hlinked hl
  | resumed hc hattempt hx =>
      refine h.setCaller hc rfl id fun err hout => .inr ?_
      obtain rfl := Option.some.inj hout
      obtain ⟨p, hp, hanswer⟩ := settled_eq hx
      refine ⟨p, ?_, hanswer⟩
      rw [Caller.Joined, Caller.promise, hattempt, Option.map_some, hp]
  | @parted c caller hc hconnected =>
      have hleft : (s.setCaller c fun caller => { caller with connected := false }).Spared :=
        h.setCaller hc rfl (fun hfalse => by cases hfalse) (fun err hout => .inl hout)
      refine hleft.abort (hlinked.setCaller _ _) ?_
      intro p r run hr hrun hdone hjoined c' caller' hc' hconnected' hjoined'
      have hends : s.ends c = some r := by
        unfold ends
        have hhandle : s.handle caller = some r := hr
        have hruns : s.pool.runs[r]? = some run := hrun
        simp [hc, hhandle, hruns, hdone]
      by_cases hcc : c = c'
      · subst hcc
        simp only [Server.setCaller, List.getElem?_modify_eq, hc] at hc'
        obtain rfl := Option.some.inj hc'
        cases hconnected'
      · simp only [Server.setCaller, List.getElem?_modify_ne _ _ hcc] at hc'
        exact not_joined_of_unshared hok hends hc hjoined (Ne.symm hcc) hc' hconnected' hjoined'
  | pooled hstep =>
      exact h.grown (grown_pool hstep) rfl fun _ _ hr hcut => ⟨hr, hcut⟩

theorem answer_congr (hl : s'.launches = s.launches)
    (hruns : ∀ r, s.Opened p r →
      (s'.pool.runs[r]?).bind Run.outcome = (s.pool.runs[r]?).bind Run.outcome) :
    s'.answer p = s.answer p := by
  unfold answer
  rw [hl]
  split
  · rfl
  · rename_i request r hr
    exact hruns r ⟨request, hr⟩
  · rfl

/-- A disconnect leaves the promises of the others alone. -/
theorem answer_disconnect (h : s.Linked ttl) {c c' : ℕ} {caller : Caller}
    (hok : s.unshared (.disconnect c) = true) (hs : s.disconnect o c = some s') (hcc : c' ≠ c)
    (hc' : s.callers[c']? = some caller) (hconnected : caller.connected = true)
    (hjoined : caller.Joined p) : s'.answer p = s.answer p := by
  unfold disconnect at hs
  split at hs
  · rename_i gone hc
    obtain ⟨-, hs⟩ := Option.ite_none_right_eq_some.mp hs
    obtain rfl := Option.some.inj hs
    cases hr : s.handle gone with
    | none =>
        rw [abort_of_none (s := s.setCaller c _) hr]
        rfl
    | some r =>
        obtain ⟨-, q, hgone, hopened⟩ := handle_eq_some hr
        obtain ⟨run, hrun⟩ : ∃ run, s.pool.runs[r]? = some run :=
          ⟨_, List.getElem?_eq_getElem (h.bound hopened)⟩
        rw [abort_of_run (s := s.setCaller c _) hr hrun]
        refine answer_congr rfl fun k hk => ?_
        show ((s.pool.cancel o r).runs[k]?).bind Run.outcome = (s.pool.runs[k]?).bind Run.outcome
        by_cases hkr : r = k
        · subst hkr
          obtain rfl := h.apart hopened hk
          rw [cancelled_run hrun, hrun]
          cases hdone : run.done with
          | true => exact Run.outcome_failInFlight_of_done hdone _
          | false =>
              have hends : s.ends c = some r := by
                unfold ends
                simp [hc, hr, hrun, hdone]
              exact absurd hjoined (not_joined_of_unshared hok hends hc hgone hcc hc' hconnected)
        · rw [WorkerPool.cancel, WorkerPool.runs_failInFlight, List.getElem?_modify_ne _ _ hkr]
  · cases hs

/-- In a run in which no disconnect ends a run that another caller, who is still there, waits for,
a caller that is still there fails only if its execution fails itself, and a disconnect leaves the
promises of the others alone. -/
theorem callers_isolated {file : Option JsString} {now : ℤ} {as : List ServerAction}
    (hok : Machine.Guarded (serverStep o) (fun s a => s.unshared a) (init o ttl file now) as) :
    Machine.Always (serverStep o) Isolated (init o ttl file now) as ∧
      ∀ pre c, pre ++ [.disconnect c] <+: as → ∀ s s',
        Machine.exec (serverStep o) (init o ttl file now) pre = some s →
        serverStep o s (.disconnect c) = some s' →
        ∀ (c' : ℕ) caller p, c' ≠ c → s.callers[c']? = some caller → caller.connected = true →
          caller.Joined p → s'.answer p = s.answer p := by
  have hkeep : Machine.Always (serverStep o) (fun s => s.Linked ttl ∧ s.Spared)
      (init o ttl file now) as := by
    refine hok.always ⟨linked_init o ttl file now, spared_init o ttl file now⟩ ?_
    intro s a s' h hunshared hs
    have hserved := served_of_step hs
    exact ⟨h.1.served hserved, h.2.served h.1 hunshared hserved⟩
  refine ⟨fun pre hpre s hs => (hkeep pre hpre s hs).2.isolated, ?_⟩
  intro pre c hpre s s' hs hstep c' caller p hcc hc' hconnected hjoined
  have hlinked := (hkeep pre ((List.prefix_append pre _).trans hpre) s hs).1
  have hdisconnect : s.disconnect o c = some s' := by
    unfold serverStep at hstep
    split at hstep
    · cases hstep
    · exact hstep
  exact answer_disconnect hlinked (hok pre _ hpre s hs) hdisconnect hcc hc' hconnected hjoined

/-- A stream and a buffered request that joins it. -/
def joinedStream : List ServerAction :=
  [.stream 0 ⟨Json.units "a", Json.units "hi", [], true⟩ 1, .callExecute 0 ⟨100, fun _ => true⟩,
    .post 1 ⟨Json.units "a", Json.units "hi", [], false⟩ 2, .pool (.connect 0)]

/-- The buffered caller goes away, and then the worker closes the stream's socket. -/
def joinerLeaves : List ServerAction :=
  joinedStream ++ [.disconnect 1, .pool (.close 0), .settleExecute 0, .react 0 3, .resume 0]

theorem callers_isolated_joinerLeaves :
    ∃ s, Machine.exec (serverStep WorkerPool.twoWorkers) (init WorkerPool.twoWorkers 20 none 0)
        joinerLeaves = some s ∧ s.Isolated := by
  have hok : Machine.Guarded (serverStep WorkerPool.twoWorkers) (fun s a => s.unshared a)
      (init WorkerPool.twoWorkers 20 none 0) joinerLeaves := by decide
  have hrun : (Machine.exec (serverStep WorkerPool.twoWorkers) (init WorkerPool.twoWorkers 20 none 0)
      joinerLeaves).isSome = true := by decide
  obtain ⟨s, hs⟩ := Option.isSome_iff_exists.mp hrun
  exact ⟨s, hs, (callers_isolated hok).1 _ (List.prefix_refl _) s hs⟩

/-- The stream's caller goes away, and the buffered one is told that the stream was cancelled. -/
def openerLeaves : List ServerAction :=
  joinedStream ++ [.disconnect 0, .settleExecute 0, .react 0 3, .resume 1]

theorem joined_caller_cut :
    ¬ ∀ (o : Options) (ttl : ℤ) (file : Option JsString) (now : ℤ) (as : List ServerAction),
      Machine.Always (serverStep o) Isolated (init o ttl file now) as := by
  intro hall
  have hrun : (Machine.exec (serverStep WorkerPool.twoWorkers) (init WorkerPool.twoWorkers 20 none 0)
      openerLeaves).any (fun s =>
        (s.callers[1]?.map fun caller => (caller.connected, caller.outcome, caller.promise)) =
            some (true, some (.rejected Run.cancelled), some (.execution 0)) ∧
          (s.launches.get? 0).map Launch.stage = some (.opened 0) ∧ s.cut = [0]) = true := by
    decide
  obtain ⟨s, hs, hstate⟩ := (Option.any_eq_true _ _).mp hrun
  obtain ⟨hcaller, hlaunch, hcut⟩ := of_decide_eq_true hstate
  obtain ⟨caller, hc, hcaller⟩ := Option.map_eq_some_iff.mp hcaller
  simp only [Prod.mk.injEq] at hcaller
  obtain ⟨hconnected, hout, hpromise⟩ := hcaller
  obtain ⟨p, hjoined, hfailed⟩ :=
    hall _ 20 none 0 openerLeaves _ (List.prefix_refl _) s hs 1 caller _ hc hconnected hout
  obtain rfl : 0 = p := by
    rw [Caller.Joined, hpromise] at hjoined
    exact AttemptPromise.execution.inj (Option.some.inj hjoined)
  obtain ⟨request, hl, -⟩ | ⟨r, run, ⟨request, hl⟩, -, -, hspared⟩ := hfailed
  · rw [hl] at hlaunch
    cases hlaunch
  · rw [hl] at hlaunch
    cases hlaunch
    rw [hcut] at hspared
    exact hspared List.mem_cons_self

end Server

end ServeInfer.ApiServer
