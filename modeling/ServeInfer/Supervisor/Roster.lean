import ServeInfer.Supervisor.Steps

/-!
# One process for each worker id

The two tables list the unreaped children and nothing else, a worker id that
gets a process has none at that time, and a worker runs on what its id is
assigned. Every step of the supervisor is a chain of deeds that keep this.
-/

namespace ServeInfer.Supervisor

/-- The entry tells of no new process, and its signal, if it tells of one, met an unreaped child. -/
def Event.Soft : Event → Prop
  | .spawned .. => False
  | .killed victim .. => victim ≠ none
  | .terminated victim _ => victim ≠ none
  | _ => True

/-- The worker keeps its place, and its backend but for a change from `cuda` to `cpu`. -/
def WorkerAssignment.Demoted (before after : WorkerAssignment) : Prop :=
  after.workerId = before.workerId ∧
    (after.backend = before.backend ∨ before.backend = .cuda ∧ after.backend = .cpu)

/-- Nothing but changes from `cuda` to `cpu` has happened to the assignments. -/
def OnlyDemoted : List WorkerAssignment → List WorkerAssignment → Prop :=
  List.Forall₂ WorkerAssignment.Demoted

theorem WorkerAssignment.Demoted.refl (a : WorkerAssignment) : a.Demoted a := ⟨rfl, .inl rfl⟩

theorem WorkerAssignment.Demoted.trans {a b c : WorkerAssignment} (h : a.Demoted b)
    (h' : b.Demoted c) : a.Demoted c := by
  refine ⟨h'.1.trans h.1, ?_⟩
  rcases h'.2 with hsame | ⟨hcuda, hcpu⟩
  · rw [hsame]
    exact h.2
  · rcases h.2 with hsame | ⟨-, hcpu'⟩
    · exact .inr ⟨hsame ▸ hcuda, hcpu⟩
    · rw [hcuda] at hcpu'
      cases hcpu'

theorem OnlyDemoted.refl (l : List WorkerAssignment) : OnlyDemoted l l :=
  List.forall₂_same.mpr fun a _ => .refl a

theorem OnlyDemoted.trans {l₁ l₂ l₃ : List WorkerAssignment} (h : OnlyDemoted l₁ l₂)
    (h' : OnlyDemoted l₂ l₃) : OnlyDemoted l₁ l₃ := by
  induction h generalizing l₃ with
  | nil =>
      cases h'
      exact .nil
  | cons hab _ ih =>
      cases h' with
      | cons hbc hrest => exact .cons (hab.trans hbc) (ih hrest)

/-- Demoting one worker is a demotion. -/
theorem onlyDemoted_modify (l : List WorkerAssignment) (i : ℕ) (reason : String)
    (h : ∀ a, l[i]? = some a → a.backend = .cuda) :
    OnlyDemoted l (l.modify i (demoteToCpu · reason)) := by
  induction l generalizing i with
  | nil =>
      rw [List.modify_nil]
      exact .refl []
  | cons a l ih =>
      cases i with
      | zero => exact .cons ⟨rfl, .inr ⟨h a rfl, rfl⟩⟩ (OnlyDemoted.refl l)
      | succ i => exact .cons (.refl a) (ih i fun b hb => h b hb)

namespace State

variable {cfg : Config} {gone : ℕ → Prop} {only : ℤ → Prop} {s s' s'' s₀ : State} {w : ℤ} {pid : ℕ}

/-- No process stands for the worker id. -/
def Vacant (s : State) (w : ℤ) : Prop := s.workerPidById.get? w = none

/-- The tables list the children, and every worker runs on what its id is assigned. -/
structure Roster (cfg : Config) (s : State) : Prop where
  pids : s.pids.Nodup
  entered : ∀ {pid info}, s.processesByPid.get? pid = some info ↔
    ∃ c ∈ s.children, c.pid = pid ∧ info = ⟨pid, c.type, c.workerId⟩
  mapped : ∀ {w pid}, s.workerPidById.get? w = some pid ↔
    ∃ c ∈ s.children, c.pid = pid ∧ c.type = .worker ∧ c.workerId = w
  ids : ∀ c ∈ s.children, c.type = .worker →
    0 ≤ c.workerId ∧ c.workerId < cfg.effectiveWorkerCount
  backend : ∀ c ∈ s.children, c.type = .worker →
    c.backend = (s.assignmentFor c.workerId).map WorkerAssignment.backend

/-- Nothing changed that the roster depends on. -/
structure Apart (s s' : State) : Prop where
  children : s'.children = s.children
  processes : s'.processesByPid = s.processesByPid
  workers : s'.workerPidById = s.workerPidById
  assignments : s'.assignments = s.assignments
  trace : ∃ es, s'.trace = s.trace ++ es ∧ ∀ e ∈ es, e.Soft
  running : s'.running = true → s.running = true

/-- A process has been forked and entered. -/
structure Launched (s s' : State) (c : Child) : Prop where
  fresh : c.pid ∉ s.pids
  children : s'.children = s.children ++ [c]
  processes : s'.processesByPid = s.processesByPid.set c.pid ⟨c.pid, c.type, c.workerId⟩
  assignments : s'.assignments = s.assignments
  running : s'.running = s.running

/-- A worker has been forked for an id that had no process. -/
structure Staffed (cfg : Config) (s s' : State) (c : Child) (now : ℤ) : Prop
    extends s.Launched s' c where
  type : c.type = .worker
  vacant : s.Vacant c.workerId
  ids : 0 ≤ c.workerId ∧ c.workerId < cfg.effectiveWorkerCount
  backend : c.backend = (s.assignmentFor c.workerId).map WorkerAssignment.backend
  workers : s'.workerPidById = s.workerPidById.set c.workerId c.pid
  trace : s'.trace = s.trace ++ [.spawned c.serial c.workerId now]

/-- A reaped process has left the tables. -/
structure Left (s s' : State) (pid : ℕ) : Prop where
  children : s'.children = s.children.filter fun c => c.pid ≠ pid
  processes : s'.processesByPid = s.processesByPid.delete pid
  workers : ∀ {w p}, s'.workerPidById.get? w = some p ↔
    s.workerPidById.get? w = some p ∧ p ≠ pid
  assignments : s'.assignments = s.assignments
  trace : s'.trace = s.trace
  running : s'.running = s.running

/-- What a step of the supervisor is made of: only processes with a pid in `gone` leave, and
workers are started only for the ids in `only`. -/
inductive Deed (cfg : Config) (gone : ℕ → Prop) (only : ℤ → Prop) (s s' : State) : Prop
  | aside (h : s.Apart s')
  | demoted (i : ℕ) (a : WorkerAssignment) (reason : String) (ha : s.assignments[i]? = some a)
      (hcuda : a.backend = .cuda) (hvacant : s.Vacant a.workerId)
      (eq : s' = { s with assignments := s.assignments.modify i (demoteToCpu · reason) })
  | singleton (c : Child) (h : s.Launched s' c) (type : c.type ≠ .worker)
      (workers : s'.workerPidById = s.workerPidById) (trace : s'.trace = s.trace)
  | staffed (c : Child) (now : ℤ) (h : s.Staffed cfg s' c now) (id : only c.workerId)
  | left (pid : ℕ) (h : s.Left s' pid) (hgone : gone pid)
  | ended (serial status : ℕ) (eq : s' = s.die serial status)

/-- A chain of deeds. -/
abbrev Deeds (cfg : Config) (gone : ℕ → Prop) (only : ℤ → Prop) : State → State → Prop :=
  Relation.ReflTransGen (Deed cfg gone only)

/-- The assignments of the other workers stay where they are. -/
theorem assignmentFor_demoted {i : ℕ} {a : WorkerAssignment} {reason : String}
    (ha : s.assignments[i]? = some a) (hw : a.workerId ≠ w) :
    assignmentFor { s with assignments := s.assignments.modify i (demoteToCpu · reason) } w =
      s.assignmentFor w := by
  unfold assignmentFor
  dsimp only
  generalize s.assignments = l at ha
  induction l generalizing i with
  | nil => cases ha
  | cons b l ih =>
      cases i with
      | zero =>
          obtain rfl := Option.some.inj ha
          have hdemoted : (demoteToCpu b reason).workerId ≠ w := hw
          rw [List.modify_zero_cons, List.find?_cons_of_neg (by simpa using hdemoted),
            List.find?_cons_of_neg (by simpa using hw)]
      | succ i =>
          rw [List.modify_succ_cons, List.find?_cons, List.find?_cons, ih ha]

theorem Roster.apart (h : s.Roster cfg) (ha : s.Apart s') : s'.Roster cfg where
  pids := by
    rw [State.pids, ha.children]
    exact h.pids
  entered := by
    rw [ha.processes, ha.children]
    exact h.entered
  mapped := by
    rw [ha.workers, ha.children]
    exact h.mapped
  ids := by
    rw [ha.children]
    exact h.ids
  backend := by
    rw [ha.children]
    unfold assignmentFor
    rw [ha.assignments]
    exact h.backend

/-- An id without a process has no worker among the children. -/
theorem Roster.notMem_of_vacant (h : s.Roster cfg) (hv : s.Vacant w) {c : Child}
    (hc : c ∈ s.children) (ht : c.type = .worker) : c.workerId ≠ w := by
  rintro rfl
  have hlisted := h.mapped.mpr ⟨c, hc, rfl, ht, rfl⟩
  rw [hv] at hlisted
  cases hlisted

theorem Roster.launched_pids (h : s.Roster cfg) {c : Child} (hl : s.Launched s' c) :
    s'.pids.Nodup := by
  rw [State.pids, hl.children, List.map_append]
  exact h.pids.append (List.nodup_singleton _) (by simpa using hl.fresh)

theorem Roster.launched_entered (h : s.Roster cfg) {c : Child} (hl : s.Launched s' c)
    {info : ProcessInfo} : s'.processesByPid.get? pid = some info ↔
      ∃ d ∈ s'.children, d.pid = pid ∧ info = ⟨pid, d.type, d.workerId⟩ := by
  rw [hl.processes, hl.children, OrderedMap.get?_set]
  split
  · rename_i heq
    subst heq
    constructor
    · intro hinfo
      exact ⟨c, by simp, rfl, (Option.some.inj hinfo).symm⟩
    · rintro ⟨d, hd, hpid, rfl⟩
      rcases List.mem_append.mp hd with hd | hd
      · exact absurd (hpid ▸ List.mem_map_of_mem hd) hl.fresh
      · rw [List.mem_singleton.mp hd]
  · rename_i hne
    rw [h.entered]
    constructor
    · rintro ⟨d, hd, hrest⟩
      exact ⟨d, List.mem_append_left _ hd, hrest⟩
    · rintro ⟨d, hd, hpid, hinfo⟩
      rcases List.mem_append.mp hd with hd | hd
      · exact ⟨d, hd, hpid, hinfo⟩
      · rw [List.mem_singleton.mp hd] at hpid
        exact absurd hpid hne

theorem Roster.singleton (h : s.Roster cfg) {c : Child} (hl : s.Launched s' c)
    (ht : c.type ≠ .worker) (hw : s'.workerPidById = s.workerPidById) : s'.Roster cfg := by
  have hold : ∀ d ∈ s'.children, d.type = .worker → d ∈ s.children := by
    intro d hd hdt
    rw [hl.children, List.mem_append, List.mem_singleton] at hd
    refine hd.resolve_right ?_
    rintro rfl
    exact ht hdt
  have hnew : ∀ d ∈ s.children, d ∈ s'.children := fun d hd => by
    rw [hl.children]
    exact List.mem_append_left _ hd
  refine ⟨h.launched_pids hl, h.launched_entered hl, ?_, ?_, ?_⟩
  · intro w pid
    rw [hw, h.mapped]
    constructor
    · rintro ⟨d, hd, hrest⟩
      exact ⟨d, hnew d hd, hrest⟩
    · rintro ⟨d, hd, hpid, hdt, hid⟩
      exact ⟨d, hold d hd hdt, hpid, hdt, hid⟩
  · exact fun d hd hdt => h.ids d (hold d hd hdt) hdt
  · intro d hd hdt
    unfold assignmentFor
    rw [hl.assignments]
    exact h.backend d (hold d hd hdt) hdt

theorem Roster.staffed (h : s.Roster cfg) {c : Child} {now : ℤ} (hf : s.Staffed cfg s' c now) :
    s'.Roster cfg := by
  have hassigned : s'.assignmentFor = s.assignmentFor := by
    funext w
    unfold assignmentFor
    rw [hf.assignments]
  refine ⟨h.launched_pids hf.toLaunched, h.launched_entered hf.toLaunched, ?_, ?_, ?_⟩
  · intro w pid
    rw [hf.workers, hf.children, OrderedMap.get?_set]
    split
    · rename_i heq
      subst heq
      constructor
      · intro hpid
        exact ⟨c, by simp, Option.some.inj hpid, hf.type, rfl⟩
      · rintro ⟨d, hd, rfl, hdt, hid⟩
        rcases List.mem_append.mp hd with hd | hd
        · exact absurd hid (h.notMem_of_vacant hf.vacant hd hdt)
        · rw [List.mem_singleton.mp hd]
    · rename_i hne
      rw [h.mapped]
      constructor
      · rintro ⟨d, hd, hrest⟩
        exact ⟨d, List.mem_append_left _ hd, hrest⟩
      · rintro ⟨d, hd, hpid, hdt, hid⟩
        rcases List.mem_append.mp hd with hd | hd
        · exact ⟨d, hd, hpid, hdt, hid⟩
        · rw [List.mem_singleton.mp hd] at hid
          exact absurd hid hne
  · intro d hd hdt
    rw [hf.children, List.mem_append, List.mem_singleton] at hd
    rcases hd with hd | rfl
    · exact h.ids d hd hdt
    · exact hf.ids
  · intro d hd hdt
    rw [hf.children, List.mem_append, List.mem_singleton] at hd
    rw [hassigned]
    rcases hd with hd | rfl
    · exact h.backend d hd hdt
    · exact hf.backend

theorem Roster.left (h : s.Roster cfg) (hl : s.Left s' pid) : s'.Roster cfg := by
  have hmem : ∀ c, c ∈ s'.children ↔ c ∈ s.children ∧ c.pid ≠ pid := by
    intro c
    rw [hl.children, List.mem_filter, decide_eq_true_eq]
  refine ⟨?_, ?_, ?_, ?_, ?_⟩
  · rw [State.pids, hl.children]
    exact h.pids.sublist (List.filter_sublist.map Child.pid)
  · intro p info
    rw [hl.processes, OrderedMap.get?_delete]
    split
    · rename_i heq
      subst heq
      constructor
      · intro hnone
        cases hnone
      · rintro ⟨c, hc, hpid, -⟩
        exact absurd hpid ((hmem c).mp hc).2
    · rename_i hne
      rw [h.entered]
      constructor
      · rintro ⟨c, hc, hpid, hinfo⟩
        exact ⟨c, (hmem c).mpr ⟨hc, hpid ▸ Ne.symm hne⟩, hpid, hinfo⟩
      · rintro ⟨c, hc, hrest⟩
        exact ⟨c, ((hmem c).mp hc).1, hrest⟩
  · intro w p
    rw [hl.workers, h.mapped]
    constructor
    · rintro ⟨⟨c, hc, hpid, hrest⟩, hne⟩
      exact ⟨c, (hmem c).mpr ⟨hc, hpid ▸ hne⟩, hpid, hrest⟩
    · rintro ⟨c, hc, hpid, hrest⟩
      obtain ⟨hc, hne⟩ := (hmem c).mp hc
      exact ⟨⟨c, hc, hpid, hrest⟩, hpid ▸ hne⟩
  · exact fun c hc => h.ids c ((hmem c).mp hc).1
  · intro c hc
    unfold assignmentFor
    rw [hl.assignments]
    exact h.backend c ((hmem c).mp hc).1

theorem Roster.die (h : s.Roster cfg) (serial status : ℕ) : (s.die serial status).Roster cfg := by
  have hbackend : ∀ c, (endChild serial status c).backend = c.backend := by
    intro c
    unfold endChild
    split <;> rfl
  refine ⟨?_, ?_, ?_, ?_, ?_⟩
  · have hpids : (s.die serial status).pids = s.pids := by
      rw [State.pids, children_die, List.map_map]
      exact List.map_congr_left fun c _ => endChild_pid serial status c
    exact hpids ▸ h.pids
  · intro pid info
    simp only [children_die, List.mem_map, exists_exists_and_eq_and, endChild_pid, endChild_type,
      endChild_workerId]
    exact h.entered
  · intro w pid
    simp only [children_die, List.mem_map, exists_exists_and_eq_and, endChild_pid, endChild_type,
      endChild_workerId]
    exact h.mapped
  · intro d hd
    obtain ⟨c, hc, rfl⟩ := List.mem_map.mp hd
    rw [endChild_type, endChild_workerId]
    exact h.ids c hc
  · intro d hd
    obtain ⟨c, hc, rfl⟩ := List.mem_map.mp hd
    rw [endChild_type, endChild_workerId, hbackend]
    exact h.backend c hc

/-- Every deed keeps the roster. -/
theorem Roster.deed (h : s.Roster cfg) (hd : Deed cfg gone only s s') : s'.Roster cfg := by
  cases hd with
  | aside ha => exact h.apart ha
  | demoted i a reason ha hcuda hvacant heq =>
      subst heq
      refine ⟨h.pids, h.entered, h.mapped, h.ids, ?_⟩
      intro c hc ht
      rw [assignmentFor_demoted ha (h.notMem_of_vacant hvacant hc ht).symm]
      exact h.backend c hc ht
  | singleton c hl ht hw _ => exact h.singleton hl ht hw
  | staffed c now hf _ => exact h.staffed hf
  | left pid hl _ => exact h.left hl
  | ended serial status heq =>
      subst heq
      exact h.die serial status

end State

end ServeInfer.Supervisor
