import ServeInfer.Supervisor.OneProcess

/-!
# The end of the supervisor

Out of its loop the supervisor asks its children to end, collects those that do within two seconds,
and kills and collects the others. Nothing it has started outlives it, and no signal meets a
process that is not its own.
-/

namespace ServeInfer.Supervisor

/-- The two signals of `shutdownChildren`. -/
inductive Signal
  | term
  | kill
  deriving DecidableEq, Repr

/-- A signal, and the unreaped child that had the pid. -/
structure Sent where
  signal : Signal
  pid : ℕ
  victim : Option ℕ
  deriving DecidableEq, Repr

/-- Where `shutdownChildren` is; the lists are the entries that its last loop has not come to. -/
inductive ShutdownStage
  | signalling
  | polling
  | killing (rest : List ℕ)
  | awaiting (pid : ℕ) (rest : List ℕ)
  | done
  deriving DecidableEq, Repr

structure Shutdown where
  state : State
  stage : ShutdownStage := .signalling
  sent : List Sent := []
  deriving DecidableEq

/-- A child ends, or `shutdownChildren` takes its next step; `leave late` is the test of its loop
that ends it. -/
inductive ShutdownAction
  | die (serial status : ℕ)
  | terminate
  | collect (pid : ℕ)
  | leave (late : Bool)
  | kill
  | waited
  deriving DecidableEq, Repr

namespace Shutdown

def signal (signal : Signal) (s : State) (pid : ℕ) : Sent := ⟨signal, pid, s.serialOf pid⟩

/-- `waitpid(-1, &status, WNOHANG)` hands out a child that has ended; only its first table entry
goes. -/
def collect (t : Shutdown) (pid : ℕ) : Option Shutdown :=
  match t.stage, t.state.children.find? fun c => c.pid = pid with
  | .polling, some c =>
      if t.state.processesByPid.size ≠ 0 ∧ c.status ≠ none then
        let s := t.state.unlist pid
        some { t with state := { s with processesByPid := s.processesByPid.delete pid } }
      else none
  | _, _ => none

/-- The next entry of the last loop, or what follows it. -/
def killNext (t : Shutdown) : Option Shutdown :=
  match t.stage with
  | .killing [] =>
      some { t with
        state := { t.state with processesByPid := ∅, workerPidById := ∅ }
        stage := .done }
  | .killing (pid :: rest) =>
      some { t with sent := t.sent ++ [signal .kill t.state pid], stage := .awaiting pid rest }
  | _ => none

/-- `waitpid(entry.first, nullptr, 0)` returns once the process has ended. -/
def waited (t : Shutdown) : Option Shutdown :=
  match t.stage with
  | .awaiting pid rest =>
      if ∀ c ∈ t.state.children, c.pid = pid → c.status ≠ none then
        some { t with state := t.state.unlist pid, stage := .killing rest }
      else none
  | _ => none

def step (t : Shutdown) : ShutdownAction → Option Shutdown
  | .die serial status => some { t with state := t.state.die serial status }
  | .terminate =>
      if t.stage = .signalling then
        if t.state.processesByPid.size = 0 then some { t with stage := .done }
        else
          some { t with
            sent := t.state.processesByPid.keys.map (signal .term t.state)
            stage := .polling }
      else none
  | .collect pid => t.collect pid
  | .leave late =>
      if t.stage = .polling ∧ (t.state.processesByPid.size = 0 ∨ late = true) then
        some { t with stage := .killing t.state.processesByPid.keys }
      else none
  | .kill => t.killNext
  | .waited => t.waited

variable {cfg : Config} {s s₀ : State} {t t' : Shutdown} {pid : ℕ} {waiting : List ℕ}

/-- The pids that are waited for are those of the unreaped children. -/
structure Holds (s : State) (waiting : List ℕ) : Prop where
  pids : s.pids.Nodup
  mem : ∀ pid, pid ∈ waiting ↔ pid ∈ s.pids
  nodup : waiting.Nodup

theorem pids_die (s : State) (serial status : ℕ) : (s.die serial status).pids = s.pids := by
  rw [State.pids, State.children_die, List.map_map]
  exact List.map_congr_left fun c _ => State.endChild_pid serial status c

theorem Holds.die (h : Holds s waiting) (serial status : ℕ) :
    Holds (s.die serial status) waiting := by
  have hpids := pids_die s serial status
  exact ⟨hpids ▸ h.pids, hpids ▸ h.mem, h.nodup⟩

theorem pids_unlist (s : State) (pid : ℕ) : (s.unlist pid).pids = s.pids.filter (· ≠ pid) := by
  rw [State.pids, State.pids, List.filter_map]
  rfl

/-- A process that is collected is waited for no more. -/
theorem Holds.unlist (h : Holds s waiting) (pid : ℕ) : Holds (s.unlist pid) (waiting.erase pid) := by
  refine ⟨?_, ?_, h.nodup.erase pid⟩
  · rw [pids_unlist]
    exact h.pids.filter _
  · intro p
    rw [pids_unlist, List.mem_filter, decide_eq_true_eq, h.nodup.mem_erase_iff, h.mem, and_comm]

theorem Holds.children_nil (h : Holds s []) : s.children = [] := by
  have hpids : s.pids = [] := by
    rw [List.eq_nil_iff_forall_not_mem]
    intro p hp
    exact List.not_mem_nil ((h.mem p).mpr hp)
  exact List.map_eq_nil_iff.mp hpids

theorem exists_serialOf (h : pid ∈ s.pids) :
    ∃ c ∈ s.children, c.pid = pid ∧ s.serialOf pid = some c.serial := by
  have hsome : (s.children.find? fun c => c.pid = pid).isSome = true := by
    obtain ⟨c, hc, hpid⟩ := List.mem_map.mp h
    exact List.find?_isSome.mpr ⟨c, hc, decide_eq_true hpid⟩
  obtain ⟨c, hfind⟩ := Option.isSome_iff_exists.mp hsome
  have hpid := List.find?_some hfind
  rw [decide_eq_true_eq] at hpid
  exact ⟨c, List.mem_of_find?_eq_some hfind, hpid, by rw [State.serialOf, hfind]; rfl⟩

/-- What the stage says about the children and the tables. -/
def Left (t : Shutdown) : Prop :=
  match t.stage with
  | .signalling => Holds t.state t.state.processesByPid.keys
  | .polling => Holds t.state t.state.processesByPid.keys
  | .killing rest => Holds t.state rest
  | .awaiting pid rest => Holds t.state (pid :: rest)
  | .done => t.state.children = []

/-- The children are some of those there were, under their pids. -/
def Kept (s₀ s : State) : Prop :=
  ∀ c ∈ s.children, ∃ c₀ ∈ s₀.children, c₀.pid = c.pid ∧ c₀.serial = c.serial

theorem Kept.die (h : Kept s₀ s) (serial status : ℕ) : Kept s₀ (s.die serial status) := by
  intro d hd
  rw [State.children_die] at hd
  obtain ⟨c, hc, rfl⟩ := List.mem_map.mp hd
  rw [State.endChild_pid, State.endChild_serial]
  exact h c hc

theorem Kept.unlist (h : Kept s₀ s) (pid : ℕ) : Kept s₀ (s.unlist pid) :=
  fun c hc => h c (List.mem_of_mem_filter hc)

/-- The signal met a child of the supervisor's. -/
def Met (s₀ : State) (e : Sent) : Prop := ∃ c ∈ s₀.children, e.pid = c.pid ∧ e.victim = some c.serial

theorem Kept.met (h : Kept s₀ s) (hpid : pid ∈ s.pids) (sig : Signal) :
    Met s₀ (signal sig s pid) := by
  obtain ⟨c, hc, hcpid, hserial⟩ := exists_serialOf hpid
  obtain ⟨c₀, hc₀, hpid₀, hserial₀⟩ := h c hc
  refine ⟨c₀, hc₀, ?_, ?_⟩
  · rw [hpid₀, hcpid]
    rfl
  · rw [hserial₀, ← hserial]
    rfl

/-- What holds between any two steps. -/
structure Sound (s₀ : State) (t : Shutdown) : Prop where
  left : t.Left
  kept : Kept s₀ t.state
  met : ∀ e ∈ t.sent, Met s₀ e
  asked : t.stage ≠ .signalling → ∀ c ∈ s₀.children, ⟨.term, c.pid, some c.serial⟩ ∈ t.sent
  waiting : t.stage = .signalling → t.state.pids = s₀.pids ∧ t.sent = []

/-- A child that ends changes nothing of what the stage says. -/
theorem Left.die (h : t.Left) (serial status : ℕ) :
    Left { t with state := t.state.die serial status } := by
  obtain ⟨s, stage, sent⟩ := t
  cases stage with
  | signalling => exact Holds.die h serial status
  | polling => exact Holds.die h serial status
  | killing rest => exact Holds.die h serial status
  | awaiting pid rest => exact Holds.die h serial status
  | done =>
      change s.children = [] at h
      change s.children.map _ = []
      rw [h, List.map_nil]

theorem keys_nil {m : OrderedMap ℕ ProcessInfo} (h : m.size = 0) : m.keys = [] :=
  List.length_eq_zero_iff.mp (m.length_keys.trans h)

/-- Every child there was is asked to end. -/
theorem Sound.terminated (h : Sound s₀ ⟨s, .signalling, []⟩) :
    ∀ c ∈ s₀.children, ⟨.term, c.pid, some c.serial⟩ ∈
      s.processesByPid.keys.map (signal .term s) := by
  intro c hc
  have hholds : Holds s s.processesByPid.keys := h.left
  have hpids : s.pids = s₀.pids := (h.waiting rfl).1
  have hpid : c.pid ∈ s.pids := hpids ▸ List.mem_map_of_mem hc
  obtain ⟨d, hd, hdpid, hserial⟩ := exists_serialOf hpid
  obtain ⟨c₀, hc₀, hpid₀, hserial₀⟩ := h.kept d hd
  have hnodup : s₀.pids.Nodup := hpids ▸ hholds.pids
  have heq : c₀ = c := List.inj_on_of_nodup_map hnodup hc₀ hc (hpid₀.trans hdpid)
  refine List.mem_map.mpr ⟨c.pid, (hholds.mem c.pid).mpr hpid, ?_⟩
  rw [signal, hserial, ← hserial₀, heq]

theorem Sound.step (h : Sound s₀ t) {a : ShutdownAction} (hs : t.step a = some t') :
    Sound s₀ t' := by
  obtain ⟨s, stage, sent⟩ := t
  cases a with
  | die serial status =>
      cases hs
      exact ⟨h.left.die serial status, h.kept.die serial status, h.met, h.asked, fun hstage =>
        ⟨(pids_die s serial status).trans (h.waiting hstage).1, (h.waiting hstage).2⟩⟩
  | terminate =>
      simp only [Shutdown.step] at hs
      split at hs
      case isFalse => cases hs
      case isTrue hstage =>
        subst hstage
        obtain ⟨hpids, hsent⟩ := h.waiting rfl
        change sent = [] at hsent
        subst hsent
        have hholds : Holds s s.processesByPid.keys := h.left
        split at hs
        case isTrue hsize =>
          cases hs
          rw [keys_nil hsize] at hholds
          have hnone : s₀.children = [] := by
            have hempty : s₀.pids = [] := by
              rw [← hpids]
              exact congrArg (List.map Child.pid) hholds.children_nil
            exact List.map_eq_nil_iff.mp hempty
          refine ⟨hholds.children_nil, h.kept, h.met, ?_, nofun⟩
          intro _ c hc
          rw [hnone] at hc
          exact absurd hc List.not_mem_nil
        case isFalse hsize =>
          cases hs
          refine ⟨hholds, h.kept, ?_, fun _ => h.terminated, nofun⟩
          intro e he
          obtain ⟨pid, hpid, rfl⟩ := List.mem_map.mp he
          exact h.kept.met ((hholds.mem pid).mp hpid) .term
  | collect pid =>
      simp only [Shutdown.step, collect] at hs
      split at hs
      case h_2 => cases hs
      case h_1 c hc =>
        split at hs
        case isFalse => cases hs
        case isTrue =>
          cases hs
          have hholds : Holds s s.processesByPid.keys := h.left
          refine ⟨?_, h.kept.unlist pid, h.met, fun _ => h.asked nofun, nofun⟩
          change Holds _ (s.processesByPid.delete pid).keys
          rw [OrderedMap.keys_delete]
          have hnext := hholds.unlist pid
          exact ⟨hnext.pids, hnext.mem, hnext.nodup⟩
  | leave late =>
      simp only [Shutdown.step] at hs
      split at hs
      case isFalse => cases hs
      case isTrue hleave =>
        obtain ⟨hstage, -⟩ := hleave
        subst hstage
        cases hs
        exact ⟨h.left, h.kept, h.met, fun _ => h.asked nofun, nofun⟩
  | kill =>
      simp only [Shutdown.step, killNext] at hs
      split at hs
      case h_1 =>
        cases hs
        have hholds : Holds s [] := h.left
        exact ⟨hholds.children_nil, h.kept, h.met, fun _ => h.asked nofun, nofun⟩
      case h_2 pid rest =>
        cases hs
        have hholds : Holds s (pid :: rest) := h.left
        have hmet := h.kept.met ((hholds.mem pid).mp List.mem_cons_self) .kill
        refine ⟨hholds, h.kept, ?_, ?_, nofun⟩
        · exact List.forall_mem_append.mpr ⟨h.met, List.forall_mem_singleton.mpr hmet⟩
        · exact fun _ c hc => List.mem_append_left _ (h.asked nofun c hc)
      case h_3 => cases hs
  | waited =>
      simp only [Shutdown.step, waited] at hs
      split at hs
      case h_2 => cases hs
      case h_1 pid rest =>
        split at hs
        case isFalse => cases hs
        case isTrue =>
          cases hs
          have hholds : Holds s (pid :: rest) := h.left
          have hnext := hholds.unlist pid
          rw [List.erase_cons_head] at hnext
          exact ⟨hnext, h.kept.unlist pid, h.met, fun _ => h.asked nofun, nofun⟩

theorem sound_begin (h : s.Roster cfg) : Sound s { state := s } where
  left := by
    refine ⟨h.pids, ?_, s.processesByPid.keys_nodup⟩
    intro pid
    rw [← OrderedMap.has_iff, OrderedMap.has, Option.isSome_iff_exists]
    constructor
    · rintro ⟨info, hinfo⟩
      obtain ⟨c, hc, rfl, -⟩ := h.entered.mp hinfo
      exact List.mem_map_of_mem hc
    · intro hpid
      obtain ⟨c, hc, rfl⟩ := List.mem_map.mp hpid
      exact ⟨_, h.entered.mpr ⟨c, hc, rfl, rfl⟩⟩
  kept c hc := ⟨c, hc, rfl, rfl⟩
  met := nofun
  asked := nofun
  waiting _ := ⟨rfl, rfl⟩

/-- A killed process ends, and is collected. -/
theorem exists_waited {rest : List ℕ} (h : Holds s (pid :: rest)) (sent : List Sent) :
    ∃ bs s', Machine.exec step ⟨s, .awaiting pid rest, sent⟩ bs = some ⟨s', .killing rest, sent⟩ ∧
      Holds s' rest := by
  obtain ⟨c, hc, hpid, -⟩ := exists_serialOf ((h.mem pid).mp List.mem_cons_self)
  have hended : ∀ d ∈ (s.die c.serial 9).children, d.pid = pid → d.status ≠ none := by
    intro d hd hdpid
    rw [State.children_die] at hd
    obtain ⟨c', hc', rfl⟩ := List.mem_map.mp hd
    rw [State.endChild_pid] at hdpid
    have heq : c' = c := List.inj_on_of_nodup_map h.pids hc' hc (hdpid.trans hpid.symm)
    rw [heq, State.endChild]
    split
    · exact Option.some_ne_none 9
    · rename_i hstatus
      exact fun hnone => hstatus ⟨rfl, hnone⟩
  have hnext := (h.die c.serial 9).unlist pid
  rw [List.erase_cons_head] at hnext
  refine ⟨[.die c.serial 9, .waited], _, ?_, hnext⟩
  rw [Machine.exec_cons, step, Option.bind_some, Machine.exec_cons, step, waited]
  simp only
  rw [if_pos hended]
  rfl

/-- From the last loop on, it can be brought to its end. -/
theorem exists_killed (rest : List ℕ) {s : State} (h : Holds s rest) (sent : List Sent) :
    ∃ bs t', Machine.exec step ⟨s, .killing rest, sent⟩ bs = some t' ∧ t'.stage = .done := by
  induction rest generalizing s sent with
  | nil => exact ⟨[.kill], _, rfl, rfl⟩
  | cons pid rest ih =>
      obtain ⟨bs, s', hbs, hnext⟩ := exists_waited h (sent ++ [signal .kill s pid])
      obtain ⟨bs', t', hbs', hdone⟩ := ih hnext (sent ++ [signal .kill s pid])
      refine ⟨.kill :: (bs ++ bs'), t', ?_, hdone⟩
      rw [Machine.exec_cons, step, killNext, Option.bind_some, Machine.exec_append, hbs,
        Option.bind_some, hbs']

/-- Wherever it is, it can be brought to its end. -/
theorem Sound.exists_done (h : Sound s₀ t) :
    ∃ bs t', Machine.exec Shutdown.step t bs = some t' ∧ t'.stage = .done := by
  obtain ⟨s, stage, sent⟩ := t
  have hpolling : ∀ {s : State} {sent : List Sent}, Holds s s.processesByPid.keys →
      ∃ bs t', Machine.exec Shutdown.step ⟨s, .polling, sent⟩ bs = some t' ∧ t'.stage = .done := by
    intro s sent hholds
    obtain ⟨bs, t', hbs, hdone⟩ := exists_killed _ hholds sent
    refine ⟨.leave true :: bs, t', ?_, hdone⟩
    rw [Machine.exec_cons, Shutdown.step, if_pos ⟨rfl, .inr rfl⟩, Option.bind_some, hbs]
  cases stage with
  | signalling =>
      by_cases hsize : s.processesByPid.size = 0
      · refine ⟨[.terminate], { state := s, stage := .done, sent := sent }, ?_, rfl⟩
        rw [Machine.exec_cons, Shutdown.step, if_pos rfl, if_pos hsize]
        rfl
      · obtain ⟨bs, t', hbs, hdone⟩ := hpolling h.left
        refine ⟨.terminate :: bs, t', ?_, hdone⟩
        rw [Machine.exec_cons, Shutdown.step, if_pos rfl, if_neg hsize, Option.bind_some, hbs]
  | polling => exact hpolling h.left
  | killing rest => exact exists_killed rest h.left sent
  | awaiting pid rest =>
      obtain ⟨bs, s', hbs, hnext⟩ := exists_waited h.left sent
      obtain ⟨bs', t', hbs', hdone⟩ := exists_killed rest hnext sent
      exact ⟨bs ++ bs', t', by rw [Machine.exec_append, hbs, Option.bind_some, hbs'], hdone⟩
  | done => exact ⟨[], _, rfl, rfl⟩

end Shutdown

/-- Nothing that the supervisor has started outlives it: every child is asked to end, every signal
meets a child, and at its end all are collected, an end that can always be reached. -/
theorem shutdown_leaves_no_child (cfg : Config) (as : List Action) {s : State} {t : Shutdown}
    (hrun : Machine.exec (step cfg) (init cfg) as = some s) (bs : List ShutdownAction)
    (hshut : Machine.exec Shutdown.step { state := s } bs = some t) :
    (∀ e ∈ t.sent, ∃ c ∈ s.children, e.pid = c.pid ∧ e.victim = some c.serial) ∧
    (t.stage ≠ .signalling → ∀ c ∈ s.children, ⟨.term, c.pid, some c.serial⟩ ∈ t.sent) ∧
    (t.stage = .done → t.state.children = []) ∧
    ∃ rest t', Machine.exec Shutdown.step t rest = some t' ∧ t'.stage = .done := by
  have hroster := ((State.manned_init cfg).exec hrun).roster
  have hsound : Shutdown.Sound s t :=
    Machine.exec_invariant (Shutdown.sound_begin hroster) (fun _ _ _ ht hs => ht.step hs) hshut
  refine ⟨hsound.met, hsound.asked, ?_, hsound.exists_done⟩
  intro hdone
  have hleft := hsound.left
  rw [Shutdown.Left, hdone] at hleft
  exact hleft

/-- Both workers are up when the supervisor is told to stop. -/
def stoppedRun : List Action :=
  [.start { pid := some 10 } 7, .ready true, .start { pid := some 11 } 0,
    .start { pid := some 12 } 0, .start { pid := some 13 } 0, .start { pid := none } 0,
    .requestStop, .wake]

/-- The model cache and the api-server end in time, the workers do not. -/
def lateWorkers : List ShutdownAction :=
  [.terminate, .die 1 0, .die 0 15, .collect 10, .collect 11, .leave true, .kill, .die 2 9, .waited,
    .kill, .die 3 9, .waited, .kill]

theorem shutdown_leaves_no_child_lateWorkers :
    ∃ s t, Machine.exec (step cardAndCpu) (init cardAndCpu) stoppedRun = some s ∧
      s.phase = .exited ∧ Machine.exec Shutdown.step { state := s } lateWorkers = some t ∧
      t.stage = .done ∧ t.sent.length = 6 ∧ t.state.children = [] := by
  have hsome : ((Machine.exec (step cardAndCpu) (init cardAndCpu) stoppedRun).bind fun s =>
      (Machine.exec Shutdown.step { state := s } lateWorkers).map fun t =>
        (s.phase, t.stage, t.sent.length)) = some (.exited, .done, 6) := by
    decide +kernel
  obtain ⟨s, hs, hbs⟩ := Option.bind_eq_some_iff.mp hsome
  obtain ⟨t, ht, heq⟩ := Option.map_eq_some_iff.mp hbs
  obtain ⟨hphase, hstage, hsent⟩ : s.phase = .exited ∧ t.stage = .done ∧ t.sent.length = 6 := by
    simpa using heq
  have hnone := (shutdown_leaves_no_child cardAndCpu stoppedRun hs lateWorkers ht).2.2.1 hstage
  exact ⟨s, t, hs, hphase, ht, hstage, hsent, hnone⟩

end ServeInfer.Supervisor
