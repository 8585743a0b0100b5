import ServeInfer.ApiServer.Idempotency

/-!
# The in-flight file

`_persist` takes a snapshot of the in-flight list and has it written to a file of
its own, which is then renamed. A change that comes meanwhile is only noted, and
the callback of the rename takes the next snapshot. What is on disk is therefore a
list that was in flight at some time, the times go up, and when nothing is being
written it is the list of now.
-/

namespace ServeInfer.ApiServer

/-- The registry, its temporary files that are written, the renames whose callback is due, and what
has been at `inflightPath` so far. `instants` are the in-flight lists so far and `taken` the
instants of which a snapshot was taken, which the code does not record. -/
structure InflightFile (β : Type*) where
  state : RegistryState β
  temporary : List FileWrite := []
  renamed : List ℕ := []
  publications : List FileWrite := []
  instants : List (List InflightRow)
  taken : List ℕ

/-- A step of the registry; a temporary file is written, and `writeFile` calls back; a rename takes
effect; a rename calls back. -/
inductive FileAction (β : Type*)
  | registry (a : RegistryAction β)
  | wrote (seq : ℕ)
  | rename (seq : ℕ)
  | finish (seq : ℕ)

/-- `finish`: the write is no longer in flight, and a change that was noted is written. -/
def RequestRegistry.finish {β : Type*} (s : RequestRegistry β) (seq : ℕ) : RequestRegistry β :=
  if s.writePending then
    { s with writeInFlight := false, writes := s.writes.filter (·.seq ≠ seq) }.persist
  else { s with writeInFlight := false, writes := s.writes.filter (·.seq ≠ seq) }

namespace InflightFile

variable {β : Type*}

/-- The registry has changed. -/
def advance (s : InflightFile β) (state : RegistryState β) : InflightFile β :=
  { s with
    state := state
    instants := s.instants ++ [state.registry.rows]
    taken :=
      if state.registry.writeSeq = s.state.registry.writeSeq then s.taken
      else s.taken ++ [s.instants.length] }

/-- The constructor of the registry, which takes the first snapshot. -/
def init (idempotencyTtlMs : ℤ) (file : Option JsString) (now : ℤ) : InflightFile β where
  state := .init idempotencyTtlMs file now
  instants := [[]]
  taken := [0]

/-- One step; every write and every rename succeeds. -/
def step (s : InflightFile β) : FileAction β → Option (InflightFile β)
  | .registry a => (registryStep s.state a).map s.advance
  | .wrote seq =>
      (s.state.registry.writes.find? fun w => w.seq = seq).bind fun w =>
        if w ∈ s.temporary ∨ seq ∈ s.renamed then none
        else some { s with temporary := s.temporary ++ [w] }
  | .rename seq =>
      (s.temporary.find? fun w => w.seq = seq).map fun w =>
        { s with
          temporary := s.temporary.filter (·.seq ≠ seq)
          renamed := s.renamed ++ [seq]
          publications := s.publications ++ [w] }
  | .finish seq =>
      if seq ∈ s.renamed then
        some ({ s with renamed := s.renamed.filter (· ≠ seq) }.advance
          { s.state with registry := s.state.registry.finish seq })
      else none

/-- What is at `inflightPath`, once it has been written. -/
def published (s : InflightFile β) : Option (List InflightRow) :=
  s.publications.getLast?.map FileWrite.rows

/-- The list in flight when the snapshot with the number was taken; the first one has number 1. -/
def snapshot? (s : InflightFile β) (seq : ℕ) : Option (List InflightRow) :=
  (s.taken[seq - 1]?).bind fun i => s.instants[i]?

/-- At most one write is outstanding; what has been published are snapshots, in the order in which
they were taken; and when no write is outstanding, the list in flight is published. -/
structure SnapshotSequence (s : InflightFile β) : Prop where
  single : s.state.registry.writes.length ≤ 1
  exact : ∀ p ∈ s.publications, s.snapshot? p.seq = some p.rows
  ordered : s.publications.Pairwise fun p q => p.seq < q.seq
  times : s.taken.Pairwise (· < ·)
  current : s.state.registry.writes = [] → s.published = some s.state.registry.rows

/-- How far the one write is that may be outstanding. -/
inductive Progress (s : InflightFile β) : Prop
  | idle (hwrites : s.state.registry.writes = []) (hflag : s.state.registry.writeInFlight = false)
      (htemporary : s.temporary = []) (hrenamed : s.renamed = [])
      (hcount : s.publications.length = s.state.registry.writeSeq)
      (hcurrent : s.snapshot? s.state.registry.writeSeq = some s.state.registry.rows)
  | busy (w : FileWrite) (hwrites : s.state.registry.writes = [w])
      (hflag : s.state.registry.writeInFlight = true) (hseq : w.seq = s.state.registry.writeSeq)
      (hshot : s.snapshot? w.seq = some w.rows)
      (hpending : s.state.registry.writePending = false → w.rows = s.state.registry.rows)
      (hstage : s.temporary = [] ∧ s.renamed = [] ∧ s.publications.length + 1 = w.seq ∨
        s.temporary = [w] ∧ s.renamed = [] ∧ s.publications.length + 1 = w.seq ∨
        s.temporary = [] ∧ s.renamed = [w.seq] ∧ s.publications.length = w.seq)

/-- Every snapshot has its instant, and the snapshots are published one after the other. -/
structure Recorded (s : InflightFile β) (seq : ℕ) : Prop where
  positive : 0 < seq
  count : s.taken.length = seq
  times : s.taken.Pairwise (· < ·)
  past : ∀ i ∈ s.taken, i < s.instants.length
  published : ∀ k p, s.publications[k]? = some p → p.seq = k + 1 ∧ s.snapshot? p.seq = some p.rows

/-- The record goes up to the last snapshot, which is being written or published. -/
structure Sound (s : InflightFile β) : Prop where
  recorded : s.Recorded s.state.registry.writeSeq
  progress : s.Progress

end InflightFile

namespace RequestRegistry

variable {β : Type*} {s r : RequestRegistry β}

/-- The writer's own fields are the same. -/
structure SameWriter (s r : RequestRegistry β) : Prop where
  writeSeq : r.writeSeq = s.writeSeq
  writeInFlight : r.writeInFlight = s.writeInFlight
  writePending : r.writePending = s.writePending
  writes : r.writes = s.writes

theorem persist_busy (h : s.writeInFlight = true) : s.persist = { s with writePending := true } :=
  if_pos h

theorem persist_idle (h : s.writeInFlight = false) : s.persist =
    { s with
      writeInFlight := true
      writePending := false
      writeSeq := s.writeSeq + 1
      writes := s.writes ++ [⟨s.writeSeq + 1, s.rows⟩] } :=
  if_neg (by simp [h])

/-- A step leaves the list in flight and the writer alone, or hands a change to the writer. -/
theorem writer_of_step {s s' : RegistryState β} {a : RegistryAction β}
    (hs : registryStep s a = some s') :
    (s'.registry.rows = s.registry.rows ∧ s.registry.SameWriter s'.registry) ∨
      ∃ r, s.registry.SameWriter r ∧ s'.registry = r.persist := by
  cases a with
  | run p requestId mfeId stream now =>
      obtain ⟨-, hs⟩ := Option.ite_none_right_eq_some.mp hs
      cases hs
      obtain ⟨c, -, hrun⟩ | ⟨-, e, -, hrun⟩ | ⟨-, -, hrun⟩ :=
        run_cases s.registry p requestId mfeId stream now
      · exact .inl ⟨congrArg (rows ∘ Prod.snd) hrun, by
          rw [RegistryState.onRun, hrun]
          exact ⟨rfl, rfl, rfl, rfl⟩⟩
      · exact .inl ⟨congrArg (rows ∘ Prod.snd) hrun, by
          rw [RegistryState.onRun, hrun]
          exact ⟨rfl, rfl, rfl, rfl⟩⟩
      · refine .inr ⟨_, ?_, congrArg Prod.snd hrun⟩
        exact ⟨rfl, rfl, rfl, rfl⟩
  | lookup requestId now =>
      obtain ⟨-, hs⟩ := Option.ite_none_right_eq_some.mp hs
      cases hs
      dsimp only
      rw [lookup_snd]
      exact .inl ⟨rfl, rfl, rfl, rfl, rfl⟩
  | snapshot now =>
      obtain ⟨-, hs⟩ := Option.ite_none_right_eq_some.mp hs
      cases hs
      exact .inl ⟨rfl, rfl, rfl, rfl, rfl⟩
  | callExecute p =>
      simp only [registryStep] at hs
      split at hs <;> cases hs
      exact .inl ⟨rfl, rfl, rfl, rfl, rfl⟩
  | settleExecute p outcome =>
      simp only [registryStep] at hs
      split at hs <;> cases hs
      exact .inl ⟨rfl, rfl, rfl, rfl, rfl⟩
  | react p now =>
      obtain ⟨-, hs⟩ := Option.ite_none_right_eq_some.mp hs
      split at hs <;> cases hs
      rename_i outcome _
      cases outcome with
      | none =>
          refine .inr ⟨{ s.registry with inflight := s.registry.inflight.delete _ }, ?_, rfl⟩
          exact ⟨rfl, rfl, rfl, rfl⟩
      | some result =>
          refine .inr ⟨{ s.registry with inflight := _, completed := _ }, ?_, rfl⟩
          exact ⟨rfl, rfl, rfl, rfl⟩

end RequestRegistry

namespace InflightFile

variable {β : Type*} {s s' : InflightFile β} {state : RegistryState β} {r : RequestRegistry β}
  {seq n : ℕ} {w : FileWrite}

/-- What was recorded stays. -/
theorem Recorded.snapshot_advance (h : s.Recorded seq) (state : RegistryState β) (hn : n ≤ seq) :
    (s.advance state).snapshot? n = s.snapshot? n := by
  have hlt : n - 1 < s.taken.length := by
    have hcount := h.count
    have hpositive := h.positive
    omega
  have htaken : (s.advance state).taken[n - 1]? = s.taken[n - 1]? := by
    simp only [advance]
    split
    · rfl
    · exact List.getElem?_append_left hlt
  rw [snapshot?, snapshot?, htaken]
  cases hi : s.taken[n - 1]? with
  | none => rfl
  | some i => exact List.getElem?_append_left (h.past i (List.mem_of_getElem? hi))

theorem Recorded.published_advance (h : s.Recorded seq) (state : RegistryState β)
    (hle : s.publications.length ≤ seq) : ∀ k p, (s.advance state).publications[k]? = some p →
      p.seq = k + 1 ∧ (s.advance state).snapshot? p.seq = some p.rows := by
  intro k p hp
  have hk : k < s.publications.length := (List.getElem?_eq_some_iff.mp hp).1
  obtain ⟨hseq, hshot⟩ := h.published k p hp
  exact ⟨hseq, by rw [h.snapshot_advance state (by omega), hshot]⟩

/-- A change of the registry that takes no snapshot. -/
theorem Recorded.keep (h : s.Recorded s.state.registry.writeSeq)
    (hle : s.publications.length ≤ s.state.registry.writeSeq)
    (hseq : state.registry.writeSeq = s.state.registry.writeSeq) :
    (s.advance state).Recorded state.registry.writeSeq := by
  have htaken : (s.advance state).taken = s.taken := if_pos hseq
  refine ⟨hseq ▸ h.positive, ?_, ?_, ?_, h.published_advance state hle⟩
  · rw [htaken, hseq]
    exact h.count
  · rw [htaken]
    exact h.times
  · intro i hi
    rw [htaken] at hi
    rw [advance, List.length_append]
    exact (h.past i hi).trans_le (Nat.le_add_right _ _)

/-- A change of the registry that takes the next snapshot. -/
theorem Recorded.next (h : s.Recorded s.state.registry.writeSeq)
    (hle : s.publications.length ≤ s.state.registry.writeSeq)
    (hseq : state.registry.writeSeq = s.state.registry.writeSeq + 1) :
    (s.advance state).Recorded state.registry.writeSeq ∧
      (s.advance state).snapshot? state.registry.writeSeq = some state.registry.rows := by
  have htaken : (s.advance state).taken = s.taken ++ [s.instants.length] := if_neg (by omega)
  constructor
  · refine ⟨by omega, ?_, ?_, ?_, h.published_advance state hle⟩
    · rw [htaken, List.length_append, h.count, hseq]
      rfl
    · rw [htaken, List.pairwise_append]
      refine ⟨h.times, List.pairwise_singleton _ _, ?_⟩
      intro i hi j hj
      rw [List.mem_singleton.mp hj]
      exact h.past i hi
    · intro i hi
      rw [htaken] at hi
      rw [advance, List.length_append, List.length_singleton]
      obtain hi | hi := List.mem_append.mp hi
      · exact (h.past i hi).trans (Nat.lt_succ_self _)
      · rw [List.mem_singleton.mp hi]
        exact Nat.lt_succ_self _
  · have hlast : (s.advance state).taken[state.registry.writeSeq - 1]? = some s.instants.length := by
      rw [htaken, hseq, Nat.add_sub_cancel, ← h.count, List.getElem?_concat_length]
    rw [snapshot?, hlast]
    exact List.getElem?_concat_length

/-- The record does not depend on how far the write is. -/
theorem Recorded.writes (h : s.Recorded seq) (hinstants : s'.instants = s.instants)
    (htaken : s'.taken = s.taken) (hpublications : s'.publications = s.publications) :
    s'.Recorded seq := by
  have hshot : s'.snapshot? = s.snapshot? := by
    funext n
    rw [snapshot?, snapshot?, hinstants, htaken]
  refine ⟨h.positive, htaken ▸ h.count, htaken ▸ h.times, ?_, ?_⟩
  · rw [hinstants, htaken]
    exact h.past
  · rw [hpublications, hshot]
    exact h.published

theorem Progress.published_le (h : s.Progress) :
    s.publications.length ≤ s.state.registry.writeSeq := by
  cases h with
  | idle _ _ _ _ hcount _ => exact hcount.le
  | busy w _ _ hseq _ _ hstage => omega

/-- The next snapshot is taken, and its write begins. -/
theorem Sound.launch (h : s.Recorded s.state.registry.writeSeq)
    (hcount : s.publications.length = s.state.registry.writeSeq)
    (htemporary : s.temporary = []) (hrenamed : s.renamed = [])
    (hregistry : state.registry = r.persist) (hflag : r.writeInFlight = false)
    (hwrites : r.writes = []) (hseq : r.writeSeq = s.state.registry.writeSeq) :
    (s.advance state).Sound := by
  rw [RequestRegistry.persist_idle hflag, hwrites, List.nil_append] at hregistry
  have hnext : state.registry.writeSeq = s.state.registry.writeSeq + 1 := by rw [hregistry, ← hseq]
  obtain ⟨hrecorded, hshot⟩ := h.next hcount.le hnext
  refine ⟨hrecorded, .busy ⟨r.writeSeq + 1, r.rows⟩ (congrArg RequestRegistry.writes hregistry)
    (congrArg RequestRegistry.writeInFlight hregistry) ?_ ?_ (fun _ => ?_) (.inl ?_)⟩
  · exact (congrArg RequestRegistry.writeSeq hregistry).symm
  · have hrows : state.registry.rows = r.rows := by
      rw [hregistry]
      rfl
    have hnumber : r.writeSeq + 1 = state.registry.writeSeq :=
      (congrArg RequestRegistry.writeSeq hregistry).symm
    rw [hnumber, hshot, hrows]
  · rw [show (s.advance state).state = state from rfl, hregistry]
    rfl
  · exact ⟨htemporary, hrenamed, by rw [hseq]; exact congrArg (· + 1) hcount⟩

/-- A step of the registry. -/
theorem Sound.registry (h : s.Sound) {a : RegistryAction β}
    (hs : registryStep s.state a = some state) : (s.advance state).Sound := by
  have hle := h.progress.published_le
  obtain ⟨hrows, hsame⟩ | ⟨r, hsame, hregistry⟩ := RequestRegistry.writer_of_step hs
  · have hrecorded := h.recorded.keep hle hsame.writeSeq
    refine ⟨hrecorded, ?_⟩
    cases h.progress with
    | idle hwrites hflag htemporary hrenamed hcount hcurrent =>
        have hshot : (s.advance state).snapshot? state.registry.writeSeq =
            some state.registry.rows := by
          rw [h.recorded.snapshot_advance state hsame.writeSeq.le, hsame.writeSeq, hcurrent, hrows]
        exact .idle (hsame.writes.trans hwrites) (hsame.writeInFlight.trans hflag) htemporary
          hrenamed (hcount.trans hsame.writeSeq.symm) hshot
    | busy w hwrites hflag hseq hshot hpending hstage =>
        refine .busy w (hsame.writes.trans hwrites) (hsame.writeInFlight.trans hflag)
          (hseq.trans hsame.writeSeq.symm) ?_ ?_ hstage
        · rw [h.recorded.snapshot_advance state hseq.le, hshot]
        · intro hnone
          exact (hpending (hsame.writePending.symm.trans hnone)).trans hrows.symm
  · cases h.progress with
    | idle hwrites hflag htemporary hrenamed hcount hcurrent =>
        exact .launch h.recorded hcount htemporary hrenamed hregistry
          (hsame.writeInFlight.trans hflag) (hsame.writes.trans hwrites) hsame.writeSeq
    | busy w hwrites hflag hseq hshot hpending hstage =>
        rw [RequestRegistry.persist_busy (hsame.writeInFlight.trans hflag)] at hregistry
        have hnumber : state.registry.writeSeq = s.state.registry.writeSeq := by
          rw [hregistry]
          exact hsame.writeSeq
        refine ⟨h.recorded.keep hle hnumber, .busy w ?_ ?_ (hseq.trans hnumber.symm) ?_ ?_ hstage⟩
        · rw [show (s.advance state).state = state from rfl, hregistry]
          exact hsame.writes.trans hwrites
        · rw [show (s.advance state).state = state from rfl, hregistry]
          exact hsame.writeInFlight.trans hflag
        · rw [h.recorded.snapshot_advance state hseq.le, hshot]
        · intro hnone
          rw [show (s.advance state).state = state from rfl, hregistry] at hnone
          cases hnone

/-- `writeFile` calls back. -/
theorem Sound.wrote (h : s.Sound) (hs : s.step (.wrote seq) = some s') : s'.Sound := by
  obtain ⟨w', hfind, hs⟩ := Option.bind_eq_some_iff.mp hs
  have hmem := List.mem_of_find?_eq_some hfind
  have hnumber : w'.seq = seq := by simpa using List.find?_some hfind
  split at hs
  · cases hs
  · rename_i hnot
    cases hs
    cases h.progress with
    | idle hwrites => rw [hwrites] at hmem; cases hmem
    | busy w hwrites hflag hseq hshot hpending hstage =>
        rw [hwrites, List.mem_singleton] at hmem
        subst hmem
        obtain ⟨htemporary, hrenamed, hcount⟩ | ⟨htemporary, -⟩ | ⟨-, hrenamed, -⟩ := hstage
        · refine ⟨h.recorded.writes rfl rfl rfl,
            .busy w' hwrites hflag hseq hshot hpending (.inr (.inl ?_))⟩
          exact ⟨by rw [htemporary]; rfl, hrenamed, hcount⟩
        · exact absurd (.inl (htemporary ▸ List.mem_singleton_self w')) hnot
        · exact absurd (.inr (hrenamed ▸ hnumber ▸ List.mem_singleton_self w'.seq)) hnot

/-- A rename takes effect. -/
theorem Sound.rename (h : s.Sound) (hs : s.step (.rename seq) = some s') : s'.Sound := by
  obtain ⟨w', hfind, rfl⟩ := Option.map_eq_some_iff.mp hs
  have hmem := List.mem_of_find?_eq_some hfind
  have hnumber : w'.seq = seq := by simpa using List.find?_some hfind
  cases h.progress with
  | idle _ _ htemporary => rw [htemporary] at hmem; cases hmem
  | busy w hwrites hflag hseq hshot hpending hstage =>
      obtain ⟨htemporary, -⟩ | ⟨htemporary, hrenamed, hcount⟩ | ⟨htemporary, -⟩ := hstage
      · rw [htemporary] at hmem
        cases hmem
      · rw [htemporary, List.mem_singleton] at hmem
        subst hmem
        refine ⟨⟨h.recorded.positive, h.recorded.count, h.recorded.times, h.recorded.past, ?_⟩,
          .busy w' hwrites hflag hseq hshot hpending (.inr (.inr ⟨?_, ?_, ?_⟩))⟩
        · intro k p hp
          rw [List.getElem?_append] at hp
          split at hp
          · exact h.recorded.published k p hp
          · obtain ⟨hk, rfl⟩ := List.getElem?_eq_some_iff.mp hp
            rw [List.length_singleton] at hk
            rw [List.getElem_singleton]
            exact ⟨by omega, hshot⟩
        · simp [htemporary, hnumber]
        · simp [hrenamed, hnumber]
        · simpa using hcount
      · rw [htemporary] at hmem
        cases hmem

/-- A rename calls back. -/
theorem Sound.finish (h : s.Sound) (hs : s.step (.finish seq) = some s') : s'.Sound := by
  obtain ⟨hmem, hs⟩ := Option.ite_none_right_eq_some.mp hs
  cases hs
  cases h.progress with
  | idle _ _ _ hrenamed => rw [hrenamed] at hmem; cases hmem
  | busy w hwrites hflag hseq hshot hpending hstage =>
      obtain ⟨-, hrenamed, -⟩ | ⟨-, hrenamed, -⟩ | ⟨htemporary, hrenamed, hcount⟩ := hstage
      · rw [hrenamed] at hmem
        cases hmem
      · rw [hrenamed] at hmem
        cases hmem
      · rw [hrenamed, List.mem_singleton] at hmem
        subst hmem
        have hdone : s.state.registry.writes.filter (·.seq ≠ w.seq) = [] := by
          rw [hwrites]
          simp
        have hleft : s.renamed.filter (· ≠ w.seq) = [] := by
          rw [hrenamed]
          simp
        rw [RequestRegistry.finish]
        split
        · exact .launch (s := { s with renamed := s.renamed.filter (· ≠ w.seq) })
            (r := { s.state.registry with
              writeInFlight := false
              writes := s.state.registry.writes.filter (·.seq ≠ w.seq) })
            (h.recorded.writes rfl rfl rfl) (hcount.trans hseq) htemporary hleft rfl rfl hdone rfl
        · rename_i hpend
          have hrows := hpending (by simpa using hpend)
          have hrecorded : InflightFile.Recorded
              { s with renamed := s.renamed.filter (· ≠ w.seq) } s.state.registry.writeSeq :=
            h.recorded.writes rfl rfl rfl
          refine ⟨hrecorded.keep (hcount.trans hseq).le rfl,
            .idle hdone rfl htemporary hleft (hcount.trans hseq) ?_⟩
          refine (hrecorded.snapshot_advance _ le_rfl).trans ?_
          rw [← hseq]
          exact hshot.trans (congrArg some hrows)

/-- The first snapshot is the empty list. -/
theorem Sound.init (idempotencyTtlMs : ℤ) (file : Option JsString) (now : ℤ) :
    (InflightFile.init (β := β) idempotencyTtlMs file now).Sound := by
  constructor
  · refine ⟨Nat.one_pos, rfl, List.pairwise_singleton _ _, ?_, ?_⟩
    · intro i hi
      rw [List.mem_singleton.mp hi]
      exact Nat.one_pos
    · intro k p hp
      cases hp
  · exact .busy ⟨1, []⟩ rfl rfl rfl rfl (fun _ => rfl) (.inl ⟨rfl, rfl, rfl⟩)

/-- One step of the registry or of a write. -/
theorem Sound.step {a : FileAction β} (h : s.Sound) (hs : s.step a = some s') : s'.Sound := by
  cases a with
  | registry a =>
      obtain ⟨state, hstate, rfl⟩ := Option.map_eq_some_iff.mp hs
      exact h.registry hstate
  | wrote seq => exact h.wrote hs
  | rename seq => exact h.rename hs
  | finish seq => exact h.finish hs

/-- Where the record is sound, the publications are the snapshots so far. -/
theorem Sound.snapshotSequence (h : s.Sound) : s.SnapshotSequence := by
  constructor
  · cases h.progress with
    | idle hwrites => rw [hwrites]; decide
    | busy w hwrites => rw [hwrites]; exact le_rfl
  · intro p hp
    obtain ⟨k, hk⟩ := List.mem_iff_getElem?.mp hp
    exact (h.recorded.published k p hk).2
  · rw [List.pairwise_iff_getElem]
    intro i j hi hj hij
    have hfirst := (h.recorded.published i _ (List.getElem?_eq_getElem hi)).1
    have hsecond := (h.recorded.published j _ (List.getElem?_eq_getElem hj)).1
    omega
  · exact h.recorded.times
  · intro hnone
    cases h.progress with
    | idle _ _ _ _ hcount hcurrent =>
        have hpositive : s.publications.length ≠ 0 := by
          have := h.recorded.positive
          omega
        obtain ⟨p, hp⟩ : ∃ p, s.publications.getLast? = some p :=
          Option.ne_none_iff_exists'.mp (by simpa using hpositive)
        have hlast : s.publications[s.state.registry.writeSeq - 1]? = some p := by
          rw [← hcount, ← List.getLast?_eq_getElem?, hp]
        obtain ⟨hseq, hshot⟩ := h.recorded.published _ p hlast
        have hnumber : p.seq = s.state.registry.writeSeq := by
          have := h.recorded.positive
          omega
        rw [hnumber, hcurrent] at hshot
        rw [InflightFile.published, hp]
        exact hshot.symm
    | busy w hwrites => rw [hwrites] at hnone; cases hnone

/-- However the changes of the registry and the completions of the writes are interleaved, the file
is a sequence of snapshots. -/
theorem inflight_file_is_a_snapshot_sequence (idempotencyTtlMs : ℤ) (file : Option JsString)
    (now : ℤ) (as : List (FileAction β)) (s : InflightFile β)
    (hrun : Machine.exec InflightFile.step (.init idempotencyTtlMs file now) as = some s) :
    s.SnapshotSequence :=
  (Machine.exec_invariant (Sound.init idempotencyTtlMs file now)
    (fun _ _ _ h hs => Sound.step h hs) hrun).snapshotSequence

/-- A request that comes while the first snapshot is being written is in the second one. -/
theorem inflight_file_of_a_request : ∃ s : InflightFile ℕ,
    Machine.exec InflightFile.step (.init 600000 none 0)
      [.wrote 1, .registry (.run 0 [114] [109] false 5), .rename 1, .finish 1, .wrote 2,
        .rename 2, .finish 2] = some s ∧
      s.published = some [⟨[114], [109], false, 5⟩] ∧ s.SnapshotSequence := by
  refine ⟨_, rfl, rfl, ?_⟩
  exact inflight_file_is_a_snapshot_sequence 600000 none 0
    [.wrote 1, .registry (.run 0 [114] [109] false 5), .rename 1, .finish 1, .wrote 2, .rename 2,
      .finish 2] _ rfl

end InflightFile

end ServeInfer.ApiServer
