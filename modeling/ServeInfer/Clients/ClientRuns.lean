import ServeInfer.Clients.ClientMoves
import ServeInfer.Lib.Machine

/-!
# What a chat client holds

Whatever the order of the streams' events, the timers and the calls of the component: an open
stream is held by `runsRef`, a client that is mounted is busy exactly as long as a run is neither
over nor cancelled, and nothing of a cancelled run is heard any more.
-/

namespace ServeInfer.Clients

def Stage.isFinished : Stage → Bool
  | .finished => true
  | _ => false

namespace Books

variable {b : Books} {i : ℕ} {run run' : Run}

/-- What the books say of the runs at any time. -/
structure Sound (b : Books) : Prop where
  distinct : (b.runs.map Run.requestId).Nodup
  known : ∀ id ∈ b.cancelledRef, id ∈ b.runs.map Run.requestId
  held : ∀ id i, b.runsRef.get? id = some i → ∃ run, b.runs[i]? = some run ∧
    run.requestId = id ∧ run.stage.isFinished = false ∧ 0 < run.attempt ∧ id ∉ b.cancelledRef
  holds : b.mountedRef = true → ∀ i run, b.runs[i]? = some run → run.stage.isFinished = false →
    0 < run.attempt → run.requestId ∉ b.cancelledRef → b.runsRef.get? run.requestId = some i
  opened : ∀ i run, b.runs[i]? = some run → run.stream.closed = false →
    run.stage.isStreaming = true ∧ b.runsRef.get? run.requestId = some i
  streams : ∀ run ∈ b.runs, run.stream.Sound
  unmade : ∀ run ∈ b.runs, run.attempt = 0 →
    run.stage = .settled (.error none) ∨ run.stage.isFinished = true
  count : b.mountedRef = true → b.runCount = b.runsRef.size

/-- A change of a run that concerns nobody else. -/
structure Changes (run run' : Run) : Prop where
  requestId : run'.requestId = run.requestId
  finished : run'.stage.isFinished = run.stage.isFinished
  attempt : run'.attempt = run.attempt
  made : 0 < run.attempt
  opened : run'.stream.closed = false → run.stream.closed = false ∧ run'.stage.isStreaming = true
  stream : run'.stream.Sound

theorem getElem?_put (hrun : b.runs[i]? = some run) (j : ℕ) :
    (b.put i run').runs[j]? = if i = j then some run' else b.runs[j]? := by
  obtain ⟨hlt, -⟩ := List.getElem?_eq_some_iff.mp hrun
  rw [put, List.getElem?_set]
  simp [hlt]

theorem mem_put {r : Run} (h : r ∈ (b.put i run').runs) : r = run' ∨ r ∈ b.runs :=
  (List.mem_or_eq_of_mem_set h).symm

/-- Runs with one id are one run. -/
theorem Sound.eq_of_requestId (hb : b.Sound) {j : ℕ} {r : Run} (hrun : b.runs[i]? = some run)
    (hr : b.runs[j]? = some r) (hid : run.requestId = r.requestId) : i = j := by
  have hi : (b.runs.map Run.requestId)[i]? = some run.requestId := by simp [hrun]
  have hj : (b.runs.map Run.requestId)[j]? = some run.requestId := by simp [hr, hid]
  obtain ⟨hlt, hi⟩ := List.getElem?_eq_some_iff.mp hi
  obtain ⟨hlt', hj⟩ := List.getElem?_eq_some_iff.mp hj
  exact (hb.distinct.getElem_inj_iff).mp (hi.trans hj.symm)

theorem requestIds_put (hrun : b.runs[i]? = some run) (hid : run'.requestId = run.requestId) :
    (b.put i run').runs.map Run.requestId = b.runs.map Run.requestId :=
  Client.map_set_of_eq hrun hid

theorem Sound.put (hb : b.Sound) (hrun : b.runs[i]? = some run) (h : Changes run run') :
    (b.put i run').Sound where
  distinct := (requestIds_put hrun h.requestId).symm ▸ hb.distinct
  known := (requestIds_put hrun h.requestId).symm ▸ hb.known
  held := by
    intro id j hj
    obtain ⟨r, hr, rfl, hstage, hmade, hkept⟩ := hb.held id j hj
    rw [getElem?_put hrun]
    split
    · rename_i hij
      obtain rfl := Option.some.inj (hrun.symm.trans (hij ▸ hr))
      exact ⟨run', rfl, h.requestId, h.finished.trans hstage, h.attempt.symm ▸ hmade, hkept⟩
    · exact ⟨r, hr, rfl, hstage, hmade, hkept⟩
  holds := by
    intro hmounted j r hr hstage hmade hkept
    rw [getElem?_put hrun] at hr
    split at hr
    · rename_i hij
      subst hij
      obtain rfl := Option.some.inj hr
      rw [h.requestId] at hkept ⊢
      exact hb.holds hmounted i run hrun (h.finished.symm.trans hstage) h.made hkept
    · exact hb.holds hmounted j r hr hstage hmade hkept
  opened := by
    intro j r hr hopen
    rw [getElem?_put hrun] at hr
    split at hr
    · rename_i hij
      subst hij
      obtain rfl := Option.some.inj hr
      obtain ⟨hbefore, hstage⟩ := h.opened hopen
      exact ⟨hstage, h.requestId.symm ▸ (hb.opened i run hrun hbefore).2⟩
    · exact hb.opened j r hr hopen
  streams := by
    intro r hr
    rcases mem_put hr with rfl | hr
    · exact h.stream
    · exact hb.streams r hr
  unmade := by
    intro r hr hnone
    rcases mem_put hr with rfl | hr
    · have hmade := h.made
      rw [← h.attempt, hnone] at hmade
      contradiction
    · exact hb.unmade r hr hnone
  count := hb.count

/-- A run is held anew, or it is over and held no longer. -/
theorem Sound.recount (hb : b.Sound) (hrun : b.runs[i]? = some run)
    (hid : run'.requestId = run.requestId) (hstream : run'.stream.Sound)
    (hunmade : run'.attempt = 0 → run'.stage.isFinished = true)
    {runsRef : OrderedMap JsString ℕ} {holder : Option ℕ}
    (hget : ∀ id, runsRef.get? id = if run.requestId = id then holder else b.runsRef.get? id)
    (hholder : holder = some i ∧ run'.stage.isFinished = false ∧ 0 < run'.attempt ∧
        run.requestId ∉ b.cancelledRef ∨
      holder = none ∧ run'.stage.isFinished = true)
    (hopened : run'.stream.closed = false → run'.stage.isStreaming = true ∧ holder = some i) :
    ((b.put i run').recount runsRef).Sound where
  distinct := (requestIds_put hrun hid).symm ▸ hb.distinct
  known := (requestIds_put hrun hid).symm ▸ hb.known
  held := by
    intro id j hj
    rw [recount_runsRef, hget] at hj
    rw [recount_runs, getElem?_put hrun]
    split at hj
    · rename_i hsame
      subst hsame
      obtain ⟨hheld, hrest⟩ | ⟨hheld, -⟩ := hholder
      · obtain rfl := Option.some.inj (hj.symm.trans hheld)
        exact ⟨run', if_pos rfl, hid, hrest⟩
      · rw [hheld] at hj
        contradiction
    · rename_i hother
      obtain ⟨r, hr, rfl, hrest⟩ := hb.held id j hj
      have hij : i ≠ j := by
        rintro rfl
        exact hother (congrArg Run.requestId (Option.some.inj (hrun.symm.trans hr)))
      exact ⟨r, (if_neg hij).trans hr, rfl, hrest⟩
  holds := by
    intro hmounted j r hr hstage hmade hkept
    rw [recount_runs, getElem?_put hrun] at hr
    rw [recount_runsRef, hget]
    split at hr
    · rename_i hij
      subst hij
      obtain rfl := Option.some.inj hr
      rw [if_pos hid.symm]
      obtain ⟨hheld, -⟩ | ⟨-, hover⟩ := hholder
      · exact hheld
      · rw [hover] at hstage
        contradiction
    · rename_i hij
      rw [if_neg fun hsame => hij (hb.eq_of_requestId hrun hr hsame)]
      exact hb.holds hmounted j r hr hstage hmade hkept
  opened := by
    intro j r hr hopen
    rw [recount_runs, getElem?_put hrun] at hr
    rw [recount_runsRef, hget]
    split at hr
    · rename_i hij
      subst hij
      obtain rfl := Option.some.inj hr
      rw [if_pos hid.symm]
      exact hopened hopen
    · rename_i hij
      rw [if_neg fun hsame => hij (hb.eq_of_requestId hrun hr hsame)]
      exact hb.opened j r hr hopen
  streams := by
    intro r hr
    rcases mem_put hr with rfl | hr
    · exact hstream
    · exact hb.streams r hr
  unmade := by
    intro r hr hnone
    rcases mem_put hr with rfl | hr
    · exact .inr (hunmade hnone)
    · exact hb.unmade r hr hnone
  count := fun hmounted => if_pos hmounted

theorem Sound.attempt (hb : b.Sound) (hrun : b.runs[i]? = some run)
    (hkept : run.requestId ∉ b.cancelledRef) (hid : run'.requestId = run.requestId)
    (hstage : run'.stage.isFinished = false) (hmade : 0 < run'.attempt)
    (hopened : run'.stream.closed = false → run'.stage.isStreaming = true)
    (hstream : run'.stream.Sound) :
    ((b.put i run').recount (b.runsRef.set run.requestId i)).Sound := by
  apply hb.recount hrun hid hstream
  · intro hnone
    omega
  · exact fun id => OrderedMap.get?_set _ _ _ _
  · exact .inl ⟨rfl, hstage, hmade, hkept⟩
  · exact fun hopen => ⟨hopened hopen, rfl⟩

theorem Sound.finish (hb : b.Sound) (hrun : b.runs[i]? = some run)
    (hstage : run.stage.isStreaming = false) :
    ((b.put i { run with stage := .finished }).recount
      (b.runsRef.delete run.requestId)).Sound := by
  refine hb.recount hrun ?_ ?_ ?_ (fun id => OrderedMap.get?_delete _ _ _) ?_ ?_
  · rfl
  · exact hb.streams run (List.mem_of_getElem? hrun)
  · exact fun _ => rfl
  · exact .inr ⟨rfl, rfl⟩
  · intro hopen
    have hbefore := (hb.opened i run hrun hopen).1
    rw [hstage] at hbefore
    contradiction

theorem getElem?_concat_cases {α : Type*} {l : List α} {a b : α} {j : ℕ}
    (h : (l ++ [a])[j]? = some b) : l[j]? = some b ∨ j = l.length ∧ b = a := by
  rw [List.getElem?_append] at h
  split at h
  · exact .inl h
  · obtain ⟨hlt, rfl⟩ := List.getElem?_eq_some_iff.mp h
    rw [List.length_singleton] at hlt
    exact .inr ⟨by omega, by simp⟩

theorem Sound.start (hb : b.Sound) (hnew : run.requestId ∉ b.runs.map Run.requestId)
    (hunmade : run.Unmade) :
    Sound { b with
      runs := b.runs ++ [run]
      cancelledRef := b.cancelledRef.filter (· ≠ run.requestId) } where
  distinct := by
    rw [List.map_append, List.map_singleton]
    exact hb.distinct.append (List.nodup_singleton _) (List.disjoint_singleton.mpr hnew)
  known := by
    intro id hid
    rw [List.map_append]
    exact List.mem_append_left _ (hb.known id (List.mem_of_mem_filter hid))
  held := by
    intro id j hj
    obtain ⟨r, hr, hid, hstage, hmade, hkept⟩ := hb.held id j hj
    refine ⟨r, ?_, hid, hstage, hmade, fun hin => hkept (List.mem_of_mem_filter hin)⟩
    rw [List.getElem?_append_left (List.getElem?_eq_some_iff.mp hr).1, hr]
  holds := by
    intro hmounted j r hr hstage hmade hkept
    obtain hr | ⟨-, rfl⟩ := getElem?_concat_cases hr
    · apply hb.holds hmounted j r hr hstage hmade
      intro hin
      refine hkept (List.mem_filter.mpr ⟨hin, ?_⟩)
      rw [decide_eq_true_eq]
      rintro hsame
      exact hnew (hsame ▸ List.mem_map_of_mem (List.mem_of_getElem? hr))
    · rw [hunmade.attempt] at hmade
      contradiction
  opened := by
    intro j r hr hopen
    obtain hr | ⟨-, rfl⟩ := getElem?_concat_cases hr
    · exact hb.opened j r hr hopen
    · rw [hunmade.closed] at hopen
      contradiction
  streams := by
    intro r hr
    rcases List.mem_append.mp hr with hr | hr
    · exact hb.streams r hr
    · obtain rfl := List.mem_singleton.mp hr
      intro hsource
      exact absurd (hunmade.source.symm.trans hsource) (by simp)
  unmade := by
    intro r hr hnone
    rcases List.mem_append.mp hr with hr | hr
    · exact hb.unmade r hr hnone
    · obtain rfl := List.mem_singleton.mp hr
      exact .inl hunmade.stage
  count := hb.count

/-- What closing the streams that are held makes of a run. -/
structure Closes (run run' : Run) : Prop where
  same : run' = { run with stream := run'.stream }
  closed : run'.stream.closed = true
  stream : run'.stream.Sound
  calls : run'.stream.calls = run.stream.calls

/-- `closeAll` changes nothing of a run but its stream. -/
theorem same_of_closeAll {j : ℕ} {r' : Run} (h : b.closeAll.runs[j]? = some r') :
    ∃ r, b.runs[j]? = some r ∧ r' = { r with stream := r'.stream } := by
  rw [closeAll, List.getElem?_mapIdx] at h
  obtain ⟨r, hr, rfl⟩ := Option.map_eq_some_iff.mp h
  refine ⟨r, hr, ?_⟩
  split <;> rfl

/-- After `closeAll` no stream is open. -/
theorem Sound.closeAll_getElem? (hb : b.Sound) (j : ℕ) :
    b.runs[j]? = none ∧ b.closeAll.runs[j]? = none ∨
      ∃ r r', b.runs[j]? = some r ∧ b.closeAll.runs[j]? = some r' ∧ Closes r r' := by
  rw [closeAll, List.getElem?_mapIdx]
  cases hr : b.runs[j]? with
  | none => exact .inl ⟨rfl, rfl⟩
  | some r =>
      refine .inr ⟨r, _, rfl, rfl, ?_⟩
      have hstream := hb.streams r (List.mem_of_getElem? hr)
      split
      · exact ⟨rfl, ChatStream.closed_close, ChatStream.sound_close hstream,
          ChatStream.close_calls⟩
      · rename_i hunheld
        refine ⟨rfl, ?_, hstream, rfl⟩
        by_contra hopen
        obtain ⟨-, hheld⟩ := hb.opened j r hr (Bool.eq_false_iff.mpr hopen)
        apply hunheld
        rw [List.any_eq_true]
        exact ⟨_, OrderedMap.get?_eq_some_iff.mp hheld, by simp⟩

theorem Sound.exists_of_closeAll (hb : b.Sound) {j : ℕ} {r' : Run}
    (h : b.closeAll.runs[j]? = some r') : ∃ r, b.runs[j]? = some r ∧ Closes r r' := by
  obtain ⟨-, hnone⟩ | ⟨r, r'', hr, hr', hcloses⟩ := hb.closeAll_getElem? j
  · rw [hnone] at h
    contradiction
  · obtain rfl := Option.some.inj (h.symm.trans hr')
    exact ⟨r, hr, hcloses⟩

theorem requestIds_closeAll : b.closeAll.runs.map Run.requestId = b.runs.map Run.requestId := by
  apply List.ext_getElem?
  intro j
  rw [closeAll, List.getElem?_map, List.getElem?_map, List.getElem?_mapIdx, Option.map_map]
  congr 1
  ext1 r
  rw [Function.comp_apply]
  split <;> rfl

/-- The streams are closed, and nothing is held any more. -/
theorem Sound.release (hb : b.Sound) {cancelledRef : List JsString} {mountedRef : Bool}
    {runCount : ℕ} (hknown : ∀ id ∈ cancelledRef, id ∈ b.runs.map Run.requestId)
    (hall : mountedRef = true → b.mountedRef = true ∧
      ∀ id ∉ cancelledRef, id ∉ b.cancelledRef ∧ b.runsRef.get? id = none)
    (hcount : mountedRef = true → runCount = 0) :
    Sound
      { b.closeAll with
        cancelledRef := cancelledRef
        mountedRef := mountedRef
        runCount := runCount } where
  distinct := requestIds_closeAll.symm ▸ hb.distinct
  known := requestIds_closeAll.symm ▸ hknown
  held := by
    intro id j hj
    contradiction
  holds := by
    intro hmounted j r' hr' hstage hmade hkept
    obtain ⟨r, hr, hcloses⟩ := hb.exists_of_closeAll hr'
    obtain ⟨hbefore, hfree⟩ := hall hmounted
    obtain ⟨hnot, hunheld⟩ := hfree r'.requestId hkept
    rw [hcloses.same] at hstage hmade hnot hunheld
    have hheld := hb.holds hbefore j r hr hstage hmade hnot
    exact absurd (hunheld.symm.trans hheld) (by simp)
  opened := by
    intro j r' hr' hopen
    obtain ⟨r, -, hcloses⟩ := hb.exists_of_closeAll hr'
    exact absurd (hcloses.closed.symm.trans hopen) (by simp)
  streams := by
    intro r' hr'
    obtain ⟨j, hj⟩ := List.mem_iff_getElem?.mp hr'
    obtain ⟨r, -, hcloses⟩ := hb.exists_of_closeAll hj
    exact hcloses.stream
  unmade := by
    intro r' hr' hnone
    obtain ⟨j, hj⟩ := List.mem_iff_getElem?.mp hr'
    obtain ⟨r, hr, hcloses⟩ := hb.exists_of_closeAll hj
    rw [hcloses.same] at hnone ⊢
    exact hb.unmade r (List.mem_of_getElem? hr) hnone
  count := hcount

theorem Sound.cancel (hb : b.Sound) : b.cancel.Sound := by
  apply hb.release
  · intro id hid
    rcases List.mem_append.mp hid with hid | hid
    · exact hb.known id hid
    · obtain ⟨e, he, rfl⟩ := List.mem_map.mp hid
      obtain ⟨r, hr, hrid, -⟩ := hb.held e.1 e.2 (OrderedMap.get?_eq_some_iff.mpr he)
      exact hrid ▸ List.mem_map_of_mem (List.mem_of_getElem? hr)
  · intro hmounted
    refine ⟨hmounted, ?_⟩
    intro id hid
    rw [List.mem_append, not_or] at hid
    exact ⟨hid.1, OrderedMap.get?_eq_none_iff.mpr hid.2⟩
  · exact fun hmounted => if_pos hmounted

theorem Sound.unmount (hb : b.Sound) : b.unmount.Sound := by
  apply hb.release hb.known
  · intro hmounted
    contradiction
  · intro hmounted
    contradiction

end Books

variable {cfg : Settings} {c d : Client}

theorem Settles.streaming {calls : List Call} {run run' : Run} (h : Settles calls run run')
    (hgoes : run'.stream.closed = false → ∀ call ∈ calls, call.name.isLast = false)
    (hopen : run'.stream.closed = false) : run' = run := by
  rcases h with rfl | ⟨-, ⟨call, hcall, hlast⟩, -⟩
  · rfl
  · rw [hgoes hopen call hcall] at hlast
    contradiction

theorem Settles.frame {calls : List Call} {run run' : Run} (h : Settles calls run run') :
    run'.attempt = run.attempt ∧ run'.stream = run.stream ∧ run'.heard = run.heard ∧
      run'.repeated = run.repeated ∧ run'.answerId = run.answerId ∧ run'.text = run.text ∧
      run'.priority = run.priority := by
  rcases h with rfl | ⟨-, -, result, -, rfl⟩
  · exact ⟨rfl, rfl, rfl, rfl, rfl, rfl, rfl⟩
  · exact ⟨rfl, rfl, rfl, rfl, rfl, rfl, rfl⟩

theorem Settles.finished {calls : List Call} {run run' : Run} (h : Settles calls run run') :
    run'.stage.isFinished = run.stage.isFinished := by
  rcases h with rfl | ⟨hstage, -, result, -, rfl⟩
  · rfl
  · cases hrun : run.stage <;> simp_all [Stage.isStreaming, Stage.isFinished]

/-- Every move keeps the books. -/
theorem sound_of_move (h : Move cfg True c d) (hc : c.books.Sound) : d.books.Sound := by
  cases h with
  | quiet hbooks => exact hbooks ▸ hc
  | hear i run run' stream calls hrun hsource hgrows hsettles hbooks htells =>
      rw [hbooks]
      have hsound := hc.streams run (List.mem_of_getElem? hrun)
      obtain ⟨hstage, hheld⟩ := hc.opened i run hrun (hsound hsource)
      obtain ⟨r, hr, -, -, hmade, -⟩ := hc.held _ _ hheld
      obtain rfl := Option.some.inj (hrun.symm.trans hr)
      have hattempt : run'.attempt = run.attempt := hsettles.frame.1
      have hstream : run'.stream = stream := hsettles.frame.2.1
      apply hc.put hrun
      refine ⟨hsettles.requestId, hsettles.finished, hattempt, hmade, ?_, ?_⟩
      · intro hopen
        have hgoes := hgrows.goesOn (hstream ▸ hopen)
        rw [hsettles.streaming (fun _ => hgoes.2) hopen]
        exact ⟨hgoes.1, hstage⟩
      · exact hstream ▸ hgrows.sound hsound
  | attempt i run run' failure hrun hstage hkept hsettles hbooks htells =>
      rw [hbooks]
      have hattempt : run'.attempt = run.attempt + 1 := hsettles.frame.1
      have hstream : run'.stream = startChatStream run.requestId (fun _ => true) failure :=
        hsettles.frame.2.1
      obtain ⟨hnew, hcalls⟩ := ChatStream.startChatStream_cases run.requestId (fun _ => true) failure
      apply hc.attempt hrun hkept hsettles.requestId
      · rw [hsettles.finished]
        rfl
      · rw [hattempt]
        exact Nat.succ_pos _
      · intro hopen
        rw [hsettles.streaming _ hopen]
        · rfl
        · intro _
          rw [hcalls (hstream ▸ hopen)]
          simp
      · exact hstream ▸ hnew
  | wait i run err wait hrun hstage hretry hworth hleft hkept hwait hbooks =>
      rw [hbooks]
      have hclosed : ¬ run.stream.closed = false := by
        intro hopen
        have hstreaming := (hc.opened i run hrun hopen).1
        rw [hstage] at hstreaming
        contradiction
      apply hc.put hrun
      refine ⟨rfl, ?_, rfl, ?_, fun hopen => absurd hopen hclosed, ?_⟩
      · rw [hstage]
        rfl
      · by_contra hnone
        rcases hc.unmade run (List.mem_of_getElem? hrun) (by omega) with hfirst | hover
        · rw [hstage] at hfirst
          simp at hfirst
        · rw [hstage] at hover
          contradiction
      · exact hc.streams run (List.mem_of_getElem? hrun)
  | finish i run hrun hstage hbooks => exact hbooks ▸ hc.finish hrun hstage
  | start run hnew hunmade hbooks => exact hbooks ▸ hc.start (hnew trivial) hunmade
  | cancel hbooks => exact hbooks ▸ hc.cancel
  | unmount hbooks => exact hbooks ▸ hc.unmount

theorem sound_mounted : mounted.books.Sound where
  distinct := List.nodup_nil
  known := by simp [mounted, Client.books]
  held := by simp [mounted, Client.books]
  holds := by simp [mounted, Client.books]
  opened := by simp [mounted, Client.books]
  streams := by simp [mounted, Client.books]
  unmade := by simp [mounted, Client.books]
  count := fun _ => rfl

/-- What every move keeps is kept by every run; the moves may rely on the ids of its requests where
these are not repeated. -/
theorem invariant_of_moves (unique : Prop) {P : Client → Prop}
    (hkeep : ∀ c d, P c → Move cfg unique c d → P d) {as : List Action} {s : Client} (hs : P s)
    (hg : unique → Machine.Guarded (step cfg) Fresh s as)
    (h : Machine.exec (step cfg) s as = some c) : P c := by
  have hguarded : Machine.Guarded (step cfg) (fun c a => unique → Fresh c a) s as :=
    fun pre a hpre t ht hu => hg hu pre a hpre t ht
  refine hguarded.invariant hs ?_ h
  intro t a t' ht hfresh hstep
  have hmoves := moves_of_step hfresh hstep
  clear hstep
  induction hmoves with
  | refl => exact ht
  | tail _ hmove ih => exact hkeep _ _ ih hmove

theorem sound_of_exec {as : List Action} (hg : Machine.Guarded (step cfg) Fresh mounted as)
    (h : Machine.exec (step cfg) mounted as = some c) : c.books.Sound :=
  invariant_of_moves True (P := fun c => c.books.Sound) (fun _ _ hc hmove => sound_of_move hmove hc)
    sound_mounted (fun _ => hg) h

/-- The runs that are neither over nor cancelled. -/
def Client.underway (c : Client) : List Run :=
  c.runs.filter fun run => !run.stage.isFinished && !c.cancelledRef.contains run.requestId

/-- Between two steps a run that is not over has made an attempt. -/
theorem made_of_idle (hc : c.books.Sound) (hidle : c.idle = true) {run : Run}
    (hrun : run ∈ c.runs) (hstage : run.stage.isFinished = false) : 0 < run.attempt := by
  by_contra hnone
  rcases hc.unmade run hrun (by omega) with hfirst | hover
  · have hsettled := List.all_eq_true.mp hidle run hrun
    rw [hfirst] at hsettled
    contradiction
  · rw [hover] at hstage
    contradiction

/-- While it is mounted, a client counts the runs that are neither over nor cancelled, and only
these may have an open stream. -/
theorem in_flight_counts_underway {as : List Action}
    (hg : Machine.Guarded (step cfg) Fresh mounted as)
    (h : Machine.exec (step cfg) mounted as = some c) (hmounted : c.mountedRef = true)
    (hidle : c.idle = true) :
    c.runCount = c.underway.length ∧
      ∀ run ∈ c.runs, run.stream.closed = false → run ∈ c.underway := by
  have hc := sound_of_exec hg h
  have hmem : ∀ {run : Run}, run ∈ c.underway ↔
      run ∈ c.runs ∧ run.stage.isFinished = false ∧ run.requestId ∉ c.cancelledRef := by
    intro run
    simp [Client.underway]
  constructor
  · have hkeys : c.runsRef.keys.Perm (c.underway.map Run.requestId) := by
      apply (List.perm_ext_iff_of_nodup c.runsRef.keys_nodup _).mpr
      · intro id
        constructor
        · intro hid
          obtain ⟨e, he, rfl⟩ := List.mem_map.mp hid
          obtain ⟨run, hrun, hrid, hstage, -, hkept⟩ :=
            hc.held e.1 e.2 (OrderedMap.get?_eq_some_iff.mpr he)
          rw [← hrid] at hkept ⊢
          exact List.mem_map_of_mem (hmem.mpr ⟨List.mem_of_getElem? hrun, hstage, hkept⟩)
        · intro hid
          obtain ⟨run, hrun, rfl⟩ := List.mem_map.mp hid
          obtain ⟨hrun, hstage, hkept⟩ := hmem.mp hrun
          obtain ⟨i, hi⟩ := List.mem_iff_getElem?.mp hrun
          have hheld := hc.holds hmounted i run hi hstage (made_of_idle hc hidle hrun hstage) hkept
          exact List.mem_map_of_mem (OrderedMap.get?_eq_some_iff.mp hheld)
      · exact hc.distinct.sublist (List.filter_sublist.map _)
    calc c.runCount = c.runsRef.size := hc.count hmounted
      _ = c.runsRef.keys.length := c.runsRef.length_keys.symm
      _ = (c.underway.map Run.requestId).length := hkeys.length_eq
      _ = c.underway.length := List.length_map _
  · intro run hrun hopen
    obtain ⟨i, hi⟩ := List.mem_iff_getElem?.mp hrun
    obtain ⟨-, hheld⟩ := hc.opened i run hi hopen
    obtain ⟨r, hr, -, hstage, -, hkept⟩ := hc.held _ _ hheld
    obtain rfl := Option.some.inj (hi.symm.trans hr)
    exact hmem.mpr ⟨hrun, hstage, hkept⟩

/-- A client that tries again, with conversions that no request here needs. -/
def retrying : Settings where
  retry := true
  numberOf := fun _ => none
  numberText := id
  num := fun _ => []

/-- A request whose stream breaks off after the first token. -/
def brokenOff : List Action :=
  [.send (Json.units "hi") none (Json.units "r") none,
    .event 0 ⟨"token", some (Json.units "\x7b\"token\":\"a\"\x7d")⟩,
    .event 0 { type := "error" },
    .react 0 0]

/-- The same request with its second attempt. -/
def triedAgain : List Action :=
  brokenOff ++
    [.timer 0 none, .event 0 ⟨"token", some (Json.units "\x7b\"token\":\"b\"\x7d")⟩]

theorem guarded_triedAgain : Machine.Guarded (step retrying) Fresh mounted triedAgain := by
  decide +kernel

theorem in_flight_counts_underway_triedAgain :
    ∃ c, Machine.exec (step retrying) mounted triedAgain = some c ∧
      c.runCount = c.underway.length ∧
      ∀ run ∈ c.runs, run.stream.closed = false → run ∈ c.underway := by
  have hrun : (Machine.exec (step retrying) mounted triedAgain).isSome = true := by
    decide +kernel
  have hstate : (Machine.exec (step retrying) mounted triedAgain).map
      (fun c => (c.mountedRef, c.idle)) = some (true, true) := by
    decide +kernel
  obtain ⟨c, hc⟩ := Option.isSome_iff_exists.mp hrun
  rw [hc, Option.map_some, Option.some.injEq, Prod.mk.injEq] at hstate
  exact ⟨c, hc, in_flight_counts_underway guarded_triedAgain hc hstate.1 hstate.2⟩

/-- The `i`-th run has been ended from outside: what it has heard and tried is all there will
be. -/
def Silent (i : ℕ) (run : Run) (c : Client) : Prop :=
  ∃ run', c.runs[i]? = some run' ∧ run'.stream.closed = true ∧ run'.heard = run.heard ∧
    run'.attempt = run.attempt ∧ run'.requestId = run.requestId ∧
    (run'.stage.isFinished = true ∨
      run.requestId ∈ c.cancelledRef ∧ ∀ result, run'.stage ≠ .settled result)

/-- A move of another run leaves it as it is. -/
theorem Silent.of_put {i j : ℕ} {run r' : Run} (hsilent : Silent i run c) (hruns : d.runs = c.runs.set j r')
    (hcancelled : d.cancelledRef = c.cancelledRef) (hij : j ≠ i) : Silent i run d := by
  obtain ⟨run', hrun', hrest⟩ := hsilent
  refine ⟨run', ?_, hcancelled ▸ hrest⟩
  rw [hruns, List.getElem?_set_ne hij, hrun']

theorem Silent.of_closeAll {i : ℕ} {run : Run} (hsilent : Silent i run c) (hc : c.books.Sound)
    (hruns : d.runs = c.books.closeAll.runs)
    (hcancelled : ∀ id ∈ c.cancelledRef, id ∈ d.cancelledRef) : Silent i run d := by
  obtain ⟨run', hrun', -, hheard, hattempt, hid, hover⟩ := hsilent
  obtain ⟨hnone, -⟩ | ⟨r, r', hr, hr', hcloses⟩ := hc.closeAll_getElem? i
  · exact absurd (hnone.symm.trans hrun') (by simp)
  · obtain rfl := Option.some.inj (hr.symm.trans hrun')
    refine ⟨r', hruns ▸ hr', hcloses.closed, ?_⟩
    rw [hcloses.same]
    exact ⟨hheard, hattempt, hid, hover.imp_right fun h => ⟨hcancelled _ h.1, h.2⟩⟩

theorem silent_of_move {i : ℕ} {run : Run} (h : Move cfg True c d) (hc : c.books.Sound)
    (hsilent : Silent i run c) : Silent i run d := by
  obtain ⟨run', hrun', hclosed, hheard, hattempt, hid, hover⟩ := hsilent
  have hsilent : Silent i run c := ⟨run', hrun', hclosed, hheard, hattempt, hid, hover⟩
  have hunsettled : ∀ result, run'.stage ≠ .settled result := by
    rcases hover with hover | ⟨-, hnever⟩
    · rintro result hstage
      rw [hstage] at hover
      contradiction
    · exact hnever
  cases h with
  | quiet hbooks =>
      have hruns : d.runs = c.runs := congrArg Books.runs hbooks
      have hcancelled : d.cancelledRef = c.cancelledRef := congrArg Books.cancelledRef hbooks
      unfold Silent
      rw [hruns, hcancelled]
      exact hsilent
  | hear j r r' stream calls hr hsource hgrows hsettles hbooks =>
      apply hsilent.of_put (congrArg Books.runs hbooks) (congrArg Books.cancelledRef hbooks)
      rintro rfl
      obtain rfl := Option.some.inj (hr.symm.trans hrun')
      have hopen := hc.streams r (List.mem_of_getElem? hr) hsource
      exact absurd (hclosed.symm.trans hopen) (by simp)
  | attempt j r r' failure hr hstage hkept hsettles hbooks =>
      apply hsilent.of_put (congrArg Books.runs hbooks) (congrArg Books.cancelledRef hbooks)
      rintro rfl
      obtain rfl := Option.some.inj (hr.symm.trans hrun')
      rcases hstage with ⟨-, hstage, -⟩ | ⟨err, hstage⟩
      · exact hunsettled _ hstage
      · rcases hover with hover | ⟨hin, -⟩
        · rw [hstage] at hover
          contradiction
        · exact hkept (hid ▸ hin)
  | wait j r err wait hr hstage hretry hworth hleft hkept hwait hbooks =>
      apply hsilent.of_put (congrArg Books.runs hbooks) (congrArg Books.cancelledRef hbooks)
      rintro rfl
      obtain rfl := Option.some.inj (hr.symm.trans hrun')
      exact hunsettled _ hstage
  | finish j r hr hstage hbooks =>
      have hruns : d.runs = c.runs.set j { r with stage := .finished } :=
        congrArg Books.runs hbooks
      by_cases hij : j = i
      · subst hij
        obtain rfl := Option.some.inj (hr.symm.trans hrun')
        obtain ⟨hlt, -⟩ := List.getElem?_eq_some_iff.mp hr
        refine ⟨{ r with stage := .finished }, ?_, hclosed, hheard, hattempt, hid, .inl rfl⟩
        rw [hruns, List.getElem?_set_self hlt]
      · exact hsilent.of_put hruns (congrArg Books.cancelledRef hbooks) hij
  | start r hnew hunmade hbooks =>
      have hruns : d.runs = c.runs ++ [r] := congrArg Books.runs hbooks
      have hcancelled : d.cancelledRef = c.cancelledRef.filter (· ≠ r.requestId) :=
        congrArg Books.cancelledRef hbooks
      refine ⟨run', ?_, hclosed, hheard, hattempt, hid, hover.imp_right ?_⟩
      · rw [hruns, List.getElem?_append_left (List.getElem?_eq_some_iff.mp hrun').1, hrun']
      · rintro ⟨hin, hnever⟩
        refine ⟨?_, hnever⟩
        rw [hcancelled, List.mem_filter]
        refine ⟨hin, ?_⟩
        rw [decide_eq_true_eq]
        intro hsame
        exact hnew trivial (hsame ▸ hc.known _ hin)
  | cancel hbooks =>
      apply hsilent.of_closeAll hc (congrArg Books.runs hbooks)
      intro id hin
      rw [show d.cancelledRef = _ from congrArg Books.cancelledRef hbooks]
      exact List.mem_append_left _ hin
  | unmount hbooks =>
      apply hsilent.of_closeAll hc (congrArg Books.runs hbooks)
      intro id hin
      rw [show d.cancelledRef = _ from congrArg Books.cancelledRef hbooks]
      exact hin

/-- Cancelling ends every run there is. -/
theorem silent_cancel (hc : c.books.Sound) (hidle : c.idle = true) (hmounted : c.mountedRef = true)
    {i : ℕ} {run : Run} (hrun : c.runs[i]? = some run) : Silent i run c.cancel := by
  have hbooks : c.cancel.books = c.books.cancel := Client.cancel_books
  obtain ⟨hnone, -⟩ | ⟨r, r', hr, hr', hcloses⟩ := hc.closeAll_getElem? i
  · exact absurd (hnone.symm.trans hrun) (by simp)
  · obtain rfl := Option.some.inj (hr.symm.trans hrun)
    have hruns : c.cancel.runs = c.books.closeAll.runs := congrArg Books.runs hbooks
    have hcancelled : c.cancel.cancelledRef = c.cancelledRef ++ c.runsRef.keys :=
      congrArg Books.cancelledRef hbooks
    refine ⟨r', hruns ▸ hr', hcloses.closed, ?_⟩
    rw [hcloses.same, hcancelled]
    refine ⟨rfl, rfl, rfl, ?_⟩
    cases hstage : r.stage.isFinished with
    | true => exact .inl rfl
    | false =>
        have hmem := List.mem_of_getElem? hr
        right
        constructor
        · rw [List.mem_append]
          by_cases hin : r.requestId ∈ c.cancelledRef
          · exact .inl hin
          · have hheld := hc.holds hmounted i r hr hstage (made_of_idle hc hidle hmem hstage) hin
            exact .inr (List.mem_map_of_mem (OrderedMap.get?_eq_some_iff.mp hheld))
        · intro result hsettled
          have hnever := List.all_eq_true.mp hidle r hmem
          rw [hsettled] at hnever
          contradiction

/-- Whatever happens after the user has cancelled, the runs there were have closed their streams,
hear nothing more and are not repeated. -/
theorem cancelled_runs_stay_silent {as bs : List Action}
    (hg : Machine.Guarded (step cfg) Fresh mounted (as ++ .cancel :: bs))
    (hc : Machine.exec (step cfg) mounted as = some c) (hmounted : c.mountedRef = true)
    (hd : Machine.exec (step cfg) mounted (as ++ .cancel :: bs) = some d) {i : ℕ} {run : Run}
    (hrun : c.runs[i]? = some run) :
    ∃ run', d.runs[i]? = some run' ∧ run'.requestId = run.requestId ∧
      run'.stream.closed = true ∧ run'.heard = run.heard ∧ run'.attempt = run.attempt := by
  rw [Machine.exec_append, hc, Option.bind_some, Machine.exec_cons] at hd
  obtain ⟨e, he, hd⟩ := Option.bind_eq_some_iff.mp hd
  obtain ⟨hidle, ⟨⟩⟩ := Option.ite_none_right_eq_some.mp he
  have hsound := sound_of_exec (hg.restrict (List.prefix_append _ _)) hc
  have hrest := (hg.after hc)
  obtain ⟨-, hrest⟩ := Machine.guarded_cons.mp hrest
  have hstart : c.cancel.books.Sound ∧ Silent i run c.cancel :=
    ⟨Client.cancel_books ▸ hsound.cancel, silent_cancel hsound hidle hmounted hrun⟩
  have hend : d.books.Sound ∧ Silent i run d :=
    invariant_of_moves True (P := fun c => c.books.Sound ∧ Silent i run c)
      (fun _ _ hc hmove => ⟨sound_of_move hmove hc.1, silent_of_move hmove hc.1 hc.2⟩)
      hstart (fun _ => hrest _ he) hd
  obtain ⟨run', hrun', hclosed, hheard, hattempt, hid, -⟩ := hend.2
  exact ⟨run', hrun', hid, hclosed, hheard, hattempt⟩

theorem cancelled_runs_stay_silent_brokenOff :
    ∃ c d run, Machine.exec (step retrying) mounted brokenOff = some c ∧
      Machine.exec (step retrying) mounted (brokenOff ++ .cancel :: [.timer 0 none]) = some d ∧
      c.runs[0]? = some run ∧
      ∃ run', d.runs[0]? = some run' ∧ run'.requestId = run.requestId ∧
        run'.stream.closed = true ∧ run'.heard = run.heard ∧ run'.attempt = run.attempt := by
  have hbefore : (Machine.exec (step retrying) mounted brokenOff).isSome = true := by
    decide +kernel
  have hstate : (Machine.exec (step retrying) mounted brokenOff).map
      (fun c => (c.mountedRef, c.runs.length)) = some (true, 1) := by
    decide +kernel
  have hafter : (Machine.exec (step retrying) mounted
      (brokenOff ++ .cancel :: [.timer 0 none])).isSome = true := by
    decide +kernel
  obtain ⟨c, hc⟩ := Option.isSome_iff_exists.mp hbefore
  obtain ⟨d, hd⟩ := Option.isSome_iff_exists.mp hafter
  rw [hc, Option.map_some, Option.some.injEq, Prod.mk.injEq] at hstate
  obtain ⟨run, hrun⟩ : ∃ run, c.runs[0]? = some run :=
    ⟨_, List.getElem?_eq_getElem (by omega)⟩
  have hguarded : Machine.Guarded (step retrying) Fresh mounted
      (brokenOff ++ .cancel :: [.timer 0 none]) := by
    decide +kernel
  exact ⟨c, d, run, hc, hd, hrun, cancelled_runs_stay_silent hguarded hc hstate.1 hd hrun⟩

end ServeInfer.Clients
