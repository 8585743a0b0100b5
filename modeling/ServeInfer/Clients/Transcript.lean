import ServeInfer.Clients.ClientRuns

/-!
# What a chat client shows and tries

An answer is the tokens that all attempts of its run have brought, one after the other, and a run
is tried again only after errors worth it, as often and after waits as long as its policy allows.
-/

namespace ServeInfer.Clients

variable {cfg : Settings} {c d : Client}

/-- What the messages have to do with the runs. -/
structure Voiced (cfg : Settings) (c : Client) : Prop where
  answers : ∀ m ∈ c.messages, m.role = .assistant → ∃ run ∈ c.runs,
    run.answerId = m.id ∧ run.requestId = m.requestId ∧ m.text = spoken cfg run.heard
  questions : ∀ m ∈ c.messages, m.role = .user → ∃ run ∈ c.runs,
    run.requestId = m.requestId ∧ m.text = run.text ∧ m.priority = some run.priority
  apart : ∀ m ∈ c.messages, m.role = .user → ∀ run ∈ c.runs, run.answerId ≠ m.id
  distinct : (c.runs.map Run.answerId).Nodup
  messageIds : ∀ m ∈ c.messages, m.id ≤ c.counter
  answerIds : ∀ run ∈ c.runs, run.answerId ≤ c.counter

/-- Every message comes from one that was there. -/
theorem Tells.exists_message {answerId : ℕ} {calls : List Call} (h : Tells cfg c d answerId calls)
    (hmounted : c.mountedRef = true) {m' : Message} (hm' : m' ∈ d.messages) :
    ∃ m ∈ c.messages, m'.id = m.id ∧ m'.role = m.role ∧ m'.requestId = m.requestId ∧
      m'.priority = m.priority ∧
      m'.text = if m.id = answerId then m.text ++ spoken cfg calls else m.text := by
  have hin : m'.plain ∈ d.messages.map Message.plain := List.mem_map_of_mem hm'
  rw [h.messages hmounted, List.map_map] at hin
  obtain ⟨m, hm, heq⟩ := List.mem_map.mp hin
  refine ⟨m, hm, ?_⟩
  rw [Function.comp_apply, Message.say] at heq
  split at heq
  · rename_i hsame
    have hsame : m.id = answerId := hsame
    rw [if_pos hsame]
    exact ⟨(congrArg Message.id heq).symm, (congrArg Message.role heq).symm,
      (congrArg Message.requestId heq).symm, (congrArg Message.priority heq).symm,
      (congrArg Message.text heq).symm⟩
  · rename_i hother
    have hother : m.id ≠ answerId := hother
    rw [if_neg hother]
    exact ⟨(congrArg Message.id heq).symm, (congrArg Message.role heq).symm,
      (congrArg Message.requestId heq).symm, (congrArg Message.priority heq).symm,
      (congrArg Message.text heq).symm⟩

theorem Voiced.eq_of_answerId (hc : Voiced cfg c) {run r : Run} (hrun : run ∈ c.runs)
    (hr : r ∈ c.runs) (hid : run.answerId = r.answerId) : run = r :=
  List.inj_on_of_nodup_map hc.distinct hrun hr hid

theorem mem_set_of_ne {α : Type*} {l : List α} {i : ℕ} {a b r : α} (h : l[i]? = some a)
    (hr : r ∈ l) (hne : r ≠ a) : r ∈ l.set i b := by
  obtain ⟨j, hj⟩ := List.mem_iff_getElem?.mp hr
  have hij : i ≠ j := by
    rintro rfl
    exact hne (Option.some.inj (hj.symm.trans h))
  apply List.mem_iff_getElem?.mpr
  exact ⟨j, (List.getElem?_set_ne hij).trans hj⟩

/-- A run hears calls, and its answer shows them. -/
theorem Voiced.hear (hc : Voiced cfg c) (hmounted : c.mountedRef = true) {i : ℕ} {run run' : Run}
    {calls : List Call} (hrun : c.runs[i]? = some run) (hruns : d.runs = c.runs.set i run')
    (htells : Tells cfg c d run.answerId calls) (hheard : run'.heard = run.heard ++ calls)
    (hanswerId : run'.answerId = run.answerId) (hrequestId : run'.requestId = run.requestId)
    (htext : run'.text = run.text) (hpriority : run'.priority = run.priority) :
    Voiced cfg d := by
  have hmem := List.mem_of_getElem? hrun
  have hmem' : run' ∈ d.runs := by
    rw [hruns]
    exact List.mem_set (List.getElem?_eq_some_iff.mp hrun).1 _
  have hcases : ∀ r ∈ d.runs, r = run' ∨ r ∈ c.runs := by
    intro r hr
    rw [hruns] at hr
    exact (List.mem_or_eq_of_mem_set hr).symm
  constructor
  · intro m' hm' hrole
    obtain ⟨m, hm, hid, hrole', hreq, -, hsaid⟩ := htells.exists_message hmounted hm'
    obtain ⟨r, hr, hanswer, hrid, hspoken⟩ := hc.answers m hm (hrole'.symm.trans hrole)
    rw [hid, hreq, hsaid]
    split
    · rename_i hsame
      obtain rfl := hc.eq_of_answerId hr hmem (hanswer.trans hsame)
      refine ⟨run', hmem', hanswerId.trans hanswer, hrequestId.trans hrid, ?_⟩
      rw [hspoken, hheard, spoken_append]
    · rename_i hother
      refine ⟨r, ?_, hanswer, hrid, hspoken⟩
      rw [hruns]
      apply mem_set_of_ne hrun hr
      rintro rfl
      exact hother hanswer.symm
  · intro m' hm' hrole
    obtain ⟨m, hm, hid, hrole', hreq, hprio, hsaid⟩ := htells.exists_message hmounted hm'
    have huser := hrole'.symm.trans hrole
    obtain ⟨r, hr, hrid, hasked, hpriority'⟩ := hc.questions m hm huser
    rw [hreq, hprio, hsaid, if_neg (hc.apart m hm huser run hmem).symm]
    by_cases hsame : r = run
    · subst hsame
      exact ⟨run', hmem', hrequestId.trans hrid, hasked.trans htext.symm,
        hpriority'.trans (congrArg some hpriority.symm)⟩
    · exact ⟨r, hruns ▸ mem_set_of_ne hrun hr hsame, hrid, hasked, hpriority'⟩
  · intro m' hm' hrole r hr
    obtain ⟨m, hm, hid, hrole', -⟩ := htells.exists_message hmounted hm'
    have huser := hrole'.symm.trans hrole
    rw [hid]
    rcases hcases r hr with rfl | hr
    · rw [hanswerId]
      exact hc.apart m hm huser run hmem
    · exact hc.apart m hm huser r hr
  · rw [hruns, Client.map_set_of_eq hrun hanswerId]
    exact hc.distinct
  · intro m' hm'
    obtain ⟨m, hm, hid, -⟩ := htells.exists_message hmounted hm'
    exact hid.trans_le ((hc.messageIds m hm).trans htells.counter)
  · intro r hr
    rcases hcases r hr with rfl | hr
    · rw [hanswerId]
      exact (hc.answerIds run hmem).trans htells.counter
    · exact (hc.answerIds r hr).trans htells.counter

/-- What a run has to do with messages. -/
def Run.voice (run : Run) : ℕ × JsString × JsString × String × List Call :=
  (run.answerId, run.requestId, run.text, run.priority, run.heard)

/-- Nothing is heard, and messages are shown as before or no longer. -/
theorem Voiced.quiet (hc : Voiced cfg c) (hruns : d.runs.map Run.voice = c.runs.map Run.voice)
    (hcounter : c.counter ≤ d.counter) (hmessages : d.messages = c.messages ∨ d.messages = []) :
    Voiced cfg d := by
  have hmem : ∀ m ∈ d.messages, m ∈ c.messages := by
    intro m hm
    rcases hmessages with h | h
    · exact h ▸ hm
    · simp [h] at hm
  have hto : ∀ r ∈ c.runs, ∃ r' ∈ d.runs, r'.voice = r.voice := by
    intro r hr
    have hin : r.voice ∈ d.runs.map Run.voice := hruns ▸ List.mem_map_of_mem hr
    exact List.mem_map.mp hin
  have hfrom : ∀ r' ∈ d.runs, ∃ r ∈ c.runs, r.answerId = r'.answerId := by
    intro r' hr'
    have hin : r'.voice ∈ c.runs.map Run.voice := hruns ▸ List.mem_map_of_mem hr'
    obtain ⟨r, hr, heq⟩ := List.mem_map.mp hin
    exact ⟨r, hr, congrArg Prod.fst heq⟩
  constructor
  · intro m hm hrole
    obtain ⟨r, hr, hanswer, hrid, hspoken⟩ := hc.answers m (hmem m hm) hrole
    obtain ⟨r', hr', heq⟩ := hto r hr
    simp only [Run.voice, Prod.mk.injEq] at heq
    obtain ⟨hanswer', hrid', -, -, hheard⟩ := heq
    exact ⟨r', hr', hanswer'.trans hanswer, hrid'.trans hrid, hheard.symm ▸ hspoken⟩
  · intro m hm hrole
    obtain ⟨r, hr, hrid, hasked, hpriority⟩ := hc.questions m (hmem m hm) hrole
    obtain ⟨r', hr', heq⟩ := hto r hr
    simp only [Run.voice, Prod.mk.injEq] at heq
    obtain ⟨-, hrid', htext, hpriority', -⟩ := heq
    exact ⟨r', hr', hrid'.trans hrid, hasked.trans htext.symm,
      hpriority.trans (congrArg some hpriority'.symm)⟩
  · intro m hm hrole r' hr'
    obtain ⟨r, hr, heq⟩ := hfrom r' hr'
    exact heq ▸ hc.apart m (hmem m hm) hrole r hr
  · have hids : d.runs.map Run.answerId = c.runs.map Run.answerId := by
      have hproj := congrArg (List.map Prod.fst) hruns
      rwa [List.map_map, List.map_map] at hproj
    exact hids ▸ hc.distinct
  · exact fun m hm => (hc.messageIds m (hmem m hm)).trans hcounter
  · intro r' hr'
    obtain ⟨r, hr, heq⟩ := hfrom r' hr'
    exact heq ▸ (hc.answerIds r hr).trans hcounter

theorem voices_closeAll (b : Books) :
    b.closeAll.runs.map Run.voice = b.runs.map Run.voice := by
  apply List.ext_getElem?
  intro j
  rw [Books.closeAll, List.getElem?_map, List.getElem?_map, List.getElem?_mapIdx, Option.map_map]
  congr 1
  ext1 r
  rw [Function.comp_apply]
  split <;> rfl

theorem Voiced.start (hc : Voiced cfg c) {run : Run} (hunmade : run.Unmade)
    (hruns : d.runs = c.runs ++ [run]) (hcounter : c.counter < run.answerId)
    (hcounter' : run.answerId ≤ d.counter) {question answer : Message}
    (hmessages : d.messages = c.messages ++ [question, answer])
    (h : Exchange d run question answer) : Voiced cfg d := by
  have hold : ∀ r ∈ c.runs, r.answerId ≠ run.answerId := fun r hr =>
    ((hc.answerIds r hr).trans_lt hcounter).ne
  have hmem : ∀ r ∈ d.runs, r ∈ c.runs ∨ r = run := by
    intro r hr
    rw [hruns, List.mem_append, List.mem_singleton] at hr
    exact hr
  have hmem' : ∀ m ∈ d.messages, m ∈ c.messages ∨ m = question ∨ m = answer := by
    intro m hm
    simpa [hmessages] using hm
  have hin : run ∈ d.runs := by simp [hruns]
  have hkeep : ∀ r ∈ c.runs, r ∈ d.runs := by
    intro r hr
    simp [hruns, hr]
  constructor
  · intro m hm hrole
    rcases hmem' m hm with hm | rfl | rfl
    · obtain ⟨r, hr, hrest⟩ := hc.answers m hm hrole
      exact ⟨r, hkeep r hr, hrest⟩
    · rw [h.asks] at hrole
      contradiction
    · exact ⟨run, hin, h.answerId.symm, h.requestId.2.symm, by rw [h.unsaid, hunmade.heard]; rfl⟩
  · intro m hm hrole
    rcases hmem' m hm with hm | rfl | rfl
    · obtain ⟨r, hr, hrest⟩ := hc.questions m hm hrole
      exact ⟨r, hkeep r hr, hrest⟩
    · exact ⟨run, hin, h.requestId.1.symm, h.asked⟩
    · rw [h.answers] at hrole
      contradiction
  · intro m hm hrole r hr
    rcases hmem' m hm with hm | rfl | rfl
    · rcases hmem r hr with hr | rfl
      · exact hc.apart m hm hrole r hr
      · exact ((hc.messageIds m hm).trans_lt hcounter).ne'
    · rcases hmem r hr with hr | rfl
      · exact ((hc.answerIds r hr).trans_lt (hcounter.trans h.questionId.1)).ne
      · exact h.questionId.1.ne
    · rw [h.answers] at hrole
      contradiction
  · rw [hruns, List.map_append, List.map_singleton]
    apply hc.distinct.append (List.nodup_singleton _)
    rw [List.disjoint_singleton, List.mem_map]
    rintro ⟨r, hr, hsame⟩
    exact hold r hr hsame
  · intro m hm
    rcases hmem' m hm with hm | rfl | rfl
    · exact (hc.messageIds m hm).trans (hcounter.le.trans hcounter')
    · exact h.questionId.2
    · exact h.answerId.trans_le hcounter'
  · intro r hr
    rcases hmem r hr with hr | rfl
    · exact (hc.answerIds r hr).trans (hcounter.le.trans hcounter')
    · exact hcounter'

theorem voiced_of_move {unique : Prop} (h : Move cfg unique c d) (hc : c.mountedRef = true → Voiced cfg c) :
    d.mountedRef = true → Voiced cfg d := by
  intro hd
  cases h with
  | quiet hbooks hcounter hmessages =>
      have hmounted : c.mountedRef = true := (congrArg Books.mountedRef hbooks).symm.trans hd
      have hruns : d.runs = c.runs := congrArg Books.runs hbooks
      exact (hc hmounted).quiet (congrArg _ hruns) hcounter hmessages
  | hear i run run' stream calls hrun hsource hgrows hsettles hbooks htells =>
      have hmounted : c.mountedRef = true := (congrArg Books.mountedRef hbooks).symm.trans hd
      obtain ⟨-, -, hheard, -, hanswerId, htext, hpriority⟩ := hsettles.frame
      exact (hc hmounted).hear hmounted hrun (congrArg Books.runs hbooks) htells hheard hanswerId
        hsettles.requestId htext hpriority
  | attempt i run run' failure hrun hstage hkept hsettles hbooks htells =>
      have hmounted : c.mountedRef = true := (congrArg Books.mountedRef hbooks).symm.trans hd
      obtain ⟨-, -, hheard, -, hanswerId, htext, hpriority⟩ := hsettles.frame
      exact (hc hmounted).hear hmounted hrun (congrArg Books.runs hbooks) htells hheard hanswerId
        hsettles.requestId htext hpriority
  | wait i run err wait hrun hstage hretry hworth hleft hkept hwait hbooks hcounter hmessages =>
      have hmounted : c.mountedRef = true := (congrArg Books.mountedRef hbooks).symm.trans hd
      apply (hc hmounted).quiet _ hcounter (.inl hmessages)
      rw [show d.runs = _ from congrArg Books.runs hbooks]
      exact Client.map_set_of_eq hrun rfl
  | finish i run hrun hstage hbooks hcounter hmessages =>
      have hmounted : c.mountedRef = true := (congrArg Books.mountedRef hbooks).symm.trans hd
      apply (hc hmounted).quiet _ hcounter (.inl hmessages)
      rw [show d.runs = _ from congrArg Books.runs hbooks]
      exact Client.map_set_of_eq hrun rfl
  | start run hnew hunmade hbooks hcounter hmessages =>
      have hmounted : c.mountedRef = true := (congrArg Books.mountedRef hbooks).symm.trans hd
      obtain ⟨question, answer, hmessages, hexchange⟩ := hmessages hmounted
      exact (hc hmounted).start hunmade (congrArg Books.runs hbooks) hcounter.1 hcounter.2
        hmessages hexchange
  | cancel hbooks hcounter hmessages =>
      have hmounted : c.mountedRef = true := (congrArg Books.mountedRef hbooks).symm.trans hd
      apply (hc hmounted).quiet _ hcounter (.inl hmessages)
      rw [show d.runs = _ from congrArg Books.runs hbooks]
      exact voices_closeAll c.books
  | unmount hbooks =>
      have hgone : d.mountedRef = false := congrArg Books.mountedRef hbooks
      rw [hgone] at hd
      contradiction

theorem voiced_mounted : Voiced cfg mounted where
  answers := by simp [mounted]
  questions := by simp [mounted]
  apart := by simp [mounted]
  distinct := List.nodup_nil
  messageIds := by simp [mounted]
  answerIds := by simp [mounted]

/-- As long as the client is mounted, a question is what its run was started with, and an answer
is the tokens of all its run's attempts in the order they were heard: a repeated attempt goes on
where the one before it broke off. -/
theorem answer_is_what_was_heard {as : List Action}
    (h : Machine.exec (step cfg) mounted as = some c) (hmounted : c.mountedRef = true) :
    ∀ m ∈ c.messages, ∃ run ∈ c.runs, run.requestId = m.requestId ∧
      match m.role with
      | .user => m.text = run.text ∧ m.priority = some run.priority
      | .assistant =>
          m.id = run.answerId ∧ m.text = run.heard.flatMap (Call.spoken cfg) := by
  have hc : Voiced cfg c :=
    invariant_of_moves False (P := fun c => c.mountedRef = true → Voiced cfg c)
      (fun _ _ hc hmove => voiced_of_move hmove hc) (fun _ => voiced_mounted) False.elim h hmounted
  intro m hm
  cases hrole : m.role with
  | user =>
      obtain ⟨run, hrun, hrid, hasked⟩ := hc.questions m hm hrole
      exact ⟨run, hrun, hrid, hasked⟩
  | assistant =>
      obtain ⟨run, hrun, hanswer, hrid, hspoken⟩ := hc.answers m hm hrole
      exact ⟨run, hrun, hrid, hanswer.symm, hspoken⟩

theorem answer_is_what_was_heard_triedAgain :
    ∃ c, Machine.exec (step retrying) mounted triedAgain = some c ∧
      ∀ m ∈ c.messages, ∃ run ∈ c.runs, run.requestId = m.requestId ∧
        match m.role with
        | .user => m.text = run.text ∧ m.priority = some run.priority
        | .assistant =>
            m.id = run.answerId ∧ m.text = run.heard.flatMap (Call.spoken retrying) := by
  have hrun : (Machine.exec (step retrying) mounted triedAgain).isSome = true := by
    decide +kernel
  have hstate : (Machine.exec (step retrying) mounted triedAgain).map Client.mountedRef =
      some true := by
    decide +kernel
  obtain ⟨c, hc⟩ := Option.isSome_iff_exists.mp hrun
  rw [hc, Option.map_some, Option.some.injEq] at hstate
  exact ⟨c, hc, answer_is_what_was_heard hc hstate⟩

example :
    (Machine.exec (step retrying) mounted triedAgain).map
      (fun c => c.messages.map Message.text) = some [Json.units "hi", Json.units "ab"] := by
  decide +kernel

/-- How often a run has been tried, and why. -/
structure Tried (cfg : Settings) (run : Run) : Prop where
  allowed : run.attempt ≤ if cfg.retry then cfg.policy.attempts else 1
  answered : run.attempt ≤ run.repeated.length + 1
  worth : ∀ p ∈ run.repeated, isRetryable (some p.1.payload) = true ∧ p.2 ≤ cfg.policy.maxMs
  pending : run.stage.isFinished = false → (∀ err, run.stage ≠ .waiting err) →
    run.repeated.length = run.attempt - 1
  waiting : ∀ err, run.stage = .waiting err →
    cfg.retry = true ∧ run.attempt < cfg.policy.attempts ∧ run.repeated.length = run.attempt
  unmade : run.attempt = 0 → run.stage.isStreaming = false ∧
    ∀ err, run.stage ≠ .settled (.error (some err))

theorem Run.Unmade.tried {run : Run} (h : run.Unmade) : Tried cfg run where
  allowed := by
    rw [h.attempt]
    exact Nat.zero_le _
  answered := by
    rw [h.attempt]
    exact Nat.zero_le _
  worth := by simp [h.repeated]
  pending := by simp [h.repeated, h.attempt]
  waiting := by simp [h.stage]
  unmade := by simp [h.stage, Stage.isStreaming]

/-- What the handlers and the streams change does not count. -/
theorem Tried.congr {run run' : Run} (h : Tried cfg run) (hattempt : run'.attempt = run.attempt)
    (hrepeated : run'.repeated = run.repeated)
    (hfinished : run'.stage.isFinished = false → run.stage.isFinished = false)
    (hwaiting : ∀ err, run.stage = .waiting err → run'.stage.isFinished = false →
      run'.stage = .waiting err)
    (hnew : ∀ err, run'.stage = .waiting err → run.stage = .waiting err)
    (hunmade : run.attempt = 0 → run'.stage.isStreaming = false ∧
      ∀ err, run'.stage ≠ .settled (.error (some err))) : Tried cfg run' where
  allowed := hattempt ▸ h.allowed
  answered := hattempt ▸ hrepeated ▸ h.answered
  worth := hrepeated ▸ h.worth
  pending := by
    intro hstage hnot
    rw [hattempt, hrepeated]
    exact h.pending (hfinished hstage) fun err hwait => hnot err (hwaiting err hwait hstage)
  waiting := by
    intro err hstage
    rw [hattempt, hrepeated]
    exact h.waiting err (hnew err hstage)
  unmade := fun hnone => hunmade (hattempt ▸ hnone)

theorem Settles.tried {calls : List Call} {run run' : Run} (h : Settles calls run run')
    (htried : Tried cfg run) : Tried cfg run' := by
  rcases h with rfl | ⟨hstage, -, result, -, rfl⟩
  · exact htried
  · refine htried.congr (by rfl) (by rfl) ?_ ?_ ?_ ?_
    · intro _
      cases hrun : run.stage <;> simp_all [Stage.isStreaming, Stage.isFinished]
    · intro err hwait
      rw [hwait] at hstage
      contradiction
    · intro err hwait
      contradiction
    · intro hnone
      exact absurd hstage (by simp [(htried.unmade hnone).1])

/-- Another attempt, the first one or one after a wait. -/
theorem Tried.attempt {run : Run} {stream : ChatStream} {heard : List Call} (h : Tried cfg run)
    (hstage : run.attempt = 0 ∧ run.stage = .settled (.error none) ∧
        (cfg.retry = true → cfg.policy.attempts ≠ 0) ∨
      ∃ err, run.stage = .waiting err) :
    Tried cfg { run with
      attempt := run.attempt + 1
      stage := .streaming
      stream := stream
      heard := heard } where
  allowed := by
    rcases hstage with ⟨hnone, -, hallowed⟩ | ⟨err, hwait⟩
    · change run.attempt + 1 ≤ _
      rw [hnone]
      split
      · rename_i hretry
        exact Nat.one_le_iff_ne_zero.mpr (hallowed hretry)
      · exact le_rfl
    · obtain ⟨hretry, hlt, -⟩ := h.waiting err hwait
      change run.attempt + 1 ≤ _
      rw [if_pos hretry]
      exact hlt
  answered := by
    change run.attempt + 1 ≤ run.repeated.length + 1
    rcases hstage with ⟨hnone, -⟩ | ⟨err, hwait⟩
    · omega
    · have hlength := (h.waiting err hwait).2.2
      omega
  worth := h.worth
  pending := by
    intro _ _
    change run.repeated.length = run.attempt + 1 - 1
    rcases hstage with ⟨hnone, hsettled, -⟩ | ⟨err, hwait⟩
    · have hlength := h.pending (by rw [hsettled]; rfl) (by simp [hsettled])
      omega
    · have hlength := (h.waiting err hwait).2.2
      omega
  waiting := by simp
  unmade := by simp

theorem tried_of_move {unique : Prop} (h : Move cfg unique c d)
    (htried : ∀ run ∈ c.runs, Tried cfg run) : ∀ run ∈ d.runs, Tried cfg run := by
  have hput : ∀ {i : ℕ} {run' : Run}, d.runs = c.runs.set i run' → Tried cfg run' →
      ∀ run ∈ d.runs, Tried cfg run := by
    intro i run' hruns hrun' r hr
    rw [hruns] at hr
    rcases List.mem_or_eq_of_mem_set hr with hr | rfl
    · exact htried r hr
    · exact hrun'
  have hclose : d.runs = c.books.closeAll.runs → ∀ run ∈ d.runs, Tried cfg run := by
    intro hruns r' hr'
    rw [hruns] at hr'
    obtain ⟨j, hj⟩ := List.mem_iff_getElem?.mp hr'
    obtain ⟨r, hr, hsame⟩ := Books.same_of_closeAll hj
    have hold := htried r (List.mem_of_getElem? hr)
    rw [hsame]
    exact hold.congr rfl rfl id (fun _ hwait _ => hwait) (fun _ hwait => hwait) hold.unmade
  cases h with
  | quiet hbooks =>
      have hruns : d.runs = c.runs := congrArg Books.runs hbooks
      exact hruns ▸ htried
  | hear i run run' stream calls hrun hsource hgrows hsettles hbooks =>
      have hold := htried run (List.mem_of_getElem? hrun)
      exact hput (congrArg Books.runs hbooks) (hsettles.tried
        (hold.congr rfl rfl id (fun _ hwait _ => hwait) (fun _ hwait => hwait) hold.unmade))
  | attempt i run run' failure hrun hstage hkept hsettles hbooks =>
      have hold := htried run (List.mem_of_getElem? hrun)
      exact hput (congrArg Books.runs hbooks) (hsettles.tried (hold.attempt hstage))
  | wait i run err wait hrun hstage hretry hworth hleft hkept hwait hbooks =>
      have hmem := List.mem_of_getElem? hrun
      have hold := htried run hmem
      have hlength := hold.pending (by rw [hstage]; rfl) (by simp [hstage])
      have hmade : run.attempt ≠ 0 := fun hnone => (hold.unmade hnone).2 err hstage
      have hallowed := hold.allowed
      rw [if_pos hretry] at hallowed
      refine hput (congrArg Books.runs hbooks) ⟨hold.allowed, ?_, ?_, ?_, ?_, ?_⟩
      · change run.attempt ≤ (run.repeated ++ [(err, wait)]).length + 1
        rw [List.length_append, List.length_singleton]
        omega
      · intro p hp
        rcases List.mem_append.mp hp with hp | hp
        · exact hold.worth p hp
        · obtain rfl := List.mem_singleton.mp hp
          exact ⟨hworth, hwait⟩
      · intro _ hnot
        exact absurd rfl (hnot err)
      · intro _ _
        refine ⟨hretry, lt_of_le_of_ne hallowed hleft, ?_⟩
        change (run.repeated ++ [(err, wait)]).length = run.attempt
        rw [List.length_append, List.length_singleton]
        omega
      · exact fun hnone => absurd hnone hmade
  | finish i run hrun hstage hbooks =>
      have hold := htried run (List.mem_of_getElem? hrun)
      apply hput (congrArg Books.runs hbooks)
      refine hold.congr (by rfl) (by rfl) ?_ ?_ ?_ ?_
      · exact fun hgone => absurd hgone (by simp [Stage.isFinished])
      · exact fun _ _ hgone => absurd hgone (by simp [Stage.isFinished])
      · exact fun _ hwait => absurd hwait (by simp)
      · exact fun _ => ⟨rfl, by simp⟩
  | start run hnew hunmade hbooks =>
      intro r hr
      rw [show d.runs = c.runs ++ [run] from congrArg Books.runs hbooks] at hr
      rcases List.mem_append.mp hr with hr | hr
      · exact htried r hr
      · obtain rfl := List.mem_singleton.mp hr
        exact hunmade.tried
  | cancel hbooks => exact hclose (congrArg Books.runs hbooks)
  | unmount hbooks => exact hclose (congrArg Books.runs hbooks)

/-- However its streams end, no run is tried more often than the policy allows, or at all again
without it; every attempt but the first answers an error that is worth one, after a wait of at
most `maxMs`. -/
theorem attempts_within_policy {as : List Action}
    (h : Machine.exec (step cfg) mounted as = some c) :
    ∀ run ∈ c.runs, run.attempt ≤ (if cfg.retry then cfg.policy.attempts else 1) ∧
      run.attempt ≤ run.repeated.length + 1 ∧
      ∀ p ∈ run.repeated, isRetryable (some p.1.payload) = true ∧ p.2 ≤ cfg.policy.maxMs := by
  have hc : ∀ run ∈ c.runs, Tried cfg run :=
    invariant_of_moves False (P := fun c => ∀ run ∈ c.runs, Tried cfg run)
      (fun _ _ hc hmove => tried_of_move hmove hc) (by simp [mounted]) False.elim h
  intro run hrun
  have htried := hc run hrun
  exact ⟨htried.allowed, htried.answered, htried.worth⟩

theorem attempts_within_policy_triedAgain :
    ∃ c, Machine.exec (step retrying) mounted triedAgain = some c ∧
      ∀ run ∈ c.runs,
        run.attempt ≤ (if retrying.retry then retrying.policy.attempts else 1) ∧
        run.attempt ≤ run.repeated.length + 1 ∧
        ∀ p ∈ run.repeated,
          isRetryable (some p.1.payload) = true ∧ p.2 ≤ retrying.policy.maxMs := by
  have hrun : (Machine.exec (step retrying) mounted triedAgain).isSome = true := by
    decide +kernel
  obtain ⟨c, hc⟩ := Option.isSome_iff_exists.mp hrun
  exact ⟨c, hc, attempts_within_policy hc⟩

end ServeInfer.Clients
