import ServeInfer.Device.KnownTiers
import ServeInfer.Device.StreamContract
import ServeInfer.InferenceWorker.FrameText

/-!
# A worker's answers

The frames of an answer are a reply whose device needs no escape: a name that is
known, or none. A streamed answer is one token frame for each piece that a tier has
emitted, and a result with the text of the last tier tried.
-/

namespace ServeInfer.InferenceWorker

open Device Supervisor

variable {env : RouterEnv} {w : Worker} {job : InferenceJob} {a : Attempt}
  {found : ℕ → String → ProbeResult}

theorem bytes_append (s t : String) : bytes (s ++ t) = bytes s ++ bytes t := by
  simp [bytes]

theorem bytes_join (pieces : List String) :
    bytes (String.join pieces) = (pieces.map bytes).flatten := by
  induction pieces with
  | nil => rfl
  | cons piece pieces ih => rw [String.join_cons, bytes_append, ih, List.map_cons, List.flatten_cons]

theorem plain_of_known {name : String} (h : name ∈ knownBackends) : (bytes name).all plain = true := by
  have hall : ∀ name ∈ knownBackends, (bytes name).all plain = true := by decide
  exact hall name h

namespace Worker

/-- The worker's router has been made and used through its methods, over the probes of
`probeDevice`. -/
def Started (env : RouterEnv) (w : Worker) : Prop :=
  (∃ found : ℕ → String → ProbeResult, ∀ n, env.probe n = probeDevice (found n)) ∧
    ∃ order quarantineMs probeIntervalMs actions,
      Machine.exec (Router.step env) (.ofOrder order quarantineMs probeIntervalMs) actions =
        some w.router

theorem Started.probes (h : w.Started env) : env.Probes (· ∈ knownBackends) := by
  obtain ⟨⟨found, hfound⟩, -⟩ := h
  intro n name havailable
  rw [hfound] at havailable
  exact mem_of_probeDevice havailable

/-- The tier that an answer names needs no escape. -/
theorem Started.plain_routed (h : w.Started env) (prompt : String) (onToken : Bool) :
    (bytes (w.routed env prompt onToken).2.activeDevice).all plain = true := by
  have hprobes := h.probes
  obtain ⟨-, order, quarantineMs, probeIntervalMs, actions, hexec⟩ := h
  have hvetted : (w.router.route env prompt onToken).2.ladder.Vetted (· ∈ knownBackends) :=
    Router.vetted_route hprobes (Router.vetted_of_exec hprobes hexec)
  cases hactive : (w.routed env prompt onToken).2.router.ladder.active.isEmpty with
  | true =>
      have hnone : (w.routed env prompt onToken).2.activeDevice = "" :=
        String.isEmpty_iff.mp hactive
      rw [hnone]
      rfl
  | false => exact plain_of_known (hvetted.active hactive)

/-- The frames of a streamed answer. -/
theorem answer_stream (hstream : job.stream = true) :
    (w.answer env job).1 = ((w.streamWithFallback env job.prompt).1.map fun token =>
        Frame.token (bytes job.requestId) (bytes token)) ++
      [(w.routed env job.prompt true).2.resultFrame job.requestId
        (w.routed env job.prompt true).1.text] := by
  unfold answer
  rw [if_pos hstream]
  rfl

theorem generateWithFallback_snd (env : RouterEnv) (w : Worker) (prompt : String) :
    (w.generateWithFallback env prompt).2 = (w.routed env prompt false).2 := by
  unfold generateWithFallback
  dsimp only
  split <;> rfl

/-- The frame of a buffered answer. -/
theorem answer_buffered (hstream : job.stream = false) :
    (w.answer env job).1 = [(w.routed env job.prompt false).2.resultFrame job.requestId
      (w.generateWithFallback env job.prompt).1] := by
  unfold answer
  rw [if_neg (by simp [hstream]), ← generateWithFallback_snd]

theorem Started.plainDevice (h : w.Started env) (job : InferenceJob) :
    ∀ f ∈ (w.answer env job).1, f.plainDevice = true := by
  intro f hf
  cases hstream : job.stream with
  | true =>
      rw [answer_stream hstream] at hf
      obtain hf | hf := List.mem_append.mp hf
      · obtain ⟨token, -, rfl⟩ := List.mem_map.mp hf
        rfl
      · obtain rfl := List.mem_singleton.mp hf
        exact h.plain_routed job.prompt true
  | false =>
      rw [answer_buffered hstream] at hf
      obtain rfl := List.mem_singleton.mp hf
      exact h.plain_routed job.prompt false

/-- A streamed answer of one tier: its pieces as tokens, and as a result what they add up to. -/
theorem answer_of_single (hconcat : ∀ m tier, Concatenates (env.execute m tier job.prompt true))
    (hstream : job.stream = true)
    (hsingle : (w.answer env job).2.router.attempts = w.router.attempts ++ [a]) :
    ∃ device reason, (w.answer env job).1 =
      (a.tokens.map fun token => Frame.token (bytes job.requestId) (bytes token)) ++
        [.result (bytes job.requestId) (bytes (String.join a.tokens)) device reason] := by
  obtain ⟨as, hattempts, hcalls, hstreamed, htext⟩ := Router.route_spec env w.router job.prompt
  have hrouter : (w.answer env job).2.router = (w.router.route env job.prompt true).2 := by
    unfold answer
    rw [if_pos hstream]
    rfl
  obtain rfl : as = [a] := by
    rw [hrouter, hattempts] at hsingle
    exact List.append_cancel_left hsingle
  obtain ⟨-, htokens, hanswer⟩ := hcalls
  have hpieces : (w.streamWithFallback env job.prompt).1 = a.tokens := by
    show (w.router.route env job.prompt true).2.streamed.drop _ = _
    rw [hstreamed, List.drop_left, List.flatMap_singleton]
  have hmerged : (w.routed env job.prompt true).1.text = String.join a.tokens := by
    show (w.router.route env job.prompt true).1.text = _
    rw [htext, htokens]
    show a.execution.text = _
    rw [hanswer, answer_eq_join hconcat]
  rw [answer_stream hstream, hpieces, hmerged]
  exact ⟨_, _, rfl⟩

end Worker

end ServeInfer.InferenceWorker
