import ServeInfer.ApiServer.TwoPaths

/-!
# A request's frames on both paths

What a request comes to is told by the lines that it reads between the other events of its socket.
Tokens are lines that change nothing, however the chunks cut them, and the two paths do the same
with the others.
-/

namespace ServeInfer.ApiServer

open Lines

/-- What happens on the socket of a request. -/
inductive SocketEvent
  | connect
  | data (chunk : List UInt8)
  | error (message : JsString)
  | close
  deriving DecidableEq, Repr

/-- The request on one of the two paths. -/
def InferRequest.on (request : InferRequest) (stream : Bool) : InferRequest :=
  { request with stream := stream }

/-- The complete lines of a text have no token without a text. -/
def TokensHaveText (text : JsString) : Prop :=
  ∀ ls tail, (∀ l ∈ ls, (0x0A : Utf8.CodeUnit) ∉ l) → text = joined 0x0A ls ++ tail →
    ∀ l ∈ ls, TokenHasText (Json.trim l)

theorem TokensHaveText.behind {ls : List JsString} {text : JsString}
    (h : TokensHaveText (joined 0x0A ls ++ text)) (hls : ∀ l ∈ ls, (0x0A : Utf8.CodeUnit) ∉ l) :
    TokensHaveText text := by
  intro more tail hmore htext l hl
  refine h (ls ++ more) tail ?_ ?_ l (List.mem_append_right ls hl)
  · intro l' hl'
    exact (List.mem_append.mp hl').elim (hls l') (hmore l')
  · rw [htext, joined_append, List.append_assoc]

theorem tokensHaveText_of_split {text : JsString}
    (h : ∀ l ∈ text.splitOn 0x0A, TokenHasText (Json.trim l)) : TokensHaveText text := by
  intro ls tail hls htext l hl
  apply h
  rw [htext, splitOn_joined_append hls]
  exact List.mem_append_left _ hl

/-- The text that the chunks of a socket make. -/
def received : List SocketEvent → JsString
  | [] => []
  | .data chunk :: events => Utf8.decode chunk ++ received events
  | _ :: events => received events

/-- The same happens behind two texts that no line feed has ended yet: the lines that come to an end
with an event are the same but for tokens. -/
inductive SameButTokens : JsString → JsString → List SocketEvent → List SocketEvent → Prop
  | nil {x y : JsString} : SameButTokens x y [] []
  | data {x y x' y' : JsString} {ls ls' : List JsString} {chunk chunk' : List UInt8}
      {events events' : List SocketEvent}
      (hx : x ++ Utf8.decode chunk = joined 0x0A ls ++ x')
      (hy : y ++ Utf8.decode chunk' = joined 0x0A ls' ++ y')
      (hls : ∀ l ∈ ls, (0x0A : Utf8.CodeUnit) ∉ l) (hls' : ∀ l ∈ ls', (0x0A : Utf8.CodeUnit) ∉ l)
      (hx' : (0x0A : Utf8.CodeUnit) ∉ x') (hy' : (0x0A : Utf8.CodeUnit) ∉ y')
      (hsame : others ls = others ls') (hrest : SameButTokens x' y' events events') :
      SameButTokens x y (.data chunk :: events) (.data chunk' :: events')
  | other {x y : JsString} {e : SocketEvent} {events events' : List SocketEvent}
      (he : ∀ chunk, e ≠ .data chunk) (hrest : SameButTokens x y events events') :
      SameButTokens x y (e :: events) (e :: events')

theorem SameButTokens.refl (x : JsString) (events : List SocketEvent) :
    SameButTokens x x events events := by
  induction events generalizing x with
  | nil => exact .nil
  | cons e events ih =>
      cases e with
      | data chunk =>
          obtain ⟨ls, x', hls, hx', htext⟩ := exists_lines 0x0A (x ++ Utf8.decode chunk)
          exact .data htext htext hls hls hx' hx' rfl (ih x')
      | connect => exact .other (by simp) (ih x)
      | error message => exact .other (by simp) (ih x)
      | close => exact .other (by simp) (ih x)

theorem SameButTokens.length_eq {x y : JsString} {events events' : List SocketEvent}
    (h : SameButTokens x y events events') : events.length = events'.length := by
  induction h with
  | nil => rfl
  | data _ _ _ _ _ _ _ _ ih => exact congrArg (· + 1) ih
  | other _ _ ih => exact congrArg (· + 1) ih

/-- Two runs have these texts still to read: lines that are the same but for tokens, and then the
same happens behind what is left. No token among the first one's lines is without a text. -/
inductive Pending : JsString → JsString → List SocketEvent → List SocketEvent → Prop
  | mk {ls ls' : List JsString} {x y : JsString} {events events' : List SocketEvent}
      (hls : ∀ l ∈ ls, (0x0A : Utf8.CodeUnit) ∉ l) (hls' : ∀ l ∈ ls', (0x0A : Utf8.CodeUnit) ∉ l)
      (hsame : others ls = others ls') (hnext : SameButTokens x y events events')
      (htokens : TokensHaveText (joined 0x0A ls ++ x ++ received events)) :
      Pending (joined 0x0A ls ++ x) (joined 0x0A ls' ++ y) events events'

theorem Pending.tokens {x y : JsString} {events events' : List SocketEvent}
    (h : Pending x y events events') : TokensHaveText (x ++ received events) := by
  cases h with
  | mk _ _ _ _ htokens => exact htokens

theorem pending_nil {events events' : List SocketEvent}
    (h : SameButTokens [] [] events events') (htokens : TokensHaveText (received events)) :
    Pending [] [] events events' := by
  have hnone : ∀ l ∈ ([] : List JsString), (0x0A : Utf8.CodeUnit) ∉ l := by simp
  exact .mk hnone hnone rfl h htokens

namespace WorkerPool

variable (o : Options)

/-- The handler of an event; behind an uncaught exception there is none. -/
def onEvent (s : WorkerPool) (r : ℕ) (e : SocketEvent) : WorkerPool :=
  if s.threw then s
  else
    match e with
    | .connect => s.onConnect r
    | .data chunk => s.onData o r chunk
    | .error message => (s.errored r).onError o r message
    | .close => (s.closed r).onClose o r

/-- The events of a request's socket, one after the other. -/
def serve (s : WorkerPool) (r : ℕ) (events : List SocketEvent) : WorkerPool :=
  events.foldl (fun s e => s.onEvent o r e) s

variable {o} {s t : WorkerPool} {r : ℕ} {chunk chunk' : List UInt8} {e : SocketEvent}
  {message : JsString} {events events' : List SocketEvent}

theorem buffer_failRun (run : Run) (err : WorkerPoolError) :
    (run.failRun err).buffer = run.buffer := by
  have hset := run.failRun_setBuffer run.buffer err
  rw [run.setBuffer_self] at hset
  rw [hset]
  rfl

/-- What a run has not read yet. -/
def unread (s : WorkerPool) (r : ℕ) : Option JsString := (s.runs[r]?).map Run.buffer

/-- The runs are twins, and will read the same but for tokens. -/
structure Alike (r : ℕ) (events events' : List SocketEvent) (s t : WorkerPool) : Prop
    extends Twins r s t where
  pending : s.threw = false → ∃ x y, s.unread r = some x ∧ t.unread r = some y ∧
    Pending x y events events'

theorem Alike.onData (h : Alike r (.data chunk :: events) (.data chunk' :: events') s t)
    (hlive : s.threw = false) :
    Alike r events events' (s.onData o r chunk) (t.onData o r chunk') := by
  obtain ⟨run, run', hr, hr', -⟩ := h.runs
  obtain ⟨x, y, hx, hy, hpending⟩ := h.pending hlive
  have hbuffer : run.buffer = x := by simpa [unread, hr] using hx
  have hbuffer' : run'.buffer = y := by simpa [unread, hr'] using hy
  cases hpending with
  | @mk ls ls' x₀ y₀ _ _ hls hls' hsame hnext htokens =>
  cases hnext with
  | other he => exact absurd rfl (he chunk)
  | @data _ _ x' y' new new' _ _ _ _ hxn hyn hnew hnew' hx' hy' hsameNew hrest =>
  have htext : run.buffer ++ Utf8.decode chunk = joined 0x0A (ls ++ new) ++ x' := by
    rw [hbuffer, List.append_assoc, hxn, joined_append, List.append_assoc]
  have htext' : run'.buffer ++ Utf8.decode chunk' = joined 0x0A (ls' ++ new') ++ y' := by
    rw [hbuffer', List.append_assoc, hyn, joined_append, List.append_assoc]
  have hlines : ∀ l ∈ ls ++ new, (0x0A : Utf8.CodeUnit) ∉ l := fun l hl =>
    (List.mem_append.mp hl).elim (hls l) (hnew l)
  have hlines' : ∀ l ∈ ls' ++ new', (0x0A : Utf8.CodeUnit) ∉ l := fun l hl =>
    (List.mem_append.mp hl).elim (hls' l) (hnew' l)
  rw [received, ← hbuffer, ← List.append_assoc, htext, List.append_assoc] at htokens
  have hall : others (ls ++ new) = others (ls' ++ new') := by
    rw [others, others, List.filter_append, List.filter_append]
    exact congrArg₂ (· ++ ·) hsame hsameNew
  obtain ⟨hdrained, front, back, front', back', hsplit, hsplit', hback, hleft, hleft'⟩ :=
    h.toTwins.drain (o := o) hall (htokens (ls ++ new) _ hlines rfl) x' y'
  unfold WorkerPool.onData
  simp only [hr, hr', htext, htext', splitOn_joined hlines hx', splitOn_joined hlines' hy', hleft,
    hleft']
  refine ⟨hdrained.setRun fun _ _ htwins => { htwins with }, fun _ => ?_⟩
  obtain ⟨run₁, run₂, hr₁, hr₂, -⟩ := hdrained.runs
  refine ⟨joined 0x0A back ++ x', joined 0x0A back' ++ y', ?_, ?_, .mk ?_ ?_ hback hrest ?_⟩
  · rw [unread, getElem?_setRun, if_pos rfl, hr₁]
    rfl
  · rw [unread, getElem?_setRun, if_pos rfl, hr₂]
    rfl
  · exact fun l hl => hlines l (hsplit ▸ List.mem_append_right front hl)
  · exact fun l hl => hlines' l (hsplit' ▸ List.mem_append_right front' hl)
  · rw [hsplit, joined_append, List.append_assoc] at htokens
    rw [List.append_assoc]
    exact htokens.behind fun l hl => hlines l (hsplit ▸ List.mem_append_left back hl)

/-- An event that brings no text. -/
theorem Alike.of_twins (h : Alike r (e :: events) (e :: events') s t) (hlive : s.threw = false)
    {s' t' : WorkerPool} (htwins : Twins r s' t') (hs : s'.unread r = s.unread r)
    (ht : t'.unread r = t.unread r) (he : ∀ chunk, e ≠ .data chunk) :
    Alike r events events' s' t' := by
  refine ⟨htwins, fun _ => ?_⟩
  obtain ⟨x, y, hx, hy, hpending⟩ := h.pending hlive
  refine ⟨x, y, hs.trans hx, ht.trans hy, ?_⟩
  have hreceived : received (e :: events) = received events := by
    cases e with
    | data chunk => exact absurd rfl (he chunk)
    | _ => rfl
  cases hpending with
  | mk hls hls' hsame hnext htokens =>
  rw [hreceived] at htokens
  cases hnext with
  | data => exact absurd rfl (he _)
  | other _ hrest => exact .mk hls hls' hsame hrest htokens

theorem unread_setRun {f : Run → Run} (s : WorkerPool) (hf : ∀ run, (f run).buffer = run.buffer) :
    (s.setRun r f).unread r = s.unread r := by
  rw [unread, getElem?_setRun, if_pos rfl, Option.map_map, unread]
  congr 1
  exact funext hf

theorem unread_failRun (s : WorkerPool) (err : WorkerPoolError) :
    (s.failRun o r err).unread r = s.unread r := by
  rw [unread, runs_failRun, List.getElem?_modify_eq, unread]
  cases s.runs[r]? with
  | none => rfl
  | some run => exact congrArg some (buffer_failRun run err)

theorem Alike.onError (h : Alike r (.error message :: events) (.error message :: events') s t)
    (hlive : s.threw = false) : Alike r events events' ((s.errored r).onError o r message)
      ((t.errored r).onError o r message) := by
  obtain ⟨run, run', hr, hr', htwins⟩ := h.runs
  have herrored : Twins r (s.errored r) (t.errored r) :=
    h.toTwins.setRun fun _ _ htwins => { htwins with }
  have hrun : (s.errored r).runs[r]? = some { run with destroyed := true, destroyError := none } := by
    rw [errored, getElem?_setRun, if_pos rfl, hr, Option.map_some]
  have hrun' : (t.errored r).runs[r]? =
      some { run' with destroyed := true, destroyError := none } := by
    rw [errored, getElem?_setRun, if_pos rfl, hr', Option.map_some]
  unfold WorkerPool.onError
  simp only [hrun, hrun', htwins.workerId]
  refine h.of_twins hlive (herrored.failRun _) ?_ ?_ (by simp)
  · exact (unread_failRun _ _).trans (unread_setRun s fun _ => rfl)
  · exact (unread_failRun _ _).trans (unread_setRun t fun _ => rfl)

theorem Alike.onClose (h : Alike r (.close :: events) (.close :: events') s t)
    (hlive : s.threw = false) :
    Alike r events events' ((s.closed r).onClose o r) ((t.closed r).onClose o r) := by
  obtain ⟨run, run', hr, hr', htwins⟩ := h.runs
  have hclosed : Twins r (s.closed r) (t.closed r) :=
    h.toTwins.setRun fun _ _ htwins => { htwins with }
  have hrun : (s.closed r).runs[r]? = some { run with destroyed := true, closed := true } := by
    rw [closed, getElem?_setRun, if_pos rfl, hr, Option.map_some]
  have hrun' : (t.closed r).runs[r]? = some { run' with destroyed := true, closed := true } := by
    rw [closed, getElem?_setRun, if_pos rfl, hr', Option.map_some]
  have hs := unread_setRun (r := r) (f := fun run => { run with destroyed := true, closed := true })
    s fun _ => rfl
  have ht := unread_setRun (r := r) (f := fun run => { run with destroyed := true, closed := true })
    t fun _ => rfl
  unfold WorkerPool.onClose
  simp only [hrun, hrun', htwins.workerId, htwins.done]
  split
  · exact h.of_twins hlive hclosed hs ht (by simp)
  · exact h.of_twins hlive (hclosed.failRun _) ((unread_failRun _ _).trans hs)
      ((unread_failRun _ _).trans ht) (by simp)

theorem Alike.onConnect (h : Alike r (.connect :: events) (.connect :: events') s t)
    (hlive : s.threw = false) : Alike r events events' (s.onConnect r) (t.onConnect r) :=
  h.of_twins hlive (h.toTwins.setRun fun _ _ htwins => { htwins with })
    (unread_setRun s fun _ => rfl) (unread_setRun t fun _ => rfl) (by simp)

theorem Alike.onEvent {e' : SocketEvent} (h : Alike r (e :: events) (e' :: events') s t) :
    Alike r events events' (s.onEvent o r e) (t.onEvent o r e') := by
  have hthrew : t.threw = s.threw := h.threw_eq
  unfold WorkerPool.onEvent
  rw [hthrew]
  split
  · rename_i hthrown
    refine ⟨h.toTwins, fun hlive => ?_⟩
    rw [hthrown] at hlive
    cases hlive
  · rename_i hthrown
    have hlive := eq_false_of_ne_true hthrown
    obtain ⟨x, y, -, -, hpending⟩ := h.pending hlive
    obtain ⟨-, -, -, hnext, -⟩ := hpending
    cases hnext with
    | data => exact h.onData hlive
    | other he =>
        cases e with
        | connect => exact h.onConnect hlive
        | data chunk => exact absurd rfl (he chunk)
        | error message => exact h.onError hlive
        | close => exact h.onClose hlive

/-- As many events on both sides. -/
theorem Alike.serve {behind behind' : List SocketEvent} (hlength : events.length = events'.length)
    (h : Alike r (events ++ behind) (events' ++ behind') s t) :
    Alike r behind behind' (s.serve o r events) (t.serve o r events') := by
  induction events generalizing s t events' with
  | nil =>
      obtain rfl := List.length_eq_zero_iff.mp hlength.symm
      exact h
  | cons e events ih =>
      obtain ⟨e', rest, rfl⟩ := List.exists_cons_of_length_eq_add_one hlength.symm
      have hserve : Alike r behind behind' ((s.onEvent o r e).serve o r events)
          ((t.onEvent o r e').serve o r rest) := ih (by simpa using hlength) h.onEvent
      exact hserve

/-- The request has come to the same in both pools: its outcome, and what the pool has on its
workers, the requests in flight and the probes to come. -/
structure Agree (r : ℕ) (s t : WorkerPool) : Prop where
  workers : t.workers = s.workers
  inFlight : t.inFlight = s.inFlight
  timers : t.timers = s.timers
  threw : t.threw = s.threw
  outcome : (t.runs[r]?).map Run.outcome = (s.runs[r]?).map Run.outcome

theorem Twins.agree (h : Twins r s t) : Agree r s t := by
  obtain ⟨run, run', hr, hr', htwins⟩ := h.runs
  refine ⟨?_, ?_, ?_, h.threw_eq, ?_⟩
  · have hbooks := congrArg WorkerPool.workers h.books
    exact hbooks
  · have hbooks := congrArg WorkerPool.inFlight h.books
    exact hbooks
  · have hbooks := congrArg WorkerPool.timers h.books
    exact hbooks
  · rw [hr, hr', Option.map_some, Option.map_some, htwins.outcome]

/-- A new request is the same on both paths, whatever tokens come. -/
theorem alike_infer (s : WorkerPool) (reading : Reading) (request : InferRequest)
    (stream stream' : Bool) (hsame : SameButTokens [] [] events events')
    (htokens : TokensHaveText (received events)) :
    (s.infer o reading (request.on stream')).1 = (s.infer o reading (request.on stream)).1 ∧
      ∀ r, (s.infer o reading (request.on stream)).1 = some r →
        Alike r events events' (s.infer o reading (request.on stream)).2
          (s.infer o reading (request.on stream')).2 := by
  unfold infer
  cases hworker : s.acquireWorker o reading with
  | mk found s' =>
  cases found with
  | none => exact ⟨rfl, fun r hr => by cases hr⟩
  | some w =>
      refine ⟨rfl, ?_⟩
      intro r hr
      obtain rfl := Option.some.inj hr
      have hget : ∀ stream, (s'.openRun w (request.on stream)).runs[s'.runs.length]? = some
          { workerId := w
            requestId := request.requestId
            prompt := request.prompt
            mfeId := request.mfeId
            stream := stream } := by
        intro stream
        show (s'.runs ++ [_])[s'.runs.length]? = _
        rw [List.getElem?_concat_length]
        rfl
      refine ⟨⟨rfl, _, _, hget stream, hget stream', ?_⟩, fun _ => ⟨[], [], ?_, ?_, ?_⟩⟩
      · exact ⟨rfl, rfl, rfl, rfl, fun h => h, fun h => h⟩
      · exact congrArg (Option.map Run.buffer) (hget stream)
      · exact congrArg (Option.map Run.buffer) (hget stream')
      · exact pending_nil hsame htokens

/-- A request that hears the same but for tokens comes to the same, on whichever path. -/
theorem agree_of_sameButTokens (s : WorkerPool) (reading : Reading) (request : InferRequest)
    (stream stream' : Bool) (hsame : SameButTokens [] [] events events')
    (htokens : TokensHaveText (received events))
    (hr : (s.infer o reading (request.on stream)).1 = some r) :
    Agree r ((s.infer o reading (request.on stream)).2.serve o r events)
      ((s.infer o reading (request.on stream')).2.serve o r events') := by
  have halike := (alike_infer (o := o) s reading request stream stream' hsame htokens).2 r hr
  rw [← List.append_nil events, ← List.append_nil events'] at halike
  exact (halike.serve hsame.length_eq).toTwins.agree

/-- A chunk that is the line of one token, where everything has been read. -/
theorem Alike.token (h : Alike r (.data chunk :: events) (.data chunk :: events) s s)
    {line : JsString} (hclean : (0x0A : Utf8.CodeUnit) ∉ line)
    (hchunk : Utf8.decode chunk = line ++ [0x0A]) (hline : IsToken (Json.trim line))
    (hunread : s.unread r = some []) : Alike r events events s (s.onEvent o r (.data chunk)) := by
  obtain ⟨run, run', hr, hr', htwins⟩ := h.runs
  have hbuffer : run.buffer = [] := by simpa [unread, hr] using hunread
  have hlines : ∀ l ∈ [line], (0x0A : Utf8.CodeUnit) ∉ l := fun l hl => by
    rwa [List.mem_singleton.mp hl]
  have htokens : s.threw = false → TokensHaveText (received events) := by
    intro hlive
    obtain ⟨x, y, hx, -, hpending⟩ := h.pending hlive
    obtain rfl : [] = x := Option.some.inj (hunread.symm.trans hx)
    have htext : ([] : JsString) ++ received (.data chunk :: events) =
        joined 0x0A [line] ++ received events := by
      rw [received, hchunk, joined_cons, joined_nil, List.nil_append]
    have hall := hpending.tokens
    rw [htext] at hall
    exact hall.behind hlines
  obtain ⟨htoken, hgoes⟩ := h.refl_left.onLine_token (o := o) hline
  unfold WorkerPool.onEvent
  split
  · rename_i hthrown
    refine ⟨h.toTwins, fun hlive => ?_⟩
    rw [hthrown] at hlive
    cases hlive
  · have hsplit : (run.buffer ++ Utf8.decode chunk).splitOn 0x0A = [line] ++ [[]] := by
      have hsplit := splitOn_joined hlines List.not_mem_nil
      rw [joined_cons, joined_nil, List.append_nil] at hsplit
      rw [hbuffer, List.nil_append, hchunk]
      exact hsplit
    have hdrain : drain o r ([line] ++ [[]]) s = ((s.onLine o r (Json.trim line)).1, []) := by
      have hcons := Twins.drain_cons (o := o) (r := r) s line [] []
      rw [hgoes, if_pos rfl] at hcons
      exact hcons
    simp only [WorkerPool.onData, hr, hsplit, hdrain]
    obtain ⟨run₁, run₂, hr₁, hr₂, htwins'⟩ := htoken.runs
    refine ⟨⟨htoken.books, run₁, { run₂ with buffer := [] }, hr₁, ?_, { htwins' with }⟩,
      fun hlive => ⟨[], [], hunread, ?_, pending_nil (.refl [] events) (htokens hlive)⟩⟩
    · rw [getElem?_setRun, if_pos rfl, hr₂, Option.map_some]
    · rw [unread, getElem?_setRun, if_pos rfl, hr₂]
      rfl

/-- A request whose frames hand on only tokens that have a text comes to the same on both paths,
whatever happens on its socket. A token's line changes nothing of what it comes to, where no other
line has been begun; nor do tokens anywhere between the lines, however the chunks cut them. -/
theorem paths_agree (o : Options) (s : WorkerPool) (reading : Reading) (request : InferRequest)
    (events : List SocketEvent) (htokens : TokensHaveText (received events)) :
    (s.infer o reading (request.on true)).1 = (s.infer o reading (request.on false)).1 ∧
      (∀ r, (s.infer o reading (request.on false)).1 = some r →
        Agree r ((s.infer o reading (request.on false)).2.serve o r events)
          ((s.infer o reading (request.on true)).2.serve o r events)) ∧
      (∀ stream r front chunk back line, events = front ++ .data chunk :: back →
        (s.infer o reading (request.on stream)).1 = some r →
        (∀ run, ((s.infer o reading (request.on stream)).2.serve o r front).runs[r]? = some run →
          run.buffer = []) →
        (0x0A : Utf8.CodeUnit) ∉ line → Utf8.decode chunk = line ++ [0x0A] →
        IsToken (Json.trim line) →
        Agree r ((s.infer o reading (request.on stream)).2.serve o r (front ++ back))
          ((s.infer o reading (request.on stream)).2.serve o r events)) ∧
      ∀ stream r events', SameButTokens [] [] events events' →
        (s.infer o reading (request.on stream)).1 = some r →
        Agree r ((s.infer o reading (request.on stream)).2.serve o r events)
          ((s.infer o reading (request.on stream)).2.serve o r events') := by
  have hsame : SameButTokens [] [] events events := .refl [] events
  refine ⟨(alike_infer s reading request false true hsame htokens).1, ?_, ?_, ?_⟩
  · intro r hr
    exact agree_of_sameButTokens s reading request false true hsame htokens hr
  · rintro stream r front chunk back line rfl hr hbuffer hclean hchunk hline
    have halike := (alike_infer (o := o) s reading request stream stream hsame htokens).2 r hr
    have hfront := halike.serve (o := o) rfl
    obtain ⟨run, -, hrun, -, -⟩ := hfront.runs
    have hunread : ((s.infer o reading (request.on stream)).2.serve o r front).unread r =
        some [] := by
      rw [unread, hrun, Option.map_some, hbuffer run hrun]
    have hback := hfront.token (o := o) hclean hchunk hline hunread
    rw [← List.append_nil back] at hback
    have hagree := (hback.serve (o := o) rfl).toTwins.agree
    simp only [serve, List.foldl_append, List.foldl_cons] at hagree ⊢
    exact hagree
  · intro stream r events' hother hr
    exact agree_of_sameButTokens s reading request stream stream hother htokens hr

def greetingRequest : InferRequest := ⟨Json.units "a", Json.units "hi", [], false⟩

/-- Two tokens and a result, where a chunk ends behind the first token. -/
def greetingEvents : List SocketEvent :=
  [.connect, .data (Utf8.encode "\x7b\"type\":\"token\",\"token\":\"H\"\x7d\n".toList),
    .data (Utf8.encode
      "\x7b\"type\":\"token\",\"token\":\"i\"\x7d\n\x7b\"type\":\"result\"\x7d\n".toList)]

theorem paths_agree_greeting :
    (((WorkerPool.new twoWorkers 0).infer twoWorkers ⟨100, fun _ => true⟩
        (greetingRequest.on false)).1 = some 0) ∧
      Agree 0 ((((WorkerPool.new twoWorkers 0).infer twoWorkers ⟨100, fun _ => true⟩
          (greetingRequest.on false)).2).serve twoWorkers 0 greetingEvents)
        ((((WorkerPool.new twoWorkers 0).infer twoWorkers ⟨100, fun _ => true⟩
          (greetingRequest.on true)).2).serve twoWorkers 0 greetingEvents) := by
  have htokens : TokensHaveText (received greetingEvents) :=
    tokensHaveText_of_split (by decide +kernel)
  have hrun : ((WorkerPool.new twoWorkers 0).infer twoWorkers ⟨100, fun _ => true⟩
      (greetingRequest.on false)).1 = some 0 := by
    decide +kernel
  obtain ⟨-, hagree, -⟩ := paths_agree twoWorkers (.new twoWorkers 0) ⟨100, fun _ => true⟩
    greetingRequest greetingEvents htokens
  exact ⟨hrun, hagree 0 hrun⟩

/-- The text of a token has a `toString` of its own, and `String` throws on the streaming path. -/
theorem not_paths_agree :
    ¬ ∀ (o : Options) (s : WorkerPool) (reading : Reading) (request : InferRequest)
      (events : List SocketEvent) (r : ℕ), (s.infer o reading (request.on false)).1 = some r →
      (((s.infer o reading (request.on true)).2.serve o r events).runs[r]?).map Run.outcome =
        (((s.infer o reading (request.on false)).2.serve o r events).runs[r]?).map Run.outcome := by
  intro h
  have hsame := h twoWorkers (.new twoWorkers 0) ⟨100, fun _ => true⟩ greetingRequest
    [.connect, .data (Utf8.encode ("\x7b\"type\":\"token\",\"token\":\x7b\"toString\":0\x7d\x7d\n" ++
      "\x7b\"type\":\"result\"\x7d\n").toList)]
    0 (by decide +kernel)
  exact absurd hsame (by decide +kernel)

end WorkerPool

end ServeInfer.ApiServer
