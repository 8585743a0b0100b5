import ServeInfer.ApiServer.PoolLoop
import ServeInfer.Lib.Charset
import ServeInfer.Lib.CInt
import ServeInfer.Lib.Lines
import ServeInfer.Lib.Utf8Chunks
import ServeInfer.Supervisor.Types

/-!
# The supervisor's notices on the socket

For each notice the supervisor connects, writes one line and closes. The api-server collects the
chunks of each connection and hands every line that it understands to the pool. What the pool is
told is exactly the notices that came through, whatever way their bytes were cut and mixed.
-/

namespace ServeInfer.ApiServer

open Supervisor (Notice)

/-- The `type` of a notice. -/
def noticeType : Notice → String
  | .workerCrashed => "worker_crashed"
  | .workerRestarted => "worker_restarted"

/-- What `notifyApiServer` writes. -/
def noticeText (notice : Notice) (workerId : ℤ) : List Char :=
  ("\x7b\"type\":\"" ++ noticeType notice ++ "\",\"workerId\":").toList ++
    (Text.decimal workerId ++ (",\"requestId\":\"\"\x7d\n").toList)

def noticeBytes (notice : Notice) (workerId : ℤ) : List UInt8 :=
  Charset.utf8.encode (noticeText notice workerId)

/-- `msg.workerId`, where `Number.isInteger` holds of it. -/
def workerIdOf (msg : Json) : Option ℤ :=
  match msg.get? "workerId" with
  | some (.num literal) =>
      (Json.numberValue literal).bind fun q => if q.den = 1 then some q.num else none
  | _ => none

/-- `msg.requestId || null`. No request in flight has an id that is not a string. -/
def requestIdOf (msg : Json) : JsString :=
  match msg.get? "requestId" with
  | some (.str s) => s
  | _ => []

/-- The tests of `handleSupervisorMessage`. -/
def supervisorMessage (msg : Json) : Option SupervisorMessage :=
  match msg.get? "type", workerIdOf msg with
  | some (.str type), some w =>
      if type = Json.units "worker_crashed" then some (.workerCrashed w (requestIdOf msg))
      else if type = Json.units "worker_restarted" then some (.workerRestarted w)
      else if type = Json.units "worker_ready" then some (.workerReady w)
      else none
  | _, _ => none

/-- What the loop of the listener does with a line. -/
def onNoticeLine (o : Options) (now : ℤ) (s : WorkerPool) (line : JsString) : WorkerPool :=
  match (Json.parse (Json.trim line)).bind supervisorMessage with
  | some msg => s.handleSupervisorMessage o now msg
  | none => s

/-- The loop of the listener; what is left of the buffer comes second. -/
def drainNotices (o : Options) (now : ℤ) : List JsString → WorkerPool → WorkerPool × JsString
  | [], s => (s, [])
  | [rest], s => (s, rest)
  | line :: lines, s => drainNotices o now lines (onNoticeLine o now s line)

/-- A connection of the supervisor's: what it was made for, the bytes of it that are still to
arrive, whether they are all that should, and the listener's buffer. -/
structure NoticeSocket where
  notice : Notice
  workerId : ℤ
  unread : List UInt8
  whole : Bool
  buffer : JsString := []

/-- The api-server's pool with the connections of its listener. `delivered` is the notices whose
last byte has arrived, with the time of that. -/
structure NoticeLink where
  pool : WorkerPool
  sockets : List NoticeSocket := []
  delivered : List (ℤ × Notice × ℤ) := []

/-- What happens next: the supervisor connects and gets some of its line written, a chunk arrives,
or something else happens to the pool. -/
inductive LinkAction
  | notify (notice : Notice) (workerId : ℤ) (written : ℕ)
  | arrive (i : ℕ) (size : ℕ) (now : ℤ)
  | pool (a : PoolAction)

namespace NoticeLink

variable (o : Options) (s : NoticeLink)

/-- `socket.on('data')`. -/
def onData (i : ℕ) (socket : NoticeSocket) (chunk : List UInt8) (now : ℤ) : NoticeLink :=
  let (pool, buffer) :=
    drainNotices o now ((socket.buffer ++ Utf8.decode chunk).splitOn 0x0A) s.pool
  let unread := socket.unread.drop chunk.length
  { s with
    pool := pool
    sockets := s.sockets.set i { socket with unread := unread, buffer := buffer }
    delivered :=
      if unread = [] ∧ socket.whole then s.delivered ++ [(now, socket.notice, socket.workerId)]
      else s.delivered }

end NoticeLink

/-- One step. A chunk is not empty, and the pool hears from the supervisor in this way only. -/
def linkStep (o : Options) (s : NoticeLink) : LinkAction → Option NoticeLink
  | .notify notice workerId written =>
      let bytes := noticeBytes notice workerId
      some { s with
        sockets := s.sockets ++
          [{ notice := notice
             workerId := workerId
             unread := bytes.take written
             whole := decide (bytes.length ≤ written) }] }
  | .arrive i size now =>
      match s.sockets[i]? with
      | none => none
      | some socket =>
          if s.pool.threw = false ∧ 0 < size ∧ socket.unread ≠ [] then
            some (s.onData o i socket (socket.unread.take size) now)
          else none
  | .pool (.supervisor _ _) => none
  | .pool a => (poolStep o s.pool a).map fun pool => { s with pool := pool }

/-- What the pool is to make of a notice. -/
def noticeMessage (notice : Notice) (w : ℤ) : SupervisorMessage :=
  match notice with
  | .workerCrashed => .workerCrashed w []
  | .workerRestarted => .workerRestarted w

section Text

variable {M : Charset} {text : List Char} {x : List UInt8} {notice : Notice} {w : ℤ}

theorem encode_of_ascii (htext : ∀ c ∈ text, c.toNat < 0x80) :
    M.encode text = text.map fun c => .ofNat c.toNat := by
  induction text with
  | nil => rfl
  | cons c text ih =>
      rw [Charset.encode_ascii (htext c List.mem_cons_self), List.map_cons,
        ih fun d hd => htext d (List.mem_cons_of_mem c hd)]

theorem decode_of_ascii (hx : ∀ b ∈ x, b.toNat < 0x80) : Utf8.decode x = x.map Utf8.unit := by
  have happend := Utf8.decode_append_ascii hx []
  simpa [Utf8.decode, Utf8.decodeFrom, Utf8.flush] using happend

/-- An object on a line of its own. -/
theorem parse_trim_objectText {ms : List (String × List Char)} {ns : List (JsString × Json)}
    (h : List.Forall₂ M.SpeaksMember ms ns) :
    Json.parse (Json.trim (M.units (Charset.objectText ms))) = some (.obj ns) := by
  obtain ⟨pieces, hpieces, hreads⟩ := Charset.exists_membersText h
  have hstands : M.Stands (Charset.objectText ms) (Json.objectText pieces) :=
    .cons (by decide) (hpieces.append (Charset.stands_char (by decide)))
  have hend : Json.NotNext Json.inNumber (M.units []) := by
    intro u more hnext
    cases show ([] : JsString) = u :: more from hnext
  have hspace : Json.skipSpace (M.units []) = [] := rfl
  have hparse := (Charset.speaks_object h).parse hspace hend
  rw [List.append_nil, hstands.units] at hparse
  rw [hstands.units, Json.trim_objectText, hparse]

/-- A notice without its line break. -/
def noticeBody (notice : Notice) (w : ℤ) : List Char :=
  Charset.objectText
    [("type", '"' :: ((noticeType notice).toList ++ ['"'])), ("workerId", Text.decimal w),
      ("requestId", "\"\"".toList)]

theorem noticeText_eq : noticeText notice w = noticeBody notice w ++ ['\n'] := by
  simp [noticeText, noticeBody, Charset.objectText, Charset.membersText, Charset.memberText]

theorem noticeBody_ascii : ∀ c ∈ noticeBody notice w, c.toNat < 0x80 ∧ c ≠ '\n' := by
  have hparts : noticeBody notice w =
      ("\x7b\"type\":\"" ++ noticeType notice ++ "\",\"workerId\":").toList ++
        (Text.decimal w ++ ",\"requestId\":\"\"\x7d".toList) := by
    simp [noticeBody, Charset.objectText, Charset.membersText, Charset.memberText]
  intro c hc
  rw [hparts, List.mem_append, List.mem_append] at hc
  rcases hc with hc | hc | hc
  · have hfront : ∀ c ∈ ("\x7b\"type\":\"" ++ noticeType notice ++ "\",\"workerId\":").toList,
        c.toNat < 0x80 ∧ c ≠ '\n' := by
      cases notice <;> decide
    exact hfront c hc
  · refine ⟨Text.decimal_ascii hc, ?_⟩
    rintro rfl
    exact Text.notMem_decimal (by decide) (by decide) w hc
  · have hback : ∀ c ∈ ",\"requestId\":\"\"\x7d".toList, c.toNat < 0x80 ∧ c ≠ '\n' := by
      decide
    exact hback c hc

theorem speaks_plain {text : String} (hname : Charset.IsName text) :
    M.Speaks ('"' :: (text.toList ++ ['"'])) (.str (Json.units text)) := by
  apply Charset.speaks_quoted
  have hstands : M.Stands text.toList (Json.units text) :=
    Charset.stands_ascii fun c hc => (hname c hc).1
  rw [hstands.units]
  apply Json.readsInside_self
  intro u hu
  obtain ⟨c, hc, rfl⟩ := List.mem_map.mp hu
  exact (hname c hc).2

/-- The line that a notice is read from. -/
theorem supervisorMessage_notice (hw : w.natAbs < 2 ^ 53) :
    (Json.parse (Json.trim (Charset.utf8.units (noticeBody notice w)))).bind supervisorMessage =
      some (noticeMessage notice w) := by
  have htype : Charset.IsName (noticeType notice) := by cases notice <;> decide
  have hempty : Charset.IsName "" := by decide
  have hkeys : Charset.IsName "type" ∧ Charset.IsName "workerId" ∧
      Charset.IsName "requestId" := by
    decide
  have hmembers : List.Forall₂ Charset.utf8.SpeaksMember
      [("type", '"' :: ((noticeType notice).toList ++ ['"'])), ("workerId", Text.decimal w),
        ("requestId", "\"\"".toList)]
      [(Json.units "type", .str (Json.units (noticeType notice))),
        (Json.units "workerId", .num (Json.decimalUnits w)),
        (Json.units "requestId", .str (Json.units ""))] :=
    .cons ⟨rfl, hkeys.1, speaks_plain htype⟩ (.cons ⟨rfl, hkeys.2.1, Charset.speaks_decimal w⟩
      (.cons ⟨rfl, hkeys.2.2, speaks_plain hempty⟩ .nil))
  rw [noticeBody, parse_trim_objectText hmembers, Option.bind_some]
  let msg : Json := .obj
    [(Json.units "type", .str (Json.units (noticeType notice))),
      (Json.units "workerId", .num (Json.decimalUnits w)),
      (Json.units "requestId", .str (Json.units ""))]
  have htold : msg.get? "type" = some (.str (Json.units (noticeType notice))) := rfl
  have hnumber : msg.get? "workerId" = some (.num (Json.decimalUnits w)) := rfl
  have hid : workerIdOf msg = some w := by
    rw [workerIdOf, hnumber]
    dsimp only
    rw [Json.numberValue_decimalUnits hw, Option.bind_some, if_pos (Rat.den_intCast w),
      Rat.num_intCast]
  have hnone : requestIdOf msg = [] := rfl
  change supervisorMessage msg = _
  rw [supervisorMessage, htold, hid]
  dsimp only
  rw [hnone]
  cases notice with
  | workerCrashed => rfl
  | workerRestarted => rfl

end Text

section Sockets

variable {o : Options} {notice : Notice} {w now : ℤ} {pool : WorkerPool} {socket : NoticeSocket}
  {arrived rest chunk : List UInt8}

/-- The bytes of a notice before its line break. -/
def bodyBytes (notice : Notice) (w : ℤ) : List UInt8 := Charset.utf8.encode (noticeBody notice w)

theorem noticeBytes_eq : noticeBytes notice w = bodyBytes notice w ++ [0x0A] := by
  rw [noticeBytes, noticeText_eq, Charset.encode_append, bodyBytes]
  rfl

theorem bodyBytes_ascii : ∀ b ∈ bodyBytes notice w, b.toNat < 0x80 ∧ b ≠ 0x0A := by
  intro b hb
  have htext : ∀ c ∈ noticeBody notice w, c.toNat < 0x80 := fun c hc => (noticeBody_ascii c hc).1
  rw [bodyBytes, encode_of_ascii htext] at hb
  obtain ⟨c, hc, rfl⟩ := List.mem_map.mp hb
  obtain ⟨hlow, hbreak⟩ := noticeBody_ascii c hc
  have hnat : (UInt8.ofNat c.toNat).toNat = c.toNat := Utf8.toNat_ofNat_lt (by omega)
  refine ⟨hnat.trans_lt hlow, ?_⟩
  intro heq
  rw [heq] at hnat
  exact hbreak (Char.ext (UInt32.toNat_inj.mp hnat.symm))

theorem noticeBytes_ascii : ∀ b ∈ noticeBytes notice w, b.toNat < 0x80 := by
  intro b hb
  rw [noticeBytes_eq, List.mem_append, List.mem_singleton] at hb
  rcases hb with hb | rfl
  · exact (bodyBytes_ascii b hb).1
  · decide

/-- What has arrived of a notice before its end is a part of its body. -/
theorem prefix_body (h : noticeBytes notice w = arrived ++ rest) (hrest : rest ≠ []) :
    arrived <+: bodyBytes notice w := by
  rw [noticeBytes_eq] at h
  have hle : arrived.length ≤ (bodyBytes notice w).length := by
    have hlength := congrArg List.length h
    have hpos := List.length_pos_iff.mpr hrest
    simp only [List.length_append, List.length_singleton] at hlength
    omega
  exact List.prefix_of_prefix_length_le ⟨rest, h.symm⟩ (List.prefix_append _ _) hle

theorem notMem_units (h : arrived <+: bodyBytes notice w) :
    (0x0A : Utf8.CodeUnit) ∉ arrived.map Utf8.unit := by
  rw [List.mem_map]
  rintro ⟨b, hb, heq⟩
  obtain ⟨hlow, hbreak⟩ := bodyBytes_ascii b (h.subset hb)
  exact hbreak (Utf8.unit_inj heq)

/-- A chunk that does not end the notice is kept. -/
theorem drainNotices_part (h : arrived <+: bodyBytes notice w) :
    drainNotices o now ((arrived.map Utf8.unit).splitOn 0x0A) pool =
      (pool, arrived.map Utf8.unit) := by
  rw [List.splitOn_eq_singleton (notMem_units h)]
  rfl

/-- The chunk that ends it hands the pool its message. -/
theorem drainNotices_whole (hw : w.natAbs < 2 ^ 53) :
    drainNotices o now (((noticeBytes notice w).map Utf8.unit).splitOn 0x0A) pool =
      (pool.handleSupervisorMessage o now (noticeMessage notice w), []) := by
  have hbody : Charset.utf8.units (noticeBody notice w) = (bodyBytes notice w).map Utf8.unit :=
    decode_of_ascii fun b hb => (bodyBytes_ascii b hb).1
  have hlines : ((noticeBytes notice w).map Utf8.unit).splitOn 0x0A =
      [(bodyBytes notice w).map Utf8.unit, []] := by
    rw [noticeBytes_eq, List.map_append]
    have hclean : ∀ line ∈ [(bodyBytes notice w).map Utf8.unit], (0x0A : Utf8.CodeUnit) ∉ line := by
      simpa using notMem_units (List.prefix_refl (bodyBytes notice w))
    have hsplit := Lines.splitOn_joined hclean List.not_mem_nil
    have hbreak : Utf8.unit 0x0A = 0x0A := rfl
    rw [List.map_singleton, hbreak]
    simpa [Lines.joined] using hsplit
  have hline : (Json.parse (Json.trim (Charset.utf8.units (noticeBody notice w)))).bind
      supervisorMessage = some (noticeMessage notice w) := supervisorMessage_notice hw
  rw [hbody] at hline
  rw [hlines]
  simp only [drainNotices, onNoticeLine, hline]

/-- A socket's buffer holds what has arrived of a notice that is not whole. -/
structure NoticeSocket.Ok (socket : NoticeSocket) : Prop where
  small : socket.workerId.natAbs < 2 ^ 53
  parts : ∃ arrived rest,
    noticeBytes socket.notice socket.workerId = arrived ++ (socket.unread ++ rest) ∧
      (socket.whole = true ↔ rest = []) ∧
      (socket.unread ++ rest ≠ [] → socket.buffer = arrived.map Utf8.unit)

/-- The notice has come through. -/
def NoticeSocket.isThrough (socket : NoticeSocket) : Bool :=
  socket.unread.isEmpty && socket.whole

variable (o now pool) in
/-- What a chunk does to the pool and to its socket. -/
theorem NoticeSocket.Ok.arrive (h : socket.Ok) (hunread : socket.unread ≠ [])
    (hchunk : chunk ++ rest = socket.unread) :
    ∃ buffer, { socket with unread := rest, buffer := buffer }.Ok ∧
      drainNotices o now ((socket.buffer ++ Utf8.decode chunk).splitOn 0x0A) pool =
        (if rest = [] ∧ socket.whole = true then
          pool.handleSupervisorMessage o now (noticeMessage socket.notice socket.workerId)
        else pool, buffer) := by
  obtain ⟨hsmall, arrived, behind, hbytes, hwhole, hbuffer⟩ := h
  have hmore : socket.unread ++ behind ≠ [] := by simp [hunread]
  have hascii : ∀ b ∈ chunk, b.toNat < 0x80 := by
    intro b hb
    have hall : ∀ b ∈ noticeBytes socket.notice socket.workerId, b.toNat < 0x80 :=
      noticeBytes_ascii
    apply hall
    rw [hbytes, ← hchunk]
    simp [hb]
  have htext : socket.buffer ++ Utf8.decode chunk = (arrived ++ chunk).map Utf8.unit := by
    rw [hbuffer hmore, decode_of_ascii hascii, List.map_append]
  have hsplit : noticeBytes socket.notice socket.workerId =
      arrived ++ chunk ++ (rest ++ behind) := by
    rw [hbytes, ← hchunk]
    simp
  rw [htext]
  by_cases hend : rest = [] ∧ socket.whole = true
  · obtain ⟨rfl, hall⟩ := hend
    obtain rfl := hwhole.mp hall
    rw [List.append_nil, List.append_nil] at hsplit
    refine ⟨[], ⟨hsmall, arrived ++ chunk, [], by simpa using hsplit, hwhole, by simp⟩, ?_⟩
    rw [← hsplit, drainNotices_whole hsmall, if_pos ⟨rfl, hall⟩]
  · have hleft : rest ++ behind ≠ [] := by
      intro hnone
      obtain ⟨hrest, hbehind⟩ := List.append_eq_nil_iff.mp hnone
      exact hend ⟨hrest, hwhole.mpr hbehind⟩
    refine ⟨(arrived ++ chunk).map Utf8.unit,
      ⟨hsmall, arrived ++ chunk, behind, hsplit, hwhole, fun _ => rfl⟩, ?_⟩
    rw [drainNotices_part (prefix_body hsplit hleft), if_neg hend]

end Sockets

/-- What a step of the pool is told by the supervisor. -/
def told : PoolAction → Option (ℤ × SupervisorMessage)
  | .supervisor now msg => some (now, msg)
  | _ => none

/-- Worker ids are of the type `int`. -/
def Sendable (_ : NoticeLink) : LinkAction → Prop
  | .notify _ workerId _ => CInt.IsInt workerId
  | _ => True

instance : DecidableRel Sendable := fun _ a =>
  match a with
  | .notify _ workerId _ => inferInstanceAs (Decidable (CInt.IsInt workerId))
  | .arrive _ _ _ => isTrue trivial
  | .pool _ => isTrue trivial

section Runs

variable {o : Options} {s : WorkerPool} {t u : NoticeLink}

/-- The connections whose notice has come through. -/
def NoticeLink.through (t : NoticeLink) : List (Notice × ℤ) :=
  (t.sockets.filter NoticeSocket.isThrough).map fun socket => (socket.notice, socket.workerId)

/-- What holds between the bytes and the pool's own run. -/
structure Relays (o : Options) (s : WorkerPool) (t : NoticeLink) : Prop where
  sockets : ∀ socket ∈ t.sockets, socket.Ok
  pool : ∃ ps, Machine.exec (poolStep o) s ps = some t.pool ∧
    ps.filterMap told = t.delivered.map fun d => (d.1, noticeMessage d.2.1 d.2.2)
  once : (t.delivered.map Prod.snd).Perm t.through

theorem noticeBytes_ne_nil (notice : Notice) (w : ℤ) : noticeBytes notice w ≠ [] := by
  rw [noticeBytes_eq]
  simp

theorem Relays.notify (ht : Relays o s t) {notice : Notice} {w : ℤ} (hw : CInt.IsInt w)
    (written : ℕ) :
    Relays o s { t with
      sockets := t.sockets ++
        [{ notice := notice
           workerId := w
           unread := (noticeBytes notice w).take written
           whole := decide ((noticeBytes notice w).length ≤ written) }] } where
  sockets := by
    intro socket hsocket
    rcases List.mem_append.mp hsocket with hsocket | hsocket
    · exact ht.sockets socket hsocket
    · obtain rfl := List.mem_singleton.mp hsocket
      refine ⟨?_, [], (noticeBytes notice w).drop written, ?_, ?_, fun _ => rfl⟩
      · obtain ⟨hlow, hhigh⟩ := hw
        dsimp only
        omega
      · simp
      · simp
  pool := ht.pool
  once := by
    have hunread : NoticeSocket.isThrough
        { notice := notice
          workerId := w
          unread := (noticeBytes notice w).take written
          whole := decide ((noticeBytes notice w).length ≤ written) } = false := by
      rw [Bool.eq_false_iff]
      intro hthrough
      simp only [NoticeSocket.isThrough, Bool.and_eq_true, List.isEmpty_iff,
        decide_eq_true_eq] at hthrough
      obtain ⟨hnone, hall⟩ := hthrough
      rw [List.take_of_length_le hall] at hnone
      exact noticeBytes_ne_nil notice w hnone
    have hsame := ht.once
    unfold NoticeLink.through at hsame ⊢
    rwa [List.filter_append, List.filter_cons_of_neg (by simp [hunread]), List.filter_nil,
      List.append_nil]

/-- One connection has come through, or none. -/
theorem through_set {sockets : List NoticeSocket} {i : ℕ} {socket : NoticeSocket}
    (socket' : NoticeSocket) (hi : sockets[i]? = some socket) (hbefore : socket.isThrough = false)
    (hnotice : socket'.notice = socket.notice) (hid : socket'.workerId = socket.workerId) :
    (((sockets.set i socket').filter NoticeSocket.isThrough).map
        fun socket => (socket.notice, socket.workerId)).Perm
      (((sockets.filter NoticeSocket.isThrough).map
          fun socket => (socket.notice, socket.workerId)) ++
        if socket'.isThrough then [(socket.notice, socket.workerId)] else []) := by
  obtain ⟨hlt, rfl⟩ := List.getElem?_eq_some_iff.mp hi
  have hnew := (List.set_perm_cons_eraseIdx hlt socket').filter NoticeSocket.isThrough
  have hold := (List.getElem_cons_eraseIdx_perm hlt).symm.filter NoticeSocket.isThrough
  rw [List.filter_cons_of_neg (by simp [hbefore])] at hold
  cases hthrough : socket'.isThrough with
  | true =>
      rw [List.filter_cons_of_pos hthrough] at hnew
      rw [if_pos rfl]
      have hmoved := (hnew.trans (hold.symm.cons socket')).map
        fun socket => (socket.notice, socket.workerId)
      rw [List.map_cons, hnotice, hid] at hmoved
      exact hmoved.trans (List.perm_append_singleton _ _).symm
  | false =>
      rw [List.filter_cons_of_neg (by simp [hthrough])] at hnew
      rw [if_neg (by simp), List.append_nil]
      exact (hnew.trans hold.symm).map _

theorem Relays.arrive (ht : Relays o s t) {i : ℕ} {socket : NoticeSocket}
    (hi : t.sockets[i]? = some socket) (hthrew : t.pool.threw = false)
    (hunread : socket.unread ≠ []) (size : ℕ) (now : ℤ) :
    Relays o s (t.onData o i socket (socket.unread.take size) now) := by
  have hchunk : socket.unread.take size ++ socket.unread.drop (socket.unread.take size).length =
      socket.unread := by
    rw [List.length_take]
    rcases Nat.le_total size socket.unread.length with hle | hle
    · rw [Nat.min_eq_left hle, List.take_append_drop]
    · rw [Nat.min_eq_right hle, List.take_of_length_le hle, List.drop_length, List.append_nil]
  obtain ⟨buffer, hok, hdrain⟩ := (ht.sockets socket (List.mem_of_getElem? hi)).arrive o
    now t.pool hunread hchunk
  have hbefore : socket.isThrough = false := by simp [NoticeSocket.isThrough, hunread]
  unfold NoticeLink.onData
  rw [hdrain]
  obtain ⟨ps, hps, htold⟩ := ht.pool
  have hperm := through_set
    { socket with
      unread := socket.unread.drop (socket.unread.take size).length
      buffer := buffer } hi hbefore rfl rfl
  constructor
  · intro other hother
    rcases List.mem_or_eq_of_mem_set hother with hother | rfl
    · exact ht.sockets other hother
    · exact hok
  · dsimp only
    split
    · refine ⟨ps ++ [.supervisor now (noticeMessage socket.notice socket.workerId)], ?_, ?_⟩
      · rw [Machine.exec_snoc, hps, Option.bind_some, poolStep, if_neg (by simp [hthrew])]
      · rw [List.filterMap_append, htold, List.map_append]
        rfl
    · exact ⟨ps, hps, htold⟩
  · refine List.Perm.trans ?_ hperm.symm
    have honce := ht.once
    unfold NoticeLink.through at honce
    simp only [NoticeSocket.isThrough, Bool.and_eq_true, List.isEmpty_iff]
    split
    · rw [List.map_append]
      exact honce.append_right _
    · rw [List.append_nil]
      exact honce

/-- Of the pool's steps, those of the supervisor's come in no other way. -/
theorem exists_poolStep {a : PoolAction} (h : linkStep o t (.pool a) = some u) :
    told a = none ∧ ∃ pool, poolStep o t.pool a = some pool ∧ u = { t with pool := pool } := by
  cases a with
  | supervisor now msg => contradiction
  | _ =>
      obtain ⟨pool, hpool, rfl⟩ := Option.map_eq_some_iff.mp h
      exact ⟨rfl, pool, hpool, rfl⟩

theorem relays_of_step {a : LinkAction} (ht : Relays o s t) (ha : Sendable t a)
    (h : linkStep o t a = some u) : Relays o s u := by
  cases a with
  | notify notice workerId written =>
      obtain rfl := Option.some.inj h
      exact ht.notify ha written
  | arrive i size now =>
      cases hi : t.sockets[i]? with
      | none => simp [linkStep, hi] at h
      | some socket =>
          simp only [linkStep, hi] at h
          obtain ⟨⟨hthrew, -, hunread⟩, hu⟩ := Option.ite_none_right_eq_some.mp h
          obtain rfl := Option.some.inj hu
          exact ht.arrive hi hthrew hunread size now
  | pool a =>
      obtain ⟨hnone, pool, hpool, rfl⟩ := exists_poolStep h
      obtain ⟨ps, hps, htold⟩ := ht.pool
      refine ⟨ht.sockets, ⟨ps ++ [a], ?_, ?_⟩, ht.once⟩
      · rw [Machine.exec_snoc, hps, Option.bind_some, hpool]
      · rw [List.filterMap_append, htold]
        simp [hnone]

/-- The pool goes through a run of its own in which it is told exactly the notices whose last byte
has arrived, each once and when that happened, however their bytes came in pieces and among each
other's. -/
theorem notices_are_handled_once {as : List LinkAction}
    (hg : Machine.Guarded (linkStep o) Sendable { pool := s } as)
    (h : Machine.exec (linkStep o) { pool := s } as = some t) :
    ∃ ps, Machine.exec (poolStep o) s ps = some t.pool ∧
      ps.filterMap told = (t.delivered.map fun d => (d.1, noticeMessage d.2.1 d.2.2)) ∧
      (t.delivered.map Prod.snd).Perm t.through := by
  have hrelays : Relays o s t := hg.invariant ⟨by simp, ⟨[], rfl, rfl⟩, .refl _⟩
    (fun _ _ _ ht ha hstep => relays_of_step ht ha hstep) h
  obtain ⟨ps, hps, htold⟩ := hrelays.pool
  exact ⟨ps, hps, htold, hrelays.once⟩

/-- The pool of one worker. -/
def soleWorker : Options where
  workerCount := 1
  connectTimeoutMs := 1000
  numberText := id

/-- Two notices whose bytes come in pieces, the later one's first. -/
def crossedNotices : List LinkAction :=
  [.notify .workerCrashed 0 100, .notify .workerRestarted 0 100, .arrive 0 12 20,
    .arrive 1 30 21, .arrive 1 30 22, .arrive 0 50 23]

theorem notices_are_handled_once_crossedNotices :
    ∃ t, Machine.exec (linkStep soleWorker) { pool := .new soleWorker 0 } crossedNotices = some t ∧
      ∃ ps, Machine.exec (poolStep soleWorker) (.new soleWorker 0) ps = some t.pool ∧
        ps.filterMap told = (t.delivered.map fun d => (d.1, noticeMessage d.2.1 d.2.2)) ∧
        (t.delivered.map Prod.snd).Perm t.through := by
  have hrun : (Machine.exec (linkStep soleWorker) { pool := .new soleWorker 0 }
      crossedNotices).isSome = true := by
    decide +kernel
  obtain ⟨t, ht⟩ := Option.isSome_iff_exists.mp hrun
  exact ⟨t, ht, notices_are_handled_once (by decide +kernel) ht⟩

example : (Machine.exec (linkStep soleWorker) { pool := .new soleWorker 0 } crossedNotices).map
    NoticeLink.delivered = some [(22, .workerRestarted, 0), (23, .workerCrashed, 0)] := by
  decide +kernel

end Runs

end ServeInfer.ApiServer
