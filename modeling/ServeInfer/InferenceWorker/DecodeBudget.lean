import ServeInfer.InferenceWorker.BatchBound
import ServeInfer.Lib.WhileLoop

/-!
# The budget of the decode loop

The loop with both of its counters, which are of type `int`, and with the product that
bounds the second one. The product is computed as soon as there is room for a token. It
is an `int` up to a limit of `2 ^ 29 - 1` tokens, and up to there the loop keeps to its
budget, whatever the sampler and the decoder do.
-/

namespace ServeInfer.InferenceWorker

/-- `parseIntArg`; `std::stoi` throws where there is no number and where it is no `int`. -/
def parseIntArg (raw : List Char) : Option ℤ := (Text.strtoll raw).bind CInt.int

/-- The variables of `runDecodeLoop`, with the tokens that were sampled. -/
structure LoopState (σ : Type) where
  generated : ℤ := 0
  attempts : ℤ := 0
  drawn : List Token := []
  session : Session σ

namespace LoopState

variable {σ : Type} (lib : Llama σ) (maxTokens : ℤ)

/-- The condition of the loop. -/
def goesOn (l : LoopState σ) : Option Bool :=
  if l.generated < maxTokens then
    (CInt.int (maxTokens * 4)).map fun bound => decide (l.attempts < bound)
  else some false

/-- The state with the next token sampled. -/
def draw (l : LoopState σ) (attempts : ℤ) : LoopState σ :=
  { l with
    attempts := attempts
    drawn := l.drawn ++ [l.session.token lib]
    session := l.session.sampled lib }

/-- The body of the loop, with whether it comes to its end or to a `continue`. -/
def turn (l : LoopState σ) : Option (Bool × LoopState σ) :=
  (CInt.int (l.attempts + 1)).bind fun attempts =>
    let token := l.session.token lib
    let l := l.draw lib attempts
    if lib.isEog token then some (decide (l.generated = 0), l)
    else
      match (l.session.emit (lib.piece token)).decode lib [token] with
      | (some 0, s) =>
          (CInt.int (l.generated + 1)).map fun generated =>
            (true,
              { l with
                generated := generated
                session := s })
      | (_, s) => some (false, { l with session := s })

/-- The loop that is entered with a session ends in this state. -/
def Ends (s : Session σ) (l : LoopState σ) : Prop :=
  WhileLoop.Finishes (goesOn maxTokens) (turn lib) { session := s } l

variable {lib maxTokens} {s : Session σ} {l l' : LoopState σ} {again : Bool}

/-- The state behind a token that is decoded. -/
def took (lib : Llama σ) (l : LoopState σ) (generated : ℤ) : LoopState σ :=
  { l.draw lib (l.attempts + 1) with
    generated := generated
    session := (l.session.take lib).2 }

/-- What a turn of the loop does: the token ends a generation, or it is decoded, or that fails. -/
inductive Turned (lib : Llama σ) (l : LoopState σ) : Bool → LoopState σ → Prop
  | ends (h : l.session.ends lib = true) :
      Turned lib l (decide (l.generated = 0)) (l.draw lib (l.attempts + 1))
  | takes (h : l.session.ends lib = false) (hstatus : l.session.status lib = some 0) :
      Turned lib l true (l.took lib (l.generated + 1))
  | breaks (h : l.session.ends lib = false) (hstatus : l.session.status lib ≠ some 0) :
      Turned lib l false (l.took lib l.generated)

theorem int_eq_some {v w : ℤ} (h : CInt.int v = some w) : w = v := by
  unfold CInt.int at h
  split at h
  · exact (Option.some.inj h).symm
  · cases h

theorem turned_of_turn (h : l.turn lib = some (again, l')) : Turned lib l again l' := by
  obtain ⟨attempts, hattempts, hbody⟩ := Option.bind_eq_some_iff.mp h
  obtain rfl := int_eq_some hattempts
  dsimp only at hbody
  split at hbody
  · rename_i hends
    obtain ⟨rfl, rfl⟩ := Prod.mk.inj (Option.some.inj hbody)
    exact .ends hends
  · rename_i hends
    have hgoes : l.session.ends lib = false := Bool.eq_false_iff.mpr hends
    split at hbody
    · rename_i s hdecode
      have htake : l.session.take lib = (some 0, s) := hdecode
      obtain ⟨generated, hgenerated, hlast⟩ := Option.map_eq_some_iff.mp hbody
      obtain rfl := int_eq_some hgenerated
      obtain ⟨rfl, rfl⟩ := Prod.mk.inj hlast
      have hs : s = (l.session.take lib).2 := by rw [htake]
      subst hs
      exact .takes hgoes (congrArg Prod.fst htake)
    · rename_i rc s hne hdecode
      have htake : l.session.take lib = (rc, s) := hdecode
      obtain ⟨rfl, rfl⟩ := Prod.mk.inj (Option.some.inj hbody)
      have hs : s = (l.session.take lib).2 := by rw [htake]
      subst hs
      refine .breaks hgoes ?_
      intro hstatus
      have hrc : rc = some 0 := (congrArg Prod.fst htake).symm.trans hstatus
      exact hne hrc

/-- A turn whose counters stay in the type is defined. -/
theorem exists_turned (hattempts : CInt.IsInt (l.attempts + 1))
    (hgenerated : CInt.IsInt (l.generated + 1)) : ∃ again l', l.turn lib = some (again, l') := by
  unfold turn
  rw [CInt.int_eq hattempts, Option.bind_some]
  dsimp only
  split
  · exact ⟨_, _, rfl⟩
  · split
    · have hint : CInt.int ((l.draw lib (l.attempts + 1)).generated + 1) =
          some (l.generated + 1) := CInt.int_eq hgenerated
      rw [hint]
      exact ⟨_, _, rfl⟩
    · exact ⟨_, _, rfl⟩

/-- Every turn samples one token. -/
theorem Turned.attempts (h : Turned lib l again l') : l'.attempts = l.attempts + 1 := by
  cases h with
  | ends => rfl
  | takes => rfl
  | breaks => rfl

theorem Turned.drawn (h : Turned lib l again l') :
    l'.drawn = l.drawn ++ [l.session.token lib] := by
  cases h with
  | ends => rfl
  | takes => rfl
  | breaks => rfl

/-- A turn emits a piece only where it counts the token or leaves the loop. -/
theorem Turned.pieces (h : Turned lib l again l') :
    ∃ more, l'.session.pieces = l.session.pieces ++ more ∧ more.length ≤ 1 ∧
      (again = true → l.generated + more.length ≤ l'.generated) ∧
      l.generated ≤ l'.generated ∧ l'.generated ≤ l.generated + 1 := by
  have hone : (l.session.pieceText lib).length ≤ 1 := by
    unfold Session.pieceText
    split
    · exact Nat.zero_le 1
    · exact Nat.le_refl 1
  cases h with
  | ends =>
      refine ⟨[], (List.append_nil _).symm, Nat.zero_le 1, fun _ => ?_, le_rfl, ?_⟩
      · exact le_of_eq (add_zero _)
      · exact Int.le_add_one le_rfl
  | takes =>
      refine ⟨_, Session.pieces_take, hone, fun _ => ?_, ?_, le_rfl⟩
      · exact Int.add_le_add_left (Int.ofNat_le.mpr hone) _
      · exact Int.le_add_one le_rfl
  | breaks =>
      refine ⟨_, Session.pieces_take, hone, ?_, le_rfl, Int.le_add_one le_rfl⟩
      intro hfalse
      cases hfalse

/-- Where the loop goes on there is room, and an attempt is left. -/
theorem goesOn_true (h : l.goesOn maxTokens = some true) :
    l.generated < maxTokens ∧ CInt.IsInt (maxTokens * 4) ∧ l.attempts < maxTokens * 4 := by
  unfold goesOn CInt.int at h
  split at h
  · rename_i hroom
    split at h
    · rename_i hint
      exact ⟨hroom, hint, by simpa using h⟩
    · cases h
  · cases h

theorem goesOn_false (h : l.goesOn maxTokens = some false) :
    maxTokens ≤ l.generated ∨ maxTokens * 4 ≤ l.attempts := by
  unfold goesOn CInt.int at h
  split at h
  · split at h
    · exact .inr (by simpa using h)
    · cases h
  · rename_i hroom
    exact .inl (not_lt.mp hroom)

/-- What holds at the condition of the loop. -/
structure Within (maxTokens : ℤ) (s : Session σ) (l : LoopState σ) : Prop where
  counted : l.attempts = l.drawn.length
  nonneg : 0 ≤ l.generated
  generated_le : l.generated ≤ l.attempts
  room : l.generated ≤ max 0 maxTokens
  attempts_le : l.attempts ≤ max 0 (maxTokens * 4)
  emitted : ∃ pieces, l.session.pieces = s.pieces ++ pieces ∧ (pieces.length : ℤ) ≤ l.generated

/-- The samples and the pieces that the loop has come to are within its budget, and it has sampled
a token if it was to generate one. -/
structure InBudget (maxTokens : ℤ) (s : Session σ) (l : LoopState σ) : Prop where
  samples : (l.drawn.length : ℤ) ≤ max 0 (maxTokens * 4)
  pieces : ∃ pieces, l.session.pieces = s.pieces ++ pieces ∧
    (pieces.length : ℤ) ≤ max 0 maxTokens
  draws : 0 < maxTokens → 1 ≤ l.drawn.length

theorem within_start (maxTokens : ℤ) (s : Session σ) : Within maxTokens s { session := s } := by
  refine ⟨rfl, le_rfl, le_rfl, le_max_left _ _, le_max_left _ _, [], ?_, le_rfl⟩
  exact (List.append_nil _).symm

theorem Within.turned (h : Within maxTokens s l) (hgoes : l.goesOn maxTokens = some true)
    (hturn : Turned lib l true l') : Within maxTokens s l' := by
  obtain ⟨hroom, -, hattempt⟩ := goesOn_true hgoes
  obtain ⟨pieces, hpieces, hlength⟩ := h.emitted
  obtain ⟨more, hmore, -, hcount, hge, hle⟩ := hturn.pieces
  have hattempts := hturn.attempts
  have hcounted := h.counted
  have hgenerated := h.generated_le
  have hnonneg := h.nonneg
  have hnext := hcount rfl
  refine ⟨?_, by omega, by omega, by omega, by omega, pieces ++ more, ?_, ?_⟩
  · rw [hattempts, hturn.drawn, List.length_append, h.counted]
    rfl
  · rw [hmore, hpieces, List.append_assoc]
  · rw [List.length_append]
    omega

theorem Within.stopped (h : Within maxTokens s l) (hstops : l.goesOn maxTokens = some false) :
    InBudget maxTokens s l := by
  obtain ⟨pieces, hpieces, hlength⟩ := h.emitted
  have hcounted := h.counted
  have hgenerated := h.generated_le
  have hroom := h.room
  constructor
  · rw [← h.counted]
    exact h.attempts_le
  · exact ⟨pieces, hpieces, by omega⟩
  · intro hpos
    have hfull := goesOn_false hstops
    omega

theorem Within.left (h : Within maxTokens s l) (hgoes : l.goesOn maxTokens = some true)
    (hturn : Turned lib l false l') : InBudget maxTokens s l' := by
  obtain ⟨hroom, -, hattempt⟩ := goesOn_true hgoes
  obtain ⟨pieces, hpieces, hlength⟩ := h.emitted
  obtain ⟨more, hmore, hone, -⟩ := hturn.pieces
  have hcounted := h.counted
  have hdrawn : l'.drawn.length = l.drawn.length + 1 := by
    rw [hturn.drawn, List.length_append]
    rfl
  constructor
  · omega
  · refine ⟨pieces ++ more, ?_, ?_⟩
    · rw [hmore, hpieces, List.append_assoc]
    · rw [List.length_append]
      omega
  · omega

/-- Wherever the loop ends, it is within its budget. -/
theorem inBudget_of_ends (h : Ends lib maxTokens s l) : InBudget maxTokens s l := by
  apply h.invariant (within_start maxTokens s)
  · intro l hl hstops
    exact hl.stopped hstops
  · intro l l' hl hgoes hturn
    exact hl.left hgoes (turned_of_turn hturn)
  · intro l l' hl hgoes hturn
    exact hl.turned hgoes (turned_of_turn hturn)

/-- As long as the product is an `int`, the loop ends. -/
theorem exists_ends (lib : Llama σ) (s : Session σ) (h : maxTokens < 2 ^ 29) :
    ∃ l, Ends lib maxTokens s l := by
  apply WhileLoop.exists_finishes (fun l => (maxTokens * 4 - l.attempts).toNat)
    (within_start maxTokens s)
  · intro l hl
    have hnonneg := hl.nonneg
    unfold goesOn
    by_cases hroom : l.generated < maxTokens
    · rw [if_pos hroom, CInt.int_eq ⟨by omega, by omega⟩]
      exact ⟨_, rfl⟩
    · exact ⟨false, if_neg hroom⟩
  · intro l hl hgoes
    obtain ⟨hroom, ⟨-, hint⟩, hattempt⟩ := goesOn_true hgoes
    have hnonneg := hl.nonneg
    have hgenerated := hl.generated_le
    obtain ⟨again, l', hturn⟩ : ∃ again l', l.turn lib = some (again, l') :=
      exists_turned ⟨by omega, by omega⟩ ⟨by omega, by omega⟩
    refine ⟨again, l', hturn, ?_⟩
    rintro rfl
    have hturned := turned_of_turn hturn
    have hattempts := hturned.attempts
    exact ⟨hl.turned hgoes hturned, by omega⟩

/-- The product is not an `int`, and the loop is undefined from its start. -/
theorem not_ends (lib : Llama σ) (s : Session σ) (h : 2 ^ 29 ≤ maxTokens) :
    ¬ Ends lib maxTokens s l := by
  apply WhileLoop.not_finishes
  have hroom : (0 : ℤ) < maxTokens := by omega
  have hout : ¬ CInt.IsInt (maxTokens * 4) := by
    rintro ⟨-, hlt⟩
    omega
  unfold goesOn CInt.int
  rw [if_pos hroom, if_neg hout]
  rfl

/-- The loop ends without an overflow, and within its budget. -/
structure Budgeted (lib : Llama σ) (maxTokens : ℤ) (s : Session σ) : Prop where
  ends : ∃ l, Ends lib maxTokens s l
  inBudget : ∀ l, Ends lib maxTokens s l → InBudget maxTokens s l

theorem parseIntArg_isInt {raw : List Char} (h : parseIntArg raw = some maxTokens) :
    CInt.IsInt maxTokens := by
  obtain ⟨n, -, hn⟩ := Option.bind_eq_some_iff.mp h
  unfold CInt.int at hn
  split at hn
  · rename_i hint
    exact Option.some.inj hn ▸ hint
  · cases hn

/-- The values that are accepted are those of `int`. -/
theorem exists_parseIntArg_iff :
    (∃ raw, parseIntArg raw = some maxTokens) ↔ CInt.IsInt maxTokens := by
  constructor
  · rintro ⟨raw, h⟩
    exact parseIntArg_isInt h
  · intro h
    obtain ⟨hlo, hhi⟩ := h
    refine ⟨Text.decimal maxTokens ++ [' '], ?_⟩
    have hread := Text.strtoll_decimal (n := maxTokens) (c := ' ') (by omega) (by omega) rfl []
    rw [parseIntArg, hread, Option.bind_some]
    exact CInt.int_eq ⟨hlo, hhi⟩

/-- The loop that ends has come to what the loop by its attempts comes to. -/
theorem decodeLoop_of_finishes (h : WhileLoop.Finishes (goesOn maxTokens) (turn lib) l l') :
    ∀ left generated : ℕ, l.generated = generated → l.attempts + left = maxTokens * 4 →
      lib.decodeLoop maxTokens left generated l.session = l'.session := by
  induction h with
  | stop hstops =>
      intro left generated hgenerated hleft
      cases left with
      | zero => rfl
      | succ left =>
          apply Session.decodeLoop_stays
          have hfull := goesOn_false hstops
          omega
  | leave hgoes hturn =>
      intro left generated hgenerated hleft
      obtain ⟨hroom, -, hattempt⟩ := goesOn_true hgoes
      rw [hgenerated] at hroom
      obtain ⟨left, rfl⟩ : ∃ n, left = n + 1 := ⟨left - 1, by omega⟩
      generalize hagain : false = again at hturn
      cases turned_of_turn hturn with
      | ends hends =>
          apply Session.decodeLoop_ends hroom hends
          simp only [Bool.false_eq, decide_eq_false_iff_not] at hagain
          omega
      | takes => cases hagain
      | breaks hends hstatus => exact Session.decodeLoop_breaks hroom hends hstatus
  | again hgoes hturn _ ih =>
      intro left generated hgenerated hleft
      obtain ⟨hroom, -, hattempt⟩ := goesOn_true hgoes
      rw [hgenerated] at hroom
      obtain ⟨left, rfl⟩ : ∃ n, left = n + 1 := ⟨left - 1, by omega⟩
      generalize hagain : true = again at hturn
      cases turned_of_turn hturn with
      | ends hends =>
          simp only [Bool.true_eq, decide_eq_true_eq] at hagain
          obtain rfl : generated = 0 := by omega
          rw [Session.decodeLoop_skips hroom hends]
          exact ih left 0 hagain (by simp only [draw]; omega)
      | takes hends hstatus =>
          rw [Session.decodeLoop_takes hroom hends hstatus]
          exact ih left (generated + 1) (by simp only [took]; omega)
            (by simp only [took, draw]; omega)
      | breaks => cases hagain

/-- As long as the product is an `int`, `runDecodeLoop` does what the loop does. -/
theorem runDecodeLoop_of_ends (h : Ends lib maxTokens s l) (hlt : maxTokens < 2 ^ 29) :
    lib.runDecodeLoop maxTokens s = l.session.clear := by
  rw [Llama.runDecodeLoop]
  apply congrArg Session.clear
  by_cases hpos : 0 < maxTokens
  · have hlimit : (Llama.attemptLimit maxTokens : ℤ) = maxTokens * 4 := by
      unfold Llama.attemptLimit CInt.toInt
      rw [Int.bmod_def]
      omega
    apply decodeLoop_of_finishes h _ 0 rfl
    rw [hlimit]
    exact zero_add _
  · have hstops : (LoopState.mk 0 0 [] s).goesOn maxTokens = some false := if_neg hpos
    have hstay : l = { session := s } := h.unique (.stop hstops)
    rw [hstay]
    cases Llama.attemptLimit maxTokens with
    | zero => rfl
    | succ left => exact Session.decodeLoop_stays hpos

/-- The loop keeps to its budget exactly when its limit is below `2 ^ 29`. -/
theorem decode_budget_iff (lib : Llama σ) (maxTokens : ℤ) (s : Session σ) :
    Budgeted lib maxTokens s ↔ maxTokens < 2 ^ 29 := by
  constructor
  · rintro ⟨⟨l, hl⟩, -⟩
    by_contra hle
    exact not_ends lib s (not_lt.mp hle) hl
  · intro h
    exact ⟨exists_ends lib s h, fun _ hl => inBudget_of_ends hl⟩

/-- The first limit that is accepted and whose product overflows. -/
theorem not_decode_budget :
    ¬ ∀ raw maxTokens, parseIntArg raw = some maxTokens →
      ∀ s : Session Unit, Budgeted perCharacter maxTokens s := by
  intro h
  have hbudget := h "536870912".toList 536870912 (by decide) ⟨(), loadedContext, [], []⟩
  obtain ⟨l, hl⟩ := hbudget.ends
  exact not_ends perCharacter _ (by decide) hl

end LoopState

end ServeInfer.InferenceWorker
