import Mathlib.Logic.Function.Iterate
import ServeInfer.InferenceWorker.Generation

/-!
# The decode loop

The loop skips what ends a generation as long as nothing was generated, and then takes one
token after the other. Where it stands is known by the number of tokens skipped and of
tokens taken; what it emits and decodes on the whole is read off that.
-/

namespace ServeInfer.InferenceWorker

namespace Session

variable {σ : Type} (lib : Llama σ) (s : Session σ)

/-- A token has been taken: its piece is emitted and the token decoded. -/
def take : Option ℤ × Session σ :=
  ((s.sampled lib).emit (lib.piece (s.token lib))).decode lib [s.token lib]

/-- What the library returns for the next token. -/
def status : Option ℤ := (s.take lib).1

/-- The request after the first tokens, so many of them skipped and so many taken. -/
def after (skipped taken : ℕ) : Session σ :=
  (fun s => (s.take lib).2)^[taken] ((fun s => s.sampled lib)^[skipped] s)

/-- The next token ends a generation. -/
def ends : Bool := lib.isEog (s.token lib)

@[simp] theorem after_zero : s.after lib 0 0 = s := rfl

theorem after_skip (skipped : ℕ) :
    s.after lib (skipped + 1) 0 = (s.after lib skipped 0).sampled lib := by
  apply Function.iterate_succ_apply'

theorem after_take (skipped taken : ℕ) :
    s.after lib skipped (taken + 1) = ((s.after lib skipped taken).take lib).2 := by
  apply Function.iterate_succ_apply'

/-- The loop comes to where it has skipped and taken so many tokens. -/
structure Comes (maxTokens : ℤ) (skipped taken : ℕ) : Prop where
  skips : ∀ i < skipped, (s.after lib i 0).ends lib = true
  takes : ∀ j < taken, (s.after lib skipped j).ends lib = false
  decodes : ∀ j < taken, (s.after lib skipped j).status lib = some 0
  room : ∀ j < taken, (j : ℤ) < maxTokens
  attempts : skipped + taken ≤ Llama.attemptLimit maxTokens

/-- The loop takes one more token there. -/
structure Takes (maxTokens : ℤ) (skipped taken : ℕ) : Prop
    extends s.Comes lib maxTokens skipped taken where
  goesOn : (s.after lib skipped taken).ends lib = false
  hasRoom : (taken : ℤ) < maxTokens
  hasAttempt : skipped + taken < Llama.attemptLimit maxTokens

/-- The piece of the next token, if it is not empty. -/
def pieceText : List String :=
  if (lib.piece (s.token lib)).isEmpty then [] else [lib.piece (s.token lib)]

variable {lib s} {maxTokens : ℤ} {skipped taken skipped' taken' : ℕ}

/-- What is taken first is not skipped. -/
theorem Comes.skipped_le (h : s.Comes lib maxTokens skipped taken)
    (hgoes : (s.after lib skipped' 0).ends lib = false) : skipped ≤ skipped' := by
  by_contra hlt
  rw [h.skips skipped' (Nat.not_le.mp hlt)] at hgoes
  cases hgoes

/-- One more token is skipped. -/
theorem Comes.skip (h : s.Comes lib maxTokens skipped 0)
    (hends : (s.after lib skipped 0).ends lib = true)
    (hattempt : skipped < Llama.attemptLimit maxTokens) :
    s.Comes lib maxTokens (skipped + 1) 0 := by
  refine ⟨?_, by simp, by simp, by simp, hattempt⟩
  intro i hi
  obtain rfl | hlt := Nat.eq_or_lt_of_le (Nat.le_of_lt_succ hi)
  · exact hends
  · exact h.skips i hlt

/-- One more token is taken. -/
theorem Takes.next (h : s.Takes lib maxTokens skipped taken)
    (hstatus : (s.after lib skipped taken).status lib = some 0) :
    s.Comes lib maxTokens skipped (taken + 1) := by
  refine ⟨h.skips, ?_, ?_, ?_, h.hasAttempt⟩
  · intro j hj
    obtain rfl | hlt := Nat.eq_or_lt_of_le (Nat.le_of_lt_succ hj)
    · exact h.goesOn
    · exact h.takes j hlt
  · intro j hj
    obtain rfl | hlt := Nat.eq_or_lt_of_le (Nat.le_of_lt_succ hj)
    · exact hstatus
    · exact h.decodes j hlt
  · intro j hj
    obtain rfl | hlt := Nat.eq_or_lt_of_le (Nat.le_of_lt_succ hj)
    · exact h.hasRoom
    · exact h.room j hlt

theorem Takes.first (h : s.Takes lib maxTokens skipped taken) :
    (s.after lib skipped 0).ends lib = false := by
  cases taken with
  | zero => exact h.goesOn
  | succ taken => exact h.takes 0 (Nat.zero_lt_succ taken)

/-- The tokens before where the loop has come were taken. -/
theorem Comes.takes_of_lt (h : s.Comes lib maxTokens skipped taken) (hlt : taken' < taken) :
    s.Takes lib maxTokens skipped taken' := by
  have hattempts := h.attempts
  refine ⟨⟨h.skips, ?_, ?_, ?_, by omega⟩, h.takes taken' hlt, h.room taken' hlt, by omega⟩
  · exact fun j hj => h.takes j (hj.trans hlt)
  · exact fun j hj => h.decodes j (hj.trans hlt)
  · exact fun j hj => h.room j (hj.trans hlt)

theorem Takes.of_le (h : s.Takes lib maxTokens skipped taken) (hle : taken' ≤ taken) :
    s.Takes lib maxTokens skipped taken' := by
  obtain rfl | hlt := Nat.eq_or_lt_of_le hle
  · exact h
  · exact h.toComes.takes_of_lt hlt

theorem pieces_decode (batch : List Token) : (s.decode lib batch).2.pieces = s.pieces := by
  unfold decode
  split
  · rfl
  · split <;> rfl

theorem decodes_decode (batch : List Token) :
    (s.decode lib batch).2.decodes = s.decodes ++ [(batch, (s.decode lib batch).1)] := by
  unfold decode
  split
  · rfl
  · split <;> rfl

theorem pieces_take : (s.take lib).2.pieces = s.pieces ++ s.pieceText lib := by
  rw [take, pieces_decode, emit, pieceText]
  split
  · exact (List.append_nil _).symm
  · rfl

theorem decodes_take :
    (s.take lib).2.decodes = s.decodes ++ [([s.token lib], s.status lib)] := by
  have hemit : ((s.sampled lib).emit (lib.piece (s.token lib))).decodes = s.decodes := by
    unfold emit
    split <;> rfl
  rw [take, decodes_decode, hemit]
  rfl

/-- What the tokens taken so far have emitted. -/
theorem pieces_after (skipped taken : ℕ) :
    (s.after lib skipped taken).pieces =
      s.pieces ++ (List.range taken).flatMap fun j => (s.after lib skipped j).pieceText lib := by
  induction taken with
  | zero =>
      rw [List.range_zero, List.flatMap_nil, List.append_nil]
      induction skipped with
      | zero => rfl
      | succ skipped ih => rw [after_skip, ← ih, sampled]
  | succ taken ih =>
      rw [after_take, pieces_take, ih, List.range_succ, List.flatMap_append, List.append_assoc,
        List.flatMap_singleton]

/-- The batches that the tokens taken so far were decoded in. -/
theorem decodes_after (skipped taken : ℕ) :
    (s.after lib skipped taken).decodes = s.decodes ++ (List.range taken).map fun j =>
      ([(s.after lib skipped j).token lib], (s.after lib skipped j).status lib) := by
  induction taken with
  | zero =>
      rw [List.range_zero, List.map_nil, List.append_nil]
      induction skipped with
      | zero => rfl
      | succ skipped ih => rw [after_skip, ← ih, sampled]
  | succ taken ih =>
      rw [after_take, decodes_take, ih, List.range_succ, List.map_append, List.append_assoc,
        List.map_singleton]

/-- How the loop ends: it has no room or no attempt left, the generation ends, or a token is not
decoded. -/
inductive Ended (lib : Llama σ) (s : Session σ) (maxTokens : ℤ) (skipped taken : ℕ) :
    ℕ → Session σ → Prop
  | full (h : ¬ ((taken : ℤ) < maxTokens ∧ skipped + taken < Llama.attemptLimit maxTokens)) :
      Ended lib s maxTokens skipped taken taken (s.after lib skipped taken)
  | ended (h : (s.after lib skipped taken).ends lib = true) (hpos : 0 < taken) :
      Ended lib s maxTokens skipped taken taken ((s.after lib skipped taken).sampled lib)
  | broken (h : s.Takes lib maxTokens skipped taken)
      (hstatus : (s.after lib skipped taken).status lib ≠ some 0) :
      Ended lib s maxTokens skipped taken (taken + 1) (s.after lib skipped (taken + 1))

section Turns

variable {left generated : ℕ}

theorem decodeLoop_stays (hroom : ¬ (generated : ℤ) < maxTokens) :
    lib.decodeLoop maxTokens (left + 1) generated s = s := by
  rw [Llama.decodeLoop, if_neg hroom]

theorem decodeLoop_skips (hroom : ((0 : ℕ) : ℤ) < maxTokens) (hends : s.ends lib = true) :
    lib.decodeLoop maxTokens (left + 1) 0 s = lib.decodeLoop maxTokens left 0 (s.sampled lib) := by
  rw [ends] at hends
  rw [Llama.decodeLoop, if_pos hroom]
  dsimp only
  rw [if_pos hends, if_pos rfl]

theorem decodeLoop_ends (hroom : (generated : ℤ) < maxTokens) (hends : s.ends lib = true)
    (hpos : 0 < generated) :
    lib.decodeLoop maxTokens (left + 1) generated s = s.sampled lib := by
  rw [ends] at hends
  rw [Llama.decodeLoop, if_pos hroom]
  dsimp only
  rw [if_pos hends, if_neg hpos.ne']

theorem decodeLoop_takes (hroom : (generated : ℤ) < maxTokens) (hgoes : s.ends lib = false)
    (hstatus : s.status lib = some 0) :
    lib.decodeLoop maxTokens (left + 1) generated s =
      lib.decodeLoop maxTokens left (generated + 1) (s.take lib).2 := by
  rw [ends] at hgoes
  rw [Llama.decodeLoop, if_pos hroom]
  dsimp only
  rw [if_neg (by rw [hgoes]; exact Bool.false_ne_true)]
  have htake : s.take lib = (some 0, (s.take lib).2) := Prod.ext hstatus rfl
  rw [take] at htake
  rw [htake]
  rfl

theorem decodeLoop_breaks (hroom : (generated : ℤ) < maxTokens) (hgoes : s.ends lib = false)
    (hstatus : s.status lib ≠ some 0) :
    lib.decodeLoop maxTokens (left + 1) generated s = (s.take lib).2 := by
  rw [ends] at hgoes
  rw [Llama.decodeLoop, if_pos hroom]
  dsimp only
  rw [if_neg (by rw [hgoes]; exact Bool.false_ne_true)]
  split
  · rename_i t heq
    rw [status, take, heq] at hstatus
    exact absurd rfl hstatus
  · rename_i rc t hne heq
    rw [take, heq]

end Turns

/-- Where the loop ends, by induction on the attempts that are left. -/
theorem ended_decodeLoop (left : ℕ) (h : s.Comes lib maxTokens skipped taken)
    (hleft : skipped + taken + left = Llama.attemptLimit maxTokens) :
    ∃ skipped' taken' all, s.Comes lib maxTokens skipped' taken' ∧
      Ended lib s maxTokens skipped' taken' all
        (lib.decodeLoop maxTokens left taken (s.after lib skipped taken)) := by
  induction left generalizing skipped taken with
  | zero => exact ⟨skipped, taken, taken, h, .full (by omega)⟩
  | succ left ih =>
      by_cases hroom : (taken : ℤ) < maxTokens
      · cases hends : (s.after lib skipped taken).ends lib with
        | true =>
            cases taken with
            | zero =>
                rw [decodeLoop_skips hroom hends, ← after_skip]
                exact ih (h.skip hends (by omega)) (by omega)
            | succ taken =>
                rw [decodeLoop_ends hroom hends (Nat.zero_lt_succ taken)]
                exact ⟨skipped, taken + 1, taken + 1, h, .ended hends (Nat.zero_lt_succ taken)⟩
        | false =>
            have htakes : s.Takes lib maxTokens skipped taken := ⟨h, hends, hroom, by omega⟩
            by_cases hstatus : (s.after lib skipped taken).status lib = some 0
            · rw [decodeLoop_takes hroom hends hstatus, ← after_take]
              exact ih (htakes.next hstatus) (by omega)
            · rw [decodeLoop_breaks hroom hends hstatus, ← after_take]
              exact ⟨skipped, taken, taken + 1, h, .broken htakes hstatus⟩
      · rw [decodeLoop_stays hroom]
        exact ⟨skipped, taken, taken, h, .full fun hfull => hroom hfull.1⟩

/-- The loop that ends has skipped as many tokens as any token that is taken comes behind. -/
theorem Ended.skipped_eq {all : ℕ} {t : Session σ} (h : s.Comes lib maxTokens skipped taken)
    (hended : Ended lib s maxTokens skipped taken all t)
    (htakes : s.Takes lib maxTokens skipped' taken') : skipped' = skipped := by
  apply Nat.le_antisymm
  · by_cases hpos : 0 < taken
    · exact htakes.toComes.skipped_le (h.takes_of_lt hpos).first
    · cases hended with
      | full hfull =>
          by_contra hlt
          have hroom := htakes.hasRoom
          have hattempt := htakes.hasAttempt
          omega
      | ended hends hpos' => exact absurd hpos' hpos
      | broken hlast hstatus => exact htakes.toComes.skipped_le hlast.first
  · exact h.skipped_le htakes.first

/-- The tokens that the loop takes are the first ones after those it has skipped. -/
theorem Ended.takes_iff {all : ℕ} {t : Session σ} (h : s.Comes lib maxTokens skipped taken)
    (hended : Ended lib s maxTokens skipped taken all t) :
    s.Takes lib maxTokens skipped' taken' ↔ skipped' = skipped ∧ taken' < all := by
  constructor
  · intro htakes
    obtain rfl := hended.skipped_eq h htakes
    refine ⟨rfl, ?_⟩
    by_contra hle
    cases hended with
    | full hfull =>
        have hnext := htakes.of_le (Nat.not_lt.mp hle)
        exact hfull ⟨hnext.hasRoom, hnext.hasAttempt⟩
    | ended hends hpos =>
        have hnext := htakes.of_le (Nat.not_lt.mp hle)
        rw [hnext.goesOn] at hends
        cases hends
    | broken hlast hstatus => exact hstatus (htakes.decodes taken (Nat.not_lt.mp hle))
  · rintro ⟨rfl, hlt⟩
    cases hended with
    | full hfull => exact h.takes_of_lt hlt
    | ended hends hpos => exact h.takes_of_lt hlt
    | broken hlast hstatus => exact hlast.of_le (Nat.le_of_lt_succ hlt)

/-- What the loop comes to: it takes so many tokens, emits their pieces and decodes them one by
one. -/
theorem decodeLoop_spec (lib : Llama σ) (maxTokens : ℤ) (s : Session σ) :
    ∃ skipped all,
      (∀ skipped' taken, s.Takes lib maxTokens skipped' taken ↔ skipped' = skipped ∧ taken < all) ∧
      (lib.runDecodeLoop maxTokens s).pieces = (s.after lib skipped all).pieces ∧
      (lib.runDecodeLoop maxTokens s).decodes = (s.after lib skipped all).decodes := by
  have hstart : s.Comes lib maxTokens 0 0 := by
    refine ⟨?_, ?_, ?_, ?_, Nat.zero_le _⟩
    all_goals exact fun i hi => absurd hi (Nat.not_lt_zero i)
  obtain ⟨skipped, taken, all, hcomes, hended⟩ :=
    ended_decodeLoop (Llama.attemptLimit maxTokens) hstart (Nat.zero_add _)
  refine ⟨skipped, all, fun skipped' taken' => hended.takes_iff hcomes, ?_⟩
  rw [after_zero] at hended
  rw [Llama.runDecodeLoop]
  generalize lib.decodeLoop maxTokens (Llama.attemptLimit maxTokens) 0 s = t at hended ⊢
  cases hended with
  | full hfull => exact ⟨rfl, rfl⟩
  | ended hends hpos => exact ⟨rfl, rfl⟩
  | broken hlast hstatus => exact ⟨rfl, rfl⟩

/-- A batch of the loop is that of a token it takes. -/
theorem mem_decodes_runDecodeLoop {batch : List Token} {rc : Option ℤ} :
    (batch, rc) ∈ (lib.runDecodeLoop maxTokens s).decodes ↔
      (batch, rc) ∈ s.decodes ∨ ∃ skipped taken, s.Takes lib maxTokens skipped taken ∧
        batch = [(s.after lib skipped taken).token lib] ∧
        (s.after lib skipped taken).status lib = rc := by
  obtain ⟨skipped, all, htakes, -, hdecodes⟩ := decodeLoop_spec lib maxTokens s
  rw [hdecodes, decodes_after, List.mem_append]
  refine or_congr_right ?_
  simp only [List.mem_map, List.mem_range, Prod.mk.injEq, htakes]
  constructor
  · rintro ⟨taken, hlt, rfl, hrc⟩
    exact ⟨skipped, taken, ⟨rfl, hlt⟩, rfl, hrc⟩
  · rintro ⟨_, taken, ⟨rfl, hlt⟩, rfl, hrc⟩
    exact ⟨taken, hlt, rfl, hrc⟩

/-- The loop emits something exactly when a token that it takes has a piece. -/
theorem pieces_runDecodeLoop_iff (hs : s.pieces = []) :
    (lib.runDecodeLoop maxTokens s).pieces ≠ [] ↔
      ∃ skipped taken, s.Takes lib maxTokens skipped taken ∧
        lib.piece ((s.after lib skipped taken).token lib) ≠ "" := by
  obtain ⟨skipped, all, htakes, hpieces, -⟩ := decodeLoop_spec lib maxTokens s
  rw [hpieces, pieces_after, hs, List.nil_append]
  simp only [ne_eq, List.flatMap_eq_nil_iff, List.mem_range, htakes, pieceText]
  constructor
  · intro hne
    push Not at hne
    obtain ⟨taken, hlt, hpiece⟩ := hne
    refine ⟨skipped, taken, ⟨rfl, hlt⟩, ?_⟩
    intro hempty
    rw [hempty] at hpiece
    exact hpiece rfl
  · rintro ⟨_, taken, ⟨rfl, hlt⟩, hpiece⟩ hnone
    have hthis := hnone taken hlt
    rw [if_neg (by simpa using hpiece)] at hthis
    cases hthis

/-- Every piece that the loop emits has a character. -/
theorem mem_pieces_runDecodeLoop (hs : s.pieces = []) {piece : String}
    (h : piece ∈ (lib.runDecodeLoop maxTokens s).pieces) : piece ≠ "" := by
  obtain ⟨skipped, all, -, hpieces, -⟩ := decodeLoop_spec lib maxTokens s
  rw [hpieces, pieces_after, hs, List.nil_append] at h
  obtain ⟨j, -, hj⟩ := List.mem_flatMap.mp h
  unfold pieceText at hj
  split at hj
  · cases hj
  · rename_i hne
    obtain rfl := List.mem_singleton.mp hj
    simpa using hne

end Session

end ServeInfer.InferenceWorker
