import ServeInfer.Supervisor.CrashLog

/-!
# Whose crashes count

The last minute of the crash log is counted line by line with three searches. The one for
the worker's id has no end: it is satisfied by every id that goes on with more digits. Lines
that are dated ahead of the clock count as well.
-/

namespace ServeInfer.Supervisor

/-- What one call of `writeCrashLog` puts down. -/
structure CrashEntry where
  ts : ℕ
  pid : ℕ
  type : ProcessType
  workerId : ℤ
  status : ℕ
  deriving DecidableEq, Repr

namespace CrashEntry

def line (e : CrashEntry) : List Char := crashLine e.ts e.pid e.type e.workerId e.status

/-- A crash of this very process. -/
def IsOf (type : ProcessType) (workerId : ℤ) (e : CrashEntry) : Prop :=
  e.type = type ∧ (type = .worker → e.workerId = workerId)

instance (type : ProcessType) (workerId : ℤ) : DecidablePred (IsOf type workerId) :=
  fun _ => inferInstanceAs (Decidable (_ ∧ _))

/-- A crash of a process whose id, for a worker, begins with the same digits. -/
def LooksLike (type : ProcessType) (workerId : ℤ) (e : CrashEntry) : Prop :=
  e.type = type ∧ (type = .worker → Text.decimal workerId <+: Text.decimal e.workerId)

instance (type : ProcessType) (workerId : ℤ) : DecidablePred (LooksLike type workerId) :=
  fun _ => inferInstanceAs (Decidable (_ ∧ _))

/-- A process looks like itself. -/
theorem IsOf.looksLike {type : ProcessType} {workerId : ℤ} {e : CrashEntry}
    (h : e.IsOf type workerId) : e.LooksLike type workerId :=
  ⟨h.1, fun htype => h.2 htype ▸ List.prefix_rfl⟩

end CrashEntry

section Search

variable {β : Type} {p : List Char → Option β} {x rest name key : List Char} {c : Char}

/-- A name between quotes, and the character behind it. -/
def named (name : List Char) (c : Char) (rest : List Char) : List Char :=
  '"' :: (name ++ '"' :: c :: rest)

/-- The pattern begins with the key between quotes. -/
def Keyed (key : List Char) (p : List Char → Option β) : Prop :=
  ∀ s, ¬ ('"' :: (key ++ ['"'])) <+: s → p s = none

theorem keyed_matchKey (key : String) : Keyed key.toList (matchKey key) := by
  intro s hs
  unfold matchKey
  dsimp only
  rw [if_neg]
  rwa [List.isPrefixOf_iff_prefix]

theorem keyed_matchNumber (key : String) : Keyed key.toList (matchNumber key) := by
  intro s hs
  rw [matchNumber, keyed_matchKey key s hs]
  rfl

theorem keyed_matchField (key : String) (value : List Char) :
    Keyed key.toList (matchField key value) := by
  intro s hs
  rw [matchField, keyed_matchKey key s hs]
  rfl

theorem regexSearch_cons_of_none (h : p (c :: rest) = none) :
    regexSearch p (c :: rest) = regexSearch p rest := by
  rw [regexSearch, h]
  rfl

theorem regexSearch_cons_of_some {b : β} (h : p (c :: rest) = some b) :
    regexSearch p (c :: rest) = some b := by
  rw [regexSearch, h]
  rfl

/-- A text without quotes is passed over. -/
theorem regexSearch_plain (hp : Keyed key p) (hx : '"' ∉ x) (rest : List Char) :
    regexSearch p (x ++ rest) = regexSearch p rest := by
  induction x with
  | nil => rfl
  | cons c x ih =>
      rw [List.mem_cons, not_or] at hx
      rw [List.cons_append, regexSearch_cons_of_none, ih hx.2]
      apply hp
      rw [List.cons_prefix_cons]
      exact fun h => hx.1 h.1

/-- What ends at the same quote is the same. -/
theorem eq_of_quoted_start (hkey : '"' ∉ key) (hname : '"' ∉ name)
    (h : key ++ ['"'] <+: name ++ '"' :: rest) : key = name := by
  obtain ⟨more, hmore⟩ := h
  have htake := congrArg (List.takeWhile fun d => d ≠ '"') hmore
  have hplain : ∀ x : List Char, '"' ∉ x → ∀ d ∈ x, (decide (d ≠ '"')) = true := by
    intro x hx d hd
    rw [decide_eq_true_eq]
    rintro rfl
    exact hx hd
  rw [List.append_assoc, List.takeWhile_append_of_pos (hplain key hkey),
    List.takeWhile_append_of_pos (hplain name hname)] at htake
  simpa using htake

/-- What has no comma comes before the first one. -/
theorem prefix_before_comma {y : List Char} (hx : ',' ∉ x) :
    x <+: y ++ ',' :: rest ↔ x <+: y := by
  constructor
  · intro h
    by_cases hlen : x.length ≤ y.length
    · exact List.prefix_of_prefix_length_le h (List.prefix_append y _) hlen
    · have hcomma : y ++ [','] <+: y ++ ',' :: rest := ⟨rest, by simp⟩
      have hinside := List.prefix_of_prefix_length_le hcomma h (by simp; omega)
      exact absurd (hinside.subset (by simp)) hx
  · exact fun h => h.trans (List.prefix_append y _)

/-- The key between quotes is no other name between quotes. -/
theorem Keyed.other (hp : Keyed key p) (hkey : '"' ∉ key) (hname : '"' ∉ name) (hne : key ≠ name)
    (c : Char) (rest : List Char) : p (named name c rest) = none := by
  apply hp
  rw [named, List.cons_prefix_cons]
  exact fun h => hne (eq_of_quoted_start hkey hname h.2)

/-- A name is passed over where the pattern does not match. -/
theorem regexSearch_named (hp : Keyed key p) (hname : '"' ∉ name) (hc : c ≠ '"')
    (hhead : key.head? ≠ some c) (hfail : p (named name c rest) = none) :
    regexSearch p (named name c rest) = regexSearch p rest := by
  have hclose : p ('"' :: c :: rest) = none := by
    apply hp
    cases key with
    | nil => simp [hc.symm]
    | cons d key =>
        have hne : d ≠ c := fun h => hhead (congrArg some h)
        simp [hne]
  have hlast : p (c :: rest) = none := by
    apply hp
    rw [List.cons_prefix_cons]
    exact fun h => hc h.1.symm
  rw [named, regexSearch_cons_of_none hfail, regexSearch_plain hp hname,
    regexSearch_cons_of_none hclose, regexSearch_cons_of_none hlast]

/-- A member with another name and without quotes in its value is passed over. -/
theorem regexSearch_member (hp : Keyed key p) (hkey : '"' ∉ key) (hname : '"' ∉ name)
    (hne : key ≠ name) (hhead : key.head? ≠ some ':') (hx : '"' ∉ x) (rest : List Char) :
    regexSearch p (named name ':' (x ++ ',' :: rest)) = regexSearch p rest := by
  have hcomma : '"' ∉ [','] := by decide
  rw [regexSearch_named hp hname (by decide) hhead (hp.other hkey hname hne _ _),
    regexSearch_plain hp hx]
  exact regexSearch_plain hp hcomma rest

end Search

section Line

variable (e : CrashEntry)

/-- The reason of the line. -/
def CrashEntry.reason : List Char := jsonEscape (statusToReason e.status)

/-- The line, member by member. -/
theorem CrashEntry.line_eq : e.line =
    '{' :: named "ts".toList ':' (Text.decimal e.ts ++ ',' :: named "pid".toList ':'
      (Text.decimal e.pid ++ ',' :: named "type".toList ':' (named e.type.toText ','
        (named "workerId".toList ':' (Text.decimal e.workerId ++ ',' :: named "status".toList ':'
          (Text.decimal e.status ++ ',' :: named "reason".toList ':'
            (named e.reason '}' []))))))) := by
  have hts : "\x7b\"ts\":".toList = '{' :: '"' :: ("ts".toList ++ ['"', ':']) := by decide
  have hpid : ",\"pid\":".toList = ',' :: '"' :: ("pid".toList ++ ['"', ':']) := by decide
  have htype : ",\"type\":\"".toList = ',' :: '"' :: ("type".toList ++ ['"', ':', '"']) := by
    decide
  have hworkerId : "\",\"workerId\":".toList =
      '"' :: ',' :: '"' :: ("workerId".toList ++ ['"', ':']) := by decide
  have hstatus : ",\"status\":".toList = ',' :: '"' :: ("status".toList ++ ['"', ':']) := by
    decide
  have hreason : ",\"reason\":\"".toList = ',' :: '"' :: ("reason".toList ++ ['"', ':', '"']) := by
    decide
  have hclose : "\"\x7d".toList = ['"', '}'] := by decide
  unfold line crashLine
  simp only [hts, hpid, htype, hworkerId, hstatus, hreason, hclose, named, CrashEntry.reason,
    List.append_assoc, List.cons_append, List.nil_append]

theorem CrashEntry.exists_reason : ∃ front, (front = "exit_".toList ∨ front = "signal_".toList) ∧
    ∃ n : ℤ, e.reason = front ++ Text.decimal n := by
  have hescape : ∀ (front : List Char) (n : ℤ), jsonEscape front = front →
      jsonEscape (front ++ Text.decimal n) = front ++ Text.decimal n := by
    intro front n hfront
    have hdigits : jsonEscape (Text.decimal n) = Text.decimal n := by
      unfold jsonEscape
      rw [List.flatMap_congr (g := fun c => [c]), List.flatMap_singleton']
      intro c hc
      obtain rfl | hdigit := Text.mem_decimal hc
      · rfl
      · split
        iterate 5 exact absurd hdigit (by decide)
        rfl
    rw [jsonEscape, List.flatMap_append]
    exact congrArg₂ (· ++ ·) hfront hdigits
  unfold reason statusToReason
  split
  · exact ⟨_, .inl rfl, _, hescape _ _ (by decide)⟩
  · exact ⟨_, .inr rfl, _, hescape _ _ (by decide)⟩

theorem CrashEntry.quote_notMem_reason : '"' ∉ e.reason := by
  obtain ⟨front, hfront, n, hreason⟩ := e.exists_reason
  rw [hreason, List.mem_append, not_or]
  refine ⟨?_, Text.notMem_decimal (by decide) (by decide) n⟩
  obtain rfl | rfl := hfront
  · decide
  · decide

theorem CrashEntry.ne_reason {key : List Char} (hexit : key.head? ≠ some 'e')
    (hsignal : key.head? ≠ some 's') : key ≠ e.reason := by
  obtain ⟨front, hfront, n, hreason⟩ := e.exists_reason
  rintro rfl
  rw [hreason] at hexit hsignal
  obtain rfl | rfl := hfront
  · exact hexit (by rfl)
  · exact hsignal (by rfl)

variable {type : ProcessType} {workerId minTs : ℤ}

theorem quote_notMem_decimal (n : ℤ) : '"' ∉ Text.decimal n :=
  Text.notMem_decimal (by decide) (by decide) n

theorem quote_notMem_toText (type : ProcessType) : '"' ∉ type.toText := by
  cases type <;> decide

theorem toText_injective : Function.Injective ProcessType.toText := by
  intro type type' h
  cases type <;> cases type' <;> revert h <;> decide

/-- A member is matched by its own key, up to its value. -/
theorem matchKey_named (key : String) {c : Char} (hc : Text.isSpace c = false) (rest : List Char) :
    matchKey key (named key.toList ':' (c :: rest)) = some (c :: rest) := by
  have hprefix : ('"' :: (key.toList ++ ['"'])).isPrefixOf (named key.toList ':' (c :: rest)) =
      true := by
    rw [List.isPrefixOf_iff_prefix]
    exact ⟨':' :: c :: rest, by simp [named]⟩
  have hdrop : (named key.toList ':' (c :: rest)).drop ('"' :: (key.toList ++ ['"'])).length =
      ':' :: c :: rest := by
    simp [named]
  unfold matchKey
  dsimp only
  rw [if_pos hprefix, hdrop, List.dropWhile_cons_of_neg (by decide)]
  exact congrArg some (List.dropWhile_cons_of_neg (by rw [hc]; decide))

theorem exists_decimal_cons (n : ℤ) :
    ∃ c cs, Text.decimal n = c :: cs ∧ Text.isSpace c = false := by
  cases hdecimal : Text.decimal n with
  | nil =>
      unfold Text.decimal at hdecimal
      split at hdecimal
      · cases hdecimal
      · exact absurd hdecimal Nat.toDigits_ne_nil
  | cons c cs =>
      refine ⟨c, cs, rfl, ?_⟩
      obtain rfl | hdigit := Text.mem_decimal (n := n) (hdecimal ▸ List.mem_cons_self)
      · decide
      · exact Text.isSpace_of_isDigit hdigit

/-- The search for the time finds it. -/
theorem regexSearch_ts : regexSearch (matchNumber "ts") e.line = some (e.ts : ℤ) := by
  have hp := keyed_matchNumber "ts"
  have hopen : '"' ∉ ['{'] := by decide
  have hdecimal : Text.decimal e.ts = Nat.toDigits 10 e.ts := by
    rw [Text.decimal, if_neg (by omega), Int.natAbs_natCast]
  have hfound : ∀ rest, matchNumber "ts"
      (named "ts".toList ':' (Text.decimal e.ts ++ ',' :: rest)) = some (e.ts : ℤ) := by
    intro rest
    obtain ⟨c, cs, hcs, hc⟩ := exists_decimal_cons e.ts
    have hread := matchKey_named "ts" hc (cs ++ ',' :: rest)
    rw [← List.cons_append, ← hcs] at hread
    rw [matchNumber, hread, Option.bind_some, hdecimal]
    dsimp only
    rw [Text.takeWhile_digits (by decide), if_neg Nat.toDigits_ne_nil,
      Nat.ofDigitChars_ten_toDigits]
  rw [e.line_eq]
  exact (regexSearch_plain hp hopen _).trans (regexSearch_cons_of_some (hfound _))

/-- Up to the type no other key is found. -/
theorem regexSearch_upToType {β : Type} {p : List Char → Option β} {key : List Char}
    (hp : Keyed key p) (hkey : '"' ∉ key) (hts : key ≠ "ts".toList) (hpid : key ≠ "pid".toList)
    (hhead : key.head? ≠ some ':') :
    regexSearch p e.line = regexSearch p (named "type".toList ':' (named e.type.toText ','
      (named "workerId".toList ':' (Text.decimal e.workerId ++ ',' :: named "status".toList ':'
        (Text.decimal e.status ++ ',' :: named "reason".toList ':'
          (named e.reason '}' [])))))) := by
  have hopen : '"' ∉ ['{'] := by decide
  rw [e.line_eq]
  apply (regexSearch_plain hp hopen _).trans
  apply (regexSearch_member hp hkey (by decide) hts hhead (quote_notMem_decimal _) _).trans
  exact regexSearch_member hp hkey (by decide) hpid hhead (quote_notMem_decimal _) _

/-- Behind the worker's id no other key is found. -/
theorem regexSearch_behindWorkerId {β : Type} {p : List Char → Option β} {key : List Char}
    (hp : Keyed key p) (hkey : '"' ∉ key) (hstatus : key ≠ "status".toList)
    (hreason : key ≠ "reason".toList) (hcolon : key.head? ≠ some ':')
    (hbrace : key.head? ≠ some '}') (hown : key ≠ e.reason) :
    regexSearch p (Text.decimal e.workerId ++ ',' :: named "status".toList ':'
      (Text.decimal e.status ++ ',' :: named "reason".toList ':' (named e.reason '}' []))) =
        none := by
  have hcomma : '"' ∉ [','] := by decide
  have hname : '"' ∉ "reason".toList := by decide
  apply (regexSearch_plain hp (quote_notMem_decimal _) _).trans
  apply (regexSearch_plain hp hcomma _).trans
  apply (regexSearch_member hp hkey (by decide) hstatus hcolon (quote_notMem_decimal _)
    _).trans
  apply (regexSearch_named hp hname (by decide) hcolon (hp.other hkey hname hreason _ _)).trans
  apply (regexSearch_named hp e.quote_notMem_reason (by decide) hbrace
    (hp.other hkey e.quote_notMem_reason hown _ _)).trans
  exact hp [] (by simp)

/-- The search for the type finds this type and no other. -/
theorem regexSearch_type : (regexSearch (matchField "type" ('"' :: (type.toText ++ ['"'])))
    e.line).isSome = true ↔ e.type = type := by
  have hp := keyed_matchField "type" ('"' :: (type.toText ++ ['"']))
  have hkey : '"' ∉ "type".toList := by decide
  have hworkerId : '"' ∉ "workerId".toList := by decide
  have hcolon : "type".toList.head? ≠ some ':' := by decide
  have hread : ∀ rest, matchField "type" ('"' :: (type.toText ++ ['"']))
      (named "type".toList ':' (named e.type.toText ',' rest)) =
        if e.type = type then some () else none := by
    intro rest
    have hkeyRead := matchKey_named "type" (c := '"') (by decide)
      (e.type.toText ++ '"' :: ',' :: rest)
    rw [matchField, named.eq_def e.type.toText, hkeyRead, Option.bind_some]
    apply if_congr _ rfl rfl
    rw [List.isPrefixOf_iff_prefix, List.cons_prefix_cons, and_iff_right rfl]
    constructor
    · intro h
      exact (toText_injective (eq_of_quoted_start (quote_notMem_toText _) (quote_notMem_toText _)
        h)).symm
    · rintro rfl
      exact ⟨',' :: rest, by simp⟩
  rw [regexSearch_upToType e hp hkey (by decide) (by decide) hcolon]
  by_cases htype : e.type = type
  · refine iff_of_true ?_ htype
    rw [named, regexSearch_cons_of_some]
    · rfl
    · exact (hread _).trans (if_pos htype)
  · refine iff_of_false ?_ htype
    have hother : "type".toList ≠ e.type.toText := by cases e.type <;> decide
    have hcomma : "type".toList.head? ≠ some ',' := by decide
    rw [regexSearch_named hp hkey (by decide) hcolon (by rw [hread, if_neg htype]),
      regexSearch_named hp (quote_notMem_toText _) (by decide) hcomma
        (hp.other hkey (quote_notMem_toText _) hother _ _),
      regexSearch_named hp hworkerId (by decide) hcolon
        (hp.other hkey hworkerId (by decide) _ _),
      regexSearch_behindWorkerId e hp hkey (by decide) (by decide) hcolon
        (by decide) (e.ne_reason (by decide) (by decide))]
    exact Bool.false_ne_true

/-- The search for the worker's id is satisfied by every id that begins with it. -/
theorem regexSearch_workerId : (regexSearch (matchField "workerId" (Text.decimal workerId))
    e.line).isSome = true ↔ Text.decimal workerId <+: Text.decimal e.workerId := by
  have hp := keyed_matchField "workerId" (Text.decimal workerId)
  have hkey : '"' ∉ "workerId".toList := by decide
  have htype : '"' ∉ "type".toList := by decide
  have hcolon : "workerId".toList.head? ≠ some ':' := by decide
  have hcomma : "workerId".toList.head? ≠ some ',' := by decide
  have hother : "workerId".toList ≠ e.type.toText := by cases e.type <;> decide
  have hread : ∀ rest, matchField "workerId" (Text.decimal workerId)
      (named "workerId".toList ':' (Text.decimal e.workerId ++ ',' :: rest)) =
        if Text.decimal workerId <+: Text.decimal e.workerId then some () else none := by
    intro rest
    obtain ⟨c, cs, hcs, hc⟩ := exists_decimal_cons e.workerId
    have hkeyRead := matchKey_named "workerId" hc (cs ++ ',' :: rest)
    rw [← List.cons_append, ← hcs] at hkeyRead
    rw [matchField, hkeyRead, Option.bind_some]
    apply if_congr _ rfl rfl
    rw [List.isPrefixOf_iff_prefix]
    exact prefix_before_comma (Text.notMem_decimal (by decide) (by decide) _)
  rw [regexSearch_upToType e hp hkey (by decide) (by decide) hcolon,
    regexSearch_named hp htype (by decide) hcolon
      (hp.other hkey htype (by decide) _ _),
    regexSearch_named hp (quote_notMem_toText _) (by decide) hcomma
      (hp.other hkey (quote_notMem_toText _) hother _ _)]
  by_cases hid : Text.decimal workerId <+: Text.decimal e.workerId
  · refine iff_of_true ?_ hid
    rw [named, regexSearch_cons_of_some]
    · rfl
    · exact (hread _).trans (if_pos hid)
  · refine iff_of_false ?_ hid
    rw [regexSearch_named hp hkey (by decide) hcolon (by rw [hread, if_neg hid]),
      regexSearch_behindWorkerId e hp hkey (by decide) (by decide) hcolon
        (by decide) (e.ne_reason (by decide) (by decide))]
    exact Bool.false_ne_true

/-- A line counts against the processes that its own looks like, from the last minute on. -/
theorem countsAgainst_line : countsAgainst type workerId minTs e.line = true ↔
    minTs ≤ e.ts ∧ e.LooksLike type workerId := by
  unfold countsAgainst
  rw [regexSearch_ts]
  simp only [Bool.and_eq_true, Bool.or_eq_true, decide_eq_true_eq, regexSearch_type,
    regexSearch_workerId, CrashEntry.LooksLike]
  rw [and_assoc, Decidable.imp_iff_not_or]

end Line

section Breaker

variable {type : ProcessType} {workerId now : ℤ} {log : List CrashEntry}

/-- How many crashes of this very process the log has from the last minute. -/
def ownCrashes (type : ProcessType) (workerId now : ℤ) (log : List CrashEntry) : ℕ :=
  log.countP fun e => e.IsOf type workerId ∧ now - 60 ≤ e.ts ∧ e.ts ≤ now

/-- How many it has that are dated ahead of the clock. -/
def crashesAhead (type : ProcessType) (workerId now : ℤ) (log : List CrashEntry) : ℕ :=
  log.countP fun e => e.IsOf type workerId ∧ now < e.ts

/-- The breaker opens for the third crash of the process within a minute, and no crash of another
worker counts. -/
structure BreakerIsolated (type : ProcessType) (workerId now : ℤ) (log : List CrashEntry) :
    Prop where
  opens : crashLimitOpenFromDisk (log.map CrashEntry.line) type workerId now = true ↔
    3 ≤ ownCrashes type workerId now log
  apart : ∀ e ∈ log, type = .worker → e.workerId ≠ workerId →
    countsAgainst type workerId (now - 60) e.line = false

/-- No worker whose id only begins with the same digits has crashed since. -/
def NoLookalike (type : ProcessType) (workerId now : ℤ) (log : List CrashEntry) : Prop :=
  ∀ e ∈ log, now - 60 ≤ e.ts → e.LooksLike type workerId → e.IsOf type workerId

theorem apart_iff : (∀ e ∈ log, type = .worker → e.workerId ≠ workerId →
      countsAgainst type workerId (now - 60) e.line = false) ↔
    NoLookalike type workerId now log := by
  refine forall₂_congr fun e he => ?_
  constructor
  · intro h hts hlooks
    refine ⟨hlooks.1, fun htype => ?_⟩
    by_contra hne
    have hcounts := (countsAgainst_line e).mpr ⟨hts, hlooks⟩
    rw [h htype hne] at hcounts
    cases hcounts
  · intro h htype hne
    rw [← Bool.not_eq_true, countsAgainst_line]
    exact fun hcounts => hne ((h hcounts.1 hcounts.2).2 htype)

/-- Without a lookalike the breaker counts the process's own crashes, those ahead of the clock among
them. -/
theorem countP_countsAgainst (h : NoLookalike type workerId now log) :
    (log.map CrashEntry.line).countP (countsAgainst type workerId (now - 60)) =
      ownCrashes type workerId now log + crashesAhead type workerId now log := by
  rw [List.countP_map]
  induction log with
  | nil => rfl
  | cons e log ih =>
      obtain ⟨he, hlog⟩ := List.forall_mem_cons.mp h
      have hcounts : countsAgainst type workerId (now - 60) e.line = true ↔
          e.IsOf type workerId ∧ now - 60 ≤ e.ts := by
        rw [countsAgainst_line]
        exact ⟨fun hc => ⟨he hc.1 hc.2, hc.1⟩, fun hc => ⟨hc.2, hc.1.looksLike⟩⟩
      specialize ih hlog
      unfold ownCrashes crashesAhead at ih ⊢
      simp only [List.countP_cons, Function.comp_apply, hcounts, decide_eq_true_eq, ih]
      by_cases hof : e.IsOf type workerId
      · simp only [hof, true_and]
        split_ifs <;> omega
      · simp only [hof, false_and, if_false]
        omega

/-- A process is judged by its own crashes of the last minute exactly when the log has no crash of a
lookalike and those dated ahead of the clock do not make up the third. -/
theorem breaker_isolated_iff (type : ProcessType) (workerId now : ℤ) (log : List CrashEntry) :
    BreakerIsolated type workerId now log ↔
      NoLookalike type workerId now log ∧
        (3 ≤ ownCrashes type workerId now log ∨
          ownCrashes type workerId now log + crashesAhead type workerId now log < 3) := by
  have hopens : NoLookalike type workerId now log →
      (crashLimitOpenFromDisk (log.map CrashEntry.line) type workerId now = true ↔
        3 ≤ ownCrashes type workerId now log + crashesAhead type workerId now log) := by
    intro h
    rw [crashLimitOpenFromDisk, decide_eq_true_eq, countP_countsAgainst h]
  constructor
  · rintro ⟨hiff, hapart⟩
    have hno := apart_iff.mp hapart
    rw [hopens hno] at hiff
    exact ⟨hno, by omega⟩
  · rintro ⟨hno, hahead⟩
    refine ⟨?_, apart_iff.mpr hno⟩
    rw [hopens hno]
    omega

/-- Three crashes of worker 10 open the breaker of worker 1. -/
theorem not_breaker_isolated :
    ¬ BreakerIsolated .worker 1 1000
      [⟨990, 41, .worker, 10, 139⟩, ⟨995, 42, .worker, 10, 139⟩, ⟨1000, 43, .worker, 10, 139⟩] := by
  rintro ⟨hopens, -⟩
  revert hopens
  decide

end Breaker

end ServeInfer.Supervisor
