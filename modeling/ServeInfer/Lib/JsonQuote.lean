import ServeInfer.Lib.Json
import ServeInfer.Lib.Utf16

/-!
# Writing a string as JSON

`JSON.stringify` of a string, and the bytes that it is written as. A quote or a
backslash of the text is only ever written behind a backslash.
-/

open Utf8 (CodeUnit points toBytes encodePoint encodeChar pointBytes unit)

namespace Json

def hexUnit (d : ℕ) : CodeUnit := if d < 10 then .ofNat (0x30 + d) else .ofNat (0x57 + d)

/-- `UnicodeEscape`. -/
def unicodeEscape (n : ℕ) : List CodeUnit :=
  units "\\u" ++
    [hexUnit (n / 0x1000 % 0x10), hexUnit (n / 0x100 % 0x10), hexUnit (n / 0x10 % 0x10),
      hexUnit (n % 0x10)]

/-- A turn of `QuoteJSONString`'s loop. -/
def quotePoint (n : ℕ) : List CodeUnit :=
  if n = 0x08 then units "\\b"
  else if n = 0x09 then units "\\t"
  else if n = 0x0A then units "\\n"
  else if n = 0x0C then units "\\f"
  else if n = 0x0D then units "\\r"
  else if n = 0x22 then units "\\\""
  else if n = 0x5C then units "\\\\"
  else if n < 0x20 ∨ 0xD800 ≤ n ∧ n ≤ 0xDFFF then unicodeEscape n
  else encodePoint n

/-- `QuoteJSONString`. -/
def quoteJSONString (s : List CodeUnit) : List CodeUnit :=
  [quote] ++ (points s).flatMap quotePoint ++ [quote]

/-- The bytes of one point of a string's inside. -/
def pointText (n : ℕ) : List UInt8 := toBytes (quotePoint n)

/-- The bytes of a string's inside. -/
def insideText (s : List CodeUnit) : List UInt8 := (points s).flatMap pointText

/-- The inside of a string in bytes: what is neither a quote nor a backslash stands for itself,
and a backslash takes the next byte with it, which is no line break. -/
inductive Inside : List UInt8 → Prop
  | nil : Inside []
  | plain {b : UInt8} {x : List UInt8} (hquote : b ≠ 0x22) (hbackslash : b ≠ 0x5C)
      (h : Inside x) : Inside (b :: x)
  | escaped {b : UInt8} {x : List UInt8} (hbreak : b ≠ 0x0A) (hreturn : b ≠ 0x0D)
      (h : Inside x) : Inside (0x5C :: b :: x)

variable {x y : List UInt8} {s t : List CodeUnit} {n : ℕ}

theorem Inside.append (hx : Inside x) (hy : Inside y) : Inside (x ++ y) := by
  induction hx with
  | nil => exact hy
  | plain hquote hbackslash _ ih => exact .plain hquote hbackslash ih
  | escaped hbreak hreturn _ ih => exact .escaped hbreak hreturn ih

theorem inside_flatMap {f : ℕ → List UInt8} {ns : List ℕ} (h : ∀ n ∈ ns, Inside (f n)) :
    Inside (ns.flatMap f) := by
  induction ns with
  | nil => exact .nil
  | cons n ns ih =>
      rw [List.flatMap_cons]
      apply (h n List.mem_cons_self).append
      exact ih fun m hm => h m (List.mem_cons_of_mem n hm)

/-- Bytes above the quote and the backslash. -/
theorem inside_of_plain (hx : ∀ b ∈ x, b ≠ 0x22 ∧ b ≠ 0x5C) : Inside x := by
  induction x with
  | nil => exact .nil
  | cons b x ih =>
      obtain ⟨hquote, hbackslash⟩ := hx b List.mem_cons_self
      exact .plain hquote hbackslash (ih fun d hd => hx d (List.mem_cons_of_mem b hd))

section Bytes

theorem toBytes_ascii_append (hx : ∀ b ∈ x, b.toNat < 0x80) (s : List CodeUnit) :
    toBytes (x.map unit ++ s) = x ++ toBytes s := by
  induction x with
  | nil => rfl
  | cons b x ih =>
      have hb := hx b List.mem_cons_self
      have hnat : (unit b).toNat = b.toNat := by
        rw [unit, UInt16.toNat_ofNat']
        omega
      have hhigh : Utf8.isHigh (unit b) = false := by
        rw [← Bool.not_eq_true, Utf8.isHigh_iff, hnat]
        omega
      have hall : ∀ n : Fin 0x80, pointBytes n = [.ofNat n] := by decide
      have hbytes : pointBytes b.toNat = [b] := by
        have hn := hall ⟨b.toNat, hb⟩
        rwa [UInt8.ofNat_toNat] at hn
      have hrest := ih fun d hd => hx d (List.mem_cons_of_mem b hd)
      rw [toBytes] at hrest ⊢
      rw [List.map_cons, List.cons_append, Utf8.points_cons hhigh, List.flatMap_cons, hnat, hbytes,
        hrest]
      rfl

theorem toBytes_ascii (hx : ∀ b ∈ x, b.toNat < 0x80) : toBytes (x.map unit) = x := by
  have happend := toBytes_ascii_append hx []
  rw [List.append_nil] at happend
  rw [happend]
  exact List.append_nil x

theorem toBytes_char_append (c : Char) (s : List CodeUnit) :
    toBytes (encodePoint c.toNat ++ s) = encodeChar c ++ toBytes s := by
  rw [toBytes, Utf8.points_encodePoint, List.flatMap_cons, Utf8.pointBytes_toNat]
  rfl

theorem toBytes_char (c : Char) : toBytes (encodePoint c.toNat) = encodeChar c := by
  have happend := toBytes_char_append c []
  rw [List.append_nil] at happend
  rw [happend]
  exact List.append_nil _

def hexByte (d : ℕ) : UInt8 := if d < 10 then .ofNat (0x30 + d) else .ofNat (0x57 + d)

theorem hexByte_digits : ∀ d : Fin 0x10, unit (hexByte d) = hexUnit d ∧
    (hexByte d).toNat < 0x80 ∧ hexByte d ≠ 0x22 ∧ hexByte d ≠ 0x5C := by
  decide

/-- The bytes of an escape by number. -/
def hexText (n : ℕ) : List UInt8 :=
  [0x5C, 0x75, hexByte (n / 0x1000 % 0x10), hexByte (n / 0x100 % 0x10), hexByte (n / 0x10 % 0x10),
    hexByte (n % 0x10)]

/-- An escape in bytes, of a point that `quotePoint` writes as one. -/
def IsEscape (n : ℕ) (x : List UInt8) : Prop :=
  quotePoint n = x.map unit ∧ (∀ b ∈ x, b.toNat < 0x80) ∧ Inside x

theorem hexText_spec (n : ℕ) :
    (hexText n).map unit = unicodeEscape n ∧ (∀ b ∈ hexText n, b.toNat < 0x80) ∧
      Inside (hexText n) := by
  have hdigit : ∀ m : ℕ, unit (hexByte (m % 0x10)) = hexUnit (m % 0x10) ∧
      (hexByte (m % 0x10)).toNat < 0x80 ∧ hexByte (m % 0x10) ≠ 0x22 ∧ hexByte (m % 0x10) ≠ 0x5C :=
    fun m => hexByte_digits ⟨m % 0x10, Nat.mod_lt m (by decide)⟩
  obtain ⟨hunit1, hlt1, hplain1⟩ := hdigit (n / 0x1000)
  obtain ⟨hunit2, hlt2, hplain2⟩ := hdigit (n / 0x100)
  obtain ⟨hunit3, hlt3, hplain3⟩ := hdigit (n / 0x10)
  obtain ⟨hunit4, hlt4, hplain4⟩ := hdigit n
  refine ⟨?_, ?_, ?_⟩
  · simp only [unicodeEscape, hexText, List.map_cons, List.map_nil, hunit1, hunit2, hunit3, hunit4]
    rfl
  · simp only [hexText, List.forall_mem_cons]
    exact ⟨by decide, by decide, hlt1, hlt2, hlt3, hlt4, by simp⟩
  · apply Inside.escaped (by decide) (by decide)
    apply inside_of_plain
    simp only [List.forall_mem_cons]
    exact ⟨hplain1, hplain2, hplain3, hplain4, by simp⟩

/-- What the text of a point can be: an escape, or a character as it is. -/
theorem quotePoint_cases (hn : n < 0x110000) :
    (∃ x, IsEscape n x) ∨
      ∃ c : Char, n = c.toNat ∧ quotePoint n = encodePoint n ∧ n ≠ 0x22 ∧ n ≠ 0x5C ∧ 0x20 ≤ n := by
  unfold IsEscape quotePoint
  split_ifs with hb ht hl hf hr hquote hbackslash hhex
  · exact .inl ⟨[0x5C, 0x62], rfl, by decide, .escaped (by decide) (by decide) .nil⟩
  · exact .inl ⟨[0x5C, 0x74], rfl, by decide, .escaped (by decide) (by decide) .nil⟩
  · exact .inl ⟨[0x5C, 0x6E], rfl, by decide, .escaped (by decide) (by decide) .nil⟩
  · exact .inl ⟨[0x5C, 0x66], rfl, by decide, .escaped (by decide) (by decide) .nil⟩
  · exact .inl ⟨[0x5C, 0x72], rfl, by decide, .escaped (by decide) (by decide) .nil⟩
  · exact .inl ⟨[0x5C, 0x22], rfl, by decide, .escaped (by decide) (by decide) .nil⟩
  · exact .inl ⟨[0x5C, 0x5C], rfl, by decide, .escaped (by decide) (by decide) .nil⟩
  · obtain ⟨hunits, hascii, hinside⟩ := hexText_spec n
    exact .inl ⟨hexText n, hunits.symm, hascii, hinside⟩
  · obtain ⟨hlow, hplain⟩ := not_or.mp hhex
    obtain ⟨c, hc⟩ | hsurrogate := Utf8.char_or_surrogate hn
    · exact .inr ⟨c, hc, rfl, hquote, hbackslash, Nat.not_lt.mp hlow⟩
    · exact absurd hsurrogate hplain

/-- The bytes of a point, whatever comes behind it. -/
theorem toBytes_quotePoint (hn : n < 0x110000) (s : List CodeUnit) :
    toBytes (quotePoint n ++ s) = pointText n ++ toBytes s := by
  obtain ⟨x, hunits, hascii, -⟩ | ⟨c, hc, hunits, -⟩ := quotePoint_cases hn
  · rw [pointText, hunits, toBytes_ascii_append hascii, toBytes_ascii hascii]
  · rw [pointText, hunits, hc, toBytes_char_append, toBytes_char]

theorem inside_pointText (hn : n < 0x110000) : Inside (pointText n) := by
  obtain ⟨x, hunits, hascii, hinside⟩ | ⟨c, hc, hunits, hquote, hbackslash, -⟩ :=
    quotePoint_cases hn
  · rw [pointText, hunits, toBytes_ascii hascii]
    exact hinside
  · rw [pointText, hunits, hc, toBytes_char]
    apply inside_of_plain
    by_cases hlow : c.toNat < 0x80
    · rw [Utf8.encodeChar, if_pos hlow]
      intro b hb
      obtain rfl := List.mem_singleton.mp hb
      constructor
      · rintro heq
        have hnat := congrArg UInt8.toNat heq
        rw [Utf8.toNat_ofNat_lt (by omega)] at hnat
        exact hquote (hc.trans hnat)
      · rintro heq
        have hnat := congrArg UInt8.toNat heq
        rw [Utf8.toNat_ofNat_lt (by omega)] at hnat
        exact hbackslash (hc.trans hnat)
    · intro b hb
      have hle := Utf8.le_encodeChar (Nat.not_lt.mp hlow) b hb
      constructor
      · rintro rfl
        exact absurd hle (by decide)
      · rintro rfl
        exact absurd hle (by decide)

theorem printable_pointText_ascii : ∀ n : Fin 0x80, ∀ b ∈ pointText n, 0x20 ≤ b := by
  decide

theorem printable_hexText (n : ℕ) : ∀ b ∈ hexText n, 0x20 ≤ b := by
  have hall : ∀ d : Fin 0x10, 0x20 ≤ hexByte d := by decide
  have hdigit : ∀ m : ℕ, 0x20 ≤ hexByte (m % 0x10) := fun m =>
    hall ⟨m % 0x10, Nat.mod_lt m (by decide)⟩
  simp only [hexText, List.forall_mem_cons]
  exact ⟨by decide, by decide, hdigit _, hdigit _, hdigit _, hdigit _, by simp⟩

/-- A point is written without control characters. -/
theorem printable_pointText (hn : n < 0x110000) : ∀ b ∈ pointText n, 0x20 ≤ b := by
  by_cases hlow : n < 0x80
  · exact printable_pointText_ascii ⟨n, hlow⟩
  · have hpoint : quotePoint n = if 0xD800 ≤ n ∧ n ≤ 0xDFFF then unicodeEscape n
        else encodePoint n := by
      rw [quotePoint, if_neg (by omega), if_neg (by omega), if_neg (by omega), if_neg (by omega),
        if_neg (by omega), if_neg (by omega), if_neg (by omega)]
      exact if_congr (by omega) rfl rfl
    rw [pointText, hpoint]
    split
    · obtain ⟨hunits, hascii, -⟩ := hexText_spec n
      rw [← hunits, toBytes_ascii hascii]
      exact printable_hexText n
    · rename_i hplain
      obtain ⟨c, rfl⟩ | hsurrogate := Utf8.char_or_surrogate hn
      · rw [toBytes_char]
        intro b hb
        have hhigh := Utf8.le_encodeChar (Nat.not_lt.mp hlow) b hb
        rw [UInt8.le_iff_toNat_le]
        have hspace : (0x20 : UInt8).toNat = 0x20 := rfl
        omega
      · exact absurd hsurrogate hplain

theorem printable_insideText (s : List CodeUnit) : ∀ b ∈ insideText s, 0x20 ≤ b := by
  intro b hb
  obtain ⟨n, hn, hmem⟩ := List.mem_flatMap.mp hb
  exact printable_pointText (Utf8.lt_of_mem_points hn) b hmem

theorem inside_insideText (s : List CodeUnit) : Inside (insideText s) :=
  inside_flatMap fun _ hn => inside_pointText (Utf8.lt_of_mem_points hn)

theorem insideText_utf16 (t : List Char) :
    insideText (Utf8.utf16 t) = t.flatMap fun c => pointText c.toNat := by
  rw [insideText, Utf8.points_utf16, List.flatMap_map]

/-- The bytes of a written string, whatever comes behind it. -/
theorem toBytes_quoteJSONString (s t : List CodeUnit) :
    toBytes (quoteJSONString s ++ t) = [0x22] ++ insideText s ++ [0x22] ++ toBytes t := by
  have hclosing : toBytes ([quote] ++ t) = [0x22] ++ toBytes t :=
    toBytes_ascii_append (x := [0x22]) (by decide) t
  have hinside : ∀ ns : List ℕ, (∀ n ∈ ns, n < 0x110000) →
      toBytes (ns.flatMap quotePoint ++ ([quote] ++ t)) =
        ns.flatMap pointText ++ ([0x22] ++ toBytes t) := by
    intro ns
    induction ns with
    | nil => exact fun _ => hclosing
    | cons n ns ih =>
        intro hns
        rw [List.flatMap_cons, List.append_assoc, toBytes_quotePoint (hns n List.mem_cons_self),
          ih fun m hm => hns m (List.mem_cons_of_mem n hm), List.flatMap_cons, List.append_assoc]
  have hopening : toBytes ([quote] ++ ((points s).flatMap quotePoint ++ ([quote] ++ t))) =
      [0x22] ++ toBytes ((points s).flatMap quotePoint ++ ([quote] ++ t)) :=
    toBytes_ascii_append (x := [0x22]) (by decide) _
  rw [quoteJSONString, List.append_assoc, List.append_assoc, hopening,
    hinside (points s) fun _ => Utf8.lt_of_mem_points, insideText, List.append_assoc,
    List.append_assoc]

end Bytes

end Json
