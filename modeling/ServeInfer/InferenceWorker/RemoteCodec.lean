import ServeInfer.InferenceWorker.RemoteTransport
import ServeInfer.Lib.CInt
import ServeInfer.Lib.JsonStringify

/-!
# The codec of the remote transport

A request comes through the child's `JSON.parse` as it was. A reply comes through the
worker's search and unescaper as it was, in whatever way its characters are escaped;
only its status is a number of the child's, which is written with the digits that tell
it from other numbers.
-/

namespace ServeInfer.InferenceWorker.RemoteTransport

open Json (Inside ReadsInside insideText pointText quotePoint units quoted)
open Utf8 (encode encodeChar encodePoint utf16 decode Valid)

section Request

theorem escapeByte_ascii : ∀ n : Fin 0x80, (∀ b ∈ escapeByte (.ofNat n), b.toNat < 0x80) ∧
    (decode (escapeByte (.ofNat n)) = quotePoint n ∨
      decode (escapeByte (.ofNat n)) = Json.unicodeEscape n) := by
  decide

/-- No control character is left in what is written. -/
theorem le_escapeByte (ch : UInt8) : ∀ b ∈ escapeByte ch, 0x20 ≤ b := by
  have hall : ∀ n : Fin 0x100, ∀ b ∈ escapeByte (.ofNat n), 0x20 ≤ b := by decide +kernel
  have hch := hall ⟨ch.toNat, ch.toNat_lt⟩
  rwa [UInt8.ofNat_toNat] at hch

theorem newline_notMem_jsonEscape (input : Bytes) : (0x0A : UInt8) ∉ jsonEscape input := by
  intro hmem
  obtain ⟨ch, -, hin⟩ := List.mem_flatMap.mp hmem
  exact absurd (le_escapeByte ch _ hin) (by decide)

theorem escapeByte_high {b : UInt8} (hb : 0x80 ≤ b.toNat) : escapeByte b = [b] := by
  have hne : ∀ c : UInt8, c.toNat < 0x80 → b ≠ c := by
    rintro c hc rfl
    omega
  have hcontrol : ¬ b < 0x20 := by
    rw [UInt8.lt_iff_toNat_lt]
    have hspace : (0x20 : UInt8).toNat = 0x20 := rfl
    omega
  rw [escapeByte, if_neg (hne _ (by decide)), if_neg (hne _ (by decide)),
    if_neg (hne _ (by decide)), if_neg (hne _ (by decide)), if_neg (hne _ (by decide)),
    if_neg hcontrol]

/-- The text of a character is read as the character. -/
theorem readsInside_jsonEscape_char (c : Char) :
    Valid (jsonEscape (encodeChar c)) ∧
      ReadsInside (decode (jsonEscape (encodeChar c))) (encodePoint c.toNat) := by
  by_cases hlow : c.toNat < 0x80
  · obtain ⟨hascii, htext⟩ := escapeByte_ascii ⟨c.toNat, hlow⟩
    have hescape : jsonEscape (encodeChar c) = escapeByte (.ofNat c.toNat) := by
      rw [encodeChar, if_pos hlow, jsonEscape, List.flatMap_singleton]
    rw [hescape]
    refine ⟨Utf8.valid_of_ascii hascii, ?_⟩
    rcases htext with hquote | hunicode
    · rw [hquote]
      exact Json.readsInside_quotePoint (by omega)
    · rw [hunicode, encodePoint, if_pos (by omega)]
      exact Json.readsInside_unicodeEscape (by omega)
  · have hhigh := Utf8.le_encodeChar (Nat.not_lt.mp hlow)
    have hescape : jsonEscape (encodeChar c) = encodeChar c := by
      have hall : ∀ x : Bytes, (∀ b ∈ x, 0x80 ≤ b.toNat) → jsonEscape x = x := by
        intro x
        induction x with
        | nil => exact fun _ => rfl
        | cons b x ih =>
            intro hx
            have hrest := ih fun d hd => hx d (List.mem_cons_of_mem b hd)
            rw [jsonEscape] at hrest ⊢
            rw [List.flatMap_cons, hrest, escapeByte_high (hx b List.mem_cons_self)]
            rfl
      exact hall _ hhigh
    have hdecode : decode (encodeChar c) = encodePoint c.toNat := by
      have hchar := Utf8.decode_encode [c]
      rwa [encode, utf16, List.flatMap_singleton, List.flatMap_singleton] at hchar
    have hquote : quotePoint c.toNat = encodePoint c.toNat := by
      have hvalid := Utf8.toNat_valid c
      rw [quotePoint, if_neg (by omega), if_neg (by omega), if_neg (by omega), if_neg (by omega),
        if_neg (by omega), if_neg (by omega), if_neg (by omega), if_neg (by omega)]
    rw [hescape, hdecode]
    have hread := Json.readsInside_quotePoint (n := c.toNat) (by
      have hvalid := Utf8.toNat_valid c
      omega)
    rw [hquote] at hread
    exact ⟨⟨[c], by rw [encode, List.flatMap_singleton]⟩, hread⟩

theorem readsInside_jsonEscape (t : List Char) :
    Valid (jsonEscape (encode t)) ∧ ReadsInside (decode (jsonEscape (encode t))) (utf16 t) := by
  induction t with
  | nil => exact ⟨.nil, Json.readsInside_nil⟩
  | cons c t ih =>
      obtain ⟨hvalid, hread⟩ := readsInside_jsonEscape_char c
      have hsplit : jsonEscape (encode (c :: t)) =
          jsonEscape (encodeChar c) ++ jsonEscape (encode t) := by
        rw [encode, List.flatMap_cons, jsonEscape, List.flatMap_append]
        rfl
      rw [hsplit, hvalid.decode_append, utf16, List.flatMap_cons]
      exact ⟨hvalid.append ih.1, hread.append ih.2⟩

theorem decode_bytes {s : String} (h : (bytes s).map Utf8.unit = units s)
    (hascii : ∀ b ∈ bytes s, b.toNat < 0x80) (rest : Bytes) :
    decode (bytes s ++ rest) = units s ++ decode rest := by
  rw [Utf8.decode_append_ascii hascii, h]

/-- The request in code units. -/
theorem decode_request (prompt endpoint : List Char) :
    decode (buildRemoteRequestJson (encode prompt) (encode endpoint)) =
      Json.objectText [(units "prompt", quoted (decode (jsonEscape (encode prompt)))),
        (units "endpoint", quoted (decode (jsonEscape (encode endpoint))))] ++ [0x0A] := by
  have hopening : units "\x7b\"prompt\":\"" = 0x7B :: Json.quote ::
      (units "prompt" ++ [Json.quote, 0x3A, Json.quote]) := by decide
  have hmiddle : units "\",\"endpoint\":\"" = Json.quote :: 0x2C :: Json.quote ::
      (units "endpoint" ++ [Json.quote, 0x3A, Json.quote]) := by decide
  have hclosing : decode (bytes "\"\x7d\n") = [Json.quote, 0x7D, 0x0A] := by decide
  rw [buildRemoteRequestJson, List.append_assoc, List.append_assoc, List.append_assoc,
    decode_bytes (by decide) (by decide),
    (readsInside_jsonEscape prompt).1.decode_append,
    decode_bytes (by decide) (by decide),
    (readsInside_jsonEscape endpoint).1.decode_append, hopening, hmiddle, hclosing]
  simp [Json.objectText, Json.membersText, Json.memberText, quoted]

/-- The child reads the request as it was made. -/
theorem parse_request (prompt endpoint : List Char) :
    Json.parse (decode (buildRemoteRequestJson (encode prompt) (encode endpoint))) =
      some (.obj [(units "prompt", .str (utf16 prompt)),
        (units "endpoint", .str (utf16 endpoint))]) := by
  have hmembers : List.Forall₂ Json.ReadsMember
      [(units "prompt", quoted (decode (jsonEscape (encode prompt)))),
        (units "endpoint", quoted (decode (jsonEscape (encode endpoint))))]
      [(units "prompt", .str (utf16 prompt)), (units "endpoint", .str (utf16 endpoint))] := by
    have hprompt : ∀ c ∈ units "prompt", Json.Plain c := by decide
    have hendpoint : ∀ c ∈ units "endpoint", Json.Plain c := by decide
    refine .cons ⟨rfl, hprompt, ?_⟩ (.cons ⟨rfl, hendpoint, ?_⟩ .nil)
    · exact Json.reads_quoted (readsInside_jsonEscape prompt).2
    · exact Json.reads_quoted (readsInside_jsonEscape endpoint).2
  rw [decode_request, Json.parse_objectText_space hmembers (by simp) (by decide)]

/-- The request is one line. -/
theorem exists_request_line (prompt endpoint : Bytes) :
    ∃ line, buildRemoteRequestJson prompt endpoint = line ++ [0x0A] ∧ (0x0A : UInt8) ∉ line := by
  have hclosing : bytes "\"\x7d\n" = [0x22, 0x7D] ++ [0x0A] := by decide
  refine ⟨_, by rw [buildRemoteRequestJson, hclosing, ← List.append_assoc], ?_⟩
  simp only [List.mem_append, not_or]
  refine ⟨⟨⟨⟨?_, newline_notMem_jsonEscape prompt⟩, ?_⟩, newline_notMem_jsonEscape endpoint⟩, ?_⟩
  · decide
  · decide
  · decide

end Request

section Spelling

/-- The bytes that may stand for a character in a JSON string. -/
inductive Spells : Char → Bytes → Prop
  | plain {c : Char} (hcontrol : 0x20 ≤ c.toNat) (hquote : c.toNat ≠ 0x22)
      (hbackslash : c.toNat ≠ 0x5C) : Spells c (encodeChar c)
  | short {c : Char} {e : UInt8}
      (he : e ∈ ([0x22, 0x5C, 0x2F, 0x62, 0x66, 0x6E, 0x72, 0x74] : Bytes))
      (hc : c.toNat = (unescapedByte e).toNat) : Spells c [0x5C, e]
  | unit {c : Char} {h₁ h₂ h₃ h₄ : UInt8} (hread : readHex4 h₁ h₂ h₃ h₄ = some c.toNat) :
      Spells c [0x5C, 0x75, h₁, h₂, h₃, h₄]
  | pair {c : Char} {h₁ h₂ h₃ h₄ l₁ l₂ l₃ l₄ : UInt8} {high low : ℕ}
      (hhigh : readHex4 h₁ h₂ h₃ h₄ = some high) (hlow : readHex4 l₁ l₂ l₃ l₄ = some low)
      (hc : rejoin high low = some c.toNat) :
      Spells c [0x5C, 0x75, h₁, h₂, h₃, h₄, 0x5C, 0x75, l₁, l₂, l₃, l₄]

/-- The bytes that may stand for a text. -/
def SpellsText (t : List Char) (x : Bytes) : Prop :=
  ∃ pieces, List.Forall₂ Spells t pieces ∧ x = pieces.flatten

theorem jsonUnescape_cons {b : UInt8} (hb : b ≠ 0x5C) (rest : Bytes) :
    jsonUnescape (b :: rest) = b :: jsonUnescape rest := by
  cases rest with
  | nil => rfl
  | cons e rest =>
      rw [jsonUnescape.eq_def]
      exact if_pos hb

theorem jsonUnescape_plain {x : Bytes} (hx : ∀ b ∈ x, b ≠ 0x5C) (rest : Bytes) :
    jsonUnescape (x ++ rest) = x ++ jsonUnescape rest := by
  induction x with
  | nil => rfl
  | cons b x ih =>
      rw [List.cons_append, jsonUnescape_cons (hx b List.mem_cons_self),
        ih fun d hd => hx d (List.mem_cons_of_mem b hd), List.cons_append]

/-- A number that is no surrogate's is not joined with what follows it. -/
theorem jsonUnescape_unit {c : Char} {h₁ h₂ h₃ h₄ : UInt8}
    (hread : readHex4 h₁ h₂ h₃ h₄ = some c.toNat) (rest : Bytes) :
    jsonUnescape (0x5C :: 0x75 :: h₁ :: h₂ :: h₃ :: h₄ :: rest) =
      encodeChar c ++ jsonUnescape rest := by
  have hvalid := Utf8.toNat_valid c
  have halone : ∀ o : Option ℕ, o.bind (rejoin c.toNat) = none := by
    intro o
    cases o with
    | none => rfl
    | some low => exact if_neg (by omega)
  rw [jsonUnescape.eq_def]
  simp only [ne_eq, not_true_eq_false, if_false, hread]
  split
  · rw [halone, ite_self]
    rfl
  · rfl

theorem jsonUnescape_pair {c : Char} {h₁ h₂ h₃ h₄ l₁ l₂ l₃ l₄ : UInt8} {high low : ℕ}
    (hhigh : readHex4 h₁ h₂ h₃ h₄ = some high) (hlow : readHex4 l₁ l₂ l₃ l₄ = some low)
    (hc : rejoin high low = some c.toNat) (rest : Bytes) :
    jsonUnescape (0x5C :: 0x75 :: h₁ :: h₂ :: h₃ :: h₄ :: 0x5C :: 0x75 :: l₁ :: l₂ :: l₃ :: l₄ ::
      rest) = encodeChar c ++ jsonUnescape rest := by
  rw [jsonUnescape.eq_def]
  simp only [ne_eq, not_true_eq_false, if_false, hhigh, hlow, and_self, if_true, Option.bind_some,
    hc]
  rfl

/-- The bytes of a character are of no other ASCII character. -/
theorem ne_of_mem_encodeChar {c : Char} {b : UInt8} {m : ℕ} (hb : b ∈ encodeChar c) (hm : m < 0x80)
    (hne : c.toNat ≠ m) : b ≠ .ofNat m := by
  rintro rfl
  by_cases hlow : c.toNat < 0x80
  · rw [encodeChar, if_pos hlow, List.mem_singleton] at hb
    have hnat := congrArg UInt8.toNat hb
    rw [Utf8.toNat_ofNat_lt (by omega), Utf8.toNat_ofNat_lt (by omega)] at hnat
    exact hne hnat.symm
  · have hle := Utf8.le_encodeChar (Nat.not_lt.mp hlow) _ hb
    rw [Utf8.toNat_ofNat_lt (by omega)] at hle
    omega

/-- A character is read, however it is spelled. -/
theorem Spells.jsonUnescape {c : Char} {x : Bytes} (h : Spells c x) (rest : Bytes) :
    jsonUnescape (x ++ rest) = encodeChar c ++ jsonUnescape rest := by
  cases h with
  | plain hcontrol hquote hbackslash =>
      apply jsonUnescape_plain
      intro b hb
      exact ne_of_mem_encodeChar hb (m := 0x5C) (by decide) hbackslash
  | @short e he hc =>
      have hletter : e ≠ 0x75 := by
        rintro rfl
        exact absurd he (by decide)
      have hbyte : UInt8.ofNat c.toNat = unescapedByte e := by rw [hc, UInt8.ofNat_toNat]
      have hlow : ∀ e ∈ ([0x22, 0x5C, 0x2F, 0x62, 0x66, 0x6E, 0x72, 0x74] : Bytes),
          (unescapedByte e).toNat < 0x80 := by
        decide
      rw [encodeChar, if_pos (hc ▸ hlow e he), hbyte]
      rw [jsonUnescape.eq_def]
      exact if_pos hletter
  | unit hread => exact jsonUnescape_unit hread rest
  | pair hhigh hlow hc => exact jsonUnescape_pair hhigh hlow hc rest

theorem exists_hexValue {a b c d : UInt8} {n : ℕ} (h : readHex4 a b c d = some n) :
    ∀ ch ∈ [a, b, c, d], ∃ v, hexValue ch = some v := by
  simp only [readHex4, Option.bind_eq_bind, Option.bind_eq_some_iff] at h
  obtain ⟨va, ha, vb, hb, vc, hc, vd, hd, -⟩ := h
  simp [ha, hb, hc, hd]

theorem fine_of_hexValue {ch : UInt8} {v : ℕ} (h : hexValue ch = some v) :
    ch ≠ 0x22 ∧ ch ≠ 0x5C ∧ ch ≠ 0x0A ∧ ch ≠ 0x0D := by
  refine ⟨?_, ?_, ?_, ?_⟩
  all_goals
    rintro rfl
    cases h

/-- A spelled character is no end of the string, and no end of the line. -/
theorem Spells.inside {c : Char} {x : Bytes} (h : Spells c x) : Inside x ∧ (0x0A : UInt8) ∉ x := by
  have hhex : ∀ {h₁ h₂ h₃ h₄ : UInt8} {n : ℕ}, readHex4 h₁ h₂ h₃ h₄ = some n →
      Inside [0x5C, 0x75, h₁, h₂, h₃, h₄] ∧ (0x0A : UInt8) ∉ [0x5C, 0x75, h₁, h₂, h₃, h₄] := by
    intro h₁ h₂ h₃ h₄ n hread
    have hfine : ∀ ch ∈ [h₁, h₂, h₃, h₄], ch ≠ 0x22 ∧ ch ≠ 0x5C ∧ ch ≠ 0x0A ∧ ch ≠ 0x0D := by
      intro ch hch
      obtain ⟨v, hv⟩ := exists_hexValue hread ch hch
      exact fine_of_hexValue hv
    constructor
    · apply Inside.escaped (by decide) (by decide)
      exact Json.inside_of_plain fun b hb => ⟨(hfine b hb).1, (hfine b hb).2.1⟩
    · intro hmem
      rcases List.mem_cons.mp hmem with heq | hmem
      · exact absurd heq (by decide)
      rcases List.mem_cons.mp hmem with heq | hmem
      · exact absurd heq (by decide)
      exact (hfine _ hmem).2.2.1 rfl
  cases h with
  | plain hcontrol hquote hbackslash =>
      constructor
      · apply Json.inside_of_plain
        intro b hb
        exact ⟨ne_of_mem_encodeChar hb (m := 0x22) (by decide) hquote,
          ne_of_mem_encodeChar hb (m := 0x5C) (by decide) hbackslash⟩
      · intro hmem
        exact ne_of_mem_encodeChar hmem (m := 0x0A) (by decide) (by omega) rfl
  | @short e he hc =>
      have hfine : ∀ e ∈ ([0x22, 0x5C, 0x2F, 0x62, 0x66, 0x6E, 0x72, 0x74] : Bytes),
          e ≠ 0x0A ∧ e ≠ 0x0D := by
        decide
      obtain ⟨hbreak, hreturn⟩ := hfine e he
      constructor
      · exact .escaped hbreak hreturn .nil
      · simp [hbreak.symm]
  | unit hread => exact hhex hread
  | pair hhigh hlow _ =>
      obtain ⟨hfront, hfrontline⟩ := hhex hhigh
      obtain ⟨hback, hbackline⟩ := hhex hlow
      constructor
      · exact hfront.append hback
      · have hline : ∀ u v : Bytes, (0x0A : UInt8) ∉ u → (0x0A : UInt8) ∉ v →
            (0x0A : UInt8) ∉ u ++ v := by
          intro u v hu hv
          simp [hu, hv]
        exact hline _ _ hfrontline hbackline

theorem SpellsText.inside {t : List Char} {x : Bytes} (h : SpellsText t x) :
    Inside x ∧ (0x0A : UInt8) ∉ x := by
  obtain ⟨pieces, hpieces, rfl⟩ := h
  induction hpieces with
  | nil => exact ⟨.nil, by simp⟩
  | cons hpiece _ ih =>
      obtain ⟨hin, hline⟩ := hpiece.inside
      rw [List.flatten_cons]
      constructor
      · exact hin.append ih.1
      · simp [hline, ih.2]

theorem SpellsText.jsonUnescape {t : List Char} {x : Bytes} (h : SpellsText t x) :
    jsonUnescape x = encode t := by
  obtain ⟨pieces, hpieces, rfl⟩ := h
  induction hpieces with
  | nil => rfl
  | cons hpiece _ ih =>
      rw [List.flatten_cons, hpiece.jsonUnescape, ih]
      rfl

/-- `JSON.stringify` spells a character. -/
theorem spells_pointText (c : Char) : Spells c (pointText c.toNat) := by
  have hshort : ∀ e ∈ ([0x22, 0x5C, 0x2F, 0x62, 0x66, 0x6E, 0x72, 0x74] : Bytes), ∀ s,
      c.toNat = (unescapedByte e).toNat → Utf8.toBytes s = [0x5C, e] →
        Spells c (Utf8.toBytes s) := by
    intro e he s hc hs
    rw [hs]
    exact .short he hc
  rw [pointText, quotePoint]
  split_ifs with hb ht hl hf hr hquote hbackslash hhex
  · exact hshort 0x62 (by decide) _ hb (by decide)
  · exact hshort 0x74 (by decide) _ ht (by decide)
  · exact hshort 0x6E (by decide) _ hl (by decide)
  · exact hshort 0x66 (by decide) _ hf (by decide)
  · exact hshort 0x72 (by decide) _ hr (by decide)
  · exact hshort 0x22 (by decide) _ hquote (by decide)
  · exact hshort 0x5C (by decide) _ hbackslash (by decide)
  · have hvalid := Utf8.toNat_valid c
    have hlow : c.toNat < 0x20 := by omega
    have hread : ∀ n : Fin 0x20, readHex4 (Json.hexByte (n / 0x1000 % 0x10))
        (Json.hexByte (n / 0x100 % 0x10)) (Json.hexByte (n / 0x10 % 0x10))
        (Json.hexByte (n % 0x10)) = some n.val := by
      decide
    obtain ⟨hunits, hascii, -⟩ := Json.hexText_spec c.toNat
    rw [← hunits, Json.toBytes_ascii hascii]
    exact .unit (hread ⟨c.toNat, hlow⟩)
  · rw [Json.toBytes_char]
    exact .plain (by omega) hquote hbackslash

theorem spellsText_insideText (t : List Char) : SpellsText t (insideText (utf16 t)) := by
  refine ⟨t.map fun c => pointText c.toNat, ?_, ?_⟩
  · rw [List.forall₂_map_right_iff, List.forall₂_same]
    exact fun c _ => spells_pointText c
  · rw [Json.insideText_utf16, List.flatMap]

end Spelling

section Reply

variable {n : ℤ} {x y log : Bytes}

/-- The bytes of an integer in decimal notation. -/
def digitBytes (n : ℤ) : Bytes := (Text.decimal n).map fun c => .ofNat c.toNat

/-- The line of a reply, by the insides of its strings. -/
def replyText (n : ℤ) (x y : Bytes) : Bytes :=
  0x7B :: (marks.field (bytes "status") (digitBytes n) ++ 0x2C ::
    (marks.field (bytes "text") (marks.quoted x) ++ 0x2C ::
      (marks.field (bytes "error") (marks.quoted y) ++ [0x7D])))

theorem map_digitBytes (n : ℤ) :
    (digitBytes n).map (fun b => Char.ofNat b.toNat) = Text.decimal n := by
  rw [digitBytes, List.map_map]
  conv_rhs => rw [← List.map_id (Text.decimal n)]
  apply List.map_congr_left
  intro c hc
  have hlow := Text.decimal_ascii hc
  rw [Function.comp, Utf8.toNat_ofNat_lt (by omega), Char.ofNat_toNat]
  rfl

theorem isDigit_byte {c : Char} (hc : c.isDigit = true) :
    (0x30 ≤ UInt8.ofNat c.toNat && UInt8.ofNat c.toNat ≤ 0x39) = true := by
  have hdigit : 0x30 ≤ c.toNat ∧ c.toNat ≤ 0x39 := Char.isDigit_iff_toNat.mp hc
  have hnat : (UInt8.ofNat c.toNat).toNat = c.toNat := Utf8.toNat_ofNat_lt (by omega)
  rw [Bool.and_eq_true, decide_eq_true_eq, decide_eq_true_eq, UInt8.le_iff_toNat_le,
    UInt8.le_iff_toNat_le, hnat]
  exact hdigit

/-- The digits of an integer are what is matched of them. -/
theorem head_digitBytes (n : ℤ) (y : Bytes) :
    (integerRegex.runs (digitBytes n ++ 0x2C :: y)).head? = some (digitBytes n, 0x2C :: y) := by
  have hplus : ∀ k : ℕ, ((Regex.seq (.one fun b => 0x30 ≤ b && b ≤ 0x39)
      (.star (.one fun b => 0x30 ≤ b && b ≤ 0x39))).runs
        ((Nat.toDigits 10 k).map (fun c => UInt8.ofNat c.toNat) ++ 0x2C :: y)).head? =
          some ((Nat.toDigits 10 k).map (fun c => .ofNat c.toNat), 0x2C :: y) := by
    intro k
    apply Regex.head_plus_one
    · simp
    · intro b hb
      obtain ⟨c, hc, rfl⟩ := List.mem_map.mp hb
      exact isDigit_byte (Text.isDigit_of_mem_digits hc)
    · decide
  obtain ⟨more, hmore⟩ := List.head?_eq_some_iff.mp (hplus n.natAbs)
  unfold digitBytes Text.decimal
  split
  · have hsign : ∀ t, (Regex.alt (byte 0x2D) .empty).runs (0x2D :: t) =
        [([0x2D], t), ([], 0x2D :: t)] := fun _ => rfl
    show (integerRegex.runs (0x2D :: ((Nat.toDigits 10 n.natAbs).map _ ++ 0x2C :: y))).head? = _
    rw [integerRegex, Regex.runs, hsign, List.flatMap_cons, hmore]
    rfl
  · cases hdigits : Nat.toDigits 10 n.natAbs with
    | nil => exact absurd hdigits Nat.toDigits_ne_nil
    | cons d ds =>
        have hd : UInt8.ofNat d.toNat ≠ 0x2D := by
          have hdigit := isDigit_byte (Text.isDigit_of_mem_digits (hdigits ▸ List.mem_cons_self))
          intro heq
          rw [heq] at hdigit
          exact absurd hdigit (by decide)
        have hsign : ∀ t, (Regex.alt (byte 0x2D) .empty).runs (UInt8.ofNat d.toNat :: t) =
            [([], UInt8.ofNat d.toNat :: t)] := by
          intro t
          simp [Regex.runs, byte, hd]
        rw [hdigits, List.map_cons, List.cons_append] at hmore
        rw [List.map_cons, List.cons_append, integerRegex, Regex.runs, hsign,
          List.flatMap_singleton, hmore]
        rfl

/-- The last line is the one that ends the output. -/
theorem lastLine_append (hlog : log = [] ∨ log.getLast? = some 0x0A) (hx : (0x0A : UInt8) ∉ x) :
    lastLine (log ++ (x ++ [0x7D]) ++ [0x0A]) = some (x ++ [0x7D] ++ [0x0A]) := by
  have hreverse : (log ++ (x ++ [0x7D]) ++ [0x0A]).reverse =
      0x0A :: 0x7D :: (x.reverse ++ log.reverse) := by
    simp
  have hbody : (0x0A :: 0x7D :: (x.reverse ++ log.reverse)).dropWhile isBlank =
      0x7D :: (x.reverse ++ log.reverse) := rfl
  have hend : (0x0A :: 0x7D :: (x.reverse ++ log.reverse)).takeWhile isBlank = [0x0A] := rfl
  have hline : (x.reverse ++ log.reverse).takeWhile (· ≠ 0x0A) = x.reverse := by
    have hall : ∀ b ∈ x.reverse, decide (b ≠ 0x0A) = true := by
      intro b hb
      apply decide_eq_true
      rintro rfl
      exact hx (List.mem_reverse.mp hb)
    rw [List.takeWhile_append_of_pos hall]
    rcases hlog with rfl | hlast
    · simp
    · rw [← List.head?_reverse] at hlast
      obtain ⟨before, hbefore⟩ := List.head?_eq_some_iff.mp hlast
      rw [hbefore]
      simp
  have htake : (0x7D :: (x.reverse ++ log.reverse)).takeWhile (· ≠ 0x0A) = 0x7D :: x.reverse := by
    rw [List.takeWhile_cons_of_pos (by decide), hline]
  rw [lastLine, hreverse, hbody, hend, htake]
  simp

theorem replyText_append (n : ℤ) (x y rest : Bytes) : replyText n x y ++ rest =
    0x7B :: (marks.field (bytes "status") (digitBytes n) ++ 0x2C ::
      (marks.field (bytes "text") (marks.quoted x) ++ 0x2C ::
        (marks.field (bytes "error") (marks.quoted y) ++ 0x7D :: rest))) := by
  simp [replyText]

theorem byte_digitBytes (n : ℤ) : ∀ b ∈ digitBytes n, b = 0x2D ∨ 0x30 ≤ b ∧ b ≤ 0x39 := by
  intro b hb
  obtain ⟨c, hc, rfl⟩ := List.mem_map.mp hb
  rcases Text.mem_decimal hc with rfl | hdigit
  · exact .inl rfl
  · have hbyte := isDigit_byte hdigit
    rw [Bool.and_eq_true, decide_eq_true_eq, decide_eq_true_eq] at hbyte
    exact .inr hbyte

theorem search_longPattern (n : ℤ) (key y : Bytes) :
    (longPattern key).search (marks.field key (digitBytes n) ++ 0x2C :: y) =
      some (digitBytes n) := by
  have hhead := head_digitBytes n y
  cases hdigits : digitBytes n with
  | nil =>
      rw [hdigits] at hhead
      exact absurd hhead (by simp [integerRegex, Regex.runs, byte])
  | cons b bs =>
      have hspace : marks.isSpace b = false := by
        have hblank : ∀ n : Fin 0x100, marks.isSpace (.ofNat n) = true →
            ¬ ((.ofNat n : UInt8) = 0x2D ∨ 0x30 ≤ UInt8.ofNat n ∧ UInt8.ofNat n ≤ 0x39) := by
          decide +kernel
        have hb := hblank ⟨b.toNat, b.toNat_lt⟩
        rw [UInt8.ofNat_toNat] at hb
        by_contra hspace
        exact hb (Bool.not_eq_false _ ▸ hspace) (byte_digitBytes n b (hdigits ▸ List.mem_cons_self))
      rw [hdigits] at hhead
      exact Marks.search_valuePattern_field (M := marks) hspace hhead

/-- The status is read as far as it fits. -/
theorem extractLong_replyText (n : ℤ) (x y rest : Bytes) :
    extractLong (replyText n x y ++ rest) (bytes "status") = some (Text.saturate n) := by
  have hp : ∀ s, (keyRegex (bytes "status")).runs s = [] →
      (longPattern (bytes "status")).captures s = [] :=
    fun s hs => Marks.captures_valuePattern (M := marks) s hs
  rw [extractLong, replyText_append, search_other hp (by decide), search_longPattern,
    Option.map_some, map_digitBytes, Text.strtoll_decimal_saturate (by decide), Option.getD_some]

/-- The texts are read through the unescaper. -/
theorem extractText_replyText (hx : Inside x) (hy : Inside y) (n : ℤ) (rest : Bytes) :
    extractText (replyText n x y ++ rest) (bytes "text") = some (jsonUnescape x) ∧
      extractText (replyText n x y ++ rest) (bytes "error") = some (jsonUnescape y) := by
  have hstatus : IsKey (bytes "status") := by decide
  have htext : IsKey (bytes "text") := by decide
  have herror : IsKey (bytes "error") := by decide
  have hdigits : ∀ b ∈ digitBytes n, b ≠ marks.quote := by
    intro b hb
    rcases byte_digitBytes n b hb with rfl | ⟨hle, -⟩
    · decide
    · rintro rfl
      exact absurd hle (by decide)
  have hskip : ∀ key, IsKey key → bytes "status" ≠ key → ∀ z,
      (stringPattern key).search
        (0x7B :: (marks.field (bytes "status") (digitBytes n) ++ 0x2C :: z)) =
          (stringPattern key).search z := by
    intro key hkey hne z
    have hp := @captures_stringPattern key
    rw [search_other hp (by decide)]
    exact Marks.search_field_plain (M := marks) hp hkey.marks hstatus.marks hne hdigits z
  constructor
  · rw [extractText, replyText_append, hskip _ htext (by decide), stringPattern_eq,
      Marks.search_stringPattern_field (inside_marks hx), Option.map_some]
  · have hp := @captures_stringPattern (bytes "error")
    have hfound : (stringPattern (bytes "error")).search
        (marks.field (bytes "text") (marks.quoted x) ++ 0x2C ::
          (marks.field (bytes "error") (marks.quoted y) ++ 0x7D :: rest)) = some y := by
      apply (Marks.search_field_quoted (M := marks) hp herror.marks htext.marks (by decide)
        (inside_marks hx) _).trans
      rw [stringPattern_eq, Marks.search_stringPattern_field (inside_marks hy)]
    rw [extractText, replyText_append, hskip _ herror (by decide), hfound, Option.map_some]

theorem newline_notMem_replyText (hx : (0x0A : UInt8) ∉ x) (hy : (0x0A : UInt8) ∉ y) (n : ℤ) :
    ∃ front, replyText n x y = front ++ [0x7D] ∧ (0x0A : UInt8) ∉ front := by
  have hdigits : (0x0A : UInt8) ∉ digitBytes n := by
    intro hmem
    rcases byte_digitBytes n _ hmem with heq | ⟨hle, -⟩
    · exact absurd heq (by decide)
    · exact absurd hle (by decide)
  have hstatus : (0x0A : UInt8) ∉ bytes "status" := by decide
  have htext : (0x0A : UInt8) ∉ bytes "text" := by decide
  have herror : (0x0A : UInt8) ∉ bytes "error" := by decide
  refine ⟨0x7B :: (marks.field (bytes "status") (digitBytes n) ++ 0x2C ::
    (marks.field (bytes "text") (marks.quoted x) ++ 0x2C ::
      marks.field (bytes "error") (marks.quoted y))), by simp [replyText], ?_⟩
  simp [Marks.field, Marks.quoted, marks, hdigits, hstatus, htext, herror, hx, hy]

/-- A reply is found behind whatever was logged, and read. -/
theorem parse_replyText (hlog : log = [] ∨ log.getLast? = some 0x0A) (hx : Inside x)
    (hy : Inside y) (hxline : (0x0A : UInt8) ∉ x) (hyline : (0x0A : UInt8) ∉ y) (n : ℤ) :
    parseRemoteResponseJson (log ++ (replyText n x y ++ [0x0A])) =
      some ⟨Text.saturate n, jsonUnescape x, jsonUnescape y⟩ := by
  obtain ⟨front, hfront, hline⟩ := newline_notMem_replyText hxline hyline n
  have hlast : lastLine (log ++ (replyText n x y ++ [0x0A])) =
      some (replyText n x y ++ [0x0A]) := by
    rw [hfront, ← List.append_assoc]
    exact lastLine_append hlog hline
  obtain ⟨htext, herror⟩ := extractText_replyText hx hy n [0x0A]
  rw [parseRemoteResponseJson, hlast, Option.bind_eq_bind, Option.bind_some, extractLong_replyText,
    htext, herror]
  rfl

/-- What the child writes is its reply's line. -/
theorem line_eq (reply : Reply) : reply.line =
    replyText (Binary64.written reply.status) (insideText reply.text) (insideText reply.error) ++
      [0x0A] := by
  have hdigits : ∀ n, units (String.ofList (Text.decimal n)) = (digitBytes n).map Utf8.unit := by
    intro n
    rw [units, String.toList_ofList, digitBytes, List.map_map]
    apply List.map_congr_left
    intro c hc
    have hlow := Text.decimal_ascii hc
    rw [Function.comp, Utf8.unit, Utf8.toNat_ofNat_lt (by omega)]
  have hascii : ∀ n, ∀ b ∈ digitBytes n, b.toNat < 0x80 := by
    intro n b hb
    obtain ⟨c, hc, rfl⟩ := List.mem_map.mp hb
    have hlow := Text.decimal_ascii hc
    rwa [Utf8.toNat_ofNat_lt (by omega)]
  have hliteral : ∀ s : String, units s = (bytes s).map Utf8.unit →
      (∀ b ∈ bytes s, b.toNat < 0x80) →
        ∀ t, Utf8.toBytes (units s ++ t) = bytes s ++ Utf8.toBytes t := by
    intro s hunits hlow t
    rw [hunits, Json.toBytes_ascii_append hlow]
  have hopening : bytes "\x7b\"status\":" = 0x7B :: marks.field (bytes "status") [] := by
    decide
  have htext : bytes ",\"text\":" = 0x2C :: marks.field (bytes "text") [] := by decide
  have herror : bytes ",\"error\":" = 0x2C :: marks.field (bytes "error") [] := by decide
  have hclosing : Utf8.toBytes (units "\x7d" ++ units "\n") = [0x7D, 0x0A] := by decide
  rw [Reply.line, Reply.json]
  simp only [List.append_assoc]
  rw [hliteral _ (by decide) (by decide), hdigits,
    Json.toBytes_ascii_append (hascii _), hliteral _ (by decide) (by decide),
    Json.toBytes_quoteJSONString, hliteral _ (by decide) (by decide),
    Json.toBytes_quoteJSONString, hclosing, hopening, htext, herror]
  simp [replyText, Marks.field, Marks.quoted, marks]

end Reply

/-- Requests come through as they were, and so do the texts of replies, however they are spelled; a
status comes through as the digits that the child writes for it. -/
theorem codec_round_trip (prompt endpoint text error : List Char) {log : Bytes}
    (hlog : log = [] ∨ log.getLast? = some 0x0A) {status : ℤ} (hstatus : CInt.IsLong status) :
    (∃ line, buildRemoteRequestJson (encode prompt) (encode endpoint) = line ++ [0x0A] ∧
      (0x0A : UInt8) ∉ line) ∧
    Json.parse (decode (buildRemoteRequestJson (encode prompt) (encode endpoint))) =
      some (.obj [(units "prompt", .str (utf16 prompt)),
        (units "endpoint", .str (utf16 endpoint))]) ∧
    parseRemoteResponseJson (log ++ Reply.line ⟨status, utf16 text, utf16 error⟩) =
      some ⟨Text.saturate (Binary64.written status), encode text, encode error⟩ ∧
    (status.natAbs < 2 ^ 53 → Text.saturate (Binary64.written status) = status) ∧
    ∀ x y, SpellsText text x → SpellsText error y →
      parseRemoteResponseJson (log ++ (replyText status x y ++ [0x0A])) =
        some ⟨status, encode text, encode error⟩ := by
  have hread : ∀ n x y, SpellsText text x → SpellsText error y →
      parseRemoteResponseJson (log ++ (replyText n x y ++ [0x0A])) =
        some ⟨Text.saturate n, encode text, encode error⟩ := by
    intro n x y hx hy
    obtain ⟨hxin, hxline⟩ := hx.inside
    obtain ⟨hyin, hyline⟩ := hy.inside
    rw [parse_replyText hlog hxin hyin hxline hyline, hx.jsonUnescape, hy.jsonUnescape]
  have hkept : Text.saturate status = status := Text.saturate_eq hstatus.1 hstatus.2
  refine ⟨exists_request_line _ _, parse_request prompt endpoint, ?_, ?_, ?_⟩
  · rw [line_eq]
    exact hread _ _ _ (spellsText_insideText text) (spellsText_insideText error)
  · intro hexact
    rw [Binary64.written_eq hexact, hkept]
  · intro x y hx hy
    rw [hread status x y hx hy, hkept]

/-- A status with an escaped pair in its text, behind a line of the log. -/
theorem codec_round_trip_escaped :
    parseRemoteResponseJson (bytes "noise\n" ++ (replyText 200
      (bytes "\\uD83D\\ude00") [] ++ [0x0A])) =
        some ⟨200, encode [Char.ofNat 0x1F600], encode []⟩ := by
  have hhigh : readHex4 0x44 0x38 0x33 0x44 = some 0xD83D := by decide
  have hlow : readHex4 0x64 0x65 0x30 0x30 = some 0xDE00 := by decide
  have hpair : Spells (Char.ofNat 0x1F600) (bytes "\\uD83D\\ude00") :=
    .pair hhigh hlow (by decide)
  have htext : SpellsText [Char.ofNat 0x1F600] (bytes "\\uD83D\\ude00") :=
    ⟨[_], .cons hpair .nil, by simp⟩
  have hlog : bytes "noise\n" = [] ∨ (bytes "noise\n").getLast? = some 0x0A := .inr (by decide)
  have hstatus : CInt.IsLong 200 := by decide
  exact (codec_round_trip [] [] [Char.ofNat 0x1F600] [] hlog hstatus).2.2.2.2 _ _ htext
    ⟨[], .nil, rfl⟩

/-- A status that is no double is read as another one. -/
theorem not_codec_round_trip :
    ¬ ∀ (status : ℤ) (text error : List Char) (log : Bytes), CInt.IsLong status →
      log = [] ∨ log.getLast? = some 0x0A →
        parseRemoteResponseJson (log ++ Reply.line ⟨status, utf16 text, utf16 error⟩) =
          some ⟨status, encode text, encode error⟩ := by
  have hread : parseRemoteResponseJson (Reply.line ⟨2 ^ 60, [], []⟩) =
      some ⟨1152921504606847000, [], []⟩ := by
    decide +kernel
  intro h
  have hclaim := h (2 ^ 60) [] [] [] (by decide) (.inl rfl)
  rw [List.nil_append] at hclaim
  have hstatus := congrArg RemoteReading.status (Option.some.inj (hread.symm.trans hclaim))
  exact absurd hstatus (by decide)

end ServeInfer.InferenceWorker.RemoteTransport
