import ServeInfer.Hardware.ReportJson

/-!
# Reading the report back

The reader finds every field of a written report where it was written, whatever the
strings are: their quotes and brackets are behind backslashes or between quotes. It
reads the numbers that were written, and the strings in their escaped form.
-/

namespace ServeInfer.Hardware

variable {x y z key : List Char} {c : Char} {special special' : Char → Bool} {n : UInt64}

/-- The report with its strings as they stand in the text. -/
def GpuDevice.escaped (gpu : GpuDevice) : GpuDevice :=
  { gpu with
    name := String.ofList (jsonEscape gpu.name)
    description := String.ofList (jsonEscape gpu.description) }

def HardwareReport.escaped (report : HardwareReport) : HardwareReport :=
  { report with
    gpus := report.gpus.map GpuDevice.escaped
    note := String.ofList (jsonEscape report.note) }

theorem inside_jsonEscape (s : String) : marks.Inside (jsonEscape s) := by
  refine Marks.inside_flatMap fun c _ => ?_
  unfold escape
  split_ifs with hbackslash hquote
  · exact .escaped (by decide) .nil
  · exact .escaped (by decide) .nil
  · exact .escaped (by decide) .nil
  · exact .escaped (by decide) .nil
  · exact .escaped (by decide) .nil
  · exact .plain hquote hbackslash .nil

theorem isDigit_sizeText (h : c ∈ sizeText n) : c.isDigit = true := Text.isDigit_of_mem_digits h

theorem sizeText_ne (h : c ∈ sizeText n) {d : Char} (hd : d.isDigit = false) : c ≠ d := by
  rintro rfl
  rw [isDigit_sizeText h] at hd
  cases hd

theorem stoull_sizeText (n : UInt64) : stoull (sizeText n) = some n := by
  have hvalue : Nat.ofDigitChars 10 (sizeText n) 0 = n.toNat := Nat.ofDigitChars_ten_toDigits
  rw [stoull, hvalue, if_pos n.toNat_lt, UInt64.ofNat_toNat]

theorem head_digits (hc : c.isDigit = false) (y : List Char) :
    (digits.runs (sizeText n ++ c :: y)).head? = some (sizeText n, c :: y) :=
  Regex.head_plus_one Nat.toDigits_ne_nil (fun _ hb => isDigit_sizeText hb) hc y

/-- Where a number's field is, the number is what is found. -/
theorem extract_sizeText (hc : c.isDigit = false) (y : List Char) :
    extractUnsigned (marks.field key (sizeText n) ++ c :: y) key = some n := by
  have hhead := head_digits (n := n) hc y
  rw [extractUnsigned]
  cases hd : sizeText n with
  | nil => exact absurd hd Nat.toDigits_ne_nil
  | cons d ds =>
      rw [hd] at hhead
      have hdigit : d.isDigit = true := isDigit_sizeText (hd ▸ List.mem_cons_self)
      have hspace : Text.isSpace d = false := Text.isSpace_of_isDigit hdigit
      rw [Marks.search_valuePattern_field (M := marks) hspace hhead, Option.bind_some, ← hd,
        stoull_sizeText]

/-- Where a flag's field is, the flag is what is found. -/
theorem extract_boolText (flag : Bool) (y : List Char) :
    extractBool (marks.field key (boolText flag) ++ y) key = some flag := by
  cases flag with
  | true =>
      have hhead : (truth.runs ('t' :: ['r', 'u', 'e'] ++ y)).head? =
          some ('t' :: ['r', 'u', 'e'], y) := by
        simp [truth, Regex.runs, Regex.literal]
      have hfound : (marks.valuePattern key truth).search
          (marks.field key ('t' :: ['r', 'u', 'e']) ++ y) = some ('t' :: ['r', 'u', 'e']) :=
        Marks.search_valuePattern_field rfl hhead
      exact congrArg (Option.map fun m => decide (m = "true".toList)) hfound
  | false =>
      have hhead : (truth.runs ('f' :: ['a', 'l', 's', 'e'] ++ y)).head? =
          some ('f' :: ['a', 'l', 's', 'e'], y) := by
        simp [truth, Regex.runs, Regex.literal]
      have hfound : (marks.valuePattern key truth).search
          (marks.field key ('f' :: ['a', 'l', 's', 'e']) ++ y) =
            some ('f' :: ['a', 'l', 's', 'e']) :=
        Marks.search_valuePattern_field rfl hhead
      exact congrArg (Option.map fun m => decide (m = "true".toList)) hfound

section Skipping

variable {name : List Char} {p : Regex.Pattern Char}

/-- The patterns of the extractors, which all begin with the key. -/
inductive Extracts (key : List Char) : Regex.Pattern Char → Prop
  | string : Extracts key (marks.stringPattern key)
  | value (v : Regex Char) : Extracts key (marks.valuePattern key v)

theorem Extracts.captures (h : Extracts key p) (s : List Char)
    (hs : (marks.keyRegex key).runs s = []) : p.captures s = [] := by
  cases h with
  | string => exact Marks.captures_stringPattern s hs
  | value v => exact Marks.captures_valuePattern s hs

/-- Every pattern skips what is not its field. -/
theorem Extracts.open (h : Extracts key p) (hc : c ≠ '"') : p.search (c :: y) = p.search y :=
  Marks.search_other h.captures hc y

theorem Extracts.size (h : Extracts key p) (hkey : marks.IsKey key) (hname : marks.IsKey name)
    (hne : name ≠ key) (y : List Char) :
    p.search (marks.field name (sizeText n) ++ ',' :: y) = p.search y :=
  Marks.search_field_plain h.captures hkey hname hne (fun _ ha => sizeText_ne ha rfl) y

theorem Extracts.text (h : Extracts key p) (hkey : marks.IsKey key) (hname : marks.IsKey name)
    (hne : name ≠ key) (s : String) (y : List Char) :
    p.search (marks.field name (marks.quoted (jsonEscape s)) ++ ',' :: y) = p.search y :=
  Marks.search_field_quoted h.captures hkey hname hne (inside_jsonEscape s) y

theorem Extracts.flag (h : Extracts key p) (hkey : marks.IsKey key) (hname : marks.IsKey name)
    (hne : name ≠ key) (flag : Bool) (y : List Char) :
    p.search (marks.field name (boolText flag) ++ ',' :: y) = p.search y := by
  refine Marks.search_field_plain h.captures hkey hname hne ?_ y
  cases flag <;> decide

end Skipping

section Texts

theorem field_eq (key value : List Char) :
    marks.field key value = '"' :: (key ++ '"' :: ':' :: value) := rfl

theorem quoted_eq (x : List Char) : marks.quoted x = '"' :: (x ++ ['"']) := rfl

/-- What stands between the braces of a device. -/
def gpuBody (gpu : GpuDevice) : List Char :=
  marks.field "name".toList (marks.quoted (jsonEscape gpu.name)) ++
    ',' :: (marks.field "description".toList (marks.quoted (jsonEscape gpu.description)) ++
      ',' :: (marks.field "freeBytes".toList (sizeText gpu.freeBytes) ++
        ',' :: marks.field "totalBytes".toList (sizeText gpu.totalBytes)))

theorem gpuToJson_eq (gpu : GpuDevice) : gpuToJson gpu = '{' :: (gpuBody gpu ++ ['}']) := by
  have hname : "\x7b\"name\":\"".toList = '{' :: '"' :: ("name".toList ++ ['"', ':', '"']) := by
    decide
  have hdescription : "\",\"description\":\"".toList =
      '"' :: ',' :: '"' :: ("description".toList ++ ['"', ':', '"']) := by decide
  have hfree : "\",\"freeBytes\":".toList =
      '"' :: ',' :: '"' :: ("freeBytes".toList ++ ['"', ':']) := by decide
  have htotal : ",\"totalBytes\":".toList = ',' :: '"' :: ("totalBytes".toList ++ ['"', ':']) := by
    decide
  have hend : "\x7d".toList = ['}'] := by decide
  unfold gpuToJson gpuBody
  rw [hname, hdescription, hfree, htotal, hend]
  simp only [field_eq, quoted_eq, List.append_assoc, List.cons_append, List.nil_append]

def gpusText (report : HardwareReport) : List Char :=
  '[' :: ([','].intercalate (report.gpus.map gpuToJson) ++ [']'])

/-- What comes after the note. -/
def afterNote (report : HardwareReport) : List Char :=
  marks.field "ramTotalBytes".toList (sizeText report.ram.totalBytes) ++
    ',' :: (marks.field "ramAvailableBytes".toList (sizeText report.ram.availableBytes) ++
      ',' :: (marks.field "gpus".toList (gpusText report) ++ ['}']))

theorem hardwareReportToJson_eq (report : HardwareReport) : hardwareReportToJson report =
    '{' :: (marks.field "probeOk".toList (boolText report.probeOk) ++
      ',' :: (marks.field "note".toList (marks.quoted (jsonEscape report.note)) ++
        ',' :: afterNote report)) := by
  have hprobe : "\x7b\"probeOk\":".toList = '{' :: '"' :: ("probeOk".toList ++ ['"', ':']) := by
    decide
  have hnote : ",\"note\":\"".toList = ',' :: '"' :: ("note".toList ++ ['"', ':', '"']) := by
    decide
  have htotal : "\",\"ramTotalBytes\":".toList =
      '"' :: ',' :: '"' :: ("ramTotalBytes".toList ++ ['"', ':']) := by decide
  have havailable : ",\"ramAvailableBytes\":".toList =
      ',' :: '"' :: ("ramAvailableBytes".toList ++ ['"', ':']) := by decide
  have hgpus : ",\"gpus\":[".toList = ',' :: '"' :: ("gpus".toList ++ ['"', ':', '[']) := by decide
  have hend : "]\x7d".toList = [']', '}'] := by decide
  unfold hardwareReportToJson afterNote gpusText
  rw [hprobe, hnote, htotal, havailable, hgpus, hend]
  simp only [field_eq, quoted_eq, List.append_assoc, List.cons_append, List.nil_append]

/-- What comes after the note, with `y` after the devices. -/
def afterNoteTo (report : HardwareReport) (y : List Char) : List Char :=
  marks.field "ramTotalBytes".toList (sizeText report.ram.totalBytes) ++
    ',' :: (marks.field "ramAvailableBytes".toList (sizeText report.ram.availableBytes) ++
      ',' :: (marks.field "gpus".toList (gpusText report) ++ y))

/-- The text of the report with `y` in the place of its last brace. -/
def reportTo (report : HardwareReport) (y : List Char) : List Char :=
  '{' :: (marks.field "probeOk".toList (boolText report.probeOk) ++
    ',' :: (marks.field "note".toList (marks.quoted (jsonEscape report.note)) ++
      ',' :: afterNoteTo report y))

theorem hardwareReportToJson_reportTo (report : HardwareReport) :
    hardwareReportToJson report = reportTo report ['}'] :=
  hardwareReportToJson_eq report

theorem reportTo_append (report : HardwareReport) (y z : List Char) :
    reportTo report (y ++ z) = reportTo report y ++ z := by
  simp only [reportTo, afterNoteTo, List.append_assoc, List.cons_append]

end Texts

section Scans

variable {special special' : List Char} {d : ℤ} {object : List Char}

/-- Text in which the special characters only stand between quotes. -/
inductive Tame (special : List Char) : List Char → Prop
  | nil : Tame special []
  | plain {c : Char} {x : List Char} (hquote : c ≠ '"') (hc : c ∉ special) (h : Tame special x) :
      Tame special (c :: x)
  | string {x y : List Char} (hx : marks.Inside x) (h : Tame special y) :
      Tame special (marks.quoted x ++ y)

theorem Tame.append (hx : Tame special x) (hy : Tame special y) : Tame special (x ++ y) := by
  induction hx with
  | nil => exact hy
  | plain hquote hc _ ih => exact .plain hquote hc ih
  | string hs _ ih =>
      rw [List.append_assoc]
      exact .string hs ih

theorem tame_of_plain (h : ∀ c ∈ x, c ≠ '"' ∧ c ∉ special) : Tame special x := by
  induction x with
  | nil => exact .nil
  | cons c x ih =>
      obtain ⟨hquote, hc⟩ := h c List.mem_cons_self
      exact .plain hquote hc (ih fun b hb => h b (List.mem_cons_of_mem c hb))

theorem tame_quoted (hx : marks.Inside x) : Tame special (marks.quoted x) := by
  have h : Tame special (marks.quoted x ++ []) := .string hx .nil
  rwa [List.append_nil] at h

section Steps

variable {d : ℤ} {object y : List Char} {c : Char}

/-- A turn between quotes, other than at a backslash. -/
theorem arrayFrom_inString (hbackslash : c ≠ '\\') :
    arrayFrom d true (c :: y) = (arrayFrom d (c ≠ '"') y).map ([c] ++ ·) := by
  rw [arrayFrom.eq_def]
  simp [hbackslash]

/-- A turn outside of quotes. -/
theorem arrayFrom_outside :
    arrayFrom d false (c :: y) =
      if c = '"' then (arrayFrom d true y).map ([c] ++ ·)
      else if c = '[' then (arrayFrom (d + 1) false y).map ([c] ++ ·)
      else if c = ']' then
        if d - 1 = 0 then some [c] else (arrayFrom (d - 1) false y).map ([c] ++ ·)
      else (arrayFrom d false y).map ([c] ++ ·) := by
  rw [arrayFrom.eq_def]
  rfl

theorem arrayFrom_in (hquote : c ≠ '"') (hbackslash : c ≠ '\\') :
    arrayFrom d true (c :: y) = (arrayFrom d true y).map ([c] ++ ·) := by
  rw [arrayFrom_inString hbackslash, decide_eq_true hquote]

theorem arrayFrom_in_escape :
    arrayFrom d true ('\\' :: c :: y) = (arrayFrom d true y).map (['\\', c] ++ ·) := rfl

theorem arrayFrom_in_quote :
    arrayFrom d true ('"' :: y) = (arrayFrom d false y).map (['"'] ++ ·) :=
  arrayFrom_inString (by decide)

theorem arrayFrom_out_quote :
    arrayFrom d false ('"' :: y) = (arrayFrom d true y).map (['"'] ++ ·) :=
  arrayFrom_outside.trans (if_pos rfl)

theorem arrayFrom_out (hquote : c ≠ '"') (hopen : c ≠ '[') (hclose : c ≠ ']') :
    arrayFrom d false (c :: y) = (arrayFrom d false y).map ([c] ++ ·) := by
  rw [arrayFrom_outside, if_neg hquote, if_neg hopen, if_neg hclose]

theorem arrayFrom_open :
    arrayFrom d false ('[' :: y) = (arrayFrom (d + 1) false y).map (['['] ++ ·) :=
  arrayFrom_outside

theorem arrayFrom_close (hd : d - 1 ≠ 0) :
    arrayFrom d false (']' :: y) = (arrayFrom (d - 1) false y).map ([']'] ++ ·) :=
  arrayFrom_outside.trans (if_neg hd)

theorem arrayFrom_end (hd : d - 1 = 0) : arrayFrom d false (']' :: y) = some [']'] :=
  arrayFrom_outside.trans (if_pos hd)

/-- A turn between quotes, other than at a backslash. -/
theorem splitFrom_inString (hbackslash : c ≠ '\\') :
    splitFrom d true object (c :: y) = splitFrom d (c ≠ '"') (object ++ [c]) y := by
  rw [splitFrom.eq_def]
  simp [hbackslash]

/-- A turn outside of quotes. -/
theorem splitFrom_outside :
    splitFrom d false object (c :: y) =
      if c = '"' then splitFrom d true (object ++ [c]) y
      else if c = '{' then splitFrom (d + 1) false (if d = 0 then [c] else object ++ [c]) y
      else if c = '}' then
        if d - 1 = 0 then (object ++ [c]) :: splitFrom (d - 1) false (object ++ [c]) y
        else splitFrom (d - 1) false (object ++ [c]) y
      else splitFrom d false (object ++ [c]) y := by
  rw [splitFrom.eq_def]
  rfl

theorem splitFrom_in (hquote : c ≠ '"') (hbackslash : c ≠ '\\') :
    splitFrom d true object (c :: y) = splitFrom d true (object ++ [c]) y := by
  rw [splitFrom_inString hbackslash, decide_eq_true hquote]

theorem splitFrom_in_escape :
    splitFrom d true object ('\\' :: c :: y) = splitFrom d true (object ++ ['\\', c]) y := rfl

theorem splitFrom_in_quote :
    splitFrom d true object ('"' :: y) = splitFrom d false (object ++ ['"']) y :=
  splitFrom_inString (by decide)

theorem splitFrom_out_quote :
    splitFrom d false object ('"' :: y) = splitFrom d true (object ++ ['"']) y :=
  splitFrom_outside.trans (if_pos rfl)

theorem splitFrom_out (hquote : c ≠ '"') (hopen : c ≠ '{') (hclose : c ≠ '}') :
    splitFrom d false object (c :: y) = splitFrom d false (object ++ [c]) y := by
  rw [splitFrom_outside, if_neg hquote, if_neg hopen, if_neg hclose]

end Steps

/-- A string is gone through up to its closing quote. -/
theorem arrayFrom_inside (hx : marks.Inside x) (d : ℤ) (y : List Char) :
    arrayFrom d true (x ++ '"' :: y) = (arrayFrom d false y).map ((x ++ ['"']) ++ ·) := by
  induction hx with
  | nil => exact arrayFrom_in_quote
  | plain hquote hbackslash _ ih =>
      rw [List.cons_append, arrayFrom_in hquote hbackslash, ih, Option.map_map]
      rfl
  | escaped hbreak _ ih =>
      show arrayFrom d true ('\\' :: _ :: (_ ++ '"' :: y)) = _
      rw [arrayFrom_in_escape, ih, Option.map_map]
      rfl

theorem Tame.arrayFrom (hx : Tame ['[', ']'] x) (d : ℤ) (y : List Char) :
    arrayFrom d false (x ++ y) = (arrayFrom d false y).map (x ++ ·) := by
  induction hx with
  | nil => simp
  | plain hquote hc _ ih =>
      simp only [List.mem_cons, List.not_mem_nil, or_false, not_or] at hc
      rw [List.cons_append, arrayFrom_out hquote hc.1 hc.2, ih, Option.map_map]
      rfl
  | @string x z hx _ ih =>
      have htext : marks.quoted x ++ z ++ y = '"' :: (x ++ '"' :: (z ++ y)) := by simp [quoted_eq]
      rw [htext, arrayFrom_out_quote, arrayFrom_inside hx, ih, Option.map_map, Option.map_map]
      simp [quoted_eq, Function.comp_def]

theorem splitFrom_inside (hx : marks.Inside x) (d : ℤ) (object y : List Char) :
    splitFrom d true object (x ++ '"' :: y) = splitFrom d false (object ++ (x ++ ['"'])) y := by
  induction hx generalizing object with
  | nil => exact splitFrom_in_quote
  | plain hquote hbackslash _ ih =>
      rw [List.cons_append, splitFrom_in hquote hbackslash, ih, List.append_assoc]
      rfl
  | escaped hbreak _ ih =>
      show splitFrom d true object ('\\' :: _ :: (_ ++ '"' :: y)) = _
      rw [splitFrom_in_escape, ih, List.append_assoc]
      rfl

theorem Tame.splitFrom (hx : Tame ['{', '}'] x) (d : ℤ) (object y : List Char) :
    splitFrom d false object (x ++ y) = splitFrom d false (object ++ x) y := by
  induction hx generalizing object with
  | nil => simp
  | plain hquote hc _ ih =>
      simp only [List.mem_cons, List.not_mem_nil, or_false, not_or] at hc
      rw [List.cons_append, splitFrom_out hquote hc.1 hc.2, ih, List.append_assoc]
      rfl
  | @string x z hx _ ih =>
      have htext : marks.quoted x ++ z ++ y = '"' :: (x ++ '"' :: (z ++ y)) := by simp [quoted_eq]
      rw [htext, splitFrom_out_quote, splitFrom_inside hx, ih]
      simp [quoted_eq]

theorem tame_sizeText (hspecial : ∀ c ∈ special, c.isDigit = false) (n : UInt64) :
    Tame special (sizeText n) :=
  tame_of_plain fun c hc => ⟨sizeText_ne hc rfl, fun hs => sizeText_ne hc (hspecial c hs) rfl⟩

theorem tame_field (hkey : marks.IsKey key) (hcolon : ':' ∉ special) (hx : Tame special x) :
    Tame special (marks.field key x) := by
  have htext : marks.field key x = marks.quoted key ++ ':' :: x := by simp [field_eq, quoted_eq]
  rw [htext]
  exact .string hkey.inside (.plain (by decide) hcolon hx)

/-- A device's brackets and braces stand between quotes, but for the two around it. -/
theorem tame_gpuBody (gpu : GpuDevice) (hspecial : ∀ c ∈ special, c ∈ ['[', ']', '{', '}']) :
    Tame special (gpuBody gpu) := by
  have hnot (c : Char) (hc : c ∉ ['[', ']', '{', '}']) : c ∉ special := fun h => hc (hspecial c h)
  have hdigit : ∀ c ∈ special, c.isDigit = false := by
    intro c hc
    have hall : ∀ c ∈ ['[', ']', '{', '}'], c.isDigit = false := by decide
    exact hall c (hspecial c hc)
  have hcolon : ':' ∉ special := hnot _ (by decide)
  have hcomma : ',' ∉ special := hnot _ (by decide)
  unfold gpuBody
  apply (tame_field (by decide) hcolon (tame_quoted (inside_jsonEscape _))).append
  apply Tame.plain (by decide) hcomma
  apply (tame_field (by decide) hcolon (tame_quoted (inside_jsonEscape _))).append
  apply Tame.plain (by decide) hcomma
  apply (tame_field (by decide) hcolon (tame_sizeText hdigit _)).append
  apply Tame.plain (by decide) hcomma
  exact tame_field (by decide) hcolon (tame_sizeText hdigit _)

theorem tame_gpuToJson (gpu : GpuDevice) : Tame ['[', ']'] (gpuToJson gpu) := by
  rw [gpuToJson_eq]
  apply Tame.plain (by decide) (by decide)
  apply (tame_gpuBody gpu (by decide)).append
  exact .plain (by decide) (by decide) .nil

theorem tame_gpus (gpus : List GpuDevice) :
    Tame ['[', ']'] ([','].intercalate (gpus.map gpuToJson)) := by
  induction gpus with
  | nil => exact .nil
  | cons gpu gpus ih =>
      cases gpus with
      | nil => simpa using tame_gpuToJson gpu
      | cons next gpus =>
          rw [List.map_cons, List.map_cons, List.intercalate_cons_cons, ← List.map_cons]
          exact ((tame_gpuToJson gpu).append (.plain (by decide) (by decide) .nil)).append ih

/-- The array is what the scan takes. -/
theorem arrayFrom_gpusText (report : HardwareReport) (y : List Char) :
    arrayFrom 0 false (gpusText report ++ y) = some (gpusText report) := by
  rw [gpusText, List.cons_append, arrayFrom_open, List.append_assoc, (tame_gpus _).arrayFrom]
  show Option.map _ (Option.map _ (arrayFrom 1 false (']' :: y))) = _
  rw [arrayFrom_end rfl]
  rfl

/-- A device's object is what the split takes. -/
theorem splitFrom_gpuToJson (gpu : GpuDevice) (object y : List Char) :
    splitFrom 0 false object (gpuToJson gpu ++ y) =
      gpuToJson gpu :: splitFrom 0 false (gpuToJson gpu) y := by
  have hopen (z : List Char) :
      splitFrom 0 false object ('{' :: z) = splitFrom 1 false ['{'] z := splitFrom_outside
  have hclose (object : List Char) : splitFrom 1 false object ('}' :: y) =
      (object ++ ['}']) :: splitFrom 0 false (object ++ ['}']) y := splitFrom_outside
  have hbody : Tame ['{', '}'] (gpuBody gpu) := tame_gpuBody gpu (by decide)
  rw [gpuToJson_eq, List.cons_append, hopen, List.append_assoc, hbody.splitFrom]
  exact hclose _

theorem splitFrom_gpus (gpus : List GpuDevice) (object : List Char) :
    splitFrom 0 false object ([','].intercalate (gpus.map gpuToJson) ++ [']']) =
      gpus.map gpuToJson := by
  have hend (object : List Char) : splitFrom 0 false object [']'] = [] := by
    rw [splitFrom_out (by decide) (by decide) (by decide)]
    rfl
  induction gpus generalizing object with
  | nil => exact hend object
  | cons gpu gpus ih =>
      cases gpus with
      | nil =>
          rw [List.map_cons, List.map_nil, List.intercalate_singleton, splitFrom_gpuToJson, hend]
      | cons next gpus =>
          rw [List.map_cons, List.map_cons, List.intercalate_cons_cons, ← List.map_cons,
            List.append_assoc, List.append_assoc, splitFrom_gpuToJson, List.singleton_append,
            splitFrom_out (by decide) (by decide) (by decide), ih]

theorem splitObjects_gpusText (report : HardwareReport) :
    splitObjects (gpusText report) = report.gpus.map gpuToJson := by
  rw [splitObjects, gpusText, splitFrom_out (by decide) (by decide) (by decide), splitFrom_gpus]

end Scans

section Slice

variable {needle : List Char} {a : Char}

theorem fromFirst_skip (h : ¬ needle <+: c :: y) : fromFirst needle (c :: y) = fromFirst needle y := by
  rw [fromFirst, if_neg]
  rwa [List.isPrefixOf_iff_prefix]

theorem fromFirst_self (h : needle ≠ []) (y : List Char) :
    fromFirst needle (needle ++ y) = some (needle ++ y) := by
  cases needle with
  | nil => exact absurd rfl h
  | cons a needle =>
      rw [List.cons_append, fromFirst, if_pos]
      rw [List.isPrefixOf_iff_prefix, ← List.cons_append]
      exact List.prefix_append _ _

/-- A match begins with the needle's first character. -/
theorem fromFirst_append (h : a ∉ x) (y : List Char) :
    fromFirst (a :: needle) (x ++ y) = fromFirst (a :: needle) y := by
  induction x with
  | nil => rfl
  | cons c x ih =>
      rw [List.cons_append, fromFirst_skip, ih fun hx => h (List.mem_cons_of_mem c hx)]
      intro hp
      exact h ((List.cons_prefix_cons.mp hp).1 ▸ List.mem_cons_self)

/-- The two searches of `sliceGpuArray` lead to this text. -/
def Opens (text z : List Char) : Prop :=
  (fromFirst "\"gpus\"".toList text).bind (fromFirst ['[']) = some z

theorem opens_append (h : '"' ∉ x) (hy : Opens y z) : Opens (x ++ y) z := by
  have hskip : fromFirst "\"gpus\"".toList (x ++ y) = fromFirst "\"gpus\"".toList y :=
    fromFirst_append h y
  rw [Opens, hskip]
  exact hy

theorem gpus_append (rest : List Char) :
    "\"gpus\"".toList ++ rest = '"' :: ("gpus".toList ++ '"' :: rest) := rfl

theorem inside_gpus : marks.Inside "gpus".toList := Marks.inside_of_plain (by decide)

/-- A string that is found for the key ends there, and the first bracket comes after it. -/
theorem opens_quote (hx : marks.Inside x) (hbracket : fromFirst ['['] y = some z)
    (hrest : Opens (x ++ '"' :: ',' :: y) z) : Opens ('"' :: (x ++ '"' :: ',' :: y)) z := by
  by_cases hp : "\"gpus\"".toList <+: '"' :: (x ++ '"' :: ',' :: y)
  · obtain ⟨rest, heq⟩ := hp
    have htail : "gpus".toList ++ marks.quote :: rest = x ++ marks.quote :: ',' :: y :=
      (List.cons.inj ((gpus_append rest).symm.trans heq)).2
    obtain ⟨-, rfl⟩ := inside_gpus.unique hx htail
    have hnone : '[' ∉ "\"gpus\"".toList := by decide
    rw [Opens, ← heq, fromFirst_self (by decide), Option.bind_some, fromFirst_append hnone]
    exact (fromFirst_append (x := [',']) (by decide) y).trans hbracket
  · rw [Opens, fromFirst_skip hp]
    exact hrest

/-- Wherever the search is in a string, the first bracket after what it finds is the first one after
the string. -/
theorem opens_inside (hx : marks.Inside x) (hbracket : fromFirst ['['] y = some z)
    (hy : Opens y z) : Opens (x ++ '"' :: ',' :: y) z := by
  induction hx with
  | nil =>
      rw [List.nil_append, Opens, fromFirst_skip]
      · exact opens_append (x := [',']) (by decide) hy
      · rintro ⟨rest, heq⟩
        exact absurd (List.cons.inj (List.cons.inj heq).2).1 (by decide)
  | @plain c x hquote _ _ ih =>
      refine opens_append (x := [c]) ?_ ih
      rw [List.mem_singleton]
      exact fun h => hquote h.symm
  | @escaped c x _ hx ih =>
      refine opens_append (x := ['\\']) (by decide) ?_
      by_cases hc : c = '"'
      · subst hc
        exact opens_quote hx hbracket ih
      · refine opens_append (x := [c]) ?_ ih
        rw [List.mem_singleton]
        exact fun h => hc h.symm

/-- A key that is not the array's is gone through to its value. -/
theorem opens_name (hkey : marks.IsKey key) (hne : key ≠ "gpus".toList) (hy : Opens y z) :
    Opens ('"' :: (key ++ '"' :: ':' :: y)) z := by
  rw [Opens, fromFirst_skip]
  · refine opens_append (fun h => (hkey.plain _ h).1 rfl) ?_
    rw [Opens, fromFirst_skip]
    · exact opens_append (x := [':']) (by decide) hy
    · rintro ⟨rest, heq⟩
      exact absurd (List.cons.inj (List.cons.inj heq).2).1 (by decide)
  · rintro ⟨rest, heq⟩
    have htail : "gpus".toList ++ marks.quote :: rest = key ++ marks.quote :: ':' :: y :=
      (List.cons.inj ((gpus_append rest).symm.trans heq)).2
    exact hne (inside_gpus.unique hkey.inside htail).1.symm

theorem opens_field (hkey : marks.IsKey key) (hne : key ≠ "gpus".toList) (hx : '"' ∉ x)
    (hy : Opens y z) : Opens (marks.field key x ++ ',' :: y) z := by
  have htext : marks.field key x ++ ',' :: y = '"' :: (key ++ '"' :: ':' :: (x ++ [','] ++ y)) := by
    simp [field_eq]
  rw [htext]
  refine opens_name hkey hne (opens_append ?_ hy)
  simpa using hx

theorem bracket_field (hkey : '[' ∉ key) (hx : '[' ∉ x) (y : List Char) :
    fromFirst ['['] (marks.field key x ++ ',' :: y) = fromFirst ['['] y := by
  have htext : marks.field key x ++ ',' :: y = (marks.field key x ++ [',']) ++ y := by simp
  rw [htext, fromFirst_append]
  simp [field_eq, hkey, hx]

theorem fromFirst_gpusText (report : HardwareReport) (y : List Char) :
    fromFirst ['['] (gpusText report ++ y) = some (gpusText report ++ y) := by
  rw [gpusText, List.cons_append, fromFirst, if_pos]
  rw [List.isPrefixOf_iff_prefix]
  exact List.cons_prefix_cons.mpr ⟨rfl, List.nil_prefix⟩

/-- What the slice begins with. -/
theorem opens_reportTo (report : HardwareReport) (y : List Char) :
    Opens (reportTo report y) (gpusText report ++ y) := by
  have hdigits (n : UInt64) {c : Char} (hc : c.isDigit = false) : c ∉ sizeText n :=
    fun h => sizeText_ne h hc rfl
  have hbracket : fromFirst ['['] (afterNoteTo report y) = some (gpusText report ++ y) := by
    unfold afterNoteTo
    rw [bracket_field (by decide) (hdigits _ rfl), bracket_field (by decide) (hdigits _ rfl)]
    have htext : marks.field "gpus".toList (gpusText report) ++ y =
        "\"gpus\":".toList ++ (gpusText report ++ y) := by
      simp [field_eq]
    rw [htext, fromFirst_append (by decide)]
    exact fromFirst_gpusText report _
  have hafter : Opens (afterNoteTo report y) (gpusText report ++ y) := by
    unfold afterNoteTo
    refine opens_field (by decide) (by decide) (hdigits _ rfl) ?_
    refine opens_field (by decide) (by decide) (hdigits _ rfl) ?_
    have htext : marks.field "gpus".toList (gpusText report) ++ y =
        "\"gpus\"".toList ++ ([':'] ++ (gpusText report ++ y)) := by
      simp [field_eq]
    rw [htext, Opens, fromFirst_self (by decide), Option.bind_some, fromFirst_append (by decide),
      fromFirst_append (by decide)]
    exact fromFirst_gpusText report _
  unfold reportTo
  refine opens_append (x := ['{']) (by decide) ?_
  refine opens_field (by decide) (by decide) (by cases report.probeOk <;> decide) ?_
  have htext : marks.field "note".toList (marks.quoted (jsonEscape report.note)) ++
      ',' :: afterNoteTo report y = '"' :: ("note".toList ++ '"' :: ':' :: ('"' ::
        (jsonEscape report.note ++ '"' :: ',' :: afterNoteTo report y))) := by
    simp [field_eq, quoted_eq]
  rw [htext]
  refine opens_name (by decide) (by decide) ?_
  exact opens_quote (inside_jsonEscape _) hbracket
    (opens_inside (inside_jsonEscape _) hbracket hafter)

theorem sliceGpuArray_reportTo (report : HardwareReport) (y : List Char) :
    sliceGpuArray (reportTo report y) = some (gpusText report) := by
  have hopens := opens_reportTo report y
  obtain ⟨fromKey, hkey, hbracket⟩ := Option.bind_eq_some_iff.mp hopens
  unfold sliceGpuArray
  rw [hkey]
  show (fromFirst ['['] fromKey).bind (arrayFrom 0 false) = _
  rw [hbracket]
  exact arrayFrom_gpusText report _

end Slice

section Fields

variable {p : Regex.Pattern Char}

/-- A search in a device's object that is not for its strings. -/
theorem search_gpuToJson (h : Extracts key p) (hkey : marks.IsKey key)
    (hname : "name".toList ≠ key) (hdescription : "description".toList ≠ key) (gpu : GpuDevice) :
    p.search (gpuToJson gpu) =
      p.search (marks.field "freeBytes".toList (sizeText gpu.freeBytes) ++
        ',' :: (marks.field "totalBytes".toList (sizeText gpu.totalBytes) ++ ['}'])) := by
  rw [gpuToJson_eq, h.open (by decide), gpuBody, List.append_assoc, List.cons_append,
    h.text hkey (by decide) hname, List.append_assoc, List.cons_append,
    h.text hkey (by decide) hdescription, List.append_assoc, List.cons_append]

/-- A search in the report that is neither for the probe's success nor for the note. -/
theorem search_reportTo (h : Extracts key p) (hkey : marks.IsKey key)
    (hprobe : "probeOk".toList ≠ key) (hnote : "note".toList ≠ key) (report : HardwareReport)
    (y : List Char) : p.search (reportTo report y) = p.search (afterNoteTo report y) := by
  rw [reportTo, h.open (by decide), h.flag hkey (by decide) hprobe, h.text hkey (by decide) hnote]

end Fields

/-- A device's object is read back. -/
theorem parseGpu_gpuToJson (gpu : GpuDevice) : parseGpu (gpuToJson gpu) = some gpu.escaped := by
  have hfree : extractUnsigned (gpuToJson gpu) "freeBytes".toList = some gpu.freeBytes := by
    rw [extractUnsigned, search_gpuToJson (.value _) (by decide) (by decide) (by decide)]
    exact extract_sizeText rfl _
  have htotal : extractUnsigned (gpuToJson gpu) "totalBytes".toList = some gpu.totalBytes := by
    rw [extractUnsigned, search_gpuToJson (.value _) (by decide) (by decide) (by decide),
      (Extracts.value digits).size (by decide) (by decide) (by decide)]
    exact extract_sizeText rfl _
  have hname : extractString (gpuToJson gpu) "name".toList =
      some (String.ofList (jsonEscape gpu.name)) := by
    rw [extractString, gpuToJson_eq, Extracts.string.open (by decide), gpuBody, List.append_assoc,
      Marks.search_stringPattern_field (inside_jsonEscape _)]
    rfl
  have hdescription : extractString (gpuToJson gpu) "description".toList =
      some (String.ofList (jsonEscape gpu.description)) := by
    rw [extractString, gpuToJson_eq, Extracts.string.open (by decide), gpuBody, List.append_assoc,
      List.cons_append, Extracts.string.text (by decide) (by decide) (by decide), List.append_assoc,
      Marks.search_stringPattern_field (inside_jsonEscape _)]
    rfl
  rw [parseGpu, hfree, htotal, hname, hdescription]
  rfl

/-- A report is read back whatever follows its devices. -/
theorem parseHardwareReport_reportTo (report : HardwareReport) (y : List Char) :
    parseHardwareReport (reportTo report y) = some report.escaped := by
  have hprobe : extractBool (reportTo report y) "probeOk".toList = some report.probeOk := by
    rw [extractBool, reportTo, (Extracts.value truth).open (by decide)]
    exact extract_boolText _ _
  have hnote : extractString (reportTo report y) "note".toList =
      some (String.ofList (jsonEscape report.note)) := by
    rw [extractString, reportTo, Extracts.string.open (by decide),
      Extracts.string.flag (by decide) (by decide) (by decide),
      Marks.search_stringPattern_field (inside_jsonEscape _)]
    rfl
  have htotal : extractUnsigned (reportTo report y) "ramTotalBytes".toList =
      some report.ram.totalBytes := by
    rw [extractUnsigned, search_reportTo (.value _) (by decide) (by decide) (by decide)]
    exact extract_sizeText rfl _
  have havailable : extractUnsigned (reportTo report y) "ramAvailableBytes".toList =
      some report.ram.availableBytes := by
    rw [extractUnsigned, search_reportTo (.value _) (by decide) (by decide) (by decide),
      afterNoteTo, (Extracts.value digits).size (by decide) (by decide) (by decide)]
    exact extract_sizeText rfl _
  have hgpus : (report.gpus.map gpuToJson).mapM parseGpu =
      some (report.gpus.map GpuDevice.escaped) := by
    induction report.gpus with
    | nil => rfl
    | cons gpu gpus ih =>
        rw [List.map_cons, List.mapM_cons, parseGpu_gpuToJson, ih]
        rfl
  unfold parseHardwareReport
  rw [hprobe, sliceGpuArray_reportTo, hnote, htotal, havailable]
  show ((splitObjects (gpusText report)).mapM parseGpu).bind _ = _
  rw [splitObjects_gpusText, hgpus]
  rfl

/-- A report is read back, with its strings as they stand in the text. -/
theorem parseHardwareReport_toJson (report : HardwareReport) :
    parseHardwareReport (hardwareReportToJson report) = some report.escaped := by
  rw [hardwareReportToJson_reportTo]
  exact parseHardwareReport_reportTo report _

end ServeInfer.Hardware
