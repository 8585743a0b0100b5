import ServeInfer.Hardware.ReportRoundTrip

/-!
# A report that was cut off

A probe that is killed may have written any part of its line. Each search of
`sliceGpuArray` that succeeds in a part of the line finds the same in the whole of it, so
that a part is refused unless it holds every device; and then nothing but the last brace
can be missing.
-/

namespace ServeInfer.Hardware

variable {needle text found array : List Char} {d : ℤ} {inString : Bool}

/-- What is found begins with the needle. -/
theorem fromFirst_starts (h : fromFirst needle text = some found) : needle <+: found := by
  induction text with
  | nil =>
      rw [fromFirst] at h
      split_ifs at h with hnil
      rw [hnil]
      exact List.nil_prefix
  | cons c cs ih =>
      rw [fromFirst] at h
      split_ifs at h with hc
      · obtain rfl := Option.some.inj h
        exact List.isPrefixOf_iff_prefix.mp hc
      · exact ih h

theorem fromFirst_length_le (h : fromFirst needle text = some found) :
    found.length ≤ text.length := by
  induction text with
  | nil =>
      rw [fromFirst] at h
      split_ifs at h with hnil
      obtain rfl := Option.some.inj h
      exact le_rfl
  | cons c cs ih =>
      rw [fromFirst] at h
      split_ifs at h with hc
      · obtain rfl := Option.some.inj h
        exact le_rfl
      · exact Nat.le_succ_of_le (ih h)

/-- A needle that is found in a text is found at the same place in a longer one. -/
theorem fromFirst_extend (h : fromFirst needle text = some found) (s : List Char) :
    fromFirst needle (text ++ s) = some (found ++ s) := by
  induction text with
  | nil =>
      rw [fromFirst] at h
      split_ifs at h with hnil
      obtain rfl := Option.some.inj h
      subst hnil
      cases s <;> rfl
  | cons c cs ih =>
      rw [fromFirst] at h
      split_ifs at h with hc
      · obtain rfl := Option.some.inj h
        have hprefix : needle <+: c :: (cs ++ s) :=
          (List.isPrefixOf_iff_prefix.mp hc).trans (List.prefix_append _ _)
        rw [List.cons_append, fromFirst, if_pos (List.isPrefixOf_iff_prefix.mpr hprefix)]
      · rw [List.cons_append, fromFirst_skip, ih h]
        intro hlonger
        -- A match that began earlier would end before the cut.
        have hshort : needle.length ≤ (c :: cs).length :=
          calc
            needle.length ≤ found.length := (fromFirst_starts h).length_le
            _ ≤ cs.length := fromFirst_length_le h
            _ ≤ (c :: cs).length := Nat.le_succ _
        apply hc
        apply List.isPrefixOf_iff_prefix.mpr
        exact List.prefix_of_prefix_length_le hlonger (List.prefix_append _ _) hshort

/-- Wherever a text begins with the array, the array is what is read. -/
def Closes (d : ℤ) (inString : Bool) (array : List Char) : Prop :=
  ∀ s, arrayFrom d inString (array ++ s) = some array

/-- What closes after a piece of text that only passes on the state closes with it. -/
theorem closes_after {d' : ℤ} {inString' : Bool} {x rest : List Char}
    (hstep : ∀ y, arrayFrom d inString (x ++ y) = (arrayFrom d' inString' y).map (x ++ ·))
    (ih : ∀ {tail}, arrayFrom d' inString' rest = some tail →
      tail <+: rest ∧ Closes d' inString' tail)
    (h : arrayFrom d inString (x ++ rest) = some array) :
    array <+: x ++ rest ∧ Closes d inString array := by
  rw [hstep] at h
  obtain ⟨tail, htail, rfl⟩ := Option.map_eq_some_iff.mp h
  obtain ⟨hstarts, hcloses⟩ := ih htail
  constructor
  · exact (List.prefix_append_right_inj x).mpr hstarts
  · intro s
    rw [List.append_assoc, hstep, hcloses s]
    rfl

/-- An array that is read is what the text begins with, and is read whatever follows it. -/
theorem closes_of_arrayFrom (h : arrayFrom d inString text = some array) :
    array <+: text ∧ Closes d inString array := by
  induction d, inString, text using arrayFrom.induct generalizing array with
  | case1 d inString =>
      rw [arrayFrom] at h
      cases h
  | case2 d =>
      rw [arrayFrom.eq_def] at h
      cases h
  | case3 d c rest ih =>
      exact closes_after (x := ['\\', c]) (fun y => arrayFrom_in_escape) ih h
  | case4 d c rest hbackslash ih =>
      exact closes_after (x := [c]) (fun y => arrayFrom_inString hbackslash) ih h
  | case5 d inString rest hout ih =>
      obtain rfl : inString = false := Bool.eq_false_iff.mpr hout
      exact closes_after (x := ['"']) (fun y => arrayFrom_out_quote) ih h
  | case6 d inString rest hout hquote ih =>
      obtain rfl : inString = false := Bool.eq_false_iff.mpr hout
      exact closes_after (x := ['[']) (fun y => arrayFrom_open) ih h
  | case7 d inString rest hout hd hquote hopen =>
      obtain rfl : inString = false := Bool.eq_false_iff.mpr hout
      rw [arrayFrom_end hd] at h
      obtain rfl := Option.some.inj h
      constructor
      · exact List.prefix_append [']'] rest
      · intro s
        exact arrayFrom_end hd
  | case8 d inString rest hout hd hquote hopen ih =>
      obtain rfl : inString = false := Bool.eq_false_iff.mpr hout
      exact closes_after (x := [']']) (fun y => arrayFrom_close hd) ih h
  | case9 d inString c rest hout hquote hopen hclose ih =>
      obtain rfl : inString = false := Bool.eq_false_iff.mpr hout
      exact closes_after (x := [c]) (fun y => arrayFrom_out hquote hopen hclose) ih h

/-- A text that begins a report and holds a closed array of devices holds all of them. -/
theorem cut_of_slice {report : HardwareReport} {s : List Char}
    (hcut : text ++ s = hardwareReportToJson report) (h : sliceGpuArray text = some array) :
    ∃ y, text = reportTo report y := by
  obtain ⟨fromKey, hkey, hrest⟩ := Option.bind_eq_some_iff.mp h
  obtain ⟨opened, hopen, harray⟩ := Option.bind_eq_some_iff.mp hrest
  have hopens : Opens (text ++ s) (opened ++ s) := by
    rw [Opens, fromFirst_extend hkey, Option.bind_some, fromFirst_extend hopen]
  have hwhole : Opens (text ++ s) (gpusText report ++ ['}']) := by
    rw [hcut, hardwareReportToJson_reportTo]
    exact opens_reportTo report _
  have hplace : opened ++ s = gpusText report ++ ['}'] :=
    Option.some.inj (hopens.symm.trans hwhole)
  obtain ⟨⟨y, rfl⟩, hcloses⟩ := closes_of_arrayFrom harray
  -- Read in the whole line, the array is the line's.
  have hdevices : array = gpusText report := by
    have hline := hcloses (y ++ s)
    rw [← List.append_assoc, hplace, arrayFrom_gpusText] at hline
    exact (Option.some.inj hline).symm
  have hbrace : y ++ s = ['}'] := by
    rw [List.append_assoc, hdevices] at hplace
    exact List.append_cancel_left hplace
  refine ⟨y, ?_⟩
  rw [hardwareReportToJson_reportTo, ← hbrace, reportTo_append] at hcut
  exact List.append_cancel_right hcut

/-- What is read from a part of a report's line is refused or is what is read from the line. -/
theorem truncation_refused_or_harmless (report : HardwareReport)
    (hpart : text <+: hardwareReportToJson report) :
    parseHardwareReport text = none ∨
      parseHardwareReport text = parseHardwareReport (hardwareReportToJson report) := by
  obtain ⟨s, hcut⟩ := hpart
  cases hslice : sliceGpuArray text with
  | none =>
      apply Or.inl
      unfold parseHardwareReport
      rw [hslice]
      cases extractBool text "probeOk".toList <;> rfl
  | some array =>
      apply Or.inr
      obtain ⟨y, rfl⟩ := cut_of_slice hcut hslice
      rw [parseHardwareReport_reportTo, parseHardwareReport_toJson]

/-- A report with one card, without its last character. -/
theorem truncation_refused_or_harmless_brace :
    let report : HardwareReport :=
      { gpus := [⟨"RTX", "CUDA [0]", 6000000000, 8000000000⟩]
        ram := ⟨32000000000, 16000000000⟩
        note := "\"gpus\""
        probeOk := true }
    parseHardwareReport (hardwareReportToJson report).dropLast = none ∨
      parseHardwareReport (hardwareReportToJson report).dropLast =
        parseHardwareReport (hardwareReportToJson report) :=
  truncation_refused_or_harmless _ (List.dropLast_prefix _)

end ServeInfer.Hardware
