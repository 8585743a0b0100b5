import Mathlib.Data.List.Induction
import ServeInfer.Hardware.Oversubscription
import ServeInfer.Hardware.ReportRoundTrip

/-!
# Planning with what came through the pipe

The supervisor plans with the report that it has read, whose strings are still
escaped. An escape ends in no digit, so a name keeps the digits it ends in, and the
plan keeps its figures; the texts themselves survive where there is nothing to escape.
-/

namespace ServeInfer.Hardware

variable {report report' : HardwareReport} {limits : CapacityLimits} {plan plan' : CapacityPlan}
  {ceiling : ℤ} {c : Char} {s : String}

/-- The plan's numbers, without its texts. -/
def CapacityPlan.figures (plan : CapacityPlan) : CapacityPlan :=
  { plan with
    gpuName := ""
    gpuReason := ""
    cpuReason := "" }

/-- The position of the chosen card. -/
def chosenCard (report : HardwareReport) : Option ℕ :=
  match report.gpus with
  | [] => none
  | first :: rest => some (bestGpu first rest).2

section Digits

theorem escape_digit (h : c.isDigit = true) : escape c = [c] := by
  unfold escape
  split_ifs <;> first | rfl | (subst c; cases h)

theorem takeWhile_escape (h : c.isDigit = false) (x : List Char) :
    ((escape c).reverse ++ x).takeWhile Char.isDigit = [] := by
  unfold escape
  split_ifs <;> simp [h]

/-- The digits that a text ends in are those that its escaped form ends in. -/
theorem takeWhile_flatMap_escape (x : List Char) :
    (x.flatMap escape).reverse.takeWhile Char.isDigit = x.reverse.takeWhile Char.isDigit := by
  induction x using List.reverseRecOn with
  | nil => rfl
  | append_singleton x c ih =>
      rw [List.flatMap_append, List.flatMap_singleton, List.reverse_append, List.reverse_append,
        List.reverse_singleton, List.singleton_append]
      cases hc : c.isDigit with
      | true =>
          rw [escape_digit hc, List.reverse_singleton, List.singleton_append,
            List.takeWhile_cons_of_pos hc, List.takeWhile_cons_of_pos hc, ih]
      | false =>
          rw [takeWhile_escape hc, List.takeWhile_cons_of_neg (by simp [hc])]

theorem ordinal_escaped (gpu : GpuDevice) :
    deviceOrdinalFromName gpu.escaped.name = deviceOrdinalFromName gpu.name := by
  have hdigits : trailingDigits gpu.escaped.name = trailingDigits gpu.name := by
    rw [trailingDigits, trailingDigits, GpuDevice.escaped, String.toList_ofList, jsonEscape,
      takeWhile_flatMap_escape]
  funext fallback
  rw [deviceOrdinalFromName, deviceOrdinalFromName, hdigits]

end Digits

section Figures

/-- The choice looks at nothing but the free memory. -/
theorem bestGpu_escaped (first : GpuDevice) (rest : List GpuDevice) :
    bestGpu first.escaped (rest.map GpuDevice.escaped) =
      ((bestGpu first rest).1.escaped, (bestGpu first rest).2) := by
  have hfold (l : List (GpuDevice × ℕ)) (best : GpuDevice × ℕ) :
      (l.map fun gpu => (gpu.1.escaped, gpu.2)).foldl
          (fun best gpu => if best.1.freeBytes < gpu.1.freeBytes then gpu else best)
          (best.1.escaped, best.2) =
        ((l.foldl (fun best gpu => if best.1.freeBytes < gpu.1.freeBytes then gpu else best)
            best).1.escaped,
          (l.foldl (fun best gpu => if best.1.freeBytes < gpu.1.freeBytes then gpu else best)
            best).2) := by
    induction l generalizing best with
    | nil => rfl
    | cons gpu l ih =>
        rw [List.map_cons, List.foldl_cons, List.foldl_cons, ← ih]
        congr 1
        show (if best.1.freeBytes < gpu.1.freeBytes then _ else _) = _
        split <;> rfl
  unfold bestGpu
  rw [List.zipIdx_map]
  exact hfold _ (first, 0)

theorem planCard_escaped (limits : CapacityLimits) (ceiling : ℤ) (best : GpuDevice)
    (position : ℕ) : (planCard limits ceiling best.escaped position).map CapacityPlan.figures =
      (planCard limits ceiling best position).map CapacityPlan.figures := by
  obtain ⟨ordinal, hordinal⟩ := Option.isSome_iff_exists.mp
    (deviceOrdinalFromName_isSome best.name (CInt.toInt position))
  have hescaped : deviceOrdinalFromName best.escaped.name (CInt.toInt position) = some ordinal :=
    (congrFun (ordinal_escaped best) _).trans hordinal
  have hfree : best.escaped.freeBytes = best.freeBytes := rfl
  have htotal : best.escaped.totalBytes = best.totalBytes := rfl
  simp only [planCard, hordinal, hescaped, hfree, htotal, Option.bind_eq_bind, Option.bind_some,
    long_sub_reserve limits.gpuReserveMb_long]
  split
  · simp only [Option.map_some, CapacityPlan.figures]
  · split
    · simp only [Option.map_some, CapacityPlan.figures]
    · cases CInt.divLong (max 0 (bytesToMb best.freeBytes - max 0 limits.gpuReserveMb))
          limits.workerGpuMb with
      | none => simp only [Option.bind_none, Option.map_none]
      | some quotient => simp only [Option.bind_some, Option.map_some, CapacityPlan.figures]

theorem planGpus_escaped (report : HardwareReport) (limits : CapacityLimits) (ceiling : ℤ) :
    (planGpus report.escaped limits ceiling).map CapacityPlan.figures =
      (planGpus report limits ceiling).map CapacityPlan.figures := by
  obtain ⟨gpus, ram, note, probeOk⟩ := report
  unfold planGpus HardwareReport.escaped
  cases probeOk with
  | false => simp only [Bool.not_false, if_true, Option.map_some, CapacityPlan.figures]
  | true =>
      cases gpus with
      | nil => simp only [List.map_nil, Bool.not_true, Bool.false_eq_true, if_false]
      | cons first rest =>
          show (planCard limits ceiling _ _).map _ = (planCard limits ceiling _ _).map _
          rw [bestGpu_escaped]
          exact planCard_escaped limits ceiling _ _

theorem planRam_figures (hram : report'.ram = report.ram) (hplan : plan'.figures = plan.figures) :
    (planRam report' limits ceiling plan').map CapacityPlan.figures =
      (planRam report limits ceiling plan).map CapacityPlan.figures := by
  simp only [CapacityPlan.figures, CapacityPlan.mk.injEq] at hplan
  have hslots : plan'.gpuWorkerCapacity = plan.gpuWorkerCapacity := hplan.1
  cases hint : CInt.int (ceiling - plan.gpuWorkerCapacity) with
  | none => simp only [planRam, hslots, hint, Option.bind_eq_bind, Option.bind_none]
  | some slots =>
      simp only [planRam, hram, hslots, hint, Option.bind_eq_bind, Option.bind_some,
        long_sub_reserve limits.ramReserveMb_long]
      split
      · simp [CapacityPlan.figures, hplan]
      · split
        · simp [CapacityPlan.figures, hplan]
        · cases CInt.divLong (max 0 (bytesToMb report.ram.availableBytes -
            max 0 limits.ramReserveMb)) limits.workerRamMb with
          | none => rfl
          | some quotient => simp [CapacityPlan.figures, hplan]

theorem planCapacity_escaped (report : HardwareReport) (limits : CapacityLimits) :
    (planCapacity report.escaped limits).map CapacityPlan.figures =
      (planCapacity report limits).map CapacityPlan.figures := by
  have hgpus := planGpus_escaped report limits (max 0 limits.maxWorkers)
  unfold planCapacity
  cases hescaped : planGpus report.escaped limits (max 0 limits.maxWorkers) with
  | none =>
      rw [hescaped] at hgpus
      rw [Option.map_eq_none_iff.mp hgpus.symm]
      rfl
  | some plan' =>
      rw [hescaped] at hgpus
      obtain ⟨plan, hplan, hfigures⟩ := Option.map_eq_some_iff.mp hgpus.symm
      rw [hplan]
      exact planRam_figures rfl hfigures.symm

/-- The plan of the supervisor, who has read the report, has the figures of the plan of the
probing child, who has it; no text changes a byte count, the cards, the choice or the ordinal. -/
theorem plan_through_pipe (report : HardwareReport) (limits : CapacityLimits) :
    ∃ parsed, parseHardwareReport (hardwareReportToJson report) = some parsed ∧
      (planCapacity parsed limits).map CapacityPlan.figures =
        (planCapacity report limits).map CapacityPlan.figures ∧
      parsed.ram = report.ram ∧ parsed.probeOk = report.probeOk ∧
      parsed.gpus.map GpuDevice.freeBytes = report.gpus.map GpuDevice.freeBytes ∧
      parsed.gpus.map GpuDevice.totalBytes = report.gpus.map GpuDevice.totalBytes ∧
      (parsed.gpus.map fun gpu => deviceOrdinalFromName gpu.name) =
        (report.gpus.map fun gpu => deviceOrdinalFromName gpu.name) ∧
      chosenCard parsed = chosenCard report := by
  refine ⟨report.escaped, parseHardwareReport_toJson report, planCapacity_escaped report limits,
    rfl, rfl, ?_, ?_, ?_, ?_⟩
  · rw [HardwareReport.escaped, List.map_map]
    rfl
  · rw [HardwareReport.escaped, List.map_map]
    rfl
  · simp only [HardwareReport.escaped, List.map_map, Function.comp_def, ordinal_escaped]
  · unfold chosenCard HardwareReport.escaped
    cases report.gpus with
    | nil => rfl
    | cons first rest =>
        simp only [List.map_cons, bestGpu_escaped]

end Figures

section Texts

/-- The text has nothing that `jsonEscape` would escape. -/
def Plain (s : String) : Prop := ∀ c ∈ s.toList, c ∉ ['\\', '"', '\n', '\r', '\t']

theorem escape_eq (h : c ∉ ['\\', '"', '\n', '\r', '\t']) : escape c = [c] := by
  simp only [List.mem_cons, List.not_mem_nil, or_false, not_or] at h
  obtain ⟨hbackslash, hquote, hnewline, hreturn, htab⟩ := h
  rw [escape, if_neg hbackslash, if_neg hquote, if_neg hnewline, if_neg hreturn, if_neg htab]

theorem length_escape (h : c ∈ ['\\', '"', '\n', '\r', '\t']) : (escape c).length = 2 := by
  simp only [List.mem_cons, List.not_mem_nil, or_false] at h
  rcases h with rfl | rfl | rfl | rfl | rfl <;> rfl

theorem length_escape_pos (c : Char) : 1 ≤ (escape c).length := by
  by_cases h : c ∈ ['\\', '"', '\n', '\r', '\t']
  · rw [length_escape h]
    decide
  · rw [escape_eq h]
    exact le_rfl

theorem length_le_flatMap_escape (x : List Char) : x.length ≤ (x.flatMap escape).length := by
  induction x with
  | nil => exact le_rfl
  | cons c x ih =>
      have hpos := length_escape_pos c
      rw [List.flatMap_cons, List.length_append, List.length_cons]
      omega

/-- An escape makes a text longer, so that only a plain text stays as it is. -/
theorem flatMap_escape_eq_iff (x : List Char) :
    x.flatMap escape = x ↔ ∀ c ∈ x, c ∉ ['\\', '"', '\n', '\r', '\t'] := by
  induction x with
  | nil => simp
  | cons c x ih =>
      rw [List.flatMap_cons, List.forall_mem_cons, ← ih]
      by_cases h : c ∈ ['\\', '"', '\n', '\r', '\t']
      · refine ⟨fun heq => ?_, fun hplain => absurd h hplain.1⟩
        have hlength := congrArg List.length heq
        have hle := length_le_flatMap_escape x
        rw [List.length_append, length_escape h, List.length_cons] at hlength
        omega
      · rw [escape_eq h, List.singleton_append, List.cons.injEq]
        exact ⟨fun heq => ⟨h, heq.2⟩, fun hplain => ⟨rfl, hplain.2⟩⟩

theorem ofList_jsonEscape_eq_iff (s : String) : String.ofList (jsonEscape s) = s ↔ Plain s := by
  rw [Plain, ← flatMap_escape_eq_iff]
  constructor
  · intro h
    have htext := congrArg String.toList h
    rwa [String.toList_ofList] at htext
  · intro h
    rw [jsonEscape, h, String.ofList_toList]

/-- The report's texts are read back as they were exactly where none of them has a
backslash, a quote, a line break, a carriage return or a tab. -/
theorem texts_through_pipe_iff (report : HardwareReport) :
    (∃ parsed, parseHardwareReport (hardwareReportToJson report) = some parsed ∧
        parsed.note = report.note ∧
        parsed.gpus.map GpuDevice.name = report.gpus.map GpuDevice.name ∧
        parsed.gpus.map GpuDevice.description = report.gpus.map GpuDevice.description) ↔
      Plain report.note ∧ ∀ gpu ∈ report.gpus, Plain gpu.name ∧ Plain gpu.description := by
  have hnote : report.escaped.note = report.note ↔ Plain report.note :=
    ofList_jsonEscape_eq_iff report.note
  have hnames : report.escaped.gpus.map GpuDevice.name = report.gpus.map GpuDevice.name ↔
      ∀ gpu ∈ report.gpus, Plain gpu.name := by
    simp only [HardwareReport.escaped, List.map_map, List.map_inj_left, Function.comp_apply,
      GpuDevice.escaped, ofList_jsonEscape_eq_iff]
  have hdescriptions : report.escaped.gpus.map GpuDevice.description =
      report.gpus.map GpuDevice.description ↔ ∀ gpu ∈ report.gpus, Plain gpu.description := by
    simp only [HardwareReport.escaped, List.map_map, List.map_inj_left, Function.comp_apply,
      GpuDevice.escaped, ofList_jsonEscape_eq_iff]
  simp only [parseHardwareReport_toJson, Option.some.injEq, exists_eq_left', hnote, hnames,
    hdescriptions, forall_and]

/-- A card's description with quotes and a backslash comes out with their escapes. -/
theorem not_texts_through_pipe :
    ¬ ∀ report : HardwareReport, ∃ parsed,
      parseHardwareReport (hardwareReportToJson report) = some parsed ∧
        parsed.note = report.note ∧
        parsed.gpus.map GpuDevice.name = report.gpus.map GpuDevice.name ∧
        parsed.gpus.map GpuDevice.description = report.gpus.map GpuDevice.description := by
  intro h
  obtain ⟨parsed, hparsed, -, -, hdescriptions⟩ := h
    { gpus := [{ name := "CUDA0", description := "GPU \"fast\" \\ rev 2" }]
      probeOk := true }
  rw [parseHardwareReport_toJson] at hparsed
  cases hparsed
  revert hdescriptions
  decide

end Texts

end ServeInfer.Hardware
