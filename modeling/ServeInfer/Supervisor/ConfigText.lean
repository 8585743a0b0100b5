import ServeInfer.Hardware.ReportRoundTrip
import ServeInfer.InferenceWorker.EscapedText
import ServeInfer.Lib.Charset
import ServeInfer.Lib.JsonControls
import ServeInfer.Supervisor.ModelConfig

/-!
# What the published configuration says

The text as the object that it is meant to be, in whatever encoding its strings are. It
reads as that object unless one of the strings has a control character that none of the
escapers escapes.
-/

namespace ServeInfer.Supervisor

open Hardware (HardwareReport GpuDevice CapacityPlan)
open Utf8 (CodeUnit)

section Escapers

variable {M : Charset} {text : List Char} {c : Char}

/-- A control character that the escapers leave as it is. -/
def RawChar (c : Char) : Prop := c.toNat < 0x20 ∧ c ≠ '\n' ∧ c ≠ '\r' ∧ c ≠ '\t'

instance (c : Char) : Decidable (RawChar c) := inferInstanceAs (Decidable (_ ∧ _ ∧ _ ∧ _))

theorem jsonEscape_eq (text : List Char) : jsonEscape text = text.flatMap Hardware.escape := by
  apply List.flatMap_congr
  intro c _
  unfold Hardware.escape
  split <;> simp_all

theorem planEscape_eq (s : String) :
    CapacityPlan.jsonEscape s = s.toList.flatMap Hardware.escape := by
  apply List.flatMap_congr
  intro c _
  unfold CapacityPlan.escape Hardware.escape
  by_cases hquote : c = '"'
  · subst hquote
    rfl
  · rw [if_neg hquote, if_neg hquote]

/-- The escape is the one of bytes, in every encoding. -/
theorem encode_escape (text : List Char) :
    M.encode (text.flatMap Hardware.escape) = InferenceWorker.jsonEscape (M.encode text) := by
  have hascii : ∀ n : Fin 0x80,
      (Hardware.escape (Char.ofNat n)).map (fun c => UInt8.ofNat c.toNat) =
          InferenceWorker.escape (.ofNat n) ∧
        ∀ c ∈ Hardware.escape (Char.ofNat n), c.toNat < 0x80 := by
    decide
  have hchar : ∀ c : Char,
      M.encode (Hardware.escape c) = InferenceWorker.jsonEscape (M.bytes c) := by
    intro c
    by_cases hc : c.toNat < 0x80
    · obtain ⟨hmap, hlow⟩ := hascii ⟨c.toNat, hc⟩
      dsimp only at hmap hlow
      rw [Char.ofNat_toNat] at hmap hlow
      have hbytes : M.encode (Hardware.escape c) =
          (Hardware.escape c).map fun c => UInt8.ofNat c.toNat := by
        rw [Charset.encode, List.flatMap_congr fun d hd => M.ascii d (hlow d hd),
          List.map_eq_flatMap]
      rw [hbytes, hmap, M.ascii c hc, InferenceWorker.jsonEscape, List.flatMap_singleton]
    · have hhigh := M.high c (Nat.not_lt.mp hc)
      have hne : ∀ d : Char, d.toNat < 0x80 → c ≠ d := by
        rintro d hd rfl
        exact hc hd
      have hself : Hardware.escape c = [c] := by
        unfold Hardware.escape
        rw [if_neg (hne _ (by decide)), if_neg (hne _ (by decide)), if_neg (hne _ (by decide)),
          if_neg (hne _ (by decide)), if_neg (hne _ (by decide))]
      have hbytes : InferenceWorker.jsonEscape (M.bytes c) = M.bytes c := by
        rw [InferenceWorker.jsonEscape,
          List.flatMap_congr fun b hb => InferenceWorker.escape_other (hhigh b hb),
          List.flatMap_singleton']
      rw [hself, hbytes, Charset.encode, List.flatMap_singleton]
  induction text with
  | nil => rfl
  | cons c text ih =>
      rw [List.flatMap_cons, Charset.encode_append, ih, hchar, Charset.encode, Charset.encode,
        List.flatMap_cons, InferenceWorker.jsonEscape, InferenceWorker.jsonEscape,
        InferenceWorker.jsonEscape, List.flatMap_append]

/-- Raw bytes are raw characters. -/
theorem rough_encode (htext : ∀ c ∈ text, ¬ RawChar c) :
    InferenceWorker.rough (M.encode text) = false := by
  have hall : ∀ n : Fin 0x80, InferenceWorker.raw (.ofNat n) = true → RawChar (Char.ofNat n) := by
    decide
  rw [InferenceWorker.rough, List.any_eq_false]
  intro b hb hraw
  obtain ⟨c, hc, hmem⟩ := List.mem_flatMap.mp hb
  have hlow := InferenceWorker.toNat_lt_of_raw hraw
  by_cases hascii : c.toNat < 0x80
  · rw [M.ascii c hascii, List.mem_singleton] at hmem
    subst hmem
    have hchar := hall ⟨c.toNat, hascii⟩ hraw
    dsimp only at hchar
    rw [Char.ofNat_toNat] at hchar
    exact htext c hc hchar
  · exact absurd hlow (Nat.not_lt.mpr (M.high c (Nat.not_lt.mp hascii) b hmem))

/-- A string is read unless a raw character is left in it. -/
theorem speaks_escape (htext : ∀ c ∈ text, ¬ RawChar c) :
    M.Speaks ('"' :: (text.flatMap Hardware.escape ++ ['"'])) (.str (M.units text)) := by
  apply Charset.speaks_quoted
  have hunits : M.units (text.flatMap Hardware.escape) =
      (M.units text).flatMap InferenceWorker.escapeUnit := by
    rw [Charset.units, encode_escape, InferenceWorker.decode_jsonEscape, Charset.units]
  rw [hunits]
  apply InferenceWorker.readsInside_escapeUnit
  intro u hu hraw
  have hrough := (InferenceWorker.rough_iff_of_mirrors (Utf8.mirrors_decode (M.encode text))).mp
    ⟨u, hu, hraw⟩
  rw [rough_encode htext] at hrough
  cases hrough

theorem mem_escape (hc : RawChar c) (hmem : c ∈ text) : c ∈ text.flatMap Hardware.escape := by
  obtain ⟨hlow, hnewline, hreturn, htab⟩ := hc
  refine List.mem_flatMap.mpr ⟨c, hmem, ?_⟩
  have hquote : c ≠ '"' := by
    rintro rfl
    exact absurd hlow (by decide)
  have hbackslash : c ≠ '\\' := by
    rintro rfl
    exact absurd hlow (by decide)
  unfold Hardware.escape
  rw [if_neg hbackslash, if_neg hquote, if_neg hnewline, if_neg hreturn, if_neg htab]
  exact List.mem_singleton_self c

end Escapers

section Members

/-- A string between quotes. -/
def stringText (s : String) : List Char := '"' :: (s.toList.flatMap Hardware.escape ++ ['"'])

def gpuMembers (gpu : GpuDevice) : List (String × List Char) :=
  [("name", stringText gpu.name), ("description", stringText gpu.description),
    ("freeBytes", Hardware.sizeText gpu.freeBytes),
    ("totalBytes", Hardware.sizeText gpu.totalBytes)]

def reportMembers (report : HardwareReport) : List (String × List Char) :=
  [("probeOk", Hardware.boolText report.probeOk), ("note", stringText report.note),
    ("ramTotalBytes", Hardware.sizeText report.ram.totalBytes),
    ("ramAvailableBytes", Hardware.sizeText report.ram.availableBytes),
    ("gpus", Charset.arrayText (report.gpus.map Hardware.gpuToJson))]

def planMembers (plan : CapacityPlan) : List (String × List Char) :=
  [("gpuWorkerCapacity", Text.decimal plan.gpuWorkerCapacity),
    ("cpuWorkerCapacity", Text.decimal plan.cpuWorkerCapacity),
    ("totalVramMb", Text.decimal plan.totalVramMb), ("freeVramMb", Text.decimal plan.freeVramMb),
    ("usableGpuMb", Text.decimal plan.usableGpuMb), ("totalRamMb", Text.decimal plan.totalRamMb),
    ("availableRamMb", Text.decimal plan.availableRamMb),
    ("usableRamMb", Text.decimal plan.usableRamMb), ("gpuName", stringText plan.gpuName),
    ("gpuIndex", Text.decimal plan.gpuIndex), ("gpuReason", stringText plan.gpuReason),
    ("cpuReason", stringText plan.cpuReason)]

def assignmentMembers (assignment : WorkerAssignment) : List (String × List Char) :=
  [("workerId", Text.decimal assignment.workerId),
    ("backend", '"' :: (assignment.backend.name.toList ++ ['"'])),
    ("gpuIndex", Text.decimal assignment.gpuIndex), ("reason", stringText assignment.reason)]

def configMembers (c : ModelConfig) : List (String × List Char) :=
  [("modelPath", stringText c.modelPath), ("shmName", stringText c.shmName),
    ("workerCount", Text.decimal c.effectiveWorkerCount),
    ("configuredWorkerCount", Text.decimal c.workerCount),
    ("pollIntervalMs", Text.decimal c.pollIntervalMs),
    ("hardware", Hardware.hardwareReportToJson c.hardware),
    ("capacity", Hardware.capacityPlanToJson c.plan),
    ("assignments", Hardware.workerAssignmentsToJson c.assignments)]

theorem gpuToJson_eq (gpu : GpuDevice) :
    Hardware.gpuToJson gpu = Charset.objectText (gpuMembers gpu) := by
  rw [Hardware.gpuToJson_eq]
  rfl

theorem hardwareReportToJson_eq (report : HardwareReport) :
    Hardware.hardwareReportToJson report = Charset.objectText (reportMembers report) := by
  rw [Hardware.hardwareReportToJson_eq, Hardware.afterNote]
  simp [reportMembers, Charset.objectText, Charset.membersText, Charset.memberText, stringText,
    Hardware.field_eq, Hardware.quoted_eq, Hardware.gpusText, Charset.arrayText,
    Hardware.jsonEscape]

theorem capacityPlanToJson_eq (plan : CapacityPlan) :
    Hardware.capacityPlanToJson plan = Charset.objectText (planMembers plan) := by
  have hopen : "\x7b".toList = ['{'] := by decide
  have hfirst : "\"gpuWorkerCapacity\":".toList =
      '"' :: ("gpuWorkerCapacity".toList ++ ['"', ':']) := by
    decide
  have h1 : ",\"cpuWorkerCapacity\":".toList =
      ',' :: '"' :: ("cpuWorkerCapacity".toList ++ ['"', ':']) := by
    decide
  have h2 : ",\"totalVramMb\":".toList = ',' :: '"' :: ("totalVramMb".toList ++ ['"', ':']) := by
    decide
  have h3 : ",\"freeVramMb\":".toList = ',' :: '"' :: ("freeVramMb".toList ++ ['"', ':']) := by
    decide
  have h4 : ",\"usableGpuMb\":".toList = ',' :: '"' :: ("usableGpuMb".toList ++ ['"', ':']) := by
    decide
  have h5 : ",\"totalRamMb\":".toList = ',' :: '"' :: ("totalRamMb".toList ++ ['"', ':']) := by
    decide
  have h6 : ",\"availableRamMb\":".toList =
      ',' :: '"' :: ("availableRamMb".toList ++ ['"', ':']) := by
    decide
  have h7 : ",\"usableRamMb\":".toList = ',' :: '"' :: ("usableRamMb".toList ++ ['"', ':']) := by
    decide
  have h8 : ",\"gpuIndex\":".toList = ',' :: '"' :: ("gpuIndex".toList ++ ['"', ':']) := by
    decide
  have h9 : ",\"gpuName\":\"".toList = ',' :: '"' :: ("gpuName".toList ++ ['"', ':', '"']) := by
    decide
  have h10 : ",\"gpuReason\":\"".toList =
      ',' :: '"' :: ("gpuReason".toList ++ ['"', ':', '"']) := by
    decide
  have h11 : ",\"cpuReason\":\"".toList =
      ',' :: '"' :: ("cpuReason".toList ++ ['"', ':', '"']) := by
    decide
  have hquote : "\"".toList = ['"'] := by decide
  have hclose : "\x7d".toList = ['}'] := by decide
  unfold Hardware.capacityPlanToJson
  simp only [hopen, hfirst, h1, h2, h3, h4, h5, h6, h7, h8, h9, h10, h11, hquote, hclose,
    planEscape_eq, planMembers, Charset.objectText, Charset.membersText, Charset.memberText,
    stringText, List.append_assoc, List.cons_append, List.nil_append]

theorem assignmentToJson_eq (assignment : WorkerAssignment) :
    Hardware.assignmentToJson assignment = Charset.objectText (assignmentMembers assignment) := by
  have hworkerId : "\x7b\"workerId\":".toList =
      '{' :: '"' :: ("workerId".toList ++ ['"', ':']) := by
    decide
  have hbackend : ",\"backend\":\"".toList =
      ',' :: '"' :: ("backend".toList ++ ['"', ':', '"']) := by
    decide
  have hgpuIndex : ",\"gpuIndex\":".toList = ',' :: '"' :: ("gpuIndex".toList ++ ['"', ':']) := by
    decide
  have hreason : ",\"reason\":\"".toList = ',' :: '"' :: ("reason".toList ++ ['"', ':', '"']) := by
    decide
  have hquote : "\"".toList = ['"'] := by decide
  have hclose : "\x7d".toList = ['}'] := by decide
  unfold Hardware.assignmentToJson
  simp only [hworkerId, hbackend, hgpuIndex, hreason, hquote, hclose,
    planEscape_eq, assignmentMembers, Charset.objectText, Charset.membersText,
    Charset.memberText, stringText, List.append_assoc, List.cons_append, List.nil_append]

theorem workerAssignmentsToJson_eq (assignments : List WorkerAssignment) :
    Hardware.workerAssignmentsToJson assignments =
      Charset.arrayText (assignments.map Hardware.assignmentToJson) := by
  have hopen : "[".toList = ['['] := by decide
  have hclose : "]".toList = [']'] := by decide
  rw [Hardware.workerAssignmentsToJson, hopen, hclose, List.append_assoc]
  rfl

/-- The file is an object in one line. -/
theorem writeModelConfig_eq (c : ModelConfig) :
    writeModelConfig c = Charset.objectText (configMembers c) ++ ['\n'] := by
  have hmodelPath : "\x7b\"modelPath\":\"".toList =
      '{' :: '"' :: ("modelPath".toList ++ ['"', ':', '"']) := by decide
  have hshmName : "\",\"shmName\":\"".toList =
      '"' :: ',' :: '"' :: ("shmName".toList ++ ['"', ':', '"']) := by decide
  have hworkerCount : "\",\"workerCount\":".toList =
      '"' :: ',' :: '"' :: ("workerCount".toList ++ ['"', ':']) := by decide
  have hconfigured : ",\"configuredWorkerCount\":".toList =
      ',' :: '"' :: ("configuredWorkerCount".toList ++ ['"', ':']) := by decide
  have hpoll : ",\"pollIntervalMs\":".toList =
      ',' :: '"' :: ("pollIntervalMs".toList ++ ['"', ':']) := by decide
  have hhardware : ",\"hardware\":".toList = ',' :: '"' :: ("hardware".toList ++ ['"', ':']) := by
    decide
  have hcapacity : ",\"capacity\":".toList = ',' :: '"' :: ("capacity".toList ++ ['"', ':']) := by
    decide
  have hassignments : ",\"assignments\":".toList =
      ',' :: '"' :: ("assignments".toList ++ ['"', ':']) := by decide
  have hclose : "\x7d\n".toList = ['}', '\n'] := by decide
  unfold writeModelConfig
  simp only [hmodelPath, hshmName, hworkerCount, hconfigured, hpoll, hhardware,
    hcapacity, hassignments, hclose, jsonEscape_eq, configMembers, Charset.objectText,
    Charset.membersText, Charset.memberText, stringText, List.append_assoc, List.cons_append,
    List.nil_append]

end Members

section Clean

/-- A string that the escapers leave no control character in. -/
def Clean (s : String) : Prop := ∀ c ∈ s.toList, ¬ RawChar c

instance (s : String) : Decidable (Clean s) := inferInstanceAs (Decidable (∀ _ ∈ _, _))

variable {s t : String} {plan : CapacityPlan} {assignment : WorkerAssignment}

theorem Clean.append (hs : Clean s) (ht : Clean t) : Clean (s ++ t) := by
  intro c hc
  rw [String.toList_append] at hc
  rcases List.mem_append.mp hc with hc | hc
  · exact hs c hc
  · exact ht c hc

theorem clean_toString (n : ℤ) : Clean (toString n) := by
  have hnat : ∀ k : ℕ, Clean (toString k) := by
    intro k c hc
    rw [Nat.toString_eq_ofList_toDigits, String.toList_ofList] at hc
    have hdigit : 0x30 ≤ c.toNat ∧ c.toNat ≤ 0x39 :=
      Char.isDigit_iff_toNat.mp (Text.isDigit_of_mem_digits hc)
    intro hraw
    have hlow := hraw.1
    omega
  cases n with
  | ofNat k => exact hnat k
  | negSucc k =>
      have hsign : Clean "-" := by decide
      exact hsign.append (hnat (k + 1))

/-- What `assignWorkers` adds to the plan's reason is clean. -/
theorem clean_assignWorker (hreason : Clean plan.gpuReason) (workerId : ℤ) :
    Clean (Hardware.assignWorker plan workerId).reason := by
  have hslot : Clean "gpu slot " := by decide
  have hof : Clean " of " := by decide
  have hopen : Clean " (" := by decide
  have hclose : Clean ")" := by decide
  have hnone : Clean "no gpu slot: " := by decide
  have hcapacity : Clean "gpu capacity " := by decide
  have hfilled : Clean " already filled" := by decide
  unfold Hardware.assignWorker
  split
  · exact ((((((hslot.append (clean_toString _)).append hof).append (clean_toString _)).append
      hopen).append hreason).append hclose)
  · dsimp only
    split
    · exact hnone.append hreason
    · exact (hcapacity.append (clean_toString _)).append hfilled

end Clean

section Values

variable {M : Charset}

/-- The strings that are published, but for those made of them. -/
def ModelConfig.texts (c : ModelConfig) : List String :=
  c.modelPath :: c.shmName :: c.hardware.note ::
    (c.hardware.gpus.flatMap fun gpu => [gpu.name, gpu.description]) ++
      [c.plan.gpuName, c.plan.gpuReason, c.plan.cpuReason]

theorem speaks_stringText {s : String} (hs : Clean s) :
    M.Speaks (stringText s) (.str (M.units s.toList)) :=
  speaks_escape hs

theorem speaks_sizeText (n : UInt64) :
    M.Speaks (Hardware.sizeText n) (.num (Json.decimalUnits n.toNat)) := by
  have htext : Hardware.sizeText n = Text.decimal n.toNat := by
    unfold Hardware.sizeText Text.decimal
    rw [if_neg (by omega)]
    rfl
  rw [htext]
  exact Charset.speaks_decimal _

theorem speaks_boolText (flag : Bool) : M.Speaks (Hardware.boolText flag) (.bool flag) := by
  have htext : Hardware.boolText flag = (toString flag).toList := by cases flag <;> rfl
  rw [htext]
  exact Charset.speaks_bool flag

theorem exists_speaks_gpu {gpu : GpuDevice} (hname : Clean gpu.name)
    (hdescription : Clean gpu.description) : ∃ v, M.Speaks (Hardware.gpuToJson gpu) v := by
  rw [gpuToJson_eq]
  apply Charset.exists_speaks_object
  simp only [gpuMembers, List.forall_mem_cons]
  exact ⟨⟨by decide, _, speaks_stringText hname⟩, ⟨by decide, _, speaks_stringText hdescription⟩,
    ⟨by decide, _, speaks_sizeText _⟩, ⟨by decide, _, speaks_sizeText _⟩, by simp⟩

theorem exists_speaks_report {report : HardwareReport} (hnote : Clean report.note)
    (hgpus : ∀ gpu ∈ report.gpus, Clean gpu.name ∧ Clean gpu.description) :
    ∃ v, M.Speaks (Hardware.hardwareReportToJson report) v := by
  have hdevices : ∃ v, M.Speaks (Charset.arrayText (report.gpus.map Hardware.gpuToJson)) v := by
    apply Charset.exists_speaks_array
    intro t ht
    obtain ⟨gpu, hgpu, rfl⟩ := List.mem_map.mp ht
    obtain ⟨hname, hdescription⟩ := hgpus gpu hgpu
    exact exists_speaks_gpu hname hdescription
  rw [hardwareReportToJson_eq]
  apply Charset.exists_speaks_object
  simp only [reportMembers, List.forall_mem_cons]
  exact ⟨⟨by decide, _, speaks_boolText _⟩, ⟨by decide, _, speaks_stringText hnote⟩,
    ⟨by decide, _, speaks_sizeText _⟩, ⟨by decide, _, speaks_sizeText _⟩, ⟨by decide, hdevices⟩,
    by simp⟩

theorem exists_speaks_plan {plan : CapacityPlan} (hname : Clean plan.gpuName)
    (hgpu : Clean plan.gpuReason) (hcpu : Clean plan.cpuReason) :
    ∃ v, M.Speaks (Hardware.capacityPlanToJson plan) v := by
  have hint : ∀ n : ℤ, ∃ v, M.Speaks (Text.decimal n) v := fun n => ⟨_, Charset.speaks_decimal n⟩
  rw [capacityPlanToJson_eq]
  apply Charset.exists_speaks_object
  simp only [planMembers, List.forall_mem_cons]
  exact ⟨⟨by decide, hint _⟩, ⟨by decide, hint _⟩, ⟨by decide, hint _⟩, ⟨by decide, hint _⟩,
    ⟨by decide, hint _⟩, ⟨by decide, hint _⟩, ⟨by decide, hint _⟩, ⟨by decide, hint _⟩,
    ⟨by decide, _, speaks_stringText hname⟩, ⟨by decide, hint _⟩,
    ⟨by decide, _, speaks_stringText hgpu⟩, ⟨by decide, _, speaks_stringText hcpu⟩, by simp⟩

theorem exists_speaks_assignment {assignment : WorkerAssignment} (h : Clean assignment.reason) :
    ∃ v, M.Speaks (Hardware.assignmentToJson assignment) v := by
  have hbackend : assignment.backend.name.toList.flatMap Hardware.escape =
      assignment.backend.name.toList ∧ Clean assignment.backend.name := by
    cases assignment.backend <;> decide
  have hname := speaks_stringText (M := M) hbackend.2
  rw [stringText, hbackend.1] at hname
  rw [assignmentToJson_eq]
  apply Charset.exists_speaks_object
  simp only [assignmentMembers, List.forall_mem_cons]
  exact ⟨⟨by decide, _, Charset.speaks_decimal _⟩, ⟨by decide, _, hname⟩,
    ⟨by decide, _, Charset.speaks_decimal _⟩, ⟨by decide, _, speaks_stringText h⟩, by simp⟩

/-- With clean strings the file is read, and its count is the one that was published. -/
theorem exists_speaks_config {c : ModelConfig} (hclean : ∀ s ∈ c.texts, Clean s)
    (hreasons : ∀ a ∈ c.assignments, Clean a.reason) :
    ∃ members, M.Speaks (Charset.objectText (configMembers c)) (.obj members) ∧
      Json.get? (.obj members) "workerCount" =
        some (.num (Json.decimalUnits c.effectiveWorkerCount)) := by
  simp only [ModelConfig.texts, List.cons_append, List.forall_mem_cons, List.forall_mem_append,
    List.forall_mem_flatMap] at hclean
  obtain ⟨hpath, hshm, hnote, hgpus, hname, hgpu, hcpu, -⟩ := hclean
  have hdevices : ∀ gpu ∈ c.hardware.gpus, Clean gpu.name ∧ Clean gpu.description := by
    intro gpu hgpu
    obtain ⟨hname, hdescription, -⟩ := hgpus gpu hgpu
    exact ⟨hname, hdescription⟩
  obtain ⟨report, hreport⟩ := exists_speaks_report (M := M) hnote hdevices
  obtain ⟨plan, hplan⟩ := exists_speaks_plan (M := M) hname hgpu hcpu
  have hitems : ∀ t ∈ c.assignments.map Hardware.assignmentToJson, ∃ v, M.Speaks t v := by
    intro t ht
    obtain ⟨a, ha, rfl⟩ := List.mem_map.mp ht
    exact exists_speaks_assignment (hreasons a ha)
  obtain ⟨assignments, hassignments⟩ := Charset.exists_speaks_array hitems
  rw [← workerAssignmentsToJson_eq] at hassignments
  refine ⟨[(Json.units "modelPath", .str (M.units c.modelPath.toList)),
    (Json.units "shmName", .str (M.units c.shmName.toList)),
    (Json.units "workerCount", .num (Json.decimalUnits c.effectiveWorkerCount)),
    (Json.units "configuredWorkerCount", .num (Json.decimalUnits c.workerCount)),
    (Json.units "pollIntervalMs", .num (Json.decimalUnits c.pollIntervalMs)),
    (Json.units "hardware", report), (Json.units "capacity", plan),
    (Json.units "assignments", assignments)], ?_, ?_⟩
  · apply Charset.speaks_object
    refine .cons ?_ (.cons ?_ (.cons ?_ (.cons ?_ (.cons ?_ (.cons ?_ (.cons ?_
      (.cons ?_ .nil)))))))
    · exact Charset.speaksMember (by decide) (speaks_stringText hpath)
    · exact Charset.speaksMember (by decide) (speaks_stringText hshm)
    · exact Charset.speaksMember (by decide) (Charset.speaks_decimal _)
    · exact Charset.speaksMember (by decide) (Charset.speaks_decimal _)
    · exact Charset.speaksMember (by decide) (Charset.speaks_decimal _)
    · exact Charset.speaksMember (by decide) hreport
    · exact Charset.speaksMember (by decide) hplan
    · exact Charset.speaksMember (by decide) hassignments
  · have hne : ∀ key ∈ ["assignments", "capacity", "hardware", "pollIntervalMs",
        "configuredWorkerCount"], Json.units key ≠ Json.units "workerCount" := by
      decide
    simp only [List.forall_mem_cons] at hne
    obtain ⟨h1, h2, h3, h4, h5, -⟩ := hne
    simp [Json.get?, h1, h2, h3, h4, h5]

theorem mem_stringText {s : String} {ch : Char} (hraw : RawChar ch) (hmem : ch ∈ s.toList) :
    ch ∈ stringText s := by
  have hescape := mem_escape hraw hmem
  simp [stringText, hescape]

/-- A raw character of a string is in the file. -/
theorem mem_writeModelConfig {c : ModelConfig} {s : String} {ch : Char} (hs : s ∈ c.texts)
    (hmem : ch ∈ s.toList) (hraw : RawChar ch) : ch ∈ writeModelConfig c := by
  have hconfig : ∀ m ∈ configMembers c, ch ∈ m.2 → ch ∈ writeModelConfig c := by
    intro m hm hch
    rw [writeModelConfig_eq]
    exact List.mem_append_left _ (Charset.mem_objectText hm hch)
  have hreport : ch ∈ Hardware.hardwareReportToJson c.hardware → ch ∈ writeModelConfig c :=
    hconfig ("hardware", Hardware.hardwareReportToJson c.hardware) (by simp [configMembers])
  have hplan : ch ∈ Hardware.capacityPlanToJson c.plan → ch ∈ writeModelConfig c :=
    hconfig ("capacity", Hardware.capacityPlanToJson c.plan) (by simp [configMembers])
  rw [hardwareReportToJson_eq] at hreport
  rw [capacityPlanToJson_eq] at hplan
  simp only [ModelConfig.texts, List.cons_append, List.mem_cons, List.mem_append, List.mem_flatMap,
    List.not_mem_nil, or_false] at hs
  obtain rfl | rfl | rfl | ⟨gpu, hgpu, hs⟩ | rfl | rfl | rfl := hs
  · exact hconfig ("modelPath", stringText c.modelPath) (by simp [configMembers])
      (mem_stringText hraw hmem)
  · exact hconfig ("shmName", stringText c.shmName) (by simp [configMembers])
      (mem_stringText hraw hmem)
  · apply hreport
    exact Charset.mem_objectText (m := ("note", stringText c.hardware.note))
      (by simp [reportMembers]) (mem_stringText hraw hmem)
  · apply hreport
    have hdevice : ch ∈ Hardware.gpuToJson gpu := by
      rw [gpuToJson_eq]
      obtain rfl | rfl := hs
      · exact Charset.mem_objectText (m := ("name", stringText gpu.name))
          (by simp [gpuMembers]) (mem_stringText hraw hmem)
      · exact Charset.mem_objectText (m := ("description", stringText gpu.description))
          (by simp [gpuMembers]) (mem_stringText hraw hmem)
    exact Charset.mem_objectText
      (m := ("gpus", Charset.arrayText (c.hardware.gpus.map Hardware.gpuToJson)))
      (by simp [reportMembers]) (Charset.mem_arrayText (List.mem_map_of_mem hgpu) hdevice)
  · apply hplan
    exact Charset.mem_objectText (m := ("gpuName", stringText c.plan.gpuName))
      (by simp [planMembers]) (mem_stringText hraw hmem)
  · apply hplan
    exact Charset.mem_objectText (m := ("gpuReason", stringText c.plan.gpuReason))
      (by simp [planMembers]) (mem_stringText hraw hmem)
  · apply hplan
    exact Charset.mem_objectText (m := ("cpuReason", stringText c.plan.cpuReason))
      (by simp [planMembers]) (mem_stringText hraw hmem)

/-- With one of them the file cannot be read. -/
theorem parse_of_raw {c : ModelConfig} {ch : Char} (hmem : ch ∈ writeModelConfig c)
    (hraw : RawChar ch) : Json.parse (M.units (writeModelConfig c)) = none := by
  have hfine : ¬ Json.Fine (.ofNat ch.toNat) := by
    have hall : ∀ n : Fin 0x20, RawChar (Char.ofNat n) → ¬ Json.Fine (.ofNat n) := by
      decide
    have hch := hall ⟨ch.toNat, hraw.1⟩
    dsimp only at hch
    rw [Char.ofNat_toNat] at hch
    exact hch hraw
  have hlow := hraw.1
  have hunit := Charset.mem_units (M := M) (by omega) hmem
  cases hparse : Json.parse (M.units (writeModelConfig c)) with
  | none => rfl
  | some v => exact absurd (Json.fine_of_parse hparse _ hunit) hfine

end Values

end ServeInfer.Supervisor
