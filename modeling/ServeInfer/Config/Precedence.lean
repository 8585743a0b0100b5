import ServeInfer.Config.Env

/-!
# Which file a value comes from

What a process is started with comes first, then the last line of `.env`, then the first line of
`.env.example`. The files count as the first complete load found them, and their lines as
`process.env` keeps them: one whose key is a variable of the start only when it is cut is not
held back.
-/

namespace ServeInfer.Config

variable {s t : ProcessEnv} {initial : OrderedMap JsString JsString} {name : JsString}

/-- What a file assigns, line by line; `none` for a file that cannot be read. -/
def EnvFile.entries : EnvFile → Option (List EnvEntry)
  | .absent => some []
  | .unreadable => none
  | .text contents => some ((splitLines contents).filterMap parseEnvLine)

def firstValue (entries : List EnvEntry) (name : JsString) : Option JsString :=
  (entries.find? fun e => e.key = name).map EnvEntry.value

def lastValue (entries : List EnvEntry) (name : JsString) : Option JsString :=
  firstValue entries.reverse name

/-- The entry is an assignment in a process started with these keys. -/
def EnvEntry.sets (keys : List JsString) (e : EnvEntry) : Bool :=
  !keys.contains e.key && !e.stored.key.isEmpty

/-- What `process.env` is set to by some entries. -/
def assigned (keys : List JsString) (entries : List EnvEntry) : List EnvEntry :=
  (entries.filter (EnvEntry.sets keys)).map EnvEntry.stored

/-- `.env.example` sets no name that every object inherits. -/
def notInherited (entries : List EnvEntry) : List EnvEntry :=
  entries.filter fun e => !inheritedNames.contains e.key

/-- What has been read so far: every `.env.example` up to the first complete load, and the `.env`
of that load. -/
structure Reading where
  examples : List EnvEntry := []
  overrides : Option (List EnvEntry) := none

namespace Reading

/-- Look at the files, unless a load was complete before. -/
def look (r : Reading) (files : EnvFiles) : Reading × Except EnvError Unit :=
  match r.overrides with
  | some _ => (r, .ok ())
  | none =>
      match files.exampleFile.entries with
      | none => (r, .error (.unreadable ".env.example"))
      | some examples =>
          let r := { r with examples := r.examples ++ examples }
          match files.envFile.entries with
          | none => (r, .error (.unreadable ".env"))
          | some overrides => ({ r with overrides := some overrides }, .ok ())

/-- The text of a variable. -/
def textOf (initial : OrderedMap JsString JsString) (r : Reading) (name : JsString) :
    Option JsString :=
  match lastValue (assigned initial.keys (r.overrides.getD [])) name with
  | some value => some value
  | none =>
      match initial.get? name with
      | some value => some value
      | none => firstValue (assigned initial.keys (notInherited r.examples)) name

def valueOf (initial : OrderedMap JsString JsString) (r : Reading) (name : JsString) :
    Option EnvValue :=
  readProperty name (r.textOf initial (Utf8.cString name))

variable {ν : Type*} (number : JsString → Option ν)

/-- The answer to a call whose names have these values. -/
def reply (value : JsString → Option EnvValue) : EnvCall → Except EnvError (EnvAnswer ν)
  | .loadEnv => .ok .done
  | .requiredEnv name =>
      match (value name).filter (· ≠ .text []) with
      | none => .error (.error (Json.units "Missing required environment variable: " ++ name))
      | some value => .ok (.value value)
  | .numberEnv name =>
      match (value name).filter (· ≠ .text []) with
      | none => .error (.error (Json.units "Missing required environment variable: " ++ name))
      | some value =>
          match (match value with | .text raw => number raw | .inherited _ => none) with
          | none =>
              .error (.error
                (Json.units "Environment variable " ++ name ++ Json.units " must be a number"))
          | some n => .ok (.number n)

/-- The answers to some calls, given what the process was started with. -/
def answers (initial : OrderedMap JsString JsString) (r : Reading) :
    List (EnvFiles × EnvCall) → List (Except EnvError (EnvAnswer ν))
  | [] => []
  | (files, c) :: calls =>
      let looked := r.look files
      (match looked.2 with
        | .error e => .error e
        | .ok () => reply number (looked.1.valueOf initial) c) :: looked.1.answers initial calls

end Reading

theorem firstValue_append (entries entries' : List EnvEntry) (name : JsString) :
    firstValue (entries ++ entries') name =
      (firstValue entries name).or (firstValue entries' name) := by
  simp only [firstValue, List.find?_append]
  cases entries.find? fun e => e.key = name <;> rfl

theorem firstValue_cons (e : EnvEntry) (entries : List EnvEntry) (name : JsString) :
    firstValue (e :: entries) name =
      if e.key = name then some e.value else firstValue entries name := by
  by_cases he : e.key = name <;> simp [firstValue, he]

theorem lastValue_cons (e : EnvEntry) (entries : List EnvEntry) (name : JsString) :
    lastValue (e :: entries) name =
      (lastValue entries name).or (if e.key = name then some e.value else none) := by
  rw [lastValue, List.reverse_cons, firstValue_append, firstValue_cons]
  rfl

theorem firstValue_assigned_cons (keys : List JsString) (e : EnvEntry) (entries : List EnvEntry)
    (name : JsString) :
    firstValue (assigned keys (e :: entries)) name =
      if e.sets keys = true ∧ e.stored.key = name then some e.stored.value
      else firstValue (assigned keys entries) name := by
  rw [assigned, List.filter_cons]
  by_cases hsets : e.sets keys = true
  · rw [if_pos hsets, List.map_cons, firstValue_cons]
    simp [hsets, assigned]
  · rw [if_neg hsets, if_neg fun h => hsets h.1]
    rfl

theorem lastValue_assigned_cons (keys : List JsString) (e : EnvEntry) (entries : List EnvEntry)
    (name : JsString) :
    lastValue (assigned keys (e :: entries)) name =
      (lastValue (assigned keys entries) name).or
        (if e.sets keys = true ∧ e.stored.key = name then some e.stored.value else none) := by
  rw [assigned, List.filter_cons]
  by_cases hsets : e.sets keys = true
  · rw [if_pos hsets, List.map_cons, lastValue_cons]
    simp [hsets, assigned]
  · rw [if_neg hsets, if_neg fun h => hsets h.1, Option.or_none]
    rfl

theorem assigned_append (keys : List JsString) (entries entries' : List EnvEntry) :
    assigned keys (entries ++ entries') = assigned keys entries ++ assigned keys entries' := by
  rw [assigned, List.filter_append, List.map_append]
  rfl

/-- The entries' keys that are kept as this name are written so. -/
def Plain (name : JsString) (entries : List EnvEntry) : Prop :=
  ∀ e ∈ entries, e.stored.key = name → e.key = name

section Plain

variable {entries : List EnvEntry} (keys : List JsString) (hname : Utf8.cString name = name)
  (hne : name ≠ []) (h : Plain name entries)

include hname hne h

/-- Where the keys are plain, the variables of the start are held back and the others are set. -/
theorem firstValue_assigned : firstValue (assigned keys entries) name =
    if keys.contains name then none else (firstValue entries name).map Utf8.cString := by
  induction entries with
  | nil =>
      simp only [assigned, firstValue, List.filter_nil, List.map_nil, List.find?_nil,
        Option.map_none, ite_self]
  | cons e entries ih =>
      have hkey : e.stored.key = name ↔ e.key = name := by
        constructor
        · exact h e List.mem_cons_self
        · rintro hkey
          rw [EnvEntry.stored, hkey, hname]
      have hset : e.stored.key = name → e.sets keys = !keys.contains name := by
        intro hstored
        rw [EnvEntry.sets, hstored, hkey.mp hstored, List.isEmpty_eq_false_iff.mpr hne]
        simp
      rw [firstValue_assigned_cons, ih fun e he => h e (List.mem_cons_of_mem _ he),
        firstValue_cons]
      by_cases hstored : e.stored.key = name
      · rw [hset hstored, if_pos (hkey.mp hstored)]
        cases keys.contains name with
        | true => rfl
        | false =>
            rw [if_pos ⟨Bool.not_false, hstored⟩]
            rfl
      · rw [if_neg fun hall => hstored hall.2, if_neg fun heq => hstored (hkey.mpr heq)]

theorem lastValue_assigned : lastValue (assigned keys entries) name =
    if keys.contains name then none else (lastValue entries name).map Utf8.cString := by
  have hreverse : (assigned keys entries).reverse = assigned keys entries.reverse := by
    rw [assigned, assigned, List.filter_reverse, List.map_reverse]
  rw [lastValue, hreverse]
  exact firstValue_assigned keys hname hne fun e he => h e (List.mem_reverse.mp he)

end Plain

theorem contains_keys (m : OrderedMap JsString JsString) (name : JsString) :
    m.keys.contains name = (m.get? name).isSome := by
  rw [Bool.eq_iff_iff, List.contains_iff_mem, ← OrderedMap.has_iff, OrderedMap.has]

namespace Reading

/-- The first look takes the `.env` of its moment, if it takes one. -/
theorem overrides_look (files : EnvFiles) :
    (({} : Reading).look files).1.overrides = none ∨
      (({} : Reading).look files).1.overrides = files.envFile.entries := by
  unfold look
  cases files.exampleFile.entries with
  | none => exact .inl rfl
  | some examples =>
      cases files.envFile.entries with
      | none => exact .inl rfl
      | some overrides => exact .inr rfl

/-- Where the keys of `.env` are plain, what the process was started with comes first. -/
theorem textOf_plain (initial : OrderedMap JsString JsString) {r : Reading}
    (hname : Utf8.cString name = name) (hne : name ≠ []) (h : Plain name (r.overrides.getD [])) :
    r.textOf initial name =
      ((initial.get? name).or ((lastValue (r.overrides.getD []) name).map Utf8.cString)).or
        (firstValue (assigned initial.keys (notInherited r.examples)) name) := by
  rw [textOf, lastValue_assigned initial.keys hname hne h, contains_keys]
  cases initial.get? name with
  | some value => rfl
  | none => cases lastValue (r.overrides.getD []) name <;> rfl

/-- A line of `.env` whose key is cut takes the place of a variable of the start. -/
example : ({ overrides := some [⟨Json.units "SEED\x00", Json.units "2"⟩] } : Reading).textOf
    ((∅ : OrderedMap JsString JsString).set (Json.units "SEED") (Json.units "1"))
    (Json.units "SEED") = some (Json.units "2") := by decide

end Reading

namespace ProcessEnv

theorem isNone_readProperty (name : JsString) (own : Option JsString) :
    (readProperty name own).isNone = (own.isNone && !inheritedNames.contains name) := by
  cases own with
  | some value => rfl
  | none =>
      rw [readProperty]
      split
      case isTrue h => rw [h]; rfl
      case isFalse h => rw [Bool.not_eq_true] at h; rw [h]; rfl

/-- Only `env` changes when a file is read. -/
theorem assign_fields (flag : Bool) (s : ProcessEnv) (e : EnvEntry) :
    (s.assign flag e).initialKeys = s.initialKeys ∧ (s.assign flag e).loaded = s.loaded := by
  unfold assign set
  split_ifs <;> exact ⟨rfl, rfl⟩

theorem get?_set (s : ProcessEnv) (e : EnvEntry) (name : JsString) :
    (s.set e).env.get? name =
      if e.stored.key.isEmpty = false ∧ e.stored.key = name then some e.stored.value
      else s.env.get? name := by
  unfold set
  cases hnamed : e.stored.key.isEmpty with
  | true => simp
  | false =>
      by_cases hname : e.stored.key = name
      · rw [if_neg Bool.false_ne_true, if_pos ⟨rfl, hname⟩]
        exact (OrderedMap.get?_set ..).trans (if_pos hname)
      · rw [if_neg Bool.false_ne_true, if_neg fun h => hname h.2]
        exact OrderedMap.get?_set_of_ne _ _ hname

/-- What one entry does to the value of a variable. -/
theorem get?_assign (flag : Bool) (s : ProcessEnv) (e : EnvEntry) (name : JsString) :
    (s.assign flag e).env.get? name =
      if (e.sets s.initialKeys = true ∧ e.stored.key = name) ∧
          (flag = true ∨ s.env.get? name = none ∧ inheritedNames.contains e.key = false) then
        some e.stored.value
      else s.env.get? name := by
  have hopen : (flag || (s.read e.key).isNone) = true ↔
      flag = true ∨ s.env.get? e.stored.key = none ∧ inheritedNames.contains e.key = false := by
    rw [Bool.or_eq_true, read, isNone_readProperty, Bool.and_eq_true, Option.isNone_iff_eq_none,
      Bool.not_eq_true']
    rfl
  have hsets : e.sets s.initialKeys = true ↔
      s.initialKeys.contains e.key = false ∧ e.stored.key.isEmpty = false := by
    rw [EnvEntry.sets, Bool.and_eq_true, Bool.not_eq_true', Bool.not_eq_true']
  unfold assign
  split
  case isTrue hinit =>
    rw [if_neg]
    rintro ⟨⟨h, -⟩, -⟩
    rw [(hsets.mp h).1] at hinit
    cases hinit
  case isFalse hinit =>
    rw [Bool.not_eq_true] at hinit
    split
    case isTrue h =>
      rw [get?_set]
      by_cases hstored : e.stored.key.isEmpty = false ∧ e.stored.key = name
      · rw [if_pos hstored, if_pos]
        obtain ⟨hnamed, rfl⟩ := hstored
        exact ⟨⟨hsets.mpr ⟨hinit, hnamed⟩, rfl⟩, hopen.mp h⟩
      · rw [if_neg hstored, if_neg]
        rintro ⟨⟨hset, hname⟩, -⟩
        exact hstored ⟨(hsets.mp hset).2, hname⟩
    case isFalse h =>
      rw [if_neg]
      rintro ⟨⟨-, rfl⟩, hfree⟩
      exact h (hopen.mpr hfree)

theorem foldl_loadLine (flag : Bool) (lines : List JsString) (s : ProcessEnv) :
    lines.foldl (loadLine flag) s = (lines.filterMap parseEnvLine).foldl (assign flag) s := by
  induction lines generalizing s with
  | nil => rfl
  | cons line lines ih =>
      rw [List.foldl_cons, ih, List.filterMap_cons, loadLine]
      cases parseEnvLine line <;> rfl

theorem foldl_assign_fields (flag : Bool) (entries : List EnvEntry) (s : ProcessEnv) :
    (entries.foldl (assign flag) s).initialKeys = s.initialKeys ∧
      (entries.foldl (assign flag) s).loaded = s.loaded := by
  induction entries generalizing s with
  | nil => exact ⟨rfl, rfl⟩
  | cons e entries ih =>
      obtain ⟨hkeys, hloaded⟩ := assign_fields flag s e
      rw [List.foldl_cons, (ih _).1, (ih _).2]
      exact ⟨hkeys, hloaded⟩

/-- `.env.example` fills in what has no value yet. -/
theorem get?_foldl_examples (entries : List EnvEntry) (s : ProcessEnv) (name : JsString) :
    (entries.foldl (assign false) s).env.get? name =
      (s.env.get? name).or (firstValue (assigned s.initialKeys (notInherited entries)) name) := by
  induction entries generalizing s with
  | nil => simp [notInherited, assigned, firstValue]
  | cons e entries ih =>
      have hkeys := (assign_fields false s e).1
      have hcons : notInherited (e :: entries) =
          if inheritedNames.contains e.key then notInherited entries
          else e :: notInherited entries := by
        cases hin : inheritedNames.contains e.key <;> simp [notInherited, -List.contains_eq_mem, hin]
      rw [List.foldl_cons, ih, hkeys, get?_assign, hcons]
      cases hvalue : s.env.get? name with
      | some value => simp
      | none =>
          cases inheritedNames.contains e.key with
          | true => simp
          | false =>
              rw [if_neg Bool.false_ne_true, firstValue_assigned_cons]
              by_cases hsets : e.sets s.initialKeys = true ∧ e.stored.key = name
              · simp [hsets]
              · simp [hsets]

/-- `.env` takes the place of what was there. -/
theorem get?_foldl_overrides (entries : List EnvEntry) (s : ProcessEnv) (name : JsString) :
    (entries.foldl (assign true) s).env.get? name =
      (lastValue (assigned s.initialKeys entries) name).or (s.env.get? name) := by
  induction entries generalizing s with
  | nil => rfl
  | cons e entries ih =>
      have hkeys := (assign_fields true s e).1
      rw [List.foldl_cons, ih, hkeys, get?_assign, lastValue_assigned_cons]
      cases lastValue (assigned s.initialKeys entries) name with
      | some value => rfl
      | none =>
          by_cases hsets : e.sets s.initialKeys = true ∧ e.stored.key = name
          · simp [hsets]
          · simp [hsets]

/-- The state of the module against what it has read. -/
structure Holds (initial : OrderedMap JsString JsString) (r : Reading) (s : ProcessEnv) :
    Prop where
  keys : s.initialKeys = initial.keys
  loaded : s.loaded = r.overrides.isSome
  texts : ∀ name, s.env.get? name = r.textOf initial name

theorem holds_start (initial : OrderedMap JsString JsString) :
    Holds initial {} (start initial) := by
  refine ⟨rfl, rfl, fun name => ?_⟩
  cases hvalue : initial.get? name with
  | some value =>
      simp [start, Reading.textOf, hvalue, lastValue, firstValue, assigned]
  | none => simp [start, Reading.textOf, hvalue, lastValue, firstValue, assigned, notInherited]

variable {r : Reading}

/-- Reading `.env.example` while no load is complete. -/
theorem Holds.examples (h : Holds initial r s) (hnone : r.overrides = none)
    (entries : List EnvEntry) :
    Holds initial { r with examples := r.examples ++ entries }
      (entries.foldl (assign false) s) := by
  obtain ⟨hkeys, hloaded⟩ := foldl_assign_fields false entries s
  refine ⟨hkeys.trans h.keys, hloaded.trans h.loaded, fun name => ?_⟩
  have hbefore : lastValue (assigned initial.keys []) name = none := rfl
  rw [get?_foldl_examples, h.keys, h.texts]
  simp only [Reading.textOf, hnone, Option.getD_none, hbefore, notInherited, List.filter_append,
    assigned_append, firstValue_append]
  cases initial.get? name <;> rfl

/-- Reading `.env` completes a load. -/
theorem Holds.overrides (h : Holds initial r s) (hnone : r.overrides = none)
    (entries : List EnvEntry) :
    Holds initial { r with overrides := some entries }
      { entries.foldl (assign true) s with loaded := true } := by
  obtain ⟨hkeys, -⟩ := foldl_assign_fields true entries s
  refine ⟨hkeys.trans h.keys, rfl, fun name => ?_⟩
  have hbefore : lastValue (assigned initial.keys []) name = none := rfl
  rw [get?_foldl_overrides, h.keys, h.texts]
  simp only [Reading.textOf, hnone, Option.getD_none, Option.getD_some, hbefore]
  cases lastValue (assigned initial.keys entries) name <;> rfl

theorem loadFile_eq (s : ProcessEnv) (filename : String) (file : EnvFile) (flag : Bool) :
    s.loadFile filename file flag =
      match file.entries with
      | none => .error (.unreadable filename)
      | some entries => .ok (entries.foldl (assign flag) s) := by
  cases file with
  | absent => rfl
  | unreadable => rfl
  | text contents => rw [loadFile, foldl_loadLine]; rfl

/-- A load does to the module what a look does to what has been read. -/
theorem Holds.look (h : Holds initial r s) (files : EnvFiles) :
    Holds initial (r.look files).1 (s.loadEnv files).1 ∧
      (s.loadEnv files).2 = (r.look files).2 := by
  obtain ⟨seen, done⟩ := r
  unfold loadEnv Reading.look
  rw [h.loaded]
  cases done with
  | some overrides => exact ⟨h, rfl⟩
  | none =>
      simp only [loadFile_eq]
      cases files.exampleFile.entries with
      | none => exact ⟨h, rfl⟩
      | some examples =>
          have hfirst := h.examples rfl examples
          cases files.envFile.entries with
          | none => exact ⟨hfirst, rfl⟩
          | some overrides => exact ⟨hfirst.overrides rfl overrides, rfl⟩

variable {ν : Type*} (number : JsString → Option ν)

theorem Holds.read (h : Holds initial r s) (name : JsString) :
    s.read name = r.valueOf initial name := by
  rw [ProcessEnv.read, h.texts, Reading.valueOf]

theorem requiredEnv_state (s : ProcessEnv) (files : EnvFiles) (name : JsString) :
    (s.requiredEnv files name).1 = (s.loadEnv files).1 := by
  unfold requiredEnv
  obtain ⟨t, loaded⟩ := s.loadEnv files
  cases loaded with
  | error e => rfl
  | ok =>
      simp only
      split
      · rfl
      · split <;> rfl

/-- A call leaves the module as its load does. -/
theorem call_state (s : ProcessEnv) (files : EnvFiles) (c : EnvCall) :
    (s.call number files c).1 = (s.loadEnv files).1 := by
  cases c with
  | loadEnv => rfl
  | requiredEnv name => exact requiredEnv_state s files name
  | numberEnv name =>
      rw [← requiredEnv_state s files name]
      simp only [call, numberEnv, Prod.map_fst, id]
      obtain ⟨t, raw⟩ := s.requiredEnv files name
      cases raw with
      | error e => rfl
      | ok raw =>
          simp only
          split <;> rfl

theorem requiredEnv_answer (s : ProcessEnv) (files : EnvFiles) (name : JsString) :
    (s.requiredEnv files name).2 =
      match (s.loadEnv files).2 with
      | .error e => .error e
      | .ok () =>
          match ((s.loadEnv files).1.read name).filter (· ≠ .text []) with
          | none => .error (.error (Json.units "Missing required environment variable: " ++ name))
          | some value => .ok value := by
  unfold requiredEnv
  obtain ⟨t, loaded⟩ := s.loadEnv files
  cases loaded with
  | error e => rfl
  | ok =>
      simp only
      cases hread : t.read name with
      | none => rfl
      | some value =>
          by_cases hempty : value = .text []
          · simp [hempty, Option.filter]
          · simp [hempty, Option.filter]

theorem numberEnv_answer (s : ProcessEnv) (files : EnvFiles) (name : JsString) :
    (s.numberEnv number files name).2 =
      match (s.requiredEnv files name).2 with
      | .error e => .error e
      | .ok raw =>
          match (match raw with | .text raw => number raw | .inherited _ => none) with
          | none =>
              .error (.error
                (Json.units "Environment variable " ++ name ++ Json.units " must be a number"))
          | some n => .ok n := by
  unfold numberEnv
  obtain ⟨t, raw⟩ := s.requiredEnv files name
  cases raw with
  | error e => rfl
  | ok raw =>
      cases raw with
      | inherited name => rfl
      | text raw =>
          simp only
          cases number raw <;> rfl

/-- A call's answer is told by the load and by what the names then stand for. -/
theorem call_answer (s : ProcessEnv) (files : EnvFiles) (c : EnvCall) :
    (s.call number files c).2 =
      match (s.loadEnv files).2 with
      | .error e => .error e
      | .ok () => Reading.reply number (s.loadEnv files).1.read c := by
  cases c with
  | loadEnv =>
      simp only [call, Prod.map_snd]
      cases (s.loadEnv files).2 <;> rfl
  | requiredEnv name =>
      simp only [call, Prod.map_snd, requiredEnv_answer]
      cases (s.loadEnv files).2 with
      | error e => rfl
      | ok =>
          simp only [Reading.reply]
          split <;> rfl
  | numberEnv name =>
      simp only [call, Prod.map_snd, Reading.reply, numberEnv_answer, requiredEnv_answer]
      cases (s.loadEnv files).2 with
      | error e => rfl
      | ok =>
          simp only
          cases ((s.loadEnv files).1.read name).filter (· ≠ .text []) with
          | none => rfl
          | some value =>
              cases value with
              | inherited name => rfl
              | text raw =>
                  simp only
                  cases number raw <;> rfl

theorem Holds.answers (h : Holds initial r s) (calls : List (EnvFiles × EnvCall)) :
    s.answers number calls = r.answers number initial calls := by
  induction calls generalizing r s with
  | nil => rfl
  | cons c calls ih =>
      obtain ⟨files, c⟩ := c
      obtain ⟨hnext, hanswer⟩ := h.look files
      have hread : (s.loadEnv files).1.read = (r.look files).1.valueOf initial :=
        funext hnext.read
      rw [ProcessEnv.answers, Reading.answers]
      simp only
      rw [call_answer, hanswer, hread]
      congr 1
      apply ih
      rw [call_state]
      exact hnext

end ProcessEnv

/-- Every answer of every run is what the process was started with, else the last line of `.env`,
else the first line of `.env.example`, as the first complete load read them. -/
theorem answers_from_files {ν : Type*} (number : JsString → Option ν)
    (initial : OrderedMap JsString JsString) (calls : List (EnvFiles × EnvCall)) :
    (ProcessEnv.start initial).answers number calls =
      ({} : Reading).answers number initial calls :=
  (ProcessEnv.holds_start initial).answers number calls

end ServeInfer.Config
