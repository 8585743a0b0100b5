import ServeInfer.Lib.Lines
import ServeInfer.Config.Precedence

/-!
# Entries written to `.env` and read back

An entry on a line of its own, its value between double quotes, is read back as it is: a value may
hold quotes, marks and white space of every kind but a line end. It may not hold what a C string
has no place for, a U+0000 or half of a surrogate pair.
-/

namespace ServeInfer.Config

variable {e : EnvEntry} {entries : List EnvEntry} {name : JsString}

/-- `KEY="value"`. -/
def EnvEntry.line (e : EnvEntry) : JsString := e.key ++ 0x3D :: 0x22 :: (e.value ++ [0x22])

/-- The text of a file with one line for each entry. -/
def written (entries : List EnvEntry) : JsString := Lines.joined 0x0A (entries.map EnvEntry.line)

/-- An entry that a line and the environment can hold. -/
structure EnvEntry.Writable (e : EnvEntry) : Prop where
  kept : e.stored = e
  named : e.key ≠ []
  trimmed : Json.trim e.key = e.key
  notComment : e.key.head? ≠ some 0x23
  noMark : 0x3D ∉ e.key
  oneLineKey : 0x0A ∉ e.key
  oneLineValue : 0x0A ∉ e.value

instance (e : EnvEntry) : Decidable e.Writable :=
  decidable_of_iff (e.stored = e ∧ e.key ≠ [] ∧ Json.trim e.key = e.key ∧
      e.key.head? ≠ some 0x23 ∧ e.key.contains 0x3D = false ∧ e.key.contains 0x0A = false ∧
      e.value.contains 0x0A = false) <| by
    simp only [List.contains_eq_mem, decide_eq_false_iff_not]
    exact ⟨fun ⟨h₁, h₂, h₃, h₄, h₅, h₆, h₇⟩ => ⟨h₁, h₂, h₃, h₄, h₅, h₆, h₇⟩,
      fun ⟨h₁, h₂, h₃, h₄, h₅, h₆, h₇⟩ => ⟨h₁, h₂, h₃, h₄, h₅, h₆, h₇⟩⟩

/-- The environment can hold what is a text without U+0000. -/
theorem EnvEntry.stored_eq_iff : e.stored = e ↔
    (∃ t, e.key = Utf8.utf16 t ∧ ∀ c ∈ t, c.toNat ≠ 0) ∧
      ∃ t, e.value = Utf8.utf16 t ∧ ∀ c ∈ t, c.toNat ≠ 0 := by
  rw [← Utf8.cString_eq_self_iff, ← Utf8.cString_eq_self_iff]
  exact EnvEntry.ext_iff

theorem splitLines_cons {u : Utf8.CodeUnit} {rest : JsString} (hu : u ≠ 0x0A)
    (hrest : u = 0x0D → rest.head? ≠ some 0x0A) :
    splitLines (u :: rest) =
      match splitLines rest with
      | [] => [[u]]
      | line :: lines => (u :: line) :: lines := by
  have hnot : ∀ rest', u = 0x0D → rest = 0x0A :: rest' → False := by
    rintro rest' hcr rfl
    exact hrest hcr rfl
  have hcons := splitLines.eq_3 u rest hnot
  rw [if_neg hu] at hcons
  apply hcons.trans
  cases splitLines rest <;> rfl

theorem splitLines_lf (rest : JsString) : splitLines (0x0A :: rest) = [] :: splitLines rest := by
  have hnot : ∀ rest', (0x0A : Utf8.CodeUnit) = 0x0D → rest = 0x0A :: rest' → False := by
    intro rest' hcr
    exact absurd hcr (by decide)
  rw [splitLines.eq_3 0x0A rest hnot, if_pos rfl]

/-- A line that ends in no carriage return is one piece. -/
theorem splitLines_append {line : JsString} (hline : 0x0A ∉ line)
    (hlast : line.getLast? ≠ some 0x0D) (rest : JsString) :
    splitLines (line ++ 0x0A :: rest) = line :: splitLines rest := by
  induction line with
  | nil => exact splitLines_lf rest
  | cons u line ih =>
      rw [List.mem_cons, not_or] at hline
      have htail : splitLines (line ++ 0x0A :: rest) = line :: splitLines rest := by
        apply ih hline.2
        intro hcr
        rw [List.getLast?_cons, hcr] at hlast
        exact hlast rfl
      rw [List.cons_append, splitLines_cons (Ne.symm hline.1), htail]
      intro hcr
      cases line with
      | nil =>
          subst hcr
          exact absurd rfl hlast
      | cons v line =>
          rw [List.cons_append, List.head?_cons, Ne, Option.some.injEq]
          rintro rfl
          exact hline.2 List.mem_cons_self

theorem splitLines_written (h : ∀ e ∈ entries, e.Writable) :
    splitLines (written entries) = entries.map EnvEntry.line ++ [[]] := by
  induction entries with
  | nil => rfl
  | cons e entries ih =>
      have he := h e List.mem_cons_self
      have hrest := ih fun e' he' => h e' (List.mem_cons_of_mem e he')
      have hline : 0x0A ∉ e.line := by
        have hkey := he.oneLineKey
        have hvalue := he.oneLineValue
        simp [EnvEntry.line, hkey, hvalue]
      have hlast : e.line.getLast? ≠ some 0x0D := by
        rw [EnvEntry.line, ← List.cons_append, ← List.cons_append, ← List.append_assoc,
          List.getLast?_concat]
        decide
      rw [written, List.map_cons, Lines.joined_cons, splitLines_append hline hlast]
      rw [written] at hrest
      rw [hrest, List.cons_append]

/-- Nothing is trimmed between two marks that are not white. -/
theorem trim_between {a b : Utf8.CodeUnit} (ha : Json.isWhite a = false)
    (hb : Json.isWhite b = false) (s : JsString) :
    Json.trim (a :: (s ++ [b])) = a :: (s ++ [b]) := by
  have hfront : (a :: (s ++ [b])).dropWhile Json.isWhite = a :: (s ++ [b]) :=
    List.dropWhile_cons_of_neg (by rw [ha]; exact Bool.false_ne_true)
  have hback : (b :: (a :: s).reverse).dropWhile Json.isWhite = b :: (a :: s).reverse :=
    List.dropWhile_cons_of_neg (by rw [hb]; exact Bool.false_ne_true)
  rw [Json.trim, hfront, ← List.cons_append, List.reverse_append, List.reverse_singleton,
    List.singleton_append, hback, List.reverse_cons, List.reverse_reverse]

theorem length_trim_le (s : JsString) :
    (Json.trim s).length ≤ (s.dropWhile Json.isWhite).length := by
  rw [Json.trim, List.length_reverse]
  calc
    _ ≤ (s.dropWhile Json.isWhite).reverse.length :=
      (List.dropWhile_suffix Json.isWhite).length_le
    _ = (s.dropWhile Json.isWhite).length := List.length_reverse

/-- A trimmed text begins with no white space. -/
theorem not_isWhite_of_trim {a : Utf8.CodeUnit} {s : JsString} (h : Json.trim (a :: s) = a :: s) :
    Json.isWhite a = false := by
  by_contra hwhite
  rw [Bool.not_eq_false] at hwhite
  have hle := length_trim_le (a :: s)
  have hdrop := (List.dropWhile_suffix (l := s) Json.isWhite).length_le
  rw [h, List.dropWhile_cons_of_pos hwhite, List.length_cons] at hle
  omega

theorem parseEnvLine_line (he : e.Writable) : parseEnvLine e.line = some e := by
  obtain ⟨key, value⟩ := e
  obtain ⟨-, hnamed, htrimmed, hcomment, hmark, -, -⟩ := he
  simp only at hnamed htrimmed hcomment hmark
  have hquote : Json.isWhite 0x22 = false := by decide
  have htext : Json.trim (EnvEntry.line ⟨key, value⟩) =
      key ++ 0x3D :: 0x22 :: (value ++ [0x22]) := by
    cases key with
    | nil => exact absurd rfl hnamed
    | cons k key =>
        have hk := not_isWhite_of_trim htrimmed
        have hbetween := trim_between hk hquote (key ++ 0x3D :: 0x22 :: value)
        simpa [EnvEntry.line] using hbetween
  have hall : ∀ u ∈ key, (u != 0x3D) = true := by
    intro u hu
    rw [bne_iff_ne]
    rintro rfl
    exact hmark hu
  have hkey : (key ++ 0x3D :: 0x22 :: (value ++ [0x22])).takeWhile (· != 0x3D) = key := by
    rw [List.takeWhile_append_of_pos hall, List.takeWhile_cons_of_neg (by decide),
      List.append_nil]
  have hvalue : (key ++ 0x3D :: 0x22 :: (value ++ [0x22])).dropWhile (· != 0x3D) =
      0x3D :: 0x22 :: (value ++ [0x22]) := by
    rw [List.dropWhile_append_of_pos hall, List.dropWhile_cons_of_neg (by decide)]
  have hunquote : unquote (0x22 :: (value ++ [0x22])) = value := by
    have hlast : (0x22 :: (value ++ [0x22])).getLast? = some (0x22 : Utf8.CodeUnit) := by
      rw [← List.cons_append, List.getLast?_concat]
    simp only [unquote, List.head?_cons, hlast]
    simp
  have hhead : key.head?.getD 0x3D ≠ 0x23 := by
    cases key with
    | nil => exact absurd rfl hnamed
    | cons k key => simpa using hcomment
  simp [parseEnvLine, htext, hkey, hvalue, hunquote, hhead, htrimmed, hnamed,
    trim_between hquote hquote]

/-- A file of written entries holds these entries. -/
theorem entries_written (h : ∀ e ∈ entries, e.Writable) :
    (EnvFile.text (written entries)).entries = some entries := by
  have hlines : ∀ entries : List EnvEntry, (∀ e ∈ entries, e.Writable) →
      (entries.map EnvEntry.line).filterMap parseEnvLine = entries := by
    intro entries h
    rw [List.filterMap_map]
    exact (List.filterMap_congr fun e he => parseEnvLine_line (h e he)).trans List.filterMap_some
  rw [EnvFile.entries, splitLines_written h, List.filterMap_append, hlines entries h]
  simp [parseEnvLine, Json.trim]

namespace Reading

variable {ν : Type*} (number : JsString → Option ν) {initial : OrderedMap JsString JsString}
  {r : Reading} {overrides : List EnvEntry}

/-- After a complete load, the files no longer matter. -/
theorem answers_of_complete (h : r.overrides = some overrides)
    (calls : List (EnvFiles × EnvCall)) :
    r.answers number initial calls =
      calls.map fun c => reply number (r.valueOf initial) c.2 := by
  induction calls with
  | nil => rfl
  | cons c calls ih =>
      have hlook : r.look c.1 = (r, .ok ()) := by rw [look, h]
      rw [answers, hlook, ih, List.map_cons]

end Reading

theorem exists_lastValue (h : name ∈ entries.map EnvEntry.key) :
    ∃ e ∈ entries, e.key = name ∧ lastValue entries name = some e.value := by
  obtain ⟨e, he, hkey⟩ := List.mem_map.mp h
  have hfound : (entries.reverse.find? fun e => e.key = name).isSome = true :=
    List.find?_isSome.mpr ⟨e, List.mem_reverse.mpr he, decide_eq_true hkey⟩
  obtain ⟨e', he'⟩ := Option.isSome_iff_exists.mp hfound
  have hlast : e'.key = name := by simpa using List.find?_some he'
  refine ⟨e', List.mem_reverse.mp (List.mem_of_find?_eq_some he'), hlast, ?_⟩
  rw [lastValue, firstValue, he']
  rfl

/-- Entries written to `.env`, once read, are what the process is told for the rest of its life:
the last one of a name, unless the process was started with that name. -/
theorem written_values_are_read {ν : Type*} (number : JsString → Option ν)
    (initial : OrderedMap JsString JsString) (entries : List EnvEntry) (exampleFile : EnvFile)
    (first : EnvCall) (later : List (EnvFiles × EnvCall)) (files : EnvFiles) (name : JsString)
    (hentries : ∀ e ∈ entries, e.Writable) (hexample : exampleFile.entries.isSome = true)
    (hname : name ∈ entries.map EnvEntry.key) :
    ∃ value, (initial.get? name).or (lastValue entries name) = some value ∧
      ((ProcessEnv.start initial).answers number
          (({ exampleFile := exampleFile, envFile := .text (written entries) }, first) ::
            (later ++ [(files, .requiredEnv name)]))).getLast? =
        some (if value = [] then
            .error (.error (Json.units "Missing required environment variable: " ++ name))
          else .ok (.value (.text value))) := by
  obtain ⟨examples, hexamples⟩ := Option.isSome_iff_exists.mp hexample
  have hlook : ({} : Reading).look
      { exampleFile := exampleFile, envFile := .text (written entries) } =
      ({ examples := examples, overrides := some entries }, .ok ()) := by
    simp [Reading.look, hexamples, entries_written hentries]
  obtain ⟨e, he, hkey, hlast⟩ := exists_lastValue hname
  have hkept := (hentries e he).kept
  have hstored : Utf8.cString name = name := by
    rw [← hkey]
    exact congrArg EnvEntry.key hkept
  have hplain : Plain name entries := by
    rintro e' he' rfl
    rw [(hentries e' he').kept]
  have hvalue : Reading.valueOf initial { examples := examples, overrides := some entries } name =
      ((initial.get? name).or (lastValue entries name)).map .text := by
    have htext := Reading.textOf_plain initial
      (r := { examples := examples, overrides := some entries }) hstored
      (hkey ▸ (hentries e he).named) hplain
    have hsame : Utf8.cString e.value = e.value := congrArg EnvEntry.value hkept
    rw [Reading.valueOf, hstored, htext, Option.getD_some, hlast, Option.map_some, hsame]
    cases initial.get? name <;> rfl
  obtain ⟨value, hor⟩ : ∃ value, (initial.get? name).or (lastValue entries name) = some value := by
    rw [hlast]
    cases initial.get? name with
    | some value => exact ⟨value, rfl⟩
    | none => exact ⟨e.value, rfl⟩
  refine ⟨value, hor, ?_⟩
  rw [(ProcessEnv.holds_start initial).answers number, Reading.answers, hlook]
  simp only
  rw [Reading.answers_of_complete number rfl, List.map_append, ← List.cons_append]
  simp only [List.map_cons, List.map_nil]
  rw [List.getLast?_concat, Reading.reply, hvalue, hor]
  by_cases hempty : value = []
  · simp [hempty, Option.filter]
  · simp [hempty, Option.filter]

theorem written_values_are_read_quoted :
    ∃ value, ((∅ : OrderedMap JsString JsString).get? (Json.units "EDGE_SEED")).or
        (lastValue [⟨Json.units "EDGE_SEED", Json.units " 4\"2 "⟩] (Json.units "EDGE_SEED")) =
          some value ∧
      ((ProcessEnv.start ∅).answers (fun _ => (none : Option ℕ))
          (({ exampleFile := .absent,
              envFile := .text (written [⟨Json.units "EDGE_SEED", Json.units " 4\"2 "⟩]) },
            .loadEnv) ::
            ([] ++ [({ exampleFile := .unreadable, envFile := .absent },
              .requiredEnv (Json.units "EDGE_SEED"))]))).getLast? =
        some (if value = [] then
            .error (.error (Json.units "Missing required environment variable: " ++
              Json.units "EDGE_SEED"))
          else .ok (.value (.text value))) :=
  written_values_are_read (fun _ => none) ∅ [⟨Json.units "EDGE_SEED", Json.units " 4\"2 "⟩]
    .absent .loadEnv [] { exampleFile := .unreadable, envFile := .absent }
    (Json.units "EDGE_SEED") (by decide) rfl (by decide)

end ServeInfer.Config
