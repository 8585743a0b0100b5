import ServeInfer.Lib.JsonNumber

/-!
# Hand-written JSON in an ASCII-compatible encoding

A program puts a JSON text together out of characters, and a reader of UTF-8 gets the
bytes. Whatever encoding the characters are in, as long as it leaves ASCII alone, the
text comes apart at its ASCII characters, and pieces that read compose.
-/

open Utf8 (CodeUnit decode unit)

/-- An encoding in which ASCII characters, and nothing else, are ASCII bytes. -/
structure Charset where
  bytes : Char → List UInt8
  ascii : ∀ c : Char, c.toNat < 0x80 → bytes c = [.ofNat c.toNat]
  high : ∀ c : Char, 0x80 ≤ c.toNat → ∀ b ∈ bytes c, 0x80 ≤ b.toNat

namespace Charset

def utf8 : Charset where
  bytes := Utf8.encodeChar
  ascii c hc := by rw [Utf8.encodeChar, if_pos hc]
  high _ hc := Utf8.le_encodeChar hc

variable (M : Charset)

def encode (text : List Char) : List UInt8 := text.flatMap M.bytes

/-- What a reader of UTF-8 gets. -/
def units (text : List Char) : List CodeUnit := decode (M.encode text)

/-- A text that comes out as these units, whatever follows it. -/
def Stands (text : List Char) (s : List CodeUnit) : Prop :=
  ∀ rest, M.units (text ++ rest) = s ++ M.units rest

variable {M} {text text' rest : List Char} {s s' : List CodeUnit} {c : Char}

theorem encode_append (text text' : List Char) :
    M.encode (text ++ text') = M.encode text ++ M.encode text' := List.flatMap_append

theorem encode_ascii (hc : c.toNat < 0x80) (text : List Char) :
    M.encode (c :: text) = .ofNat c.toNat :: M.encode text := by
  rw [encode, List.flatMap_cons, M.ascii c hc]
  rfl

/-- An ASCII character cuts the text in two. -/
theorem units_append (hc : c.toNat < 0x80) (text rest : List Char) :
    M.units (text ++ c :: rest) = M.units text ++ .ofNat c.toNat :: M.units rest := by
  have hnat : (UInt8.ofNat c.toNat).toNat = c.toNat := Utf8.toNat_ofNat_lt (by omega)
  have hcut := Utf8.decodeFrom_append Utf8.sound_idle (M.encode text) (hnat ▸ hc) (M.encode rest)
  rw [unit, hnat] at hcut
  rw [units, encode_append, encode_ascii hc]
  exact hcut

/-- An ASCII character comes out wherever it stands. -/
theorem mem_units (hc : c.toNat < 0x80) (hmem : c ∈ text) : .ofNat c.toNat ∈ M.units text := by
  obtain ⟨front, back, rfl⟩ := List.append_of_mem hmem
  rw [units_append hc]
  exact List.mem_append_right _ List.mem_cons_self

theorem Stands.units (h : M.Stands text s) : M.units text = s := by
  have hend := h []
  rwa [List.append_nil, show M.units [] = [] from rfl, List.append_nil] at hend

theorem Stands.append (h : M.Stands text s) (h' : M.Stands text' s') :
    M.Stands (text ++ text') (s ++ s') := by
  intro rest
  rw [List.append_assoc, h, h', List.append_assoc]

theorem stands_char (hc : c.toNat < 0x80) : M.Stands [c] [.ofNat c.toNat] := by
  intro rest
  exact units_append hc [] rest

theorem Stands.cons (hc : c.toNat < 0x80) (h : M.Stands text s) :
    M.Stands (c :: text) (.ofNat c.toNat :: s) :=
  (stands_char hc).append h

theorem stands_ascii (htext : ∀ c ∈ text, c.toNat < 0x80) :
    M.Stands text (text.map fun c => .ofNat c.toNat) := by
  induction text with
  | nil => exact fun rest => rfl
  | cons c text ih =>
      apply Stands.cons (htext c List.mem_cons_self)
      exact ih fun d hd => htext d (List.mem_cons_of_mem c hd)

/-- A text between quotes. -/
theorem stands_quoted (text : List Char) :
    M.Stands ('"' :: (text ++ ['"'])) (Json.quoted (M.units text)) := by
  intro rest
  have hquote : ('"' : Char).toNat < 0x80 := by decide
  have hopen := units_append (M := M) hquote [] (text ++ '"' :: rest)
  rw [List.nil_append] at hopen
  rw [List.cons_append, List.append_assoc, List.singleton_append, hopen, units_append hquote]
  simp [Json.quoted, Json.quote, Charset.units, encode, Utf8.decode, Utf8.decodeFrom, Utf8.flush]

section Values

variable (M) in
/-- A text that is read as a value, whatever follows it. -/
def Speaks (text : List Char) (v : Json) : Prop :=
  ∃ s, M.Stands text s ∧ Json.ReadsTo s v ∧ Json.Starts s

/-- A key that stands for itself. -/
def IsName (key : String) : Prop :=
  ∀ c ∈ key.toList, c.toNat < 0x80 ∧ Json.Plain (.ofNat c.toNat)

instance (key : String) : Decidable (IsName key) := inferInstanceAs (Decidable (∀ _ ∈ _, _))

def memberText (m : String × List Char) : List Char := '"' :: (m.1.toList ++ '"' :: ':' :: m.2)

def membersText : List (String × List Char) → List Char
  | [] => []
  | [m] => memberText m
  | m :: ms => memberText m ++ ',' :: membersText ms

def objectText (ms : List (String × List Char)) : List Char := '{' :: (membersText ms ++ ['}'])

def arrayText (ts : List (List Char)) : List Char := '[' :: ([','].intercalate ts ++ [']'])

variable (M) in
/-- A member whose value is read. -/
def SpeaksMember (m : String × List Char) (n : List CodeUnit × Json) : Prop :=
  n.1 = Json.units m.1 ∧ IsName m.1 ∧ M.Speaks m.2 n.2

theorem speaksMember {key : String} (hname : IsName key) {v : Json} (h : M.Speaks text v) :
    M.SpeaksMember (key, text) (Json.units key, v) := ⟨rfl, hname, h⟩

variable {ms : List (String × List Char)} {ns : List (List CodeUnit × Json)}
  {ts : List (List Char)} {vs : List Json}

/-- The text of a value has one reading. -/
theorem Speaks.parse {v : Json} (h : M.Speaks text v) {space : List Char}
    (hspace : Json.skipSpace (M.units space) = [])
    (hrest : Json.NotNext Json.inNumber (M.units space)) :
    Json.parse (M.units (text ++ space)) = some v := by
  obtain ⟨s, hstands, hread, -⟩ := h
  rw [hstands, hread.parse hspace hrest]

theorem speaks_quoted {t : List CodeUnit} (h : Json.ReadsInside (M.units text) t) :
    M.Speaks ('"' :: (text ++ ['"'])) (.str t) := by
  refine ⟨_, stands_quoted text, (Json.reads_quoted h).readsTo, ?_⟩
  exact ⟨Json.quote, _, rfl, by decide, by decide⟩

theorem stands_member {m : String × List Char} {s : List CodeUnit} (hname : IsName m.1)
    (h : M.Stands m.2 s) : M.Stands (memberText m) (Json.memberText (Json.units m.1, s)) := by
  have hkey : M.Stands m.1.toList (Json.units m.1) := stands_ascii fun c hc => (hname c hc).1
  have htext : memberText m = '"' :: (m.1.toList ++ ('"' :: ':' :: m.2)) := rfl
  have hunits : Json.memberText (Json.units m.1, s) =
      Json.quote :: (Json.units m.1 ++ (Json.quote :: 0x3A :: s)) := by
    simp [Json.memberText, Json.quoted]
  rw [htext, hunits]
  exact .cons (by decide) (hkey.append (.cons (by decide) (.cons (by decide) h)))

theorem exists_membersText (h : List.Forall₂ M.SpeaksMember ms ns) :
    ∃ pieces, M.Stands (membersText ms) (Json.membersText pieces) ∧
      List.Forall₂ Json.ReadsEntry pieces ns := by
  induction h with
  | nil => exact ⟨[], fun rest => rfl, .nil⟩
  | @cons m n ms ns hm hrest ih =>
      obtain ⟨hkey, hname, s, hstands, hread, -⟩ := hm
      obtain ⟨pieces, hpieces, hreads⟩ := ih
      have hplain : ∀ u ∈ Json.units m.1, Json.Plain u := by
        intro u hu
        obtain ⟨c, hc, rfl⟩ := List.mem_map.mp hu
        exact (hname c hc).2
      have hinside : Json.ReadsInside (Json.units m.1) n.1 := by
        rw [hkey]
        exact Json.readsInside_self hplain
      have hentry : Json.ReadsEntry (Json.units m.1, s) n := ⟨hinside, hread⟩
      refine ⟨(Json.units m.1, s) :: pieces, ?_, .cons hentry hreads⟩
      cases hrest with
      | nil =>
          cases hreads
          exact stands_member hname hstands
      | cons hm' hrest =>
          cases hreads with
          | cons hentry' hreads =>
              exact (stands_member hname hstands).append (.cons (by decide) hpieces)

theorem mem_objectText {m : String × List Char} (hm : m ∈ ms) (hc : c ∈ m.2) :
    c ∈ objectText ms := by
  have hmember : c ∈ memberText m := by simp [memberText, hc]
  have hmembers : c ∈ membersText ms := by
    induction ms with
    | nil => cases hm
    | cons m' ms ih =>
        have hcons : c ∈ memberText m' ∨ c ∈ membersText ms := by
          rcases List.mem_cons.mp hm with rfl | hm
          · exact .inl hmember
          · exact .inr (ih hm)
        cases ms with
        | nil =>
            rcases hcons with hcons | hcons
            · exact hcons
            · cases hcons
        | cons m'' ms =>
            rcases hcons with hcons | hcons
            · exact List.mem_append_left _ hcons
            · exact List.mem_append_right _ (List.mem_cons_of_mem _ hcons)
  simp [objectText, hmembers]

theorem mem_arrayText {t : List Char} (ht : t ∈ ts) (hc : c ∈ t) : c ∈ arrayText ts := by
  have hitems : c ∈ [','].intercalate ts := by
    induction ts with
    | nil => cases ht
    | cons t' ts ih =>
        cases ts with
        | nil =>
            obtain rfl := List.mem_singleton.mp ht
            simpa [List.intercalate] using hc
        | cons t'' ts =>
            have htext : [','].intercalate (t' :: t'' :: ts) =
                t' ++ ',' :: [','].intercalate (t'' :: ts) := by
              simp [List.intercalate]
            rw [htext]
            rcases List.mem_cons.mp ht with rfl | ht
            · exact List.mem_append_left _ hc
            · exact List.mem_append_right _ (List.mem_cons_of_mem _ (ih ht))
  simp [arrayText, hitems]

/-- An object of values that are read. -/
theorem speaks_object (h : List.Forall₂ M.SpeaksMember ms ns) :
    M.Speaks (objectText ms) (.obj ns) := by
  obtain ⟨pieces, hpieces, hreads⟩ := exists_membersText h
  refine ⟨Json.objectText pieces, ?_, Json.readsTo_object hreads, ?_⟩
  · exact .cons (by decide) (hpieces.append (stands_char (by decide)))
  · exact ⟨0x7B, _, rfl, by decide, by decide⟩

theorem exists_speaks_object (h : ∀ m ∈ ms, IsName m.1 ∧ ∃ v, M.Speaks m.2 v) :
    ∃ v, M.Speaks (objectText ms) v := by
  have hmembers : ∃ ns, List.Forall₂ M.SpeaksMember ms ns := by
    induction ms with
    | nil => exact ⟨[], .nil⟩
    | cons m ms ih =>
        obtain ⟨hname, v, hv⟩ := h m List.mem_cons_self
        obtain ⟨ns, hns⟩ := ih fun m' hm' => h m' (List.mem_cons_of_mem m hm')
        exact ⟨_ :: ns, .cons (speaksMember hname hv) hns⟩
  obtain ⟨ns, hns⟩ := hmembers
  exact ⟨.obj ns, speaks_object hns⟩

theorem exists_itemsText (h : List.Forall₂ M.Speaks ts vs) :
    ∃ pieces, M.Stands ([','].intercalate ts) (Json.itemsText pieces) ∧
      List.Forall₂ Json.ReadsTo pieces vs ∧ ∀ s ∈ pieces, Json.Starts s := by
  induction h with
  | nil => exact ⟨[], fun rest => rfl, .nil, by simp⟩
  | @cons t v ts vs hv hrest ih =>
      obtain ⟨s, hstands, hread, hstart⟩ := hv
      obtain ⟨pieces, hpieces, hreads, hstarts⟩ := ih
      refine ⟨s :: pieces, ?_, .cons hread hreads, ?_⟩
      · cases hrest with
        | nil =>
            cases hreads
            have hsingle : [','].intercalate [t] = t := by simp [List.intercalate]
            rw [hsingle]
            exact hstands
        | @cons t' v' ts vs hv' hrest =>
            cases hreads with
            | @cons s' _ pieces _ hread' hreads =>
                have htext : [','].intercalate (t :: t' :: ts) =
                    t ++ ',' :: [','].intercalate (t' :: ts) := by
                  simp [List.intercalate]
                rw [htext]
                exact hstands.append (.cons (by decide) hpieces)
      · rw [List.forall_mem_cons]
        exact ⟨hstart, hstarts⟩

/-- An array of values that are read. -/
theorem speaks_array (h : List.Forall₂ M.Speaks ts vs) : M.Speaks (arrayText ts) (.arr vs) := by
  obtain ⟨pieces, hpieces, hreads, hstarts⟩ := exists_itemsText h
  refine ⟨Json.arrayText pieces, ?_, Json.readsTo_array hreads hstarts, ?_⟩
  · exact .cons (by decide) (hpieces.append (stands_char (by decide)))
  · exact ⟨0x5B, _, rfl, by decide, by decide⟩

theorem exists_speaks_array (h : ∀ t ∈ ts, ∃ v, M.Speaks t v) :
    ∃ v, M.Speaks (arrayText ts) v := by
  have hvalues : ∃ vs, List.Forall₂ M.Speaks ts vs := by
    induction ts with
    | nil => exact ⟨[], .nil⟩
    | cons t ts ih =>
        obtain ⟨v, hv⟩ := h t List.mem_cons_self
        obtain ⟨vs, hvs⟩ := ih fun t' ht' => h t' (List.mem_cons_of_mem t ht')
        exact ⟨v :: vs, .cons hv hvs⟩
  obtain ⟨vs, hvs⟩ := hvalues
  exact ⟨.arr vs, speaks_array hvs⟩

theorem speaks_bool (b : Bool) : M.Speaks (toString b).toList (.bool b) := by
  refine ⟨Json.units (toString b), ?_, (Json.reads_bool b).readsTo, ?_⟩
  · exact stands_ascii (by cases b <;> decide)
  · cases b <;> exact ⟨_, _, rfl, by decide, by decide⟩

theorem speaks_decimal (n : ℤ) : M.Speaks (Text.decimal n) (.num (Json.decimalUnits n)) := by
  have hnumber := Json.isNumber_decimalUnits n
  exact ⟨_, stands_ascii fun _ => Text.decimal_ascii, Json.readsTo_number hnumber, hnumber.starts⟩

end Values

end Charset
