import ServeInfer.Lib.Utf8Mirror
import ServeInfer.Lib.Utf8Text

/-!
# Texts decoded chunk by chunk

The chunks of an input, each decoded on its own, and the pieces they make of a part
of the input. An ASCII byte keeps what comes before it apart from what follows.
-/

namespace Utf8

/-- The units of all the chunks. -/
def decodeAll (chunks : List (List UInt8)) : List CodeUnit := (chunks.map decode).flatten

/-- The pieces of the first bytes. -/
def takeBytes : ℕ → List (List UInt8) → List (List UInt8)
  | _, [] => []
  | n, chunk :: chunks =>
      if chunk.length ≤ n then chunk :: takeBytes (n - chunk.length) chunks else [chunk.take n]

/-- The pieces of what comes after the first bytes. -/
def dropBytes : ℕ → List (List UInt8) → List (List UInt8)
  | _, [] => []
  | n, chunk :: chunks =>
      if chunk.length ≤ n then dropBytes (n - chunk.length) chunks else chunk.drop n :: chunks

variable {chunks : List (List UInt8)} {b : UInt8} {x y : List UInt8} {m n : ℕ}

theorem decodeAll_nil : decodeAll [] = [] := rfl

theorem decodeAll_singleton (chunk : List UInt8) : decodeAll [chunk] = decode chunk :=
  List.append_nil _

theorem decodeAll_cons (chunk : List UInt8) (chunks : List (List UInt8)) :
    decodeAll (chunk :: chunks) = decode chunk ++ decodeAll chunks := rfl

theorem mirrors_decodeAll (chunks : List (List UInt8)) :
    Mirrors chunks.flatten (decodeAll chunks) := by
  induction chunks with
  | nil => exact .nil
  | cons chunk chunks ih => exact (mirrors_decode chunk).append ih

theorem flatten_takeBytes (n : ℕ) (chunks : List (List UInt8)) :
    (takeBytes n chunks).flatten = chunks.flatten.take n := by
  induction chunks generalizing n with
  | nil => simp [takeBytes]
  | cons chunk chunks ih =>
      rw [takeBytes]
      split
      · rename_i hle
        rw [List.flatten_cons, List.flatten_cons, ih, List.take_append,
          List.take_of_length_le hle]
      · rename_i hlt
        rw [List.flatten_singleton, List.flatten_cons,
          List.take_append_of_le_length (by omega)]

theorem flatten_dropBytes (n : ℕ) (chunks : List (List UInt8)) :
    (dropBytes n chunks).flatten = chunks.flatten.drop n := by
  induction chunks generalizing n with
  | nil => simp [dropBytes]
  | cons chunk chunks ih =>
      rw [dropBytes]
      split
      · rename_i hle
        rw [List.flatten_cons, ih, List.drop_append, List.drop_of_length_le hle, List.nil_append]
      · rename_i hlt
        rw [List.flatten_cons, List.flatten_cons, List.drop_append_of_le_length (by omega)]

theorem dropBytes_dropBytes (m n : ℕ) (chunks : List (List UInt8)) :
    dropBytes m (dropBytes n chunks) = dropBytes (n + m) chunks := by
  induction chunks generalizing n with
  | nil => rfl
  | cons chunk chunks ih =>
      rw [dropBytes, dropBytes]
      by_cases hle : chunk.length ≤ n
      · rw [if_pos hle, if_pos (by omega), ih]
        congr 1
        omega
      · rw [if_neg hle, dropBytes, List.length_drop]
        by_cases hrest : chunk.length - n ≤ m
        · rw [if_pos hrest, if_pos (by omega)]
          congr 1
          omega
        · rw [if_neg hrest, if_neg (by omega), List.drop_drop]

theorem decode_append_ascii_cons (x : List UInt8) (hb : b.toNat < 0x80) (y : List UInt8) :
    decode (x ++ b :: y) = decode x ++ unit b :: decode y :=
  decodeFrom_append sound_idle x hb y

theorem decodeAll_dropBytes_zero (chunks : List (List UInt8)) :
    decodeAll (dropBytes 0 chunks) = decodeAll chunks := by
  induction chunks with
  | nil => rfl
  | cons chunk chunks ih =>
      rw [dropBytes]
      split
      · rename_i hempty
        obtain rfl := List.length_eq_zero_iff.mp (Nat.le_zero.mp hempty)
        exact ih
      · rfl

/-- An ASCII byte cuts the chunks in two. -/
theorem decodeAll_split (h : chunks.flatten = x ++ b :: y) (hb : b.toNat < 0x80) :
    decodeAll chunks =
      decodeAll (takeBytes x.length chunks) ++
        unit b :: decodeAll (dropBytes (x.length + 1) chunks) := by
  induction chunks generalizing x with
  | nil => simp at h
  | cons chunk chunks ih =>
      rw [List.flatten_cons] at h
      by_cases hle : chunk.length ≤ x.length
      · obtain ⟨x', rfl⟩ : ∃ x', x = chunk ++ x' := by
          have hprefix := List.prefix_of_prefix_length_le (List.prefix_append chunk chunks.flatten)
            (h ▸ List.prefix_append x (b :: y)) hle
          obtain ⟨x', hx'⟩ := hprefix
          exact ⟨x', hx'.symm⟩
        rw [List.append_assoc, List.append_cancel_left_eq] at h
        have hlen : (chunk ++ x').length - chunk.length = x'.length := by
          rw [List.length_append, Nat.add_sub_cancel_left]
        have hlen' : (chunk ++ x').length + 1 - chunk.length = x'.length + 1 := by
          rw [List.length_append]
          omega
        rw [takeBytes, dropBytes, if_pos hle, if_pos (by omega), hlen, hlen', decodeAll_cons, ih h,
          decodeAll_cons, List.append_assoc]
      · obtain ⟨c, rfl⟩ : ∃ c, chunk = x ++ c := by
          have hprefix := List.prefix_of_prefix_length_le (List.prefix_append x (b :: y))
            (h ▸ List.prefix_append chunk chunks.flatten) (by omega)
          obtain ⟨c, hc⟩ := hprefix
          exact ⟨c, hc.symm⟩
        rw [List.append_assoc, List.append_cancel_left_eq] at h
        cases c with
        | nil => simp at hle
        | cons b' c =>
            obtain ⟨rfl, rfl⟩ := List.cons.inj h
            have htake : takeBytes x.length ((x ++ b' :: c) :: chunks) = [x] := by
              rw [takeBytes, if_neg hle, List.take_left]
            have hdrop : decodeAll (dropBytes (x.length + 1) ((x ++ b' :: c) :: chunks)) =
                decode c ++ decodeAll chunks := by
              rw [dropBytes]
              split
              · rename_i hshort
                rw [List.length_append, List.length_cons] at hshort
                have hc : c = [] := List.length_eq_zero_iff.mp (by omega)
                subst hc
                rw [List.length_append, List.length_singleton, Nat.sub_self,
                  decodeAll_dropBytes_zero]
                rfl
              · have hdropped : (x ++ b' :: c).drop (x.length + 1) = c := by
                  rw [List.drop_append, List.drop_of_length_le (Nat.le_succ _),
                    Nat.add_sub_cancel_left]
                  rfl
                rw [decodeAll_cons, hdropped]
            have hx : decodeAll [x] = decode x := List.append_nil (decode x)
            rw [htake, hdrop, hx, decodeAll_cons, decode_append_ascii_cons x hb, List.append_assoc,
              List.cons_append]

section Fields

/-- Literals with fields between them, and a literal at the end. -/
def weave {α : Type*} : List (List α × List α) → List α → List α
  | [], last => last
  | (literal, field) :: segments, last => literal ++ (field ++ weave segments last)

/-- The pieces of every field. -/
def fieldPieces : List (List UInt8 × List UInt8) → List (List UInt8) → List (List (List UInt8))
  | [], _ => []
  | (literal, field) :: segments, chunks =>
      takeBytes field.length (dropBytes literal.length chunks) ::
        fieldPieces segments (dropBytes (literal.length + field.length) chunks)

/-- The literals in code units with other fields between them. -/
def weaveUnits : List (List UInt8 × List UInt8) → List (List CodeUnit) → List UInt8 →
    List CodeUnit
  | (literal, _) :: segments, field :: fields, last =>
      literal.map unit ++ (field ++ weaveUnits segments fields last)
  | _, _, last => last.map unit

/-- A literal: some ASCII bytes. -/
def IsLiteral (x : List UInt8) : Prop := x ≠ [] ∧ ∀ b ∈ x, b.toNat < 0x80

instance (x : List UInt8) : Decidable (IsLiteral x) := inferInstanceAs (Decidable (_ ∧ _))

variable {segments : List (List UInt8 × List UInt8)} {last : List UInt8}

theorem decodeAll_of_flatten_nil (h : chunks.flatten = []) : decodeAll chunks = [] := by
  have hpieces := List.flatten_eq_nil_iff.mp h
  rw [decodeAll, List.flatten_eq_nil_iff]
  intro units hunits
  obtain ⟨chunk, hchunk, rfl⟩ := List.mem_map.mp hunits
  rw [hpieces chunk hchunk]
  rfl

theorem decodeAll_takeBytes_zero (chunks : List (List UInt8)) :
    decodeAll (takeBytes 0 chunks) = [] :=
  decodeAll_of_flatten_nil (by rw [flatten_takeBytes, List.take_zero])

/-- ASCII bytes in front stand for themselves. -/
theorem decodeAll_ascii (hx : ∀ b ∈ x, b.toNat < 0x80) (h : chunks.flatten = x ++ y) :
    decodeAll chunks = x.map unit ++ decodeAll (dropBytes x.length chunks) := by
  induction x generalizing chunks with
  | nil => exact (decodeAll_dropBytes_zero chunks).symm
  | cons b x ih =>
      have hsplit := decodeAll_split (x := []) h (hx b List.mem_cons_self)
      have hrest : (dropBytes 1 chunks).flatten = x ++ y := by
        rw [flatten_dropBytes, h]
        rfl
      have hlater := ih (fun c hc => hx c (List.mem_cons_of_mem b hc)) hrest
      rw [dropBytes_dropBytes] at hlater
      rw [hsplit, List.length_nil, decodeAll_takeBytes_zero, List.nil_append, Nat.zero_add, hlater,
        List.map_cons, List.cons_append, List.length_cons, Nat.add_comm 1]

/-- What comes before an ASCII byte is apart from it. -/
theorem decodeAll_field (hb : b.toNat < 0x80) (h : chunks.flatten = x ++ b :: y) :
    decodeAll chunks =
      decodeAll (takeBytes x.length chunks) ++ decodeAll (dropBytes x.length chunks) := by
  have hrest : (dropBytes x.length chunks).flatten = [b] ++ y := by
    rw [flatten_dropBytes, h, List.drop_left]
    rfl
  have hascii : ∀ c ∈ [b], c.toNat < 0x80 := by
    intro c hc
    rw [List.mem_singleton.mp hc]
    exact hb
  rw [decodeAll_ascii hascii hrest, dropBytes_dropBytes, decodeAll_split h hb]
  rfl

theorem IsLiteral.weave (hsegments : ∀ e ∈ segments, IsLiteral e.1) (hlast : IsLiteral last) :
    ∃ b rest, Utf8.weave segments last = b :: rest ∧ b.toNat < 0x80 := by
  cases segments with
  | nil =>
      obtain ⟨b, rest, rfl⟩ := List.exists_cons_of_ne_nil hlast.1
      exact ⟨b, rest, rfl, hlast.2 b List.mem_cons_self⟩
  | cons e segments =>
      obtain ⟨hne, hascii⟩ := hsegments e List.mem_cons_self
      obtain ⟨b, rest, hlit⟩ := List.exists_cons_of_ne_nil hne
      refine ⟨b, rest ++ (e.2 ++ Utf8.weave segments last), ?_, hascii b (hlit ▸ List.mem_cons_self)⟩
      rw [Utf8.weave, hlit, List.cons_append]

/-- What the chunks hold behind the first literal, and behind the first field. -/
theorem behind_literal {literal field : List UInt8}
    (h : chunks.flatten = weave ((literal, field) :: segments) last ++ y) :
    (dropBytes literal.length chunks).flatten = field ++ (weave segments last ++ y) ∧
      (dropBytes (literal.length + field.length) chunks).flatten = weave segments last ++ y := by
  rw [weave, List.append_assoc, List.append_assoc] at h
  have hfield : (dropBytes literal.length chunks).flatten = field ++ (weave segments last ++ y) := by
    rw [flatten_dropBytes, h, List.drop_left]
  refine ⟨hfield, ?_⟩
  rw [← dropBytes_dropBytes, flatten_dropBytes, hfield, List.drop_left]

/-- The pieces of a field make it up. -/
theorem flatten_fieldPieces (h : chunks.flatten = weave segments last ++ y) :
    (fieldPieces segments chunks).map List.flatten = segments.map Prod.snd := by
  induction segments generalizing chunks with
  | nil => rfl
  | cons e segments ih =>
      obtain ⟨literal, field⟩ := e
      obtain ⟨hfield, hbehind⟩ := behind_literal h
      rw [fieldPieces, List.map_cons, List.map_cons, ih hbehind, flatten_takeBytes, hfield,
        List.take_left]

/-- Fields with literals around them are decoded each from its own pieces. -/
theorem decodeAll_weave (hsegments : ∀ e ∈ segments, IsLiteral e.1) (hlast : IsLiteral last)
    (h : chunks.flatten = weave segments last ++ y) :
    decodeAll chunks =
      weaveUnits segments ((fieldPieces segments chunks).map decodeAll) last ++
        decodeAll (dropBytes (weave segments last).length chunks) := by
  induction segments generalizing chunks with
  | nil => exact decodeAll_ascii hlast.2 h
  | cons e segments ih =>
      obtain ⟨literal, field⟩ := e
      obtain ⟨-, hliteral⟩ := hsegments _ List.mem_cons_self
      have hmore := fun e he => hsegments e (List.mem_cons_of_mem _ he)
      obtain ⟨b, rest, hnext, hb⟩ := IsLiteral.weave hmore hlast
      obtain ⟨hfield, hbehind⟩ := behind_literal h
      rw [weave, List.append_assoc, List.append_assoc] at h
      have hnextField : (dropBytes literal.length chunks).flatten = field ++ b :: (rest ++ y) := by
        rw [hfield, hnext, List.cons_append]
      have hapart := decodeAll_field hb hnextField
      have hlater := ih hmore hbehind
      rw [decodeAll_ascii hliteral h, hapart, dropBytes_dropBytes, hlater, dropBytes_dropBytes]
      simp only [weave, weaveUnits, fieldPieces, List.map_cons, List.length_append,
        List.append_assoc, Nat.add_assoc]

/-- In one chunk every field is one piece. -/
theorem decode_weave (hsegments : ∀ e ∈ segments, IsLiteral e.1) (hlast : IsLiteral last)
    (y : List UInt8) :
    decode (weave segments last ++ y) =
      weaveUnits segments (segments.map fun e => decode e.2) last ++ decode y := by
  induction segments with
  | nil => exact decode_append_ascii hlast.2 y
  | cons e segments ih =>
      obtain ⟨literal, field⟩ := e
      obtain ⟨-, hliteral⟩ := hsegments _ List.mem_cons_self
      have hmore := fun e he => hsegments e (List.mem_cons_of_mem _ he)
      obtain ⟨b, rest, hnext, hb⟩ := IsLiteral.weave hmore hlast
      have hlater := ih hmore
      rw [hnext, List.cons_append, decode_ascii hb] at hlater
      rw [weave, List.append_assoc, List.append_assoc, decode_append_ascii hliteral, hnext,
        List.cons_append, decode_append_ascii_cons field hb, hlater]
      simp only [weaveUnits, List.map_cons, List.append_assoc]

end Fields

end Utf8
