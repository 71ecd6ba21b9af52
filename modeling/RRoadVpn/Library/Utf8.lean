import Mathlib.Data.List.Basic

/-! UTF-8 text that is cut into pieces. A decoder replaces what it cannot read; how
many bytes one replacement stands for is left open. -/

namespace RRoadVpn.Library.Utf8
open String (utf8EncodeChar)

def encode (text : List Char) : List UInt8 := text.flatMap utf8EncodeChar

@[simp] theorem encode_nil : encode [] = [] := rfl

@[simp] theorem encode_cons (c : Char) (text : List Char) : encode (c :: text) = utf8EncodeChar c ++ encode text :=
  rfl

@[simp] theorem encode_append (first second : List Char) : encode (first ++ second) = encode first ++ encode second :=
  List.flatMap_append

abbrev Inner (b : UInt8) : Prop := ¬ b.IsUTF8FirstByte

theorem utf8EncodeChar_cons (c : Char) :
    ∃ b inner, utf8EncodeChar c = b :: inner ∧ b.IsUTF8FirstByte ∧ ∀ other ∈ inner, Inner other := by
  cases encoded : utf8EncodeChar c with
  | nil =>
    have positive := c.utf8Size_pos
    rw [← String.length_utf8EncodeChar, encoded] at positive
    exact absurd positive (Nat.lt_irrefl _)
  | cons b inner =>
    have first (i : Nat) (inside : i < (b :: inner).length) : ((b :: inner)[i]).IsUTF8FirstByte ↔ i = 0 := by
      have placed : i < (utf8EncodeChar c).length := by
        rw [encoded]
        exact inside
      have byte := @UInt8.isUTF8FirstByte_getElem_utf8EncodeChar c i placed
      simpa only [encoded] using byte
    refine ⟨b, inner, rfl, (first 0 (by simp)).mpr rfl, ?_⟩
    intro other member starts
    obtain ⟨i, inside, rfl⟩ := List.getElem_of_mem member
    have zero := (first (i + 1) (by simpa using inside)).mp starts
    omega

/-- No encoding is a proper prefix of another. -/
theorem utf8EncodeChar_inj {c d : Char} {first second : List UInt8}
    (same : utf8EncodeChar c ++ first = utf8EncodeChar d ++ second) : c = d := by
  have read (e : Char) (rest : List UInt8) :
      ByteArray.utf8DecodeChar? (utf8EncodeChar e ++ rest).toByteArray 0 = some e := by
    rw [List.toByteArray_append]
    exact ByteArray.utf8DecodeChar?_utf8EncodeChar_append
  have left := read c first
  rw [same, read d second] at left
  exact (Option.some.inj left).symm

theorem encode_inj {first second : List Char} (same : encode first = encode second) : first = second := by
  induction first generalizing second with
  | nil =>
    cases second with
    | nil => rfl
    | cons d second =>
      obtain ⟨b, inner, encoded, _⟩ := utf8EncodeChar_cons d
      simp [encoded] at same
  | cons c first ih =>
    cases second with
    | nil =>
      obtain ⟨b, inner, encoded, _⟩ := utf8EncodeChar_cons c
      simp [encoded] at same
    | cons d second =>
      have head := utf8EncodeChar_inj same
      subst head
      rw [ih (List.append_cancel_left same)]

/-! ### Decoding -/

/-- A decoding, which puts U+FFFD for a malformed byte and the inner bytes that go with it. -/
inductive Decodes : List UInt8 → List Char → Prop
  | nil : Decodes [] []
  | char (c : Char) {rest : List UInt8} {text : List Char} (decoded : Decodes rest text) :
      Decodes (utf8EncodeChar c ++ rest) (c :: text)
  | malformed (b : UInt8) {inner rest : List UInt8} {text : List Char}
      (bad : ∀ c, ¬ utf8EncodeChar c <+: b :: (inner ++ rest)) (follow : ∀ other ∈ inner, Inner other)
      (decoded : Decodes rest text) : Decodes (b :: (inner ++ rest)) ('\uFFFD' :: text)

theorem Decodes.encoded {text decoded : List Char} (decodes : Decodes (encode text) decoded) : decoded = text := by
  generalize same : encode text = bytes at decodes
  induction decodes generalizing text with
  | nil => exact (encode_inj (same : encode text = encode [])).symm
  | char c _ ih =>
    cases text with
    | nil =>
      obtain ⟨b, inner, encoded, _⟩ := utf8EncodeChar_cons c
      simp [encoded] at same
    | cons d text =>
      have head := utf8EncodeChar_inj same
      subst head
      rw [ih (List.append_cancel_left same)]
  | malformed b bad follow _ _ =>
    cases text with
    | nil => simp at same
    | cons d text => exact absurd ⟨encode text, same⟩ (bad d)

/-! ### Cutting -/

/-- The piece ends and begins between two characters. -/
def Whole (piece : List UInt8) : Prop := ∃ text, piece = encode text

/-- A well-formed text is cut between two characters where the second part does not begin with an inner byte. -/
theorem whole_split {text : List Char} {first second : List UInt8} (same : first ++ second = encode text)
    (between : ∀ b rest, second = b :: rest → b.IsUTF8FirstByte) : Whole first ∧ Whole second := by
  induction text generalizing first with
  | nil =>
    obtain ⟨rfl, rfl⟩ := List.append_eq_nil_iff.mp same
    exact ⟨⟨[], rfl⟩, ⟨[], rfl⟩⟩
  | cons c text ih =>
    rw [encode_cons] at same
    rcases List.append_eq_append_iff.mp same with ⟨left, encoded, rest⟩ | ⟨left, rfl, rest⟩
    · cases first with
      | nil => exact ⟨⟨[], rfl⟩, ⟨c :: text, same⟩⟩
      | cons a first =>
        cases left with
        | nil =>
          rw [List.append_nil] at encoded
          exact ⟨⟨[c], by rw [← encoded]; simp⟩, ⟨text, rest⟩⟩
        | cons d left =>
          obtain ⟨b, inner, shape, _, follow⟩ := utf8EncodeChar_cons c
          rw [shape] at encoded
          obtain ⟨-, tail⟩ := List.cons.inj encoded
          have starts := between d (left ++ encode text) rest
          exact absurd starts (follow d (tail ▸ List.mem_append_right first List.mem_cons_self))
    · obtain ⟨⟨front, rfl⟩, whole⟩ := ih rest.symm
      exact ⟨⟨c :: front, rfl⟩, whole⟩

def BeginsInside (piece : List UInt8) : Prop := ∃ b rest, piece = b :: rest ∧ Inner b

/-- If no piece begins inside a character, then all are whole. -/
theorem whole_pieces {pieces : List (List UInt8)} {text : List Char} (same : pieces.flatten = encode text)
    (some : ∀ piece ∈ pieces, piece ≠ []) (outside : ∀ piece ∈ pieces, ¬ BeginsInside piece) :
    ∀ piece ∈ pieces, Whole piece := by
  induction pieces generalizing text with
  | nil => simp
  | cons piece pieces ih =>
    have between : ∀ b rest, pieces.flatten = b :: rest → b.IsUTF8FirstByte := by
      intro b rest flat
      cases pieces with
      | nil => cases flat
      | cons next pieces =>
        cases next with
        | nil => exact absurd rfl (some [] (by simp))
        | cons head tail =>
          cases flat
          apply Classical.byContradiction
          intro inner
          exact outside (b :: tail) (by simp) ⟨b, tail, rfl, inner⟩
    obtain ⟨whole, ⟨rest, left⟩⟩ := whole_split same between
    intro other member
    rcases List.mem_cons.mp member with rfl | member
    · exact whole
    · exact ih left (fun piece inside => some piece (List.mem_cons_of_mem _ inside))
        (fun piece inside => outside piece (List.mem_cons_of_mem _ inside)) other member

section Decoding

variable {decode : List UInt8 → List Char} (decodes : ∀ bytes, Decodes bytes (decode bytes))
include decodes

/-- Whole pieces are decoded to the text. -/
theorem flatMap_decode {pieces : List (List UInt8)} {text : List Char} (same : pieces.flatten = encode text)
    (whole : ∀ piece ∈ pieces, Whole piece) : pieces.flatMap decode = text := by
  apply encode_inj
  rw [← same]
  clear same
  induction pieces with
  | nil => rfl
  | cons piece pieces ih =>
    obtain ⟨part, rfl⟩ := whole piece List.mem_cons_self
    rw [List.flatMap_cons, encode_append, ih fun other member => whole other (List.mem_cons_of_mem _ member),
      (decodes (encode part)).encoded]
    rfl

end Decoding

/-! ### Counting characters -/

section Counting

-- Characters of one byte may be left out of the count.
variable {apart : UInt8 → Bool}

variable (apart) in
/-- The first bytes of the characters that are counted. -/
def starts (bytes : List UInt8) : Nat := bytes.countP fun b => decide b.IsUTF8FirstByte && !apart b

theorem starts_append (first second : List UInt8) :
    starts apart (first ++ second) = starts apart first + starts apart second := List.countP_append

theorem starts_inner {inner : List UInt8} (follow : ∀ b ∈ inner, Inner b) : starts apart inner = 0 := by
  apply List.countP_eq_zero.mpr
  intro b member
  simp [follow b member]

theorem starts_cons (b : UInt8) (bytes : List UInt8) :
    starts apart (b :: bytes) = starts apart bytes + if b.IsUTF8FirstByte ∧ apart b = false then 1 else 0 := by
  simp [starts, List.countP_cons]

theorem starts_replacement (counted : apart 0xEF = false) (text : List Char) :
    starts apart (encode ('\uFFFD' :: text)) = 1 + starts apart (encode text) := by
  have encoded : utf8EncodeChar '\uFFFD' = [0xEF, 0xBF, 0xBD] := by decide
  have one : starts apart [0xEF, 0xBF, 0xBD] = 1 := by
    have first : UInt8.IsUTF8FirstByte 0xEF := by decide
    have second : Inner 0xBF := by decide
    have third : Inner 0xBD := by decide
    simp [first, second, third, counted, starts]
  rw [encode_cons, starts_append, encoded, one]

/-- A decoding has a character for every start, and one more if it begins inside a character. -/
theorem Decodes.starts_le (counted : apart 0xEF = false) {bytes : List UInt8} {text : List Char}
    (decodes : Decodes bytes text) :
    starts apart bytes ≤ starts apart (encode text) ∧
      (BeginsInside bytes → starts apart bytes < starts apart (encode text)) := by
  induction decodes with
  | nil => exact ⟨Nat.le_refl _, fun ⟨_, _, same, _⟩ => nomatch same⟩
  | char c _ ih =>
    refine ⟨?_, ?_⟩
    · rw [encode_cons, starts_append, starts_append]
      exact Nat.add_le_add_left ih.1 _
    · rintro ⟨b, rest, same, inner⟩
      obtain ⟨first, _, encoded, starts, _⟩ := utf8EncodeChar_cons c
      rw [encoded] at same
      cases same
      exact absurd starts inner
  | malformed b bad follow _ ih =>
    rw [starts_replacement counted, starts_cons, starts_append, starts_inner follow]
    refine ⟨?_, ?_⟩
    · split <;> omega
    · rintro ⟨_, _, same, inner⟩
      cases same
      rw [if_neg fun starts => inner starts.1]
      omega

/-- Pieces that are not all whole are decoded to more characters than the text has. -/
theorem starts_lt {decode : List UInt8 → List Char} (decodes : ∀ bytes, Decodes bytes (decode bytes))
    (counted : apart 0xEF = false) {pieces : List (List UInt8)} {text : List Char}
    (same : pieces.flatten = encode text)
    (some : ∀ piece ∈ pieces, piece ≠ []) (broken : ¬ ∀ piece ∈ pieces, Whole piece) :
    starts apart (encode text) < starts apart (encode (pieces.flatMap decode)) := by
  have inside : ∃ piece ∈ pieces, BeginsInside piece := by
    apply Classical.byContradiction
    intro outside
    exact broken (whole_pieces same some fun piece member inside => outside ⟨piece, member, inside⟩)
  rw [← same]
  clear same some broken
  have most (pieces : List (List UInt8)) :
      starts apart pieces.flatten ≤ starts apart (encode (pieces.flatMap decode)) := by
    induction pieces with
    | nil => exact Nat.le_refl _
    | cons piece pieces ih =>
      rw [List.flatten_cons, List.flatMap_cons, encode_append, starts_append, starts_append]
      exact Nat.add_le_add ((decodes piece).starts_le counted).1 ih
  induction pieces with
  | nil => simp at inside
  | cons piece pieces ih =>
    have here := (decodes piece).starts_le counted
    have rest := most pieces
    rw [List.flatten_cons, List.flatMap_cons, encode_append, starts_append, starts_append]
    obtain ⟨other, member, begins⟩ := inside
    rcases List.mem_cons.mp member with rfl | member
    · have less := here.2 begins
      omega
    · have less := ih ⟨other, member, begins⟩
      omega

end Counting

end RRoadVpn.Library.Utf8
