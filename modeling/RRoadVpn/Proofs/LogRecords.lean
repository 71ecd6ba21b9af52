import RRoadVpn.Proofs.LogFraming

/-! Log files with garbage and cut records: the search for the next magic byte, and what the
unescaping loop does with a body of which only a part is there. -/

namespace RRoadVpn.Proofs.LogRecords
open Library LogFileHandler LogFraming

/-! ### Searching -/

private theorem window_fill (buf : Buf) (skipped : Nat) (b : UInt8) :
    window (fill buf (skipped + 1 + 4) [b]) (skipped + 1) = lengthBytes buf skipped ++ [b] := by
  simp [window, lengthBytes, List.range, List.range.loop, fill, Nat.add_assoc]

private theorem fill_before (buf : Buf) {off i : Nat} (before : i < off) (bytes : List UInt8) :
    fill buf off bytes i = buf i := by
  rw [fill, if_neg (Nat.not_le.mpr before)]

theorem skip_finds {pre : List UInt8} (clean : MAGIC_BYTE ∉ pre) {buf : Buf} {skipped : Nat}
    {stream header rest : List UInt8} (text : window buf skipped ++ stream = pre ++ MAGIC_BYTE :: (header ++ rest))
    (four : header.length = 4) (room : skipped + pre.length + 10 ≤ bufLength) :
    ∃ filled, skip buf skipped stream = .found filled (skipped + pre.length) rest ∧ filled 0 = buf 0 ∧
      lengthBytes filled (skipped + pre.length) = header := by
  induction pre generalizing buf skipped stream with
  | nil =>
    obtain ⟨here, behind⟩ := List.cons_eq_cons.mp text
    obtain ⟨same, last⟩ := List.append_inj behind four.symm
    exact ⟨buf, by rw [skip_magic here, last]; rfl, rfl, same⟩
  | cons b pre ih =>
    obtain ⟨here, behind⟩ := List.cons_eq_cons.mp text
    have other : MAGIC_BYTE ≠ b := List.ne_of_not_mem_cons clean
    cases stream with
    | nil =>
      have lengths := congrArg List.length behind
      simp [four, lengthBytes] at lengths
      omega
    | cons c stream =>
      have plain : buf skipped ≠ MAGIC_BYTE := by
        rw [here]
        exact other.symm
      rw [List.length_cons] at room
      have next : window (fill buf (skipped + 1 + 4) [c]) (skipped + 1) ++ stream =
          pre ++ MAGIC_BYTE :: (header ++ rest) := by
        rw [window_fill, List.append_assoc]
        exact behind
      obtain ⟨filled, found, first, written⟩ := ih (List.not_mem_of_not_mem_cons clean) next (by omega)
      have place : skipped + (b :: pre).length = skipped + 1 + pre.length := by
        rw [List.length_cons]
        omega
      rw [place]
      refine ⟨filled, ?_, ?_, written⟩
      · rw [skip, if_neg plain, if_neg (by omega), found]
      · rw [first, fill_before buf (by omega)]

theorem skip_loses {stream : List UInt8} {buf : Buf} {skipped : Nat} (here : skipped + 10 ≤ bufLength)
    (far : ∀ j, (window buf skipped ++ stream)[j]? = some MAGIC_BYTE → bufLength < skipped + j + 10) :
    ∃ count, skip buf skipped stream = .lost count := by
  induction stream generalizing buf skipped with
  | nil =>
    have plain : buf skipped ≠ MAGIC_BYTE := fun magic => by
      have near := far 0 (by simp [window, magic])
      omega
    exact ⟨_, by rw [skip, if_neg plain]⟩
  | cons c stream ih =>
    have plain : buf skipped ≠ MAGIC_BYTE := fun magic => by
      have near := far 0 (by simp [window, magic])
      omega
    rw [skip, if_neg plain]
    by_cases full : skipped + 1 + 10 > bufLength
    · exact ⟨_, if_pos full⟩
    · rw [if_neg full]
      refine ih (by omega) fun j magic => ?_
      rw [window_fill, List.append_assoc] at magic
      have near := far (j + 1) magic
      omega

/-! ### Records in the file -/

/-- A record whose body may have been cut. -/
structure Record where
  bytes : List UInt8
  part : List UInt8
  inside : part <+: bytes.flatMap escapeByte
  small : bytes.length < 2 ^ 31

namespace Record

def bare (bytes : List UInt8) (small : bytes.length < 2 ^ 31) : Record := ⟨bytes, [], List.nil_prefix, small⟩

def whole (bytes : List UInt8) (small : bytes.length < 2 ^ 31) : Record :=
  ⟨bytes, bytes.flatMap escapeByte, List.prefix_rfl, small⟩

def Uncut (r : Record) : Prop := r.part = r.bytes.flatMap escapeByte

instance (r : Record) : Decidable r.Uncut := inferInstanceAs (Decidable (_ = _))

def size (r : Record) : List UInt8 := bigEndian 4 r.bytes.length

def stream (r : Record) : List UInt8 := MAGIC_BYTE :: (r.size ++ r.part)

/-- How many bytes are there in full: two of an escape are one. -/
def held (r : Record) : Nat := (r.part.filter (· ≠ MAGIC_BYTE + 1)).length

def call (r : Record) : List UInt8 × Int := (r.bytes, r.bytes.length)

theorem held_le (r : Record) : r.held ≤ r.part.length := List.length_filter_le _ _

theorem size_length (r : Record) : r.size.length = 4 := bigEndian_length 4 _

end Record

def contents (records : List Record) : List UInt8 := records.flatMap Record.stream

theorem contents_cons (r : Record) (records : List Record) :
    contents (r :: records) = MAGIC_BYTE :: (r.size ++ (r.part ++ contents records)) := by
  rw [contents, List.flatMap_cons, Record.stream, List.cons_append, List.append_assoc]
  rfl

theorem contents_long (r : Record) (records : List Record) : 5 ≤ (contents (r :: records)).length := by
  rw [contents_cons, List.length_cons, List.length_append, r.size_length]
  omega

theorem length_le_contents (records : List Record) : records.length ≤ (contents records).length := by
  induction records with
  | nil => exact Nat.le_refl _
  | cons r records ih =>
    rw [contents_cons, List.length_cons, List.length_cons, List.length_append, List.length_append]
    omega

/-! ### Bodies -/

private theorem escapeByte_clean (b : UInt8) : MAGIC_BYTE ∉ escapeByte b := by
  unfold escapeByte
  split
  next special =>
    rcases special with rfl | rfl <;> decide
  next plain =>
    rw [List.mem_singleton]
    exact fun same => plain (Or.inl same.symm)

theorem Record.clean (r : Record) : MAGIC_BYTE ∉ r.part := by
  intro member
  obtain ⟨b, _, inside⟩ := List.mem_flatMap.mp (r.inside.subset member)
  exact escapeByte_clean b inside

private theorem filter_escapeByte (b : UInt8) : ((escapeByte b).filter (· ≠ MAGIC_BYTE + 1)).length = 1 := by
  unfold escapeByte
  split
  next special => rcases special with rfl | rfl <;> decide
  next plain => rw [List.filter_cons_of_pos (by simpa using fun same => plain (Or.inr same))]; rfl

private theorem filter_escaped (bytes : List UInt8) :
    ((bytes.flatMap escapeByte).filter (· ≠ MAGIC_BYTE + 1)).length = bytes.length := by
  induction bytes with
  | nil => rfl
  | cons b bytes ih =>
    rw [List.flatMap_cons, List.filter_append, List.length_append, filter_escapeByte, ih]
    exact Nat.add_comm _ _

theorem Record.held_split {r : Record} {front half : List UInt8} (split : r.part = front.flatMap escapeByte ++ half)
    (torn : half = [] ∨ half = [MAGIC_BYTE + 1]) : r.held = front.length := by
  have none_ : (half.filter (· ≠ MAGIC_BYTE + 1)).length = 0 := by rcases torn with rfl | rfl <;> rfl
  rw [held, split, List.filter_append, List.length_append, filter_escaped, none_, Nat.add_zero]

private theorem Record.held_uncut {r : Record} (uncut : r.Uncut) : r.held = r.bytes.length :=
  held_split (show r.part = _ ++ [] by rw [List.append_nil]; exact uncut) (Or.inl rfl)

theorem Record.parts {r : Record} (torn : ¬ r.Uncut) :
    ∃ front b later half, r.bytes = front ++ b :: later ∧ r.part = front.flatMap escapeByte ++ half ∧
      (half = [] ∨ half = [MAGIC_BYTE + 1]) := by
  have part : r.part =
      (cut escapeByte r.part.length r.bytes).1.flatMap escapeByte ++ (cut escapeByte r.part.length r.bytes).2 :=
    (List.prefix_iff_eq_take.mp r.inside).trans (take_flatMap _ _ _)
  rcases cut_torn escapeByte r.part.length r.bytes with ⟨same, nothing⟩ | ⟨b, later, split, half⟩
  · rw [same, nothing, List.append_nil] at part
    exact absurd part torn
  · exact ⟨_, b, later, _, split, part, escapeByte_torn half⟩

theorem readBody_long {bytes : List UInt8} (long : bufLength < bytes.length) (left : Nat) (stream : List UInt8) :
    readBody (bytes.length + left) 0 (bytes.flatMap escapeByte ++ stream) = .thrown bufLength := by
  obtain ⟨b, later, split⟩ : ∃ b later, bytes = bytes.take bufLength ++ b :: later := by
    obtain ⟨b, later, rest⟩ := List.exists_cons_of_ne_nil (List.ne_nil_of_length_pos (l := bytes.drop bufLength) (by
      rw [List.length_drop]
      omega))
    exact ⟨b, later, by rw [← rest, List.take_append_drop]⟩
  have size : (bytes.take bufLength).length = bufLength := List.length_take_of_le (by omega)
  have count : bytes.length + left = (bytes.take bufLength).length + ((later.length + left) + 1) := by
    have lengths := congrArg List.length split
    rw [List.length_append, List.length_cons] at lengths
    omega
  rw [count]
  conv_lhs => rw [split]
  rw [List.flatMap_append, List.append_assoc, List.take_append_of_le_length (by omega), List.take_take, Nat.min_self]
  rw [readBody_escaped _ 0 (by omega), List.flatMap_cons, List.append_assoc, readBody_byte, size, Nat.zero_add]
  unfold put
  rw [if_pos (Nat.le_refl _)]
  rfl

theorem Record.body_uncut {r : Record} (uncut : r.Uncut) (short : r.held ≤ bufLength) (rest : List UInt8) :
    readBody r.bytes.length 0 (r.part ++ rest) = .complete r.bytes rest := by
  rw [show r.part = _ from uncut]
  rw [held_uncut uncut] at short
  exact readBody_whole short rest

theorem Record.body_cut {r : Record} (torn : ¬ r.Uncut) (short : r.held ≤ bufLength) (rest : List UInt8) :
    (∃ pos, readBody r.bytes.length 0 (r.part ++ MAGIC_BYTE :: rest) = .unexpectedMagic pos rest) ∨
      ∃ b, readBody r.bytes.length 0 (r.part ++ MAGIC_BYTE :: rest) = .badEscape b rest := by
  obtain ⟨front, b, later, half, split, part, end_⟩ := parts torn
  rw [held_split part end_] at short
  have size : r.bytes.length = front.length + (later.length + 1) := by
    rw [split, List.length_append, List.length_cons]
  rw [size, part, List.append_assoc, readBody_escaped front 0 (by omega)]
  rcases end_ with rfl | rfl
  · exact Or.inl ⟨_, rfl⟩
  · exact Or.inr ⟨_, rfl⟩

theorem Record.body_long {r : Record} (long : bufLength < r.held) (rest : List UInt8) :
    readBody r.bytes.length 0 (r.part ++ rest) = .thrown bufLength := by
  by_cases uncut : r.Uncut
  · rw [held_uncut uncut] at long
    rw [show r.part = _ from uncut]
    exact readBody_long long 0 rest
  · obtain ⟨front, b, later, half, split, part, end_⟩ := parts uncut
    rw [held_split part end_] at long
    rw [part, split, List.length_append, List.append_assoc]
    exact readBody_long long _ _

end RRoadVpn.Proofs.LogRecords
