import Mathlib.Algebra.Ring.Nat
import RRoadVpn.Library.Utf8
import RRoadVpn.LogItem
import RRoadVpn.ManagementInput

/-! When the way the socket cuts the stream does not matter. Lines may be cut anywhere,
also between CR and LF, but a character that is cut is lost. -/

namespace RRoadVpn.Proofs.ManagementCuts
open RRoadVpn.Library.Utf8 RRoadVpn.ManagementInput

/-- The reads are one way of cutting a well-formed stream. -/
structure Cuts (text : List Char) (reads : List (List UInt8)) : Prop where
  stream : reads.flatten = encode text
  size : ∀ bytes ∈ reads, 0 < bytes.length ∧ bytes.length ≤ bufferSize

/-- No read ends inside a character. -/
def BetweenCharacters (reads : List (List UInt8)) : Prop := ∀ bytes ∈ reads, Whole bytes

/-! ### Lines -/

theorem split_append {text first second : List Char} (found : split text = some (first, second)) (more : List Char) :
    split (text ++ more) = some (first, second ++ more) := by
  fun_induction split text generalizing first with
  | case1 => cases found
  | case2 rest =>
    cases found
    rfl
  | case3 rest =>
    cases found
    rfl
  | case4 c rest crlf lf ih =>
    obtain ⟨⟨front, back⟩, there, same⟩ := Option.map_eq_some_iff.mp found
    cases same
    cases rest with
    | nil => cases there
    | cons d rest =>
      rw [List.cons_append, List.cons_append, split]
      · rw [← List.cons_append, ih there]
        rfl
      · intro tail isCR same
        obtain ⟨rfl, _⟩ := List.cons.inj same
        exact crlf rest isCR rfl
      · exact lf

private theorem processInput_none {text : List Char} (none : split text = none) : processInput text = ([], text) := by
  rw [processInput]
  split
  · rfl
  next found => simp [none] at found

private theorem processInput_some {text first second : List Char} (found : split text = some (first, second)) :
    processInput text = (first :: (processInput second).1, (processInput second).2) := by
  rw [processInput]
  split
  next none => simp [found] at none
  next there =>
    rw [found] at there
    cases there
    rfl

theorem processInput_append (text more : List Char) :
    processInput (text ++ more) = ((processInput text).1 ++ (processInput ((processInput text).2 ++ more)).1,
      (processInput ((processInput text).2 ++ more)).2) := by
  cases found : split text with
  | none =>
    rw [processInput_none found]
    rfl
  | some pair =>
    have shorter := split_length found
    rw [processInput_some found, processInput_some (split_append found more), processInput_append pair.2 more]
    rfl
termination_by text.length

/-- The run depends on the decoded reads alone. -/
theorem run_eq (newString : List UInt8 → List Char) (reads : List (List UInt8)) :
    run newString reads =
      ⟨(processInput (reads.flatMap newString)).1, (processInput (reads.flatMap newString)).2⟩ := by
  have resumed (text : List Char) : reads.foldl (read newString) ⟨(processInput text).1, (processInput text).2⟩ =
      ⟨(processInput (text ++ reads.flatMap newString)).1, (processInput (text ++ reads.flatMap newString)).2⟩ := by
    induction reads generalizing text with
    | nil => simp
    | cons bytes reads ih =>
      rw [List.foldl_cons, List.flatMap_cons, ← List.append_assoc, ← ih (text ++ newString bytes),
        processInput_append text (newString bytes)]
      rfl
  have empty : processInput [] = ([], []) := processInput_none rfl
  have whole := resumed []
  rwa [empty] at whole

/-! ### Characters -/

/-- CR and LF, which may or may not be part of a line end. -/
def lineEnd (b : UInt8) : Bool := b == 13 || b == 10

def characters (text : List Char) : Nat := starts lineEnd (encode text)

private theorem characters_append (first second : List Char) :
    characters (first ++ second) = characters first + characters second := by
  rw [characters, encode_append, starts_append]
  rfl

private theorem characters_split {text first second : List Char} (found : split text = some (first, second)) :
    characters text = characters first + characters second := by
  have crlf : characters ['\r', '\n'] = 0 := by decide
  have lf : characters ['\n'] = 0 := by decide
  fun_induction split text generalizing first with
  | case1 => cases found
  | case2 rest =>
    cases found
    have both := characters_append ['\r', '\n'] second
    rw [crlf] at both
    exact both
  | case3 rest =>
    cases found
    have line := characters_append ['\n'] second
    rw [lf] at line
    exact line
  | case4 c rest _ _ ih =>
    obtain ⟨⟨front, back⟩, there, same⟩ := Option.map_eq_some_iff.mp found
    cases same
    have whole := characters_append [c] rest
    have part := characters_append [c] front
    rw [List.singleton_append] at whole part
    rw [whole, part, ih there, Nat.add_assoc]

theorem characters_processInput (text : List Char) :
    characters text = ((processInput text).1.map characters).sum + characters (processInput text).2 := by
  cases found : split text with
  | none =>
    rw [processInput_none found]
    exact (Nat.zero_add _).symm
  | some pair =>
    have shorter := split_length found
    rw [characters_split found, processInput_some found, characters_processInput pair.2, List.map_cons, List.sum_cons,
      Nat.add_assoc]
termination_by text.length

/-! ### Cuts -/

section Decoder

variable {newString : List UInt8 → List Char} (decodes : ∀ bytes, Decodes bytes (newString bytes))
include decodes

theorem run_between {text : List Char} {reads : List (List UInt8)} (cuts : Cuts text reads)
    (between : BetweenCharacters reads) : run newString reads = ⟨(processInput text).1, (processInput text).2⟩ := by
  rw [run_eq, flatMap_decode decodes cuts.stream between]

theorem run_inside {text : List Char} {reads : List (List UInt8)} (cuts : Cuts text reads)
    (inside : ¬ BetweenCharacters reads) : run newString reads ≠ ⟨(processInput text).1, (processInput text).2⟩ := by
  have some : ∀ bytes ∈ reads, bytes ≠ [] := fun bytes member => List.ne_nil_of_length_pos (cuts.size bytes member).1
  have more : characters text < characters (reads.flatMap newString) :=
    starts_lt decodes (by decide) cuts.stream some inside
  intro same
  rw [run_eq] at same
  obtain ⟨commands, pendingInput⟩ := State.mk.inj same
  have counted := characters_processInput (reads.flatMap newString)
  rw [commands, pendingInput, ← characters_processInput text] at counted
  omega

/-- Of two ways of cutting, one of which is between characters, the other gives the same
lines and remainder exactly if it is so too. -/
theorem run_eq_iff {text : List Char} {first second : List (List UInt8)} (left : Cuts text first)
    (right : Cuts text second)
    (one : BetweenCharacters first ∨ BetweenCharacters second) :
    run newString first = run newString second ↔ BetweenCharacters first ∧ BetweenCharacters second := by
  constructor
  · intro same
    rcases one with between | between
    · refine ⟨between, ?_⟩
      apply Classical.byContradiction
      intro inside
      exact run_inside decodes right inside (same ▸ run_between decodes left between)
    · refine ⟨?_, between⟩
      apply Classical.byContradiction
      intro inside
      exact run_inside decodes left inside (same.symm ▸ run_between decodes right between)
  · rintro ⟨front, back⟩
    rw [run_between decodes left front, run_between decodes right back]

end Decoder

theorem cuts_characters (text : List Char) : Cuts text (text.map String.utf8EncodeChar) := by
  refine ⟨rfl, ?_⟩
  intro bytes member
  obtain ⟨c, _, rfl⟩ := List.mem_map.mp member
  rw [String.length_utf8EncodeChar]
  exact ⟨c.utf8Size_pos, Nat.le_trans c.utf8Size_le_four (by decide)⟩

theorem cuts_bytes (text : List Char) : Cuts text ((encode text).map fun b => [b]) := by
  refine ⟨?_, ?_⟩
  · induction encode text with
    | nil => rfl
    | cons b bytes ih => exact congrArg (b :: ·) ih
  · intro bytes member
    obtain ⟨b, _, rfl⟩ := List.mem_map.mp member
    rw [List.length_singleton]
    exact ⟨Nat.one_pos, by decide⟩

private theorem between_characters (text : List Char) : BetweenCharacters (text.map String.utf8EncodeChar) := by
  intro bytes member
  obtain ⟨c, _, rfl⟩ := List.mem_map.mp member
  exact ⟨[c], by simp⟩

theorem between_ascii {text : List Char} (ascii : ∀ c ∈ text, c.utf8Size = 1) {reads : List (List UInt8)}
    (cuts : Cuts text reads) : BetweenCharacters reads := by
  have firsts : ∀ b ∈ encode text, b.IsUTF8FirstByte := by
    intro b member
    obtain ⟨c, inside, there⟩ := List.mem_flatMap.mp member
    obtain ⟨first, inner, encoded, starts, _⟩ := utf8EncodeChar_cons c
    have one := String.length_utf8EncodeChar c
    rw [encoded, ascii c inside, List.length_cons] at one
    have none : inner = [] := List.length_eq_zero_iff.mp (by omega)
    rw [encoded, none] at there
    exact List.mem_singleton.mp there ▸ starts
  apply whole_pieces cuts.stream
  · exact fun bytes member => List.ne_nil_of_length_pos (cuts.size bytes member).1
  · rintro bytes member ⟨b, rest, rfl, inner⟩
    have there : b ∈ reads.flatten := List.mem_flatten.mpr ⟨_, member, List.mem_cons_self⟩
    rw [cuts.stream] at there
    exact inner (firsts b there)

theorem ascii_between {text : List Char} (between : BetweenCharacters ((encode text).map fun b => [b])) :
    ∀ c ∈ text, c.utf8Size = 1 := by
  intro c member
  obtain ⟨b, inner, encoded, -, follow⟩ := utf8EncodeChar_cons c
  have size := String.length_utf8EncodeChar c
  rw [encoded, List.length_cons] at size
  cases inner with
  | nil => exact size.symm
  | cons next inner =>
    have there : next ∈ encode text := List.mem_flatMap.mpr ⟨c, member, by rw [encoded]; simp⟩
    obtain ⟨part, same⟩ := between [next] (List.mem_map_of_mem there)
    cases part with
    | nil => cases same
    | cons d part =>
      obtain ⟨first, _, shape, begins, _⟩ := utf8EncodeChar_cons d
      rw [encode_cons, shape] at same
      obtain ⟨rfl, _⟩ := List.cons.inj same
      exact absurd begins (follow next List.mem_cons_self)

/-- Ways of cutting a stream agree if they are between its characters, and only then with
one that is; all ways of cutting it agree exactly if each of its characters is one byte. -/
theorem cuts_agree_iff {newString : List UInt8 → List Char} (decodes : ∀ bytes, Decodes bytes (newString bytes))
    (text : List Char) :
    (∀ first second, Cuts text first → Cuts text second → BetweenCharacters first ∨ BetweenCharacters second →
      (run newString first = run newString second ↔ BetweenCharacters first ∧ BetweenCharacters second)) ∧
    ((∀ first second, Cuts text first → Cuts text second → run newString first = run newString second) ↔
      ∀ c ∈ text, c.utf8Size = 1) := by
  refine ⟨fun first second left right one => run_eq_iff decodes left right one, ?_⟩
  constructor
  · intro agree
    have characters := cuts_characters text
    have bytes := cuts_bytes text
    have both := run_eq_iff decodes characters bytes (Or.inl (between_characters text))
    exact ascii_between (both.mp (agree _ _ characters bytes)).2
  · intro ascii first second left right
    exact (run_eq_iff decodes left right (Or.inl (between_ascii ascii left))).mpr
      ⟨between_ascii ascii left, between_ascii ascii right⟩

/-! ### The platform's decoder -/

private theorem decodes_encode (text : List Char) : Decodes (encode text) text := by
  induction text with
  | nil => exact .nil
  | cons c text ih => exact .char c ih

private theorem toByteArray_eq (bytes : List UInt8) : (⟨bytes.toArray⟩ : ByteArray) = bytes.toByteArray := by
  apply ByteArray.ext
  exact List.data_toByteArray.symm

private theorem toByteArray_inj {first second : List UInt8} (same : first.toByteArray = second.toByteArray) :
    first = second := by
  have data := congrArg (fun bytes : ByteArray => bytes.data.toList) same
  simpa using data

theorem utf8DecodeChar_some {bytes : List UInt8} {c : Char}
    (found : ByteArray.utf8DecodeChar? ⟨bytes.toArray⟩ 0 = some c) :
    bytes = String.utf8EncodeChar c ++ bytes.drop c.utf8Size := by
  rw [toByteArray_eq] at found
  have encoded := String.toByteArray_utf8EncodeChar_of_utf8DecodeChar?_eq_some found
  have front : bytes.toByteArray.extract 0 c.utf8Size = (bytes.take c.utf8Size).toByteArray := by
    apply ByteArray.ext
    simp [ByteArray.data_extract, List.data_toByteArray]
  rw [front] at encoded
  rw [toByteArray_inj encoded, List.take_append_drop]

private theorem utf8DecodeChar_none {bytes : List UInt8} (none : ByteArray.utf8DecodeChar? ⟨bytes.toArray⟩ 0 = none)
    (c : Char) :
    ¬ String.utf8EncodeChar c <+: bytes := by
  rintro ⟨rest, rfl⟩
  rw [toByteArray_eq, List.toByteArray_append, ByteArray.utf8DecodeChar?_utf8EncodeChar_append] at none
  cases none

private theorem decodes_replaceMalformed (bytes : List UInt8) : Decodes bytes (LogItem.replaceMalformed bytes) := by
  cases bytes with
  | nil =>
    rw [LogItem.replaceMalformed]
    exact .nil
  | cons b rest =>
    rw [LogItem.replaceMalformed]
    cases first : ByteArray.utf8DecodeChar? ⟨(b :: rest).toArray⟩ 0 with
    | none =>
      have later := decodes_replaceMalformed rest
      have follow : ∀ other ∈ ([] : List UInt8), Inner other := List.forall_mem_nil _
      exact @Decodes.malformed b [] rest _ (utf8DecodeChar_none first) follow later
    | some c =>
      have shorter : rest.drop (c.utf8Size - 1) = (b :: rest).drop c.utf8Size := by
        rw [← Nat.succ_pred_eq_of_pos c.utf8Size_pos]
        rfl
      have later := decodes_replaceMalformed (rest.drop (c.utf8Size - 1))
      have whole := Decodes.char c later
      rwa [shorter, ← utf8DecodeChar_some first, ← shorter] at whole
termination_by bytes.length
decreasing_by
  · exact Nat.lt_succ_self _
  · simp only [List.length_drop, List.length_cons]
    omega

theorem decodes_newString (bytes : List UInt8) : Decodes bytes (LogItem.newString bytes).toList := by
  rw [LogItem.newString]
  split
  next str valid =>
    have same : bytes = encode str.toList := by
      apply toByteArray_inj
      rw [← toByteArray_eq]
      simp only [String.fromUTF8?] at valid
      split at valid
      next utf8 =>
        cases valid
        have back := String.utf8Encode_toList (b := String.fromUTF8 ⟨bytes.toArray⟩ utf8)
        exact back.symm
      · cases valid
    rw [same]
    exact decodes_encode _
  · rw [String.toList_ofList]
    exact decodes_replaceMalformed bytes

/-- A stream of one line, under the decoder of the log. -/
theorem cuts_agree_iff_log :
    (∀ first second, Cuts "ä\n".toList first → Cuts "ä\n".toList second →
      BetweenCharacters first ∨ BetweenCharacters second →
        (run (fun bytes => (LogItem.newString bytes).toList) first =
            run (fun bytes => (LogItem.newString bytes).toList) second ↔
          BetweenCharacters first ∧ BetweenCharacters second)) ∧
    ((∀ first second, Cuts "ä\n".toList first → Cuts "ä\n".toList second →
      run (fun bytes => (LogItem.newString bytes).toList) first =
        run (fun bytes => (LogItem.newString bytes).toList) second) ↔ ∀ c ∈ "ä\n".toList, c.utf8Size = 1) :=
  cuts_agree_iff decodes_newString "ä\n".toList

/-- A stream of one line is read at once or with its first character cut. -/
theorem character_cut :
    Cuts ['ä', '\n'] [[0xC3, 0xA4, 0x0A]] ∧ Cuts ['ä', '\n'] [[0xC3], [0xA4, 0x0A]] ∧
      run (fun bytes => (LogItem.newString bytes).toList) [[0xC3, 0xA4, 0x0A]] ≠
        run (fun bytes => (LogItem.newString bytes).toList) [[0xC3], [0xA4, 0x0A]] := by
  have whole : Cuts ['ä', '\n'] [[0xC3, 0xA4, 0x0A]] := ⟨by decide, by decide⟩
  have cut : Cuts ['ä', '\n'] [[0xC3], [0xA4, 0x0A]] := ⟨by decide, by decide⟩
  refine ⟨whole, cut, ?_⟩
  have between : BetweenCharacters [[0xC3, 0xA4, 0x0A]] := by
    intro bytes member
    rw [List.mem_singleton.mp member]
    exact ⟨['ä', '\n'], by decide⟩
  have inside : ¬ BetweenCharacters [[0xC3], [0xA4, 0x0A]] := by
    intro between
    obtain ⟨part, same⟩ := between [0xC3] (by simp)
    cases part with
    | nil => cases same
    | cons c part =>
      have none : ByteArray.utf8DecodeChar? ⟨[0xC3].toArray⟩ 0 = none := by decide
      have first := utf8DecodeChar_none none c
      exact first ⟨encode part, same.symm⟩
  rw [run_between decodes_newString whole between]
  exact (run_inside decodes_newString cut inside).symm

end RRoadVpn.Proofs.ManagementCuts
