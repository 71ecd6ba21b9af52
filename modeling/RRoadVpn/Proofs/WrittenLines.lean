import RRoadVpn.Proofs.CommandFraming
import RRoadVpn.Proofs.ReplyTexts

/-! Which lines the writes of the app make of the stream, whatever order two threads write
in: a line has one command, perhaps behind an unfinished signature. -/

namespace RRoadVpn.Proofs.WrittenLines
open Library ManRead ReplyTexts EscapeRoundTrip Options
open JavaText (Text)

/-! ### Words -/

def wordChar (c : Char) : Bool := decide (33 ≤ c.toNat) && decide
    (c.toNat < 127) && !(['\\', '"', '\'', ';', '#'].contains c)

structure WordChar (c : Char) : Prop where
  plain : Plain c
  printable : printable c
  ascii : c.toNat < 128
  quoteless : c ≠ '\''

private theorem wordChar_spec {c : Char} (word : wordChar c = true) : WordChar c := by
  simp only [wordChar, Bool.and_eq_true, decide_eq_true_eq, Bool.not_eq_true', List.contains_eq_mem,
    decide_eq_false_iff_not, List.mem_cons, List.not_mem_nil, or_false, not_or] at word
  obtain ⟨⟨low, high⟩, slash, quote, apostrophe, semicolon, hash⟩ := word
  have print : printable c := ⟨by omega, by omega⟩
  have blank : c ≠ ' ' := by
    rintro rfl
    exact absurd low (by decide)
  exact ⟨⟨space_printable print blank, slash, quote, apostrophe, semicolon, hash⟩, print, by omega, apostrophe⟩

def Word (text : Text) : Prop := text.all wordChar = true

instance : DecidablePred Word := fun text => inferInstanceAs (Decidable (text.all wordChar = true))

theorem Word.spec {text : Text} (word : Word text) : ∀ c ∈ text, WordChar c :=
  fun c member => wordChar_spec (List.all_eq_true.mp word c member)

private theorem Word.append {first second : Text} (front : Word first) (back : Word second) :
    Word (first ++ second) := by
  rw [Word, List.all_append, Bool.and_eq_true]
  exact ⟨front, back⟩

theorem Word.received {text : Text} (word : Word text) : received text = text := by
  rw [received_printable fun c member => (word.spec c member).printable, bytesOf_text fun c member =>
    (word.spec c member).ascii]

theorem Word.line {text : Text} (word : Word text) : '\n' ∉ text :=
  fun member => printable_ne (word.spec _ member).printable (d := '\n') (by decide) rfl

/-- A name of such characters, and a type of such characters and blanks. -/
def typedCheck (name type : Text) : Bool :=
  !name.isEmpty && name.all wordChar && type.all (fun c => wordChar c || c == ' ') && decide
    ((typed name type).length ≤ 256)

theorem typed_of_check {name type : Text} (check : typedCheck name type = true) : Typed name type := by
  simp only [typedCheck, Bool.and_eq_true, Bool.not_eq_true', List.isEmpty_eq_false_iff, decide_eq_true_eq] at check
  obtain ⟨⟨⟨nonempty, word⟩, inside⟩, short⟩ := check
  have chars : ∀ c ∈ type, printable c ∧ c.toNat < 128 ∧ c ≠ '\'' := by
    intro c member
    rcases Bool.or_eq_true_iff.mp (List.all_eq_true.mp inside c member) with stored | blank
    · have spec := wordChar_spec stored
      exact ⟨spec.printable, spec.ascii, spec.quoteless⟩
    · rw [beq_iff_eq.mp blank]
      decide
  refine ⟨nonempty, fun c member => (Word.spec word c member).plain, ?_, ?_, fun member => (chars _ member).2.2 rfl,
    short⟩
  · intro c member
    exact (List.mem_append.mp member).elim (fun front =>
      (Word.spec word c front).printable) fun back => (chars c back).1
  · intro c member
    exact (List.mem_append.mp member).elim (fun front =>
      (Word.spec word c front).ascii) fun back => (chars c back).2.1

/-! ### The first parameter -/

private theorem scan_word (parm : Text) {word rest : Text} {sep : Char} (plain : ∀ c ∈ word, Plain c)
    (blank : Options.space sep = true)
    {ps : List Text} (read : scan (parseChar .standard) finish { state := .readingUnquotedParm, parm := parm }
      (word ++ sep :: rest) = .ok ps) : scan (parseChar .standard) finish { p := [parm ++ word] } rest = .ok ps := by
  induction word generalizing parm with
  | nil =>
    have slash : sep ≠ '\\' := by
      rintro rfl
      exact absurd blank (by decide)
    have fed : parseChar .standard { state := .readingUnquotedParm, parm := parm } sep = .next { p := [parm] } := by
      simp [parseChar, readChar, blank, slash, store, Limits.reached, Limits.standard]
    rwa [List.nil_append, scan_next fed, ← List.append_nil parm] at read
  | cons c word ih =>
    obtain ⟨here, later⟩ := List.forall_mem_cons.mp plain
    have char := Plain.char here
    obtain ⟨separates, slash, -⟩ := here
    rw [List.cons_append] at read
    by_cases full : 256 ≤ parm.length
    · have fed : parseChar .standard { state := .readingUnquotedParm, parm := parm } c =
          .stop (.error (.tooLong 256 (parm.take 255))) := by
        simp [parseChar, readChar, separates, slash, store, Limits.reached, Limits.standard, full, char]
      rw [scan_stop fed] at read
      cases read
    · have fed : parseChar .standard { state := .readingUnquotedParm, parm := parm } c =
          .next { state := .readingUnquotedParm, parm := parm ++ [c] } := by
        simp [parseChar, readChar, separates, slash, store, Limits.reached, Limits.standard, full, char]
      rw [scan_next fed] at read
      simpa using ih _ later read

theorem parseLine_word {word tail : Text} (nonempty : word ≠ []) (plain : ∀ c ∈ word, Plain c)
    (separated : tail = [] ∨ ∃ rest, tail = ' ' :: rest) {ps : List Text}
    (read : parseLine .standard (word ++ tail) = .ok ps) : ∃ p, ps = word :: p ∧ (tail = [] → p = []) := by
  obtain ⟨first, word, rfl⟩ := List.exists_cons_of_ne_nil nonempty
  obtain ⟨here, later⟩ := List.forall_mem_cons.mp plain
  have char := Plain.char here
  obtain ⟨separates, slash, quote, apostrophe, semicolon, hash⟩ := here
  have fed : parseChar .standard {} first = .next { state := .readingUnquotedParm, parm := [first] } := by
    simp [parseChar, readChar, separates, slash, quote, apostrophe, semicolon, hash, store, Limits.reached,
      Limits.standard, char]
  rw [parseLine, List.append_assoc, List.cons_append, scan_next fed] at read
  rcases separated with rfl | ⟨rest, rfl⟩
  · have ended := scan_word [first] later (by decide) read
    cases ended
    exact ⟨[], rfl, fun _ => rfl⟩
  · obtain ⟨p, same⟩ := scan_grows .standard _ (scan_word [first] later (by decide) read)
    exact ⟨p, same.symm, fun none => by cases none⟩

/-! ### The lines of a stream of commands -/

/-- A command in one line: its name, and what stands behind a blank. -/
structure Body (word tail : Text) : Prop where
  nonempty : word ≠ []
  word : Word word
  separated : tail = [] ∨ ∃ rest, tail = ' ' :: rest
  line : '\n' ∉ tail

variable (command : Text → Text → Prop)

/-- The writes of the app: a command in one line, and the parts of a signature. -/
inductive Write : Text → Prop where
  | line {word tail} (body : Body word tail) (known : command word tail) : Write (word ++ tail ++ ['\n'])
  | signed {b64} (word : Word b64) : Write b64
  | ends : Write "\nEND\n".toList

inductive Made (wrote : List Text) : Text → Prop where
  | word {text} (word : Word text) : Made wrote text
  | command {front word tail} (signed : Word front) (body : Body word tail) (known : command word tail)
      (written : word ++ tail ++ ['\n'] ∈ wrote) : Made wrote (front ++ word ++ tail)

variable {command}

private theorem Made.grow {wrote : List Text} {line : Text} (made : Made command wrote line) (more : List Text) :
    Made command (wrote ++ more) line := by
  cases made with
  | word word => exact .word word
  | command signed body known written => exact .command signed body known (List.mem_append_left _ written)

/-- In whatever order the writes come, their lines are such, with the begin of a signature behind them. -/
theorem lines_of_writes {wrote : List Text} (writes : ∀ w ∈ wrote, Write command w) :
    ∃ lines rest, wrote.flatten = unlines '\n' lines ++ rest ∧ Word rest ∧
      ∀ line ∈ lines, '\n' ∉ line ∧ Made command wrote line := by
  induction wrote using List.reverseRecOn with
  | nil => exact ⟨[], [], rfl, rfl, by simp⟩
  | append_singleton wrote w ih =>
    obtain ⟨lines, rest, stream, open_, made⟩ := ih fun w member => writes w (List.mem_append_left _ member)
    have older : ∀ line ∈ lines, '\n' ∉ line ∧ Made command (wrote ++ [w]) line :=
      fun line member => ⟨(made line member).1, (made line member).2.grow [w]⟩
    have here := writes w (by simp)
    rw [List.flatten_append, List.flatten_singleton, stream]
    cases here with
    | @line word tail body known =>
      refine ⟨lines ++ [rest ++ word ++ tail], [], by simp [unlines_append], rfl, ?_⟩
      rw [List.forall_mem_append, List.forall_mem_singleton]
      refine ⟨older, ?_, .command open_ body known (by simp)⟩
      simp only [List.mem_append, not_or]
      exact ⟨⟨open_.line, body.word.line⟩, body.line⟩
    | signed word => exact ⟨lines, rest ++ w, List.append_assoc .., open_.append word, older⟩
    | ends =>
      refine ⟨lines ++ [rest, "END".toList], [], ?_, rfl, ?_⟩
      · rw [unlines_append, unlines_cons, unlines_cons]
        simp
      · rw [List.forall_mem_append, List.forall_mem_cons, List.forall_mem_singleton]
        exact ⟨older, ⟨open_.line, .word open_⟩, by decide, .word (by decide)⟩

theorem made_of_isLine {wrote : List Text} (writes : ∀ w ∈ wrote, Write command w) {line : Text}
    (is : IsLine '\n' wrote.flatten line) : Made command wrote line := by
  obtain ⟨lines, rest, stream, open_, made⟩ := lines_of_writes writes
  exact (made line (is.mem stream (fun line member => (made line member).1) open_.line)).2

private theorem Body.received {word tail : Text} (body : Body word tail) : ReplyTexts.received tail = [] ∨
    ∃ rest, ReplyTexts.received tail = ' ' :: rest := by
  rcases body.separated with rfl | ⟨rest, rfl⟩
  · exact .inl rfl
  · exact .inr ⟨ReplyTexts.received rest, received_append [' '] rest⟩

theorem name_of_made {wrote : List Text} {line : Text} (made : Made command wrote line) {name : Text} {p : List Text}
    (read : parseLine .standard (received line) = .ok (name :: p)) :
    p = [] ∨ ∃ front word tail, name = front ++ word ∧ line = front ++ word ++ tail ∧ Body word tail ∧
      command word tail ∧ word ++ tail ++ ['\n'] ∈ wrote := by
  cases made with
  | word word =>
    by_cases empty : line = []
    · subst empty
      cases read
    · have plain : ∀ c ∈ line, Plain c := fun c member => (word.spec c member).plain
      rw [word.received, ← List.append_nil line] at read
      obtain ⟨p', same, alone⟩ := parseLine_word empty plain (.inl rfl) read
      cases same
      exact .inl (alone rfl)
  | @command front word tail signed body known written =>
    have both := signed.append body.word
    have plain : ∀ c ∈ front ++ word, Plain c := fun c member => (both.spec c member).plain
    have nonempty : front ++ word ≠ [] := fun none => body.nonempty (List.append_eq_nil_iff.mp none).2
    rw [received_append, both.received] at read
    obtain ⟨p', same, -⟩ := parseLine_word nonempty plain body.received read
    cases same
    exact .inr ⟨front, word, tail, rfl, rfl, body, known, written⟩

end RRoadVpn.Proofs.WrittenLines
