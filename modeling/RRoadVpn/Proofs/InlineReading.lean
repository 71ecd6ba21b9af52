import Mathlib.Data.List.TakeWhile
import RRoadVpn.ConfigParser
import RRoadVpn.Library.Lines
import RRoadVpn.OptionsFile
import RRoadVpn.Proofs.EscapeRoundTrip
import RRoadVpn.Proofs.Tokenizers

/-! What OpenVPN reads from a block that the profile exports. The parser took every
line up to one that is the end tag when trimmed as content; OpenVPN ends the content
at a line that starts with the end tag. -/

namespace RRoadVpn.Proofs.InlineReading
open Library Options LineEffects TokenWords Tokenizers

/-- A line that fits the line buffers of OpenVPN with its terminator. -/
def Fits (line : List Char) : Prop := strlen line + 1 < OPTION_LINE_SIZE

/-- A name that `<k>` is a single parameter with. -/
def PlainName (k : List Char) : Prop := ∀ c ∈ k, Options.space c = false ∧ c ≠ '\\'

/-- A line that OpenVPN keeps as it is in the content of `<k>`. -/
def Kept (k line : List Char) : Prop :=
  '\x00' ∉ line ∧ ¬ closeTag k <+: line.dropWhile isspace

/-! ### Lines of the file -/

private theorem length_le_strlen (line : List Char) : line.length ≤ strlen line := by
  induction line with
  | nil => exact Nat.le_refl _
  | cons c line ih =>
    have positive := c.utf8Size_pos
    rw [strlen, List.length_cons]
    omega

private theorem strlen_append (first second : List Char) :
    strlen (first ++ second) = strlen first + strlen second := by
  induction first with
  | nil => simp [strlen]
  | cons c first ih => rw [List.cons_append, strlen, ih, strlen, Nat.add_assoc]

private theorem fgets_line {line : List Char} (rest : List Char) {room : Nat} (single : '\n' ∉ line)
    (fits : strlen line < room) :
    fgets room (line ++ '\n' :: rest) = (line ++ ['\n'], rest) := by
  induction line generalizing room with
  | nil =>
    have enough : ¬ room < '\n'.utf8Size := Nat.not_lt.mpr fits
    simp [fgets, enough]
  | cons c line ih =>
    rw [strlen] at fits
    obtain ⟨differs, single⟩ := List.ne_and_not_mem_of_not_mem_cons single
    rw [List.cons_append, fgets, if_neg (by omega), if_neg differs.symm, ih single (by omega)]
    rfl

private theorem cstr_clean {line : List Char} (clean : '\x00' ∉ line) : cstr line = line := by
  refine List.takeWhile_eq_self_iff.mpr fun c member => ?_
  have differs : c ≠ '\x00' := fun same => clean (same ▸ member)
  simpa using differs

private theorem cstr_sublist (line : List Char) : (cstr line).Sublist line := List.takeWhile_sublist _

private theorem cstr_not_mem (line : List Char) : '\x00' ∉ cstr line := by
  intro member
  simpa using List.mem_takeWhile_imp member

private theorem cstr_shorter {line : List Char} (inside : '\x00' ∈ line) : (cstr line).length < line.length := by
  refine Nat.lt_of_le_of_ne (cstr_sublist line).length_le fun same => ?_
  have whole := (cstr_sublist line).eq_of_length same
  rw [← whole] at inside
  exact cstr_not_mem line inside

/-! ### The content -/

private theorem readInlineFile_line {close_tag line rest : List Char} (single : '\n' ∉ line) (fits : Fits line) :
    readInlineFile close_tag (line ++ '\n' :: rest) =
      if close_tag <+: (cstr (line ++ ['\n'])).dropWhile isspace then .ok ([], rest)
      else
        match readInlineFile close_tag rest with
        | .error e => .error e
        | .ok (buf, rest) => .ok (cstr (line ++ ['\n']) ++ buf, rest) := by
  have read := fgets_line rest single (Nat.lt_sub_of_add_lt fits)
  obtain ⟨c, fp, whole⟩ :=
    List.exists_cons_of_ne_nil (List.append_ne_nil_of_right_ne_nil line (List.cons_ne_nil '\n' rest))
  rw [whole] at read ⊢
  rw [readInlineFile]
  split
  next found =>
    rw [read] at found
    cases found
    rfl

theorem closes_iff {tag line : List Char} (single : '\n' ∉ tag) (nonempty : tag ≠ []) :
    tag <+: (line ++ ['\n']).dropWhile isspace ↔ tag <+: line.dropWhile isspace := by
  rw [List.dropWhile_append]
  split
  next blank =>
    have none : line.dropWhile isspace = [] := List.isEmpty_iff.mp blank
    rw [none]
    simp [List.prefix_nil, nonempty, isspace]
  · rw [List.prefix_concat_iff]
    refine ⟨?_, Or.inr⟩
    rintro (whole | inside)
    · exact absurd (whole ▸ List.mem_append_right _ List.mem_cons_self) single
    · exact inside

private theorem closeTag_single {k : List Char} (single : '\n' ∉ k) : '\n' ∉ closeTag k := by
  simp [closeTag, single]

private theorem closeTag_closes (k rest : List Char) : closeTag k <+: (closeTag k ++ rest).dropWhile isspace :=
  List.prefix_append _ _

/-- The content that is read never outgrows the one that was written, and equals it
exactly if every line is kept. -/
theorem readInlineFile_content {k : List Char} (single : '\n' ∉ k) (clean : '\x00' ∉ k) (fits : Fits (closeTag k))
    (more : List Char) {content : List (List Char)} (lines : ∀ line ∈ content, '\n' ∉ line ∧ Fits line) :
    ∃ value rest, readInlineFile (closeTag k) (unlines '\n' content ++ (closeTag k ++ '\n' :: more)) =
      .ok (value, rest) ∧
      value.length ≤ (unlines '\n' content).length ∧
      (value = unlines '\n' content ∧ rest = more ↔ ∀ line ∈ content, Kept k line) := by
  induction content with
  | nil =>
    have whole : cstr (closeTag k ++ ['\n']) = closeTag k ++ ['\n'] := cstr_clean (by simp [closeTag, clean])
    refine ⟨[], more, ?_, Nat.le_refl _, by simp⟩
    rw [unlines_nil, List.nil_append, readInlineFile_line (closeTag_single single) fits, whole,
      if_pos (closeTag_closes k _)]
  | cons line content ih =>
    obtain ⟨⟨unbroken, short⟩, lines⟩ := List.forall_mem_cons.mp lines
    rw [unlines_cons, List.append_assoc, List.cons_append, readInlineFile_line unbroken short]
    by_cases closes : closeTag k <+: (cstr (line ++ ['\n'])).dropWhile isspace
    · rw [if_pos closes]
      refine ⟨[], _, rfl, Nat.zero_le _, ?_⟩
      refine iff_of_false (by simp) fun all => ?_
      obtain ⟨clean, stays⟩ := all line List.mem_cons_self
      rw [cstr_clean (by simp [clean]), closes_iff (closeTag_single single) (by simp [closeTag])] at closes
      exact stays closes
    · obtain ⟨value, rest, read, bounded, exactly⟩ := ih lines
      rw [if_neg closes, read]
      refine ⟨_, _, rfl, ?_, ?_⟩
      · have kept := (cstr_sublist (line ++ ['\n'])).length_le
        simp only [List.length_append, List.length_cons, List.length_nil] at kept ⊢
        omega
      rw [List.forall_mem_cons, ← exactly]
      by_cases inside : '\x00' ∈ line
      · have kept := cstr_shorter (List.mem_append_left ['\n'] inside)
        refine iff_of_false ?_ fun all => all.1.1 inside
        rintro ⟨same, -⟩
        have length := congrArg List.length same
        simp only [List.length_append, List.length_cons, List.length_nil] at kept length
        omega
      · rw [cstr_clean (by simp [inside]), closes_iff (closeTag_single single) (by simp [closeTag])] at closes
        rw [cstr_clean (by simp [inside]), List.append_assoc, List.append_cancel_left_eq]
        simp [Kept, inside, closes]

/-! ### The start tag -/

def startTag (k : List Char) : List Char := ['<'] ++ k ++ ['>']

private theorem plain_clean {k : List Char} (plain : PlainName k) : '\n' ∉ k ∧ '\x00' ∉ k := by
  refine ⟨fun member => ?_, fun member => ?_⟩
  · exact absurd (plain _ member).1 (by decide)
  · exact absurd (plain _ member).1 (by decide)

private theorem startTag_single {k : List Char} (single : '\n' ∉ k) : '\n' ∉ startTag k := by
  simp [startTag, single]

private theorem startTag_clean {k : List Char} (clean : '\x00' ∉ k) : '\x00' ∉ startTag k := by
  simp [startTag, clean]

private theorem strlen_startTag (k : List Char) : strlen (startTag k) < strlen (closeTag k) := by
  simp only [startTag, closeTag, strlen_append]
  exact Nat.add_lt_add_right (Nat.add_lt_add_right (by decide) _) _

private theorem readRest_startTag {k : List Char} (plain : PlainName k) :
    readRest {} (startTag k ++ ['\n']) = .ok [startTag k] := by
  have later : ∀ c ∈ k ++ ['>'], Options.space c = false ∧ c ≠ '\\' := by
    intro c member
    rcases List.mem_append.mp member with inside | last
    · exact plain c inside
    · rw [List.mem_singleton.mp last]
      decide
  have opens : EscapeRoundTrip.Plain '<' := by
    simp [EscapeRoundTrip.Plain, Options.space, isspace]
  have passed : Passes (parseChar .unlimited) {}
      (startTag k) { state := .readingUnquotedParm, parm := startTag k, p := [] } :=
    EscapeRoundTrip.passes_unquoted opens later
  have closed : Passes (parseChar .unlimited) { state := .readingUnquotedParm, parm := startTag k, p := [] } ['\n']
      { p := [startTag k] } := .cons rfl (.nil _)
  rw [readRest, (passed.append closed).scan]
  rfl

private theorem parseLine_startTag {k : List Char} (plain : PlainName k) (fits : Fits (closeTag k)) :
    parseLine .standard (startTag k ++ ['\n']) = .ok [startTag k] := by
  have clean : ∀ c ∈ startTag k ++ ['\n'], c ≠ '\x00' := by
    intro c member
    rcases List.mem_append.mp member with inside | last
    · exact fun same => startTag_clean (plain_clean plain).2 (same ▸ inside)
    · rw [List.mem_singleton.mp last]
      decide
  refine read_standard _ clean (fun _ => rfl) (by decide) (readRest_startTag plain) (by simp) ?_
  intro parm member
  rw [List.mem_singleton.mp member]
  have short := length_le_strlen (startTag k)
  have shorter := strlen_startTag k
  unfold Fits OPTION_LINE_SIZE at fits
  omega

private theorem checkInlineFile_startTag (k fp : List Char) :
    checkInlineFile (bypassDoubledash [startTag k]) fp =
      match readInlineFile (closeTag k) fp with
      | .error e => .error e
      | .ok (content, rest) => .ok ([k, INLINE_FILE_TAG, content], rest) := by
  have undashed : bypassDoubledash [startTag k] = [startTag k] := by simp [bypassDoubledash, startTag]
  have marked : (startTag k).head? = some '<' ∧ (startTag k).getLast? = some '>' := ⟨rfl, List.getLast?_concat⟩
  have name : (startTag k).tail.dropLast = k := List.dropLast_concat
  rw [undashed, checkInlineFile, if_pos marked]
  cases read : readInlineFile (closeTag k) fp <;> simp only [name, read]

private theorem readOption_block {k : List Char} (plain : PlainName k) (fits : Fits (closeTag k)) (lineNum : Nat)
    (fp : List Char) :
    readOption lineNum (startTag k ++ '\n' :: fp) =
      some (match readInlineFile (closeTag k) fp with
        | .error e => .error e
        | .ok (content, rest) => .ok ([k, INLINE_FILE_TAG, content], rest)) := by
  obtain ⟨single, clean⟩ := plain_clean plain
  have shorter := strlen_startTag k
  unfold Fits at fits
  have read := @fgets_line (startTag k) fp OPTION_LINE_SIZE (startTag_single single) (by omega)
  have whole : cstr (startTag k ++ ['\n']) = startTag k ++ ['\n'] := cstr_clean (by simp [startTag, clean])
  have short : strlen (startTag k ++ ['\n']) ≠ OPTION_LINE_SIZE := by
    have one : strlen ['\n'] = 1 := rfl
    rw [strlen_append]
    omega
  have unmarked : ¬ (lineNum = 1 ∧ ['\uFEFF'] <+: startTag k ++ ['\n']) := by simp [startTag]
  rw [readOption, if_neg (by simp), read]
  simp only [whole, if_neg short, if_neg unmarked, parseLine_startTag plain fits, checkInlineFile_startTag]

/-! ### Other names -/

/-- A parameter that was read whole had nothing in it to drop. -/
theorem name_plain {name parm : List Char} (single : '\n' ∉ name) (clean : '\x00' ∉ name)
    (read : readRest { state := .readingUnquotedParm, parm := parm } (name ++ ['>', '\n']) =
    .ok [parm ++ name ++ ['>']]) :
    PlainName name := by
  induction name generalizing parm with
  | nil => nofun
  | cons c name ih =>
    obtain ⟨other, single'⟩ := List.ne_and_not_mem_of_not_mem_cons single
    obtain ⟨char, clean'⟩ := List.ne_and_not_mem_of_not_mem_cons clean
    have cleanRest : ∀ x ∈ name ++ ['>', '\n'], x ≠ '\x00' := by
      rintro x member rfl
      simp [clean'] at member
    have dropped {s : Options.Line} (tidy : Tidy s) (so_far : s.p.flatten ++ s.parm = parm)
        (read : readRest s (name ++ ['>', '\n']) = .ok [parm ++ c :: name ++ ['>']]) : False := by
      obtain ⟨kept, sublist, whole⟩ := read_sublist _ cleanRest tidy read
      rw [so_far] at whole
      have rest : kept = c :: name ++ ['>'] := by simpa using whole.symm
      have unbroken : '\n' ∉ kept := by simp [rest, other, single']
      have shorter : kept.Sublist (name ++ ['>']) := by
        have filtered := sublist.filter (· != '\n')
        have whole : kept.filter (· != '\n') = kept := by
          refine List.filter_eq_self.mpr fun x member => bne_iff_ne.mpr ?_
          rintro rfl
          exact unbroken member
        rw [whole] at filtered
        refine filtered.trans ?_
        simp only [List.filter_append]
        exact List.filter_sublist.append (List.Sublist.refl _)
      have length := shorter.length_le
      rw [rest, List.cons_append, List.length_cons] at length
      exact Nat.not_succ_le_self _ length
    obtain ⟨good, ⟨commented, -⟩ | ⟨goes, next⟩⟩ := readRest_cons char.symm read
    · cases (effect_comment commented).1
    by_cases slash : c = '\\'
    · subst slash
      have half : Tidy { state := .readingUnquotedParm, backslash := true, parm := parm } := nofun
      exact (dropped half rfl next).elim
    cases separates : Options.space c with
    | true =>
      have closes : effect Options.space .readingUnquotedParm false c = .close := by
        simp [effect, separates, slash]
      simp only [closes] at next
      exact (dropped (fun _ => rfl) (by simp [advance]) next).elim
    | false =>
      simp only [EscapeRoundTrip.effect_unquoted separates slash, advance] at next
      have later : PlainName name := by
        refine @ih (parm ++ [c]) single' clean' ?_
        rw [List.append_assoc parm]
        exact next
      exact List.forall_mem_cons.mpr ⟨⟨separates, slash⟩, later⟩

theorem first_line {k : List Char} (fits : Fits (closeTag k)) (fp : List Char) :
    (cstr (fgets OPTION_LINE_SIZE (startTag k ++ '\n' :: fp)).1).head? = some '<' ∧
      ('\n' ∉ k ∧ '\x00' ∉ k ∧ cstr (fgets OPTION_LINE_SIZE (startTag k ++ '\n' :: fp)).1 = startTag k ++ ['\n'] ∨
        (cstr (fgets OPTION_LINE_SIZE (startTag k ++ '\n' :: fp)).1).length < k.length + 2) := by
  have shorter := strlen_startTag k
  unfold Fits at fits
  by_cases broken : '\n' ∈ k
  · obtain ⟨first, rest, rfl, single⟩ := List.eq_append_cons_of_mem broken
    have short : strlen (['<'] ++ first) < OPTION_LINE_SIZE := by
      simp only [startTag, strlen_append] at shorter ⊢
      omega
    have read := @fgets_line (['<'] ++ first) (rest ++ ['>'] ++ '\n' :: fp) _ (by simp [single]) short
    have same : startTag (first ++ '\n' :: rest) ++ '\n' :: fp =
        ['<'] ++ first ++ '\n' :: (rest ++ ['>'] ++ '\n' :: fp) := by simp [startTag]
    rw [same, read]
    refine ⟨rfl, Or.inr ?_⟩
    have length := (cstr_sublist (['<'] ++ first ++ ['\n'])).length_le
    simp only [List.length_append, List.length_cons, List.length_nil] at length ⊢
    omega
  · have read := @fgets_line (startTag k) fp OPTION_LINE_SIZE (startTag_single broken) (by omega)
    rw [read]
    refine ⟨rfl, ?_⟩
    by_cases ended : '\x00' ∈ k
    · obtain ⟨first, rest, rfl, clean⟩ := List.eq_append_cons_of_mem ended
      have cut : cstr (startTag (first ++ '\x00' :: rest) ++ ['\n']) = ['<'] ++ first := by
        have before : ∀ c ∈ ['<'] ++ first, decide (c ≠ '\x00') = true := by
          intro c member
          simp only [List.cons_append, List.nil_append, List.mem_cons] at member
          rcases member with rfl | member
          · decide
          · simpa using fun same : c = '\x00' => clean (same ▸ member)
        have same : startTag (first ++ '\x00' :: rest) ++ ['\n'] =
            ['<'] ++ first ++ '\x00' :: (rest ++ ['>', '\n']) := by simp [startTag]
        rw [cstr, same, List.takeWhile_append_of_pos before, List.takeWhile_cons_of_neg (by simp), List.append_nil]
      rw [cut]
      refine Or.inr ?_
      simp only [List.length_append, List.length_cons, List.length_nil]
      omega
    · exact Or.inl ⟨broken, ended, cstr_clean (by simp [startTag, ended])⟩

private theorem checkInlineFile_cases {p : List (List Char)} {k content fp rest : List Char}
    (checked : checkInlineFile p fp = .ok ([k, INLINE_FILE_TAG, content], rest)) :
    p = [startTag k] ∨ p = [k, INLINE_FILE_TAG, content] := by
  unfold checkInlineFile at checked
  split at checked
  next arg =>
    split at checked
    next marked =>
      simp only at checked
      split at checked <;> cases checked
      refine Or.inl ?_
      obtain ⟨first, last⟩ := marked
      obtain ⟨more, rfl⟩ := List.head?_eq_some_iff.mp first
      obtain ⟨name, split⟩ := List.getLast?_eq_some_iff.mp last
      cases name with
      | nil => cases split
      | cons c name =>
        rw [List.cons_append] at split
        obtain ⟨rfl, rfl⟩ := List.cons.inj split
        rw [List.tail_cons, List.dropLast_concat]
        rfl
    · cases checked
  · cases checked
    exact Or.inr rfl

private theorem bypassDoubledash_cases (p : List (List Char)) :
    bypassDoubledash p = p ∨ ∃ arg more, p = (['-', '-'] ++ arg) :: more ∧ bypassDoubledash p = arg :: more := by
  cases p with
  | nil => exact Or.inl rfl
  | cons arg more =>
    rw [bypassDoubledash]
    split
    next dashed =>
      obtain ⟨rest, rfl⟩ := dashed.2
      exact Or.inr ⟨rest, more, rfl, rfl⟩
    · exact Or.inl rfl

/-- Only a plain name is read from its start tag. -/
theorem name_of_readOption {k content fp rest : List Char} {lineNum : Nat} (fits : Fits (closeTag k))
    (read : readOption lineNum (startTag k ++ '\n' :: fp) = some (.ok ([k, INLINE_FILE_TAG, content], rest))) :
    PlainName k := by
  have bounded : k.length + 3 < 256 := by
    have shorter := strlen_startTag k
    have length := length_le_strlen (startTag k)
    have tag : (startTag k).length = k.length + 2 := by simp [startTag]
    unfold Fits OPTION_LINE_SIZE at fits
    omega
  obtain ⟨opens, line⟩ := first_line fits fp
  rw [readOption, if_neg (by simp)] at read
  generalize fgets OPTION_LINE_SIZE (startTag k ++ '\n' :: fp) = got at read opens line
  obtain ⟨buffer, fp⟩ := got
  have clean : ∀ c ∈ cstr buffer, c ≠ '\x00' := by
    rintro c member rfl
    exact cstr_not_mem _ member
  simp only at read opens line
  generalize cstr buffer = text at read opens line clean
  have unmarked : ¬ (lineNum = 1 ∧ ['\uFEFF'] <+: text) := by
    rintro ⟨-, more, rfl⟩
    cases opens
  rw [if_neg unmarked] at read
  split at read
  · cases read
  split at read
  · cases read
  · cases read
  next p _ parsed =>
    have checked := Option.some.inj read
    have size : text.length ≤ k.length + 3 := by
      rcases line with ⟨-, -, rfl⟩ | short
      · simp [startTag]
      · omega
    have parsed' (few : p.length < 16) : readRest {} text = .ok p :=
      read_unlimited text clean (by decide) (by rw [List.length_nil]; omega) few parsed
    have bound (few : p.length < 16) : p.flatten.length ≤ text.length := by
      obtain ⟨kept, sublist, whole⟩ := read_sublist text clean (fun _ => rfl) (parsed' few)
      rw [whole]
      simpa using sublist.length_le
    have tag : INLINE_FILE_TAG.length = 10 := rfl
    have alone : p = [startTag k] := by
      rcases bypassDoubledash_cases p with same | ⟨arg, more, rfl, same⟩
      · rw [same] at checked
        rcases checkInlineFile_cases checked with alone | rfl
        · exact alone
        · have long := bound (by simp)
          simp only [List.flatten_cons, List.length_append, tag] at long
          omega
      · rw [same] at checked
        rcases checkInlineFile_cases checked with alone | other
        · obtain ⟨rfl, rfl⟩ := List.cons.inj alone
          have long := bound (by simp)
          simp only [startTag, List.flatten_cons, List.length_append, List.length_cons, List.length_nil] at long
          omega
        · obtain ⟨rfl, rfl⟩ := List.cons.inj other
          have long := bound (by simp)
          simp only [List.flatten_cons, List.length_append, tag] at long
          omega
    subst alone
    rcases line with ⟨single, ended, rfl⟩ | short
    · have whole := parsed' (by simp)
      obtain ⟨-, ⟨commented, -⟩ | ⟨-, next⟩⟩ := @readRest_cons {} '<' (k ++ ['>'] ++ ['\n']) _ (by decide) whole
      · cases (effect_comment commented).2.2 <;> contradiction
      · refine @name_plain k ['<'] single ended ?_
        rw [List.append_assoc] at next
        exact next
    · have long := bound (by simp)
      simp only [startTag, List.flatten_cons, List.length_append, List.length_cons, List.length_nil] at long
      omega

/-! ### The exported block -/

private theorem readInlinefile_prefix {k inlinefile value : List Char} {br rest : ConfigParser.BufferedReader}
    (read : ConfigParser.readInlinefile k inlinefile br = .ok (value, rest)) :
    ∃ content, value = inlinefile ++ content ∧ (content = [] ∨ content.getLast? = some '\n') := by
  induction br generalizing inlinefile with
  | nil => cases read
  | cons line br ih =>
    rw [ConfigParser.readInlinefile] at read
    split at read
    · cases read
      exact ⟨[], (List.append_nil _).symm, Or.inl rfl⟩
    · obtain ⟨content, rfl, ended⟩ := ih read
      refine ⟨line ++ ['\n'] ++ content, by simp, Or.inr ?_⟩
      rcases ended with rfl | last
      · simp
      · rw [List.getLast?_append, last]
        rfl

/-- A value that came from a block is its content behind the tag. -/
theorem value_of_checkinlinefile {k value arg0 : List Char} {br rest : ConfigParser.BufferedReader}
    (accepted : ConfigParser.checkinlinefile arg0 [] br = .ok ([k, value], rest)) :
    ∃ content, value = VpnProfile.INLINE_TAG ++ content := by
  unfold ConfigParser.checkinlinefile at accepted
  split at accepted
  · cases accepted
  · split at accepted <;> cases accepted
    next read =>
      obtain ⟨content, rfl, -⟩ := readInlinefile_prefix read
      split
      next last =>
        cases content with
        | nil => exact absurd last (by decide)
        | cons c content => exact ⟨(c :: content).dropLast, List.dropLast_append_cons⟩
      · exact ⟨content, rfl⟩

/-- OpenVPN reads an exported block back, and goes on right behind it, exactly if its
name is plain and no line of its content has a NUL or starts with the end tag. -/
theorem block_read_back_iff {k value : List Char} {br rest : ConfigParser.BufferedReader}
    (accepted : ConfigParser.checkinlinefile (['<'] ++ k ++ ['>']) [] br = .ok ([k, value], rest))
    (name : Fits (closeTag k)) (content : ∀ line ∈ (VpnProfile.getEmbeddedContent value).splitOn '\n', Fits line)
    (lineNum : Nat) (more : List Char) :
    readOption lineNum (VpnProfile.insertFileData k (some value) ++ more) =
        some (.ok ([k, INLINE_FILE_TAG, VpnProfile.getEmbeddedContent value ++ ['\n']], more)) ↔
      PlainName k ∧ ∀ line ∈ (VpnProfile.getEmbeddedContent value).splitOn '\n', Kept k line := by
  obtain ⟨text, rfl⟩ := value_of_checkinlinefile accepted
  rw [VpnProfile.getEmbeddedContent_inline] at content ⊢
  have written : VpnProfile.insertFileData k (some (VpnProfile.INLINE_TAG ++ text)) ++ more =
      startTag k ++ '\n' :: (unlines '\n' (text.splitOn '\n') ++ (closeTag k ++ '\n' :: more)) := by
    rw [VpnProfile.insertFileData_inline, ← splitOn_append]
    simp [startTag, closeTag]
  rw [written, splitOn_append]
  have lines : ∀ line ∈ text.splitOn '\n', '\n' ∉ line ∧ Fits line :=
    fun line member => ⟨not_mem_of_mem_splitOn '\n' member, content line member⟩
  have back (plain : PlainName k) := by
    obtain ⟨single, clean⟩ := plain_clean plain
    exact readInlineFile_content single clean name more lines
  constructor
  · intro read
    have plain := name_of_readOption name read
    obtain ⟨got, left, reads, -, exactly⟩ := back plain
    rw [readOption_block plain name, reads] at read
    refine ⟨plain, exactly.mp ?_⟩
    cases read
    exact ⟨rfl, rfl⟩
  · rintro ⟨plain, kept⟩
    obtain ⟨got, left, reads, -, exactly⟩ := back plain
    obtain ⟨rfl, rfl⟩ := exactly.mpr kept
    rw [readOption_block plain name, reads]

theorem block_read_back_iff_certificate :
    readOption 1 (VpnProfile.insertFileData ['c', 'a'] (some (VpnProfile.INLINE_TAG ++ ['M', '\n', 'I'])) ++
      ['t', 'l', 's']) =
        some (.ok ([['c', 'a'], INLINE_FILE_TAG, ['M', '\n', 'I', '\n']], ['t', 'l', 's'])) ↔
      PlainName ['c', 'a'] ∧ ∀ line ∈ ['M', '\n', 'I'].splitOn '\n', Kept ['c', 'a'] line := by
  have accepted : ConfigParser.checkinlinefile ['<', 'c', 'a', '>'] [] [['M'], ['I'],
      [' ', '<', '/', 'c', 'a', '>']] =
      .ok ([['c', 'a'], VpnProfile.INLINE_TAG ++ ['M', '\n', 'I']], []) := rfl
  exact block_read_back_iff accepted (by unfold Fits; decide) (by unfold Fits; decide) 1 ['t', 'l', 's']

/-- A content whose first line is the end tag with a letter behind it. -/
private def forged : List Char := ['<', '/', 'c', 'a', '>', 'x', '\n', 'u', 'p', ' ', 's', 'h']

/-- The parser takes it whole; OpenVPN reads an empty content, and its second line as an option. -/
theorem content_read_as_option :
    ConfigParser.checkinlinefile ['<', 'c', 'a', '>'] []
      (ConfigParser.lines (forged ++ ['\n', '<', '/', 'c', 'a', '>', '\n'])) =
        .ok ([['c', 'a'], VpnProfile.INLINE_TAG ++ forged], []) ∧
      (Fits (closeTag ['c', 'a']) ∧ ∀ line ∈ forged.splitOn '\n', Fits line) ∧
      readOption 1 (VpnProfile.insertFileData ['c', 'a'] (some (VpnProfile.INLINE_TAG ++ forged))) =
        some (.ok ([['c', 'a'], INLINE_FILE_TAG, []],
          ['u', 'p', ' ', 's', 'h', '\n', '<', '/', 'c', 'a', '>', '\n'])) ∧
      readOption 2 ['u', 'p', ' ', 's', 'h', '\n', '<', '/', 'c', 'a', '>', '\n'] =
        some (.ok ([['u', 'p'], ['s', 'h']], ['<', '/', 'c', 'a', '>', '\n'])) := by
  have fits : Fits (closeTag ['c', 'a']) := by unfold Fits; decide
  have lines : ∀ line ∈ forged.splitOn '\n', Fits line := by unfold Fits; decide
  refine ⟨rfl, ⟨fits, lines⟩, ?_, rfl⟩
  have plain : PlainName ['c', 'a'] :=
    List.forall_mem_cons.mpr ⟨by decide, List.forall_mem_singleton.mpr (by decide)⟩
  have written : VpnProfile.insertFileData ['c', 'a'] (some (VpnProfile.INLINE_TAG ++ forged)) =
      startTag ['c', 'a'] ++ '\n' :: (['<', '/', 'c', 'a', '>', 'x'] ++
        '\n' :: ['u', 'p', ' ', 's', 'h', '\n', '<', '/', 'c', 'a', '>', '\n']) := rfl
  have first : Fits ['<', '/', 'c', 'a', '>', 'x'] := by unfold Fits; decide
  rw [written, readOption_block plain fits, readInlineFile_line (by decide) first, if_pos (by decide)]

end RRoadVpn.Proofs.InlineReading
