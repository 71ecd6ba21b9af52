import Mathlib.Algebra.Ring.Nat
import RRoadVpn.Escape
import RRoadVpn.Proofs.LineEffects

/-! Which values OpenVPN reads back from their escaped form. -/

namespace RRoadVpn.Proofs.EscapeRoundTrip
open Library VpnProfile LineEffects Options

/-- The characters `openVpnEscape` puts a backslash before. -/
def Special (c : Char) : Prop := c = '\\' ∨ c = '"' ∨ c = '\n'

instance : DecidablePred Special := fun _ => inferInstanceAs (Decidable (_ ∨ _ ∨ _))

def escapeChar (c : Char) : List Char :=
  if c = '\\' then ['\\', '\\'] else if c = '"' then ['\\', '"'] else if c = '\n' then ['\\', 'n'] else [c]

private theorem replaced_eq (s : List Char) :
    replace '\n' ['\\', 'n'] (replace '"' ['\\', '"'] (replace '\\' ['\\', '\\'] s)) = s.flatMap escapeChar := by
  simp only [replace, List.flatMap_assoc]
  congr 1
  funext c
  unfold escapeChar
  split
  · rfl
  · split
    next quote => subst quote; rfl
    next plain => simp [plain]

private theorem length_le_escaped (s : List Char) : s.length ≤ (s.flatMap escapeChar).length := by
  induction s with
  | nil => exact Nat.le_refl _
  | cons c rest ih =>
    rw [List.flatMap_cons, List.length_append, List.length_cons]
    have : 1 ≤ (escapeChar c).length := by
      unfold escapeChar
      repeat' split
      all_goals simp
    omega

/-- Escaping changes exactly the texts with a special character. -/
theorem escaped_eq_iff (s : List Char) : s.flatMap escapeChar = s ↔ ∀ c ∈ s, ¬ Special c := by
  induction s with
  | nil => simp
  | cons c rest ih =>
    rw [List.flatMap_cons, List.forall_mem_cons]
    by_cases special : Special c
    · refine iff_of_false ?_ (fun plain => plain.1 special)
      intro same
      have longer : (escapeChar c).length = 2 := by
        rcases special with rfl | rfl | rfl <;> rfl
      have lengths := congrArg List.length same
      have := length_le_escaped rest
      simp only [List.length_append, longer, List.length_cons] at lengths
      omega
    · have plain : escapeChar c = [c] := by
        simp only [Special, not_or] at special
        simp [escapeChar, special]
      rw [plain, List.singleton_append, List.cons.injEq, ih]
      simp [special]

def Bare (s : List Char) : Prop :=
  s ≠ [] ∧ ∀ c ∈ s, ¬ Special c ∧ c ≠ ' ' ∧ c ≠ '#' ∧ c ≠ ';'

theorem escape_bare {s : List Char} (bare : Bare s) : escape s = s := by
  simp only [escape, replaced_eq]
  split
  · rfl
  next quoted =>
    refine absurd ?_ quoted
    have same := (escaped_eq_iff s).mpr (fun c member => (bare.2 c member).1)
    simp only [same, beq_self_eq_true, Bool.true_and, Bool.and_eq_true, Bool.not_eq_true', bne_iff_ne, ne_eq,
      List.contains_eq_mem, decide_eq_false_iff_not]
    exact ⟨⟨⟨fun member => (bare.2 _ member).2.1 rfl, fun member => (bare.2 _ member).2.2.1 rfl⟩,
      fun member => (bare.2 _ member).2.2.2 rfl⟩, bare.1⟩

theorem escape_quoted {s : List Char} (quoted : ¬ Bare s) : escape s = ['"'] ++ s.flatMap escapeChar ++ ['"'] := by
  simp only [escape, replaced_eq]
  split
  next kept =>
    refine absurd ?_ quoted
    simp only [Bool.and_eq_true, beq_iff_eq, Bool.not_eq_true', bne_iff_ne, ne_eq, List.contains_eq_mem,
      decide_eq_false_iff_not] at kept
    obtain ⟨⟨⟨⟨same, space⟩, hash⟩, semicolon⟩, nonempty⟩ := kept
    rw [same] at space hash semicolon nonempty
    refine ⟨nonempty, fun c member => ⟨(escaped_eq_iff s).mp same c member, ?_, ?_, ?_⟩⟩ <;>
      exact fun same => by subst same; contradiction
  · rfl

/-! ### Reading -/

theorem passes_stored {s : Line} (ready : s.backslash = false) {text : List Char}
    (stores : ∀ c ∈ text, c ≠ '\x00' ∧ effect Options.space s.state false c = .store s.state) :
    Passes (parseChar .unlimited) s text { s with parm := s.parm ++ text } := by
  induction text generalizing s with
  | nil => simpa using Passes.nil s
  | cons c rest ih =>
    obtain ⟨⟨char, here⟩, later⟩ := List.forall_mem_cons.mp stores
    refine .cons (?_ : parseChar .unlimited s c = .next { s with parm := s.parm ++ [c] }) ?_
    · rw [parseChar_effect s char, ready, here]
    · simpa using ih (s := { s with parm := s.parm ++ [c] }) ready later

theorem passes_escaped {s : Line} (quoted : s.state = .readingQuotedParm) (ready : s.backslash = false)
    {text : List Char} (clean : ∀ c ∈ text, c ≠ '\x00' ∧ c ≠ '\n') :
    Passes (parseChar .unlimited) s (text.flatMap escapeChar) { s with parm := s.parm ++ text } := by
  induction text generalizing s with
  | nil => simpa using Passes.nil s
  | cons c rest ih =>
    obtain ⟨⟨char, line⟩, later⟩ := List.forall_mem_cons.mp clean
    rw [List.flatMap_cons]
    have one : Passes (parseChar .unlimited) s (escapeChar c) { s with parm := s.parm ++ [c] } := by
      by_cases special : c = '\\' ∨ c = '"'
      · have escaped : escapeChar c = ['\\', c] := by rcases special with rfl | rfl <;> rfl
        rw [escaped]
        refine .cons (?_ : parseChar .unlimited s '\\' = .next { s with backslash := true }) (.cons ?_ (.nil _))
        · rw [parseChar_effect s (by decide), ready, quoted]
          rfl
        · rw [parseChar_effect _ char]
          rcases special with rfl | rfl <;> simp [effect, stored, escapable, quoted, ready]
      · obtain ⟨slash, quote⟩ := not_or.mp special
        have plain : escapeChar c = [c] := by simp [escapeChar, slash, quote, line]
        rw [plain]
        refine passes_stored ready fun x member => ?_
        rw [List.mem_singleton.mp member]
        exact ⟨char, by simp [effect, stored, quoted, slash, quote]⟩
    refine one.append ?_
    simpa using ih (s := { s with parm := s.parm ++ [c] }) quoted ready later

theorem scan_end_unquoted {s : Line} (open_ : s.state = .readingUnquotedParm) (ready : s.backslash = false) :
    scan (parseChar .unlimited) finish s ['\x00'] = .ok (s.p ++ [s.parm]) := by
  obtain ⟨state, backslash, parm, p⟩ := s
  subst open_ ready
  rfl

/-- Characters with no meaning to the reader outside quotes. -/
def Plain (c : Char) : Prop :=
  Options.space c = false ∧ c ≠ '\\' ∧ c ≠ '"' ∧ c ≠ '\'' ∧ c ≠ ';' ∧ c ≠ '#'

theorem Plain.char {c : Char} (plain : Plain c) : c ≠ '\x00' := by
  rintro rfl
  exact absurd plain.1 (by decide)

theorem effect_unquoted {c : Char} (separates : Options.space c = false) (slash : c ≠ '\\') :
    effect Options.space .readingUnquotedParm false c = .store .readingUnquotedParm := by
  simp [effect, stored, separates, slash]

private theorem effect_initial {c : Char} (plain : Plain c) :
    effect Options.space .initial false c = .store .readingUnquotedParm := by
  obtain ⟨separates, slash, quote, apostrophe, semicolon, hash⟩ := plain
  simp [effect, stored, separates, slash, quote, apostrophe, semicolon, hash]

theorem passes_unquoted {p : List (List Char)} {first : Char} {rest : List Char} (plain : Plain first)
    (later : ∀ c ∈ rest, Options.space c = false ∧ c ≠ '\\') :
    Passes (parseChar .unlimited) { p := p } (first :: rest)
      { state := .readingUnquotedParm, parm := first :: rest, p := p } := by
  refine .cons (?_ : parseChar .unlimited { p := p } first =
    .next { state := .readingUnquotedParm, parm := [first], p := p }) ?_
  · rw [parseChar_effect _ plain.char, effect_initial plain]
    rfl
  · refine passes_stored rfl fun c member => ?_
    obtain ⟨separates, slash⟩ := later c member
    refine ⟨?_, effect_unquoted separates slash⟩
    rintro rfl
    exact absurd separates (by decide)

theorem passes_name {k : List Char} (nonempty : k ≠ []) (plain : ∀ c ∈ k, Plain c) :
    Passes (parseChar .unlimited) {} (k ++ [' ']) { p := [k] } := by
  obtain ⟨first, rest, rfl⟩ := List.exists_cons_of_ne_nil nonempty
  obtain ⟨begins, later⟩ := List.forall_mem_cons.mp plain
  refine (passes_unquoted begins fun c member => ⟨(later c member).1, (later c member).2.1⟩).append ?_
  exact .cons rfl (.nil _)

/-! ### Values that are not read back -/

def size (s : Line) : Nat := (s.p.map List.length).sum + s.parm.length

private theorem parseChar_size {s after : Line} {c : Char} (char : c ≠ '\x00')
    (fed : parseChar .unlimited s c = .next after) :
    size after ≤ size s + 1 ∧
      ((∀ state, effect Options.space s.state s.backslash c ≠ .store state) → size after = size s) := by
  rw [parseChar_effect s char] at fed
  cases found : effect Options.space s.state s.backslash c <;> rw [found] at fed <;> cases fed <;>
    simp [size, ← Nat.add_assoc]

theorem read_size (line : List Char) {s : Line} {ps : List (List Char)} (clean : ∀ c ∈ line, c ≠ '\x00')
    (read : scan (parseChar .unlimited) finish s (line ++ ['\x00']) = .ok ps) :
    (ps.map List.length).sum ≤ size s + line.length := by
  induction line generalizing s with
  | nil =>
    obtain ⟨state, backslash, parm, p⟩ := s
    cases state <;> cases backslash <;> cases read <;> simp [size]
  | cons c rest ih =>
    obtain ⟨char, clean⟩ := List.forall_mem_cons.mp clean
    rw [List.cons_append] at read
    cases fed : parseChar .unlimited s c with
    | next after =>
      rw [scan_next fed] at read
      have := ih clean read
      have := (parseChar_size char fed).1
      rw [List.length_cons]
      omega
    | stop result =>
      rw [scan_stop fed] at read
      subst read
      rw [parseChar_effect s char] at fed
      split at fed <;> cases fed
      simp only [size]
      omega

/-- A character that is not stored is missing from the parameters. -/
theorem lost (rest : List Char) {c : Char} {s after : Line} {ps : List (List Char)}
    (clean : ∀ x ∈ c :: rest, x ≠ '\x00')
    (fed : parseChar .unlimited s c = .next after)
    (dropped : ∀ state, effect Options.space s.state s.backslash c ≠ .store state)
    (read : scan (parseChar .unlimited) finish s (c :: rest ++ ['\x00']) = .ok ps) :
    (ps.map List.length).sum < size s + (c :: rest).length := by
  obtain ⟨char, clean⟩ := List.forall_mem_cons.mp clean
  rw [List.cons_append, scan_next fed] at read
  have := read_size rest clean read
  have := (parseChar_size char fed).2 dropped
  rw [List.length_cons]
  omega

theorem no_blank (text : List Char) {s : Line} {ps : List (List Char)} (clean : ∀ c ∈ text, c ≠ '\x00')
    (unquoted : s.state = .readingUnquotedParm) (ready : s.backslash = false)
    (read : scan (parseChar .unlimited) finish s (text ++ ['\x00']) = .ok ps)
    (whole : (ps.map List.length).sum = size s + text.length) : ∀ c ∈ text, Options.space c = false := by
  induction text generalizing s with
  | nil => simp
  | cons c rest ih =>
    have char := (List.forall_mem_cons.mp clean).1
    have fed := parseChar_effect s char
    rw [unquoted, ready] at fed
    by_cases escapes : c = '\\'
    · subst escapes
      refine absurd whole (Nat.ne_of_lt (lost rest clean fed ?_ read))
      rw [unquoted, ready]
      intro state
      simp [effect]
    cases separates : Options.space c with
    | true =>
      have closes : effect Options.space .readingUnquotedParm false c = .close := by
        simp [effect, separates, escapes]
      rw [closes] at fed
      refine absurd whole (Nat.ne_of_lt (lost rest clean fed ?_ read))
      rw [unquoted, ready, closes]
      intro state
      simp
    | false =>
      rw [effect_unquoted separates escapes] at fed
      refine List.forall_mem_cons.mpr ⟨separates, ?_⟩
      rw [List.cons_append, scan_next fed] at read
      refine ih (List.forall_mem_cons.mp clean).2 rfl rfl read ?_
      simp only [whole, size, List.length_cons, List.length_append, List.length_nil]
      omega

/-- Values written without quotes that the reader takes apart: they start with a
single quote or have a blank other than a space. -/
def Misread (s : List Char) : Prop :=
  Bare s ∧ (s.head? = some '\'' ∨ ∃ c ∈ s, isspace c = true)

theorem reads_quoted (s : List Char) {p : List (List Char)} (clean : ∀ c ∈ s, c ≠ '\x00' ∧ c ≠ '\n') :
    scan (parseChar .unlimited) finish { p := p } (['"'] ++ s.flatMap escapeChar ++ ['"'] ++ ['\x00']) =
      .ok (p ++ [s]) := by
  have opened : Passes (parseChar .unlimited) { p := p } ['"'] { state := .readingQuotedParm, p := p } :=
    .cons rfl (.nil _)
  have inside := passes_escaped (s := { state := .readingQuotedParm, p := p }) rfl rfl clean
  have closed : Passes (parseChar .unlimited) { state := .readingQuotedParm, parm := [] ++ s, p := p } ['"']
      { p := p ++ [s] } := .cons rfl (.nil _)
  rw [((opened.append inside).append closed).scan]
  rfl

theorem reads_plain {first : Char} {rest : List Char} {p : List (List Char)} (plain : Plain first)
    (later : ∀ c ∈ rest, Options.space c = false ∧ c ≠ '\\') :
    scan (parseChar .unlimited) finish { p := p } (first :: rest ++ ['\x00']) = .ok (p ++ [first :: rest]) := by
  rw [(passes_unquoted plain later).scan]
  exact scan_end_unquoted rfl rfl

/-- A misread value does not come back, whatever else the line yields. -/
theorem misread_lost {s : List Char} {p : List (List Char)} (misread : Misread s) (clean : ∀ c ∈ s, c ≠ '\x00') :
    scan (parseChar .unlimited) finish { p := p } (s ++ ['\x00']) ≠ .ok (p ++ [s]) := by
  intro read
  obtain ⟨⟨nonempty, bare⟩, wrong⟩ := misread
  obtain ⟨first, rest, rfl⟩ := List.exists_cons_of_ne_nil nonempty
  obtain ⟨begins, -⟩ := List.forall_mem_cons.mp bare
  obtain ⟨char, cleaner⟩ := List.forall_mem_cons.mp clean
  have whole : ((p ++ [first :: rest]).map List.length).sum = size { p := p } + (first :: rest).length := by
    simp [size]
  have fed := parseChar_effect { p := p } char
  simp only [Special, not_or] at begins
  by_cases apostrophe : first = '\''
  · subst apostrophe
    exact Nat.ne_of_lt (lost rest clean fed (by intro state; simp [effect, Options.space, isspace]) read) whole
  cases separates : Options.space first with
  | true =>
    have skips : effect Options.space .initial false first = .skip := by
      simp [effect, separates, begins]
    simp only [skips] at fed
    exact Nat.ne_of_lt (lost rest clean fed (by intro state; simp [skips]) read) whole
  | false =>
    have plain : Plain first :=
      ⟨separates, begins.1.1, begins.1.2.1, apostrophe, begins.2.2.2, begins.2.2.1⟩
    rw [effect_initial plain] at fed
    rw [List.cons_append, scan_next fed] at read
    have blanks := no_blank rest cleaner rfl rfl read (by rw [whole]; simp [size]; omega)
    rcases wrong with quote | ⟨c, member, blank⟩
    · exact apostrophe (Option.some.inj quote)
    · have unspaced : Options.space c = false := by
        rcases List.mem_cons.mp member with rfl | later
        · exact separates
        · exact blanks c later
      simp [Options.space, blank] at unspaced

/-- OpenVPN reads a value back from its escaped form exactly when it is not
written bare with a leading single quote or with a blank other than a space. -/
theorem read_back_iff {k s : List Char} (nonempty : k ≠ []) (name : ∀ c ∈ k, Plain c)
    (clean : ∀ c ∈ s, c ≠ '\x00' ∧ c ≠ '\n') :
    (∃ escaped, openVpnEscape (some s) = some escaped ∧
      parseLine .unlimited (k ++ [' '] ++ escaped) = .ok [k, s]) ↔ ¬ Misread s := by
  have read : ∀ text, parseLine .unlimited (k ++ [' '] ++ text) =
      scan (parseChar .unlimited) finish { p := [k] } (text ++ ['\x00']) := by
    intro text
    rw [parseLine, List.append_assoc _ text, (passes_name nonempty name).scan]
  simp only [openVpnEscape, Option.map_some, Option.some.injEq, exists_eq_left', read]
  constructor
  · intro back misread
    rw [escape_bare misread.1] at back
    exact misread_lost misread (fun c member => (clean c member).1) back
  · intro fine
    by_cases bare : Bare s
    · rw [escape_bare bare]
      obtain ⟨first, rest, rfl⟩ := List.exists_cons_of_ne_nil bare.1
      have blank : ∀ c ∈ first :: rest, Options.space c = false := by
        intro c member
        cases spaced : isspace c with
        | true => exact absurd ⟨bare, .inr ⟨c, member, spaced⟩⟩ fine
        | false => simp [Options.space, spaced, (clean c member).1]
      have apostrophe : first ≠ '\'' := fun same => fine ⟨bare, .inl (by rw [same]; rfl)⟩
      obtain ⟨special, -, hash, semicolon⟩ := bare.2 first List.mem_cons_self
      simp only [Special, not_or] at special
      refine reads_plain ⟨blank _ List.mem_cons_self, special.1, special.2.1, apostrophe, semicolon, hash⟩ ?_
      intro c later
      have member := List.mem_cons_of_mem first later
      exact ⟨blank c member, fun slash => (bare.2 c member).1 (.inl slash)⟩
    · rw [escape_quoted bare]
      exact reads_quoted s clean

theorem read_back_iff_password :
    (∃ escaped, openVpnEscape (some ['p', ' ', '"', '#']) = some escaped ∧
      parseLine .unlimited (['k'] ++ [' '] ++ escaped) = .ok [['k'], ['p', ' ', '"', '#']]) ↔
    ¬ Misread ['p', ' ', '"', '#'] :=
  read_back_iff (by decide) (by simp [Plain, Options.space, isspace]) (by simp)

/-- A tab splits the value `a<TAB>b`. -/
theorem tab_splits_value :
    ¬ ∃ escaped, openVpnEscape (some ['a', '\t', 'b']) = some escaped ∧
      parseLine .unlimited (['k'] ++ [' '] ++ escaped) = .ok [['k'], ['a', '\t', 'b']] := by
  rintro ⟨escaped, written, read⟩
  cases written
  exact absurd read (by decide)

end RRoadVpn.Proofs.EscapeRoundTrip
