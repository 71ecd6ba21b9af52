import RRoadVpn.Proofs.TokenizersApart

/-! When the Java tokenizer agrees with OpenVPN's. The two read a portable line in
step; the first character that is not portable puts one of them ahead for good. -/

namespace RRoadVpn.Proofs.Tokenizers
open Library LineEffects TokenWords TokenizersApart

/-- A line on which the readers do not part: a backslash escapes only the first
character of a parameter, and separators stand only inside quotes. -/
def portable (state : LineState) (backslash started : Bool) : List Char → Bool
  | [] => true
  | c :: rest =>
    match effect Options.space state backslash c with
    | .escape => !started && portable state true started rest
    | .skip => portable .initial false false rest
    | .enter entered => portable entered false false rest
    | .close => portable .initial false false rest
    | .store next => !(decide (Separator c) && next == .readingUnquotedParm) && portable next false true rest
    | .comment | .bad => true

/-! ### In step -/

/-- The readers have written the same and are in the same state. -/
structure Synced (c : Options.Line) (j : ConfigParser.Line) : Prop where
  tidy : Tidy c
  state : j.state = c.state
  backslash : j.backslash = c.backslash
  p : j.parameters = c.p
  parm : j.currentarg = c.parm
  fresh : c.parm = [] → j.out = '\x00'
  last : c.parm ≠ [] → j.out ≠ '\x00' ∧ j.out ∈ c.parm
  plain : c.state = .readingUnquotedParm → ∀ x ∈ c.parm, ¬ Separator x

private theorem Synced.silent {c : Options.Line} {j : ConfigParser.Line} (synced : Synced c j) : Silent j :=
  fun initial => synced.fresh (synced.tidy (synced.state ▸ initial))

private theorem Synced.word {c : Options.Line} {j : ConfigParser.Line} (synced : Synced c j) :
    word c.p c.parm = word j.parameters j.currentarg := by
  rw [synced.p, synced.parm]

theorem Synced.step {c : Options.Line} {j : ConfigParser.Line} (synced : Synced c j) {x : Char} (char : x ≠ '\x00')
    {e : Effect} (found : effect Options.space c.state c.backslash x = e) (first : e = .escape → c.parm = [])
    (quoted : e = .store .readingUnquotedParm → ¬ Separator x) : Synced (advance x c e) (advanceJava x j e) := by
  obtain ⟨tidy, state, backslash, p, parm, fresh, last, plain⟩ := synced
  have kept := found ▸ tidy.advance x
  cases e with
  | escape =>
    have silent := fresh (first rfl)
    have same : advanceJava x j .escape = { j with backslash := true } := by
      simp [advanceJava, ConfigParser.store, silent]
    rw [same]
    exact ⟨kept, state, rfl, p, parm, fresh, last, plain⟩
  | enter next =>
    obtain ⟨initial, -, -⟩ := effect_enter found
    refine ⟨kept, rfl, rfl, p, parm, fresh, last, ?_⟩
    simp [advance, tidy initial]
  | close =>
    exact ⟨kept, rfl, rfl, by simp [advanceJava, advance, p, parm], rfl, fun _ => rfl, by simp [advance],
      by simp [advance]⟩
  | store next =>
    refine ⟨kept, rfl, rfl, p, by simp [advanceJava, advance, parm], by simp [advance],
      fun _ => ⟨char, by simp [advance, advanceJava]⟩, ?_⟩
    intro unquoted y member
    have same : next = .readingUnquotedParm := unquoted
    subst same
    obtain ⟨-, -, from_⟩ := effect_store found
    rcases List.mem_append.mp member with member | member
    · rcases from_ with ⟨initial, -⟩ | ⟨inside, -⟩ | ⟨other, here⟩ | ⟨other, here, -⟩
      · rw [tidy initial] at member
        cases member
      · exact plain inside y member
      · rw [other] at here
        cases here
      · rw [other] at here
        cases here
    · rw [List.mem_singleton.mp member]
      exact quoted rfl
  | _ => exact ⟨kept, state, rfl, p, parm, fresh, last, plain⟩

theorem Synced.ahead {c : Options.Line} {j : ConfigParser.Line} (synced : Synced c j) {x : Char}
    (escapes : effect Options.space c.state c.backslash x = .escape) (inside : c.parm ≠ []) :
    Ahead (advance x c .escape) (advanceJava x j .escape) := by
  obtain ⟨written, member⟩ := synced.last inside
  have same : advanceJava x j .escape = { j with backslash := true, currentarg := j.currentarg ++ [j.out] } := by
    simp [advanceJava, ConfigParser.store, written]
  rw [same]
  refine ⟨?_, synced.state, rfl, synced.p, by simp [advance, synced.parm], ?_, .inr (by simp)⟩
  · obtain ⟨-, -, unsquoted⟩ := effect_escape escapes
    have open_ := fun initial => inside (synced.tidy initial)
    show c.state = _ ∨ c.state = _
    cases state : c.state <;> simp_all
  · intro unquoted y member'
    rw [synced.parm] at member'
    rcases List.mem_append.mp member' with old | new
    · exact synced.plain unquoted y old
    · rw [List.mem_singleton.mp new]
      exact synced.plain unquoted _ member

theorem Synced.behind {c : Options.Line} {j : ConfigParser.Line} (synced : Synced c j) {x : Char}
    (separator : Separator x) (initial : c.state = .initial) :
    Behind (advance x c (.store .readingUnquotedParm)) (advanceJava x j .skip) [some x] where
  tidy := by intro closed; cases closed
  silent := synced.silent
  written := by
    rw [word_advance, synced.word]
    rfl
  separated := ⟨x, List.mem_singleton_self _, separator⟩
  odd y member := by
    cases List.mem_singleton.mp member
    exact .inl separator
  closed := by intro closed; cases closed
  plain := by intro squoted; cases squoted
  plainJava _ := rfl
  parity _ _ := rfl
  long inside := by
    have state : j.state = .initial := synced.state.trans initial
    simp [advance, advanceJava, state] at inside
  echo _ _ echoed := by
    have silent := synced.silent (synced.state.trans initial)
    simp only [advanceJava, silent] at echoed
    exact absurd echoed not_separator_nul

private theorem separator_outside {state : LineState} {backslash : Bool} {x : Char} (separator : Separator x)
    (outside : state = .initial ∨ state = .readingUnquotedParm)
    (good : effect Options.space state backslash x ≠ .bad) :
    effect Options.space state backslash x = .store .readingUnquotedParm ∧ backslash = false := by
  obtain ⟨blank, slash, quote, apostrophe, semicolon, hash, -⟩ := separator.stores
  cases backslash <;> rcases outside with rfl | rfl <;>
    simp_all [effect, stored, escapable]

private theorem unquoted_outside {space : Char → Bool} {state : LineState} {backslash : Bool} {x : Char}
    (stores : effect space state backslash x = .store .readingUnquotedParm) :
    state = .initial ∨ state = .readingUnquotedParm := by
  obtain ⟨-, -, from_⟩ := effect_store stores
  rcases from_ with ⟨initial, -⟩ | ⟨inside, -⟩ | ⟨other, here⟩ | ⟨other, here, -⟩
  · exact .inl initial
  · exact .inr inside
  · rw [other] at here
    cases here
  · rw [other] at here
    cases here

private theorem portable_advance {c : Options.Line} {x : Char} {e : Effect} (rest : List Char) (tidy : Tidy c)
    (found : effect Options.space c.state c.backslash x = e) (good : e ≠ .bad) (goes : e ≠ .comment)
    (first : e = .escape → c.parm = []) (outside : e = .store .readingUnquotedParm → ¬ Separator x) :
    portable (advance x c e).state (advance x c e).backslash (!(advance x c e).parm.isEmpty) rest =
      portable c.state c.backslash (!c.parm.isEmpty) (x :: rest) := by
  cases e with
  | escape => simp [portable, found, advance, first rfl]
  | skip =>
    obtain ⟨initial, -⟩ := effect_skip found
    have empty := tidy initial
    rw [initial] at found
    simp [portable, found, advance, initial, empty]
  | enter next =>
    obtain ⟨initial, -, -⟩ := effect_enter found
    simp [portable, found, advance, tidy initial]
  | close => simp [portable, found, advance]
  | store next =>
    have started : (c.parm ++ [x]).isEmpty = false := List.isEmpty_eq_false_iff.mpr (by simp)
    by_cases unquoted : next = .readingUnquotedParm
    · subst unquoted
      simp [portable, found, advance, started, outside rfl]
    · simp [portable, found, advance, started, beq_eq_false_iff_ne.mpr unquoted]
  | comment => exact absurd rfl goes
  | bad => exact absurd rfl good

/-- At the end of the line. -/
private theorem readRestJava_end {c : Options.Line} {j : ConfigParser.Line} (synced : Synced c j)
    {ps : List (List Char)} (read : readRest c [] = .ok ps) : readRestJava j [] = .ok ps := by
  rw [readRest_nil] at read
  rw [readRestJava_nil j synced.silent]
  unfold endLine at read
  unfold endLineJava
  rw [synced.state, synced.backslash, synced.p, synced.parm]
  split at read
  next closes =>
    cases read
    rw [if_pos closes]
  next other =>
    rw [if_neg other]
    unfold Options.finish at read
    split at read <;> cases read
    rfl

/-- A separator outside of quotes, which only the Java code takes for a blank. -/
private theorem separator_differs {c : Options.Line} {j : ConfigParser.Line} (synced : Synced c j) {x : Char}
    (char : x ≠ '\x00') (here : x.toNat < 128) {rest : List Char} (clean : ∀ y ∈ rest, y ≠ '\x00')
    (ascii : ∀ y ∈ rest, y.toNat < 128) (separator : Separator x)
    (outside : c.state = .initial ∨ c.state = .readingUnquotedParm)
    (good : effect Options.space c.state c.backslash x ≠ .bad) {ps : List (List Char)}
    (read : readRest (advance x c (effect Options.space c.state c.backslash x)) rest = .ok ps) :
    readRestJava j (x :: rest) ≠ .ok ps := by
  have later := read_grows rest clean (synced.tidy.advance x) read
  rw [word_advance] at later
  obtain ⟨stores, ready⟩ := separator_outside separator outside good
  have blank : ConfigParser.space x = true := (java_space here).mpr (.inr separator)
  have slash := separator.stores.2.1
  rw [stores] at read later
  rcases outside with initial | unquoted
  · have skips : effect ConfigParser.space j.state j.backslash x = .skip := by
      rw [synced.state, initial]
      simp [effect, slash, blank]
    rw [readRestJava_next char synced.silent (by rw [skips]; simp) (by rw [skips]; simp), skips]
    exact behind_differs rest clean ascii (synced.behind separator initial) read
  · have closes : effect ConfigParser.space j.state j.backslash x = .close := by
      rw [synced.state, synced.backslash, unquoted, ready]
      simp [effect, slash, blank]
    rw [readRestJava_next char synced.silent (by rw [closes]; simp) (by rw [closes]; simp), closes]
    refine apart_differs clean (closes ▸ synced.silent.advance x) ?_ later
    rw [word_advanceJava, synced.word]
    exact ⟨_, some x, none, by simp, List.prefix_refl _, List.prefix_refl _⟩

private theorem synced_iff (line : List Char) (clean : ∀ c ∈ line, c ≠ '\x00') (ascii : ∀ c ∈ line, c.toNat < 128)
    {c : Options.Line} {j : ConfigParser.Line} (synced : Synced c j) {ps : List (List Char)}
    (read : readRest c line = .ok ps) :
    readRestJava j line = .ok ps ↔ portable c.state c.backslash (!c.parm.isEmpty) line = true := by
  induction line generalizing c j with
  | nil =>
    exact iff_of_true (readRestJava_end synced read) rfl
  | cons x rest ih =>
    obtain ⟨char, clean⟩ := List.forall_mem_cons.mp clean
    obtain ⟨here, ascii⟩ := List.forall_mem_cons.mp ascii
    obtain ⟨good, read⟩ := readRest_cons char read
    have same : (Separator x → c.state = .readingQuotedParm ∨ c.state = .readingSquotedParm) →
        effect ConfigParser.space j.state j.backslash x = effect Options.space c.state c.backslash x := by
      rw [synced.state, synced.backslash]
      exact effect_java here good
    rcases read with ⟨commented, rfl⟩ | ⟨goes, read⟩
    · refine iff_of_true ?_ (by rw [portable, commented])
      obtain ⟨-, -, mark⟩ := effect_comment commented
      have even : ¬ Separator x := by rcases mark with rfl | rfl <;> decide
      rw [readRestJava_cons char synced.silent, same (fun separator => absurd separator even), commented, synced.p]
    by_cases repeats : effect Options.space c.state c.backslash x = .escape ∧ c.parm ≠ []
    · obtain ⟨escapes, inside⟩ := repeats
      have even : ¬ Separator x := by
        rw [(effect_escape escapes).1]
        decide
      have sameEffect := same (fun separator => absurd separator even)
      rw [escapes] at sameEffect read
      refine iff_of_false ?_ (by simp [portable, escapes, inside])
      rw [readRestJava_next char synced.silent (by rw [sameEffect]; simp) (by rw [sameEffect]; simp), sameEffect]
      exact ahead_differs rest clean ascii (synced.ahead escapes inside) read
    by_cases splits : Separator x ∧ (c.state = .initial ∨ c.state = .readingUnquotedParm)
    · obtain ⟨separator, outside⟩ := splits
      have stores := (separator_outside separator outside good).1
      exact iff_of_false (separator_differs synced char here clean ascii separator outside good read)
        (by simp [portable, stores, separator])
    · have sameEffect := same (fun separator => by
        have inside := fun outside => splits ⟨separator, outside⟩
        cases state : c.state <;> simp_all)
      rw [readRestJava_next char synced.silent (by rwa [sameEffect]) (by rwa [sameEffect]), sameEffect]
      generalize found : effect Options.space c.state c.backslash x = e at *
      have first : e = .escape → c.parm = [] := fun escapes => by_contra fun inside => repeats ⟨escapes, inside⟩
      have outside : e = .store .readingUnquotedParm → ¬ Separator x := by
        rintro rfl separator
        exact splits ⟨separator, unquoted_outside found⟩
      have next := synced.step char found first outside
      rw [ih clean ascii next read, portable_advance rest synced.tidy found good goes first outside]

/-! ### The bounds of parse_line -/

theorem read_extends (line : List Char) (clean : ∀ c ∈ line, c ≠ '\x00') {s : Options.Line} (tidy : Tidy s)
    {ps : List (List Char)} (read : readRest s line = .ok ps) :
    s.p <+: ps ∧ (s.parm ≠ [] → ∃ parm ∈ ps, s.parm <+: parm) := by
  induction line generalizing s with
  | nil =>
    rw [readRest_nil] at read
    unfold endLine at read
    split at read
    · cases read
      exact ⟨List.prefix_append _ _, fun _ => ⟨s.parm, by simp, List.prefix_refl _⟩⟩
    · unfold Options.finish at read
      split at read <;> cases read
      next initial => exact ⟨List.prefix_refl _, fun inside => absurd (tidy initial) inside⟩
  | cons x rest ih =>
    obtain ⟨char, clean⟩ := List.forall_mem_cons.mp clean
    obtain ⟨good, ⟨commented, rfl⟩ | ⟨goes, read⟩⟩ := readRest_cons char read
    · exact ⟨List.prefix_refl _, fun inside => absurd (tidy (effect_comment commented).1) inside⟩
    have later := ih clean (tidy.advance x) read
    generalize found : effect Options.space s.state s.backslash x = e at *
    cases e with
    | escape => exact later
    | skip => exact later
    | enter => exact later
    | close =>
      obtain ⟨whole, -⟩ := later
      exact ⟨(List.prefix_append _ _).trans whole,
        fun _ => ⟨s.parm, whole.subset (by simp [advance]), List.prefix_refl _⟩⟩
    | store =>
      obtain ⟨whole, inside⟩ := later
      obtain ⟨parm, member, longer⟩ := inside (by simp [advance])
      exact ⟨whole, fun _ => ⟨parm, member, (List.prefix_append _ _).trans longer⟩⟩
    | comment => exact absurd rfl goes
    | bad => exact absurd rfl good

/-- The bounds stop nothing short of the sixteenth parameter and the 256th character. -/
theorem parseChar_standard (s : Options.Line) {c : Char} (char : c ≠ '\x00') (room : s.p.length < 16)
    (short : s.parm.length < 256) :
    Options.parseChar .standard s c =
      if effect Options.space s.state s.backslash c = .close ∧ s.p.length + 1 = 16 then .stop (.ok (s.p ++ [s.parm]))
      else Options.parseChar .unlimited s c := by
  obtain ⟨state, backslash, parm, p⟩ := s
  have room' : ¬ 16 ≤ p.length := Nat.not_le.mpr room
  have short' : ¬ 256 ≤ parm.length := Nat.not_le.mpr short
  rw [parseChar_effect _ char]
  cases state <;> cases backslash <;>
    simp only [Options.parseChar, effect, readChar, stored, Options.store, Options.Limits.reached,
      Options.Limits.standard, Option.any_some, decide_eq_true_eq, short'] <;>
    grind [Options.finish]

private theorem standard_nul {s : Options.Line} (room : s.p.length < 16) :
    scan (Options.parseChar .standard) Options.finish s ['\x00'] = endLine s := by
  obtain ⟨state, backslash, parm, p⟩ := s
  have room' : ¬ 16 ≤ p.length := Nat.not_le.mpr room
  by_cases full : 15 ≤ p.length <;> cases state <;> cases backslash <;>
    simp [scan, Options.parseChar, readChar, Options.store, Options.Limits.reached, Options.Limits.standard,
      Options.finish, Options.space, endLine, room', full]

/-- Within the bounds the bounded reader does what the unbounded one does. -/
theorem read_standard (line : List Char) (clean : ∀ c ∈ line, c ≠ '\x00') {s : Options.Line} (tidy : Tidy s)
    (room : s.p.length < 16) {ps : List (List Char)} (read : readRest s line = .ok ps) (few : ps.length ≤ 16)
    (short : ∀ parm ∈ ps, parm.length < 256) :
    scan (Options.parseChar .standard) Options.finish s (line ++ ['\x00']) = .ok ps := by
  induction line generalizing s with
  | nil =>
    rw [readRest_nil] at read
    rw [List.nil_append, standard_nul room, read]
  | cons x rest ih =>
    have brief : s.parm.length < 256 := by
      by_cases empty : s.parm = []
      · simp [empty]
      · obtain ⟨parm, member, longer⟩ := (read_extends _ clean tidy read).2 empty
        exact Nat.lt_of_le_of_lt longer.length_le (short parm member)
    obtain ⟨char, clean⟩ := List.forall_mem_cons.mp clean
    have fed := parseChar_standard s char room brief
    obtain ⟨good, ⟨commented, rfl⟩ | ⟨goes, later⟩⟩ := readRest_cons char read
    · rw [if_neg (by simp [commented]), parseChar_effect s char, commented] at fed
      exact scan_stop fed _
    by_cases full : effect Options.space s.state s.backslash x = .close ∧ s.p.length + 1 = 16
    · obtain ⟨whole, -⟩ := read_extends rest clean (tidy.advance x) later
      rw [full.1] at whole
      have all : s.p ++ [s.parm] = ps := whole.eq_of_length_le (by simp [advance, full.2, few])
      rw [if_pos full, all] at fed
      exact scan_stop fed _
    · rw [if_neg full, parseChar_next char good goes] at fed
      rw [List.cons_append, scan_next fed]
      refine ih clean (tidy.advance x) ?_ later
      cases found : effect Options.space s.state s.backslash x with
      | close =>
        have spare : s.p.length + 1 ≠ 16 := fun filled => full ⟨found, filled⟩
        show (s.p ++ [s.parm]).length < 16
        rw [List.length_append, List.length_singleton]
        omega
      | _ => exact room

/-- A line as short as a parameter that yields fewer than sixteen is read without the bounds too. -/
theorem read_unlimited (line : List Char) (clean : ∀ c ∈ line, c ≠ '\x00') {s : Options.Line} (room : s.p.length < 16)
    (short : s.parm.length + line.length < 256) {ps : List (List Char)} (few : ps.length < 16)
    (read : scan (Options.parseChar .standard) Options.finish s (line ++ ['\x00']) = .ok ps) :
    readRest s line = .ok ps := by
  induction line generalizing s with
  | nil =>
    rw [List.nil_append, standard_nul room] at read
    rw [readRest_nil, read]
  | cons x rest ih =>
    obtain ⟨char, clean⟩ := List.forall_mem_cons.mp clean
    rw [List.length_cons] at short
    have fed := parseChar_standard s char room (by omega)
    rw [List.cons_append] at read
    by_cases full : effect Options.space s.state s.backslash x = .close ∧ s.p.length + 1 = 16
    · rw [if_pos full] at fed
      rw [scan_stop fed] at read
      cases read
      rw [List.length_append, List.length_singleton] at few
      omega
    rw [if_neg full] at fed
    cases next : Options.parseChar .unlimited s x with
    | stop result =>
      rw [scan_stop (fed.trans next)] at read
      exact (scan_stop next _).trans read
    | next after =>
      rw [scan_next (fed.trans next)] at read
      refine Eq.trans (scan_next next _) ?_
      rw [parseChar_effect s char] at next
      have more : after.p.length < 16 := by
        cases found : effect Options.space s.state s.backslash x <;> rw [found] at next full <;> cases next
        case close =>
          have spare : s.p.length + 1 ≠ 16 := fun filled => full ⟨rfl, filled⟩
          rw [List.length_append, List.length_singleton]
          omega
        all_goals exact room
      have brief : after.parm.length + rest.length < 256 := by
        cases found : effect Options.space s.state s.backslash x <;> rw [found] at next <;> cases next <;>
          simp <;> omega
      exact ih clean more brief read

/-- On an ASCII line that OpenVPN reads within its bounds, the Java tokenizer
agrees with it exactly when the line is portable. -/
theorem parseline_agrees_iff {line : List Char} (clean : ∀ c ∈ line, c ≠ '\x00') (ascii : ∀ c ∈ line, c.toNat < 128)
    {ps : List (List Char)} (read : Options.parseLine .unlimited line = .ok ps) (few : ps.length ≤ 16)
    (short : ∀ parm ∈ ps, parm.length < 256) :
    Options.parseLine .standard line = .ok ps ∧
      (ConfigParser.parseline line = .ok ps ↔ portable .initial false false line = true) := by
  refine ⟨read_standard line clean (fun _ => rfl) (by decide) read few short, ?_⟩
  rw [parseline_rest]
  exact synced_iff line clean ascii (c := {}) (j := {})
    ⟨fun _ => rfl, rfl, rfl, rfl, rfl, fun _ => rfl, fun inside => absurd rfl inside, by simp⟩ read

theorem parseline_agrees_iff_quoted :
    Options.parseLine .standard ['c', 'a', ' ', '"', 'x', ' ', 'y', '"'] = .ok [['c', 'a'], ['x', ' ', 'y']] ∧
      (ConfigParser.parseline ['c', 'a', ' ', '"', 'x', ' ', 'y', '"'] = .ok [['c', 'a'], ['x', ' ', 'y']] ↔
        portable .initial false false ['c', 'a', ' ', '"', 'x', ' ', 'y', '"'] = true) :=
  parseline_agrees_iff (by simp) (by simp) rfl (by decide) (by decide)

/-- The character before an escaped backslash comes out twice. -/
theorem escaped_backslash_repeats :
    ∃ ps, Options.parseLine .standard ['a', '\\', '\\', 'b'] = .ok ps ∧
      ConfigParser.parseline ['a', '\\', '\\', 'b'] ≠ .ok ps :=
  ⟨[['a', '\\', 'b']], rfl, by decide⟩

end RRoadVpn.Proofs.Tokenizers
