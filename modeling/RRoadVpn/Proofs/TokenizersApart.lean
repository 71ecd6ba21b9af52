import RRoadVpn.Proofs.TokenWords

/-! The two ways in which the line readers stay different without having come
apart yet: the Java reader has written too much of a parameter, or it has skipped
a separator and owes what OpenVPN wrote instead. -/

namespace RRoadVpn.Proofs.TokenizersApart
open Library LineEffects TokenWords

/-! ### Java ahead -/

/-- Inside one parameter, of which the Java reader has written more. -/
structure Ahead (c : Options.Line) (j : ConfigParser.Line) : Prop where
  inside : c.state = .readingUnquotedParm ∨ c.state = .readingQuotedParm
  state : j.state = c.state
  backslash : j.backslash = c.backslash
  p : j.parameters = c.p
  longer : c.parm.length < j.currentarg.length
  plain : c.state = .readingUnquotedParm → ∀ x ∈ j.currentarg, ¬ Separator x
  last : j.out = '\x00' ∨ j.out ∈ j.currentarg

private theorem Ahead.tidy {c : Options.Line} {j : ConfigParser.Line} (ahead : Ahead c j) : Tidy c := by
  intro closed
  rcases ahead.inside with inside | inside <;> rw [inside] at closed <;> cases closed

private theorem Ahead.silent {c : Options.Line} {j : ConfigParser.Line} (ahead : Ahead c j) : Silent j := by
  intro closed
  rw [ahead.state] at closed
  rcases ahead.inside with inside | inside <;> rw [inside] at closed <;> cases closed

theorem Ahead.apart {c : Options.Line} {j : ConfigParser.Line} (ahead : Ahead c j) {x : Option Char}
    {first : List (Option Char)} (written : word c.p c.parm ++ [x] <+: first)
    (differ : x ∉ j.currentarg.map some) : Apart first (word j.parameters j.currentarg) := by
  have apart := Apart.of_shorter (word c.p []) (c.parm.map some) (j.currentarg.map some)
    (by simpa using ahead.longer) differ
  rw [← List.append_assoc, ← word_open, ← word_open] at apart
  rw [ahead.p]
  exact apart.mono written (List.prefix_refl _)

private theorem Ahead.escape {c : Options.Line} {j : ConfigParser.Line} (ahead : Ahead c j) (x : Char) :
    Ahead (advance x c .escape) (advanceJava x j .escape) := by
  obtain ⟨inside, state, backslash, p, longer, plain, last⟩ := ahead
  simp only [advance, advanceJava, ConfigParser.store]
  by_cases silent : j.out = '\x00'
  · simp only [silent, bne_self_eq_false, Bool.false_eq_true, ite_false]
    exact ⟨inside, state, rfl, p, longer, plain, .inl rfl⟩
  · have repeated := last.resolve_left silent
    simp only [bne_iff_ne, ne_eq, silent, not_false_eq_true, ite_true]
    refine ⟨inside, state, rfl, p, by simp; omega, ?_, .inr (by simp)⟩
    intro unquoted x member
    rcases List.mem_append.mp member with member | member
    · exact plain unquoted x member
    · rw [List.mem_singleton.mp member]
      exact plain unquoted _ repeated

private theorem Ahead.store {c : Options.Line} {j : ConfigParser.Line} (ahead : Ahead c j) {x : Char}
    (quoted : c.state = .readingUnquotedParm → ¬ Separator x) :
    Ahead (advance x c (.store c.state)) (advanceJava x j (.store c.state)) := by
  obtain ⟨inside, state, backslash, p, longer, plain, last⟩ := ahead
  refine ⟨inside, rfl, rfl, p, by simpa [advance, advanceJava] using longer, ?_, .inr (by simp [advanceJava])⟩
  intro unquoted y member
  rcases List.mem_append.mp member with member | member
  · exact plain unquoted y member
  · rw [List.mem_singleton.mp member]
    exact quoted unquoted

private theorem effect_inside (space : Char → Bool) {state : LineState} (backslash : Bool) (c : Char)
    (inside : state = .readingUnquotedParm ∨ state = .readingQuotedParm) :
    effect space state backslash c = .escape ∨ effect space state backslash c = .close ∨
      effect space state backslash c = .store state ∨ effect space state backslash c = .bad := by
  unfold effect stored
  grind

theorem ahead_differs (line : List Char) (clean : ∀ c ∈ line, c ≠ '\x00') (ascii : ∀ c ∈ line, c.toNat < 128)
    {c : Options.Line} {j : ConfigParser.Line} (ahead : Ahead c j) {ps : List (List Char)}
    (read : readRest c line = .ok ps) : readRestJava j line ≠ .ok ps := by
  induction line generalizing c j with
  | nil =>
    rw [readRest_nil, endLine] at read
    split at read
    next closes =>
      cases read
      have written : word c.p c.parm ++ [none] <+: word (c.p ++ [c.parm]) [] := by
        rw [word_end]
      exact apart_differs (by simp) ahead.silent (ahead.apart written (by simp)) (List.prefix_refl _)
    next =>
      obtain ⟨state, backslash, parm, p⟩ := c
      rcases ahead.inside with rfl | rfl <;> cases read
  | cons x rest ih =>
    have whole := clean
    obtain ⟨char, clean⟩ := List.forall_mem_cons.mp clean
    obtain ⟨here, ascii⟩ := List.forall_mem_cons.mp ascii
    obtain ⟨good, found⟩ := readRest_cons char read
    have goes := effect_inside Options.space c.backslash x ahead.inside
    obtain ⟨commented, -⟩ | ⟨-, read⟩ := found
    · rw [commented] at goes
      simp at goes
    have later := read_grows rest clean (ahead.tidy.advance x) read
    rw [word_advance] at later
    by_cases splits : Separator x ∧ c.state = .readingUnquotedParm
    · obtain ⟨separator, unquoted⟩ := splits
      have stores : effect Options.space c.state c.backslash x = .store .readingUnquotedParm := by
        obtain ⟨blank, slash, -⟩ := separator.stores
        rw [unquoted] at good ⊢
        simp [effect, stored, blank, slash] at good ⊢
        exact good
      rw [stores] at later
      refine apart_differs whole ahead.silent (ahead.apart later ?_) (List.prefix_refl _)
      intro member
      obtain ⟨y, member, same⟩ := List.mem_map.mp member
      cases same
      exact ahead.plain unquoted x member separator
    · have same : effect ConfigParser.space j.state j.backslash x = effect Options.space c.state c.backslash x := by
        rw [ahead.state, ahead.backslash]
        refine effect_java here good fun separator => ?_
        rcases ahead.inside with unquoted | quoted
        · exact absurd ⟨separator, unquoted⟩ splits
        · exact .inl quoted
      rcases goes with escapes | closes | stores | bad
      · rw [readRestJava_cons char ahead.silent, same, escapes]
        rw [escapes] at read
        exact ih clean ascii (ahead.escape x) read
      · rw [closes] at later
        exact apart_differs whole ahead.silent (ahead.apart later (by simp)) (List.prefix_refl _)
      · rw [readRestJava_cons char ahead.silent, same, stores]
        rw [stores] at read
        exact ih clean ascii (ahead.store fun unquoted separator => splits ⟨separator, unquoted⟩) read
      · exact absurd bad good

/-! ### Java behind -/

/-- The characters that can be owed: others are written by both at once. -/
def Odd (c : Char) : Prop :=
  Separator c ∨ Options.space c = true ∨ c = '\\' ∨ c = '"' ∨ c = '\''

/-- The Java reader still owes `pending`, which holds a separator it skipped. -/
structure Behind (c : Options.Line) (j : ConfigParser.Line) (pending : List (Option Char)) : Prop where
  tidy : Tidy c
  silent : Silent j
  written : word c.p c.parm = word j.parameters j.currentarg ++ pending
  separated : ∃ x, some x ∈ pending ∧ Separator x
  odd : ∀ x, some x ∈ pending → Odd x
  closed : c.state = .initial → ∃ before, pending = before ++ [none]
  plain : c.state = .readingSquotedParm → c.backslash = false
  plainJava : j.state = .readingSquotedParm → j.backslash = false
  parity : c.state ≠ .readingSquotedParm → j.state ≠ .readingSquotedParm → c.backslash = j.backslash
  long : j.state = .readingQuotedParm ∨ c.state = .readingSquotedParm →
    2 ≤ pending.length ∨ c.backslash = true ∧ j.backslash = true
  echo : j.backslash = false → j.state ≠ .readingSquotedParm → Separator j.out →
    (j.state = .readingQuotedParm ∨ c.state = .readingSquotedParm) ∧ ∃ before, pending = before ++ [some j.out]

/-- How OpenVPN goes on from a character. -/
structure Turn (c c' : Options.Line) (x : Char) (out : List (Option Char)) : Prop where
  separator : Separator x → out = [some x] ∧ c.backslash = false
  nothing : out = [] → c.state = .initial ∨ x = '\\' ∧ c'.backslash = true ∧ c.state ≠ .readingSquotedParm
  closes : c'.state = .initial → out = [none] ∨ out = [] ∧ c.state = .initial
  squotes : c'.state = .readingSquotedParm →
    c'.backslash = false ∧ (c.state = .readingSquotedParm ∧ out ≠ [] ∨ c.state = .initial ∧ out = [])
  stays : c.state = .readingSquotedParm → x ≠ '\'' → c'.state = .readingSquotedParm
  escapes : c'.backslash = true ↔ x = '\\' ∧ c.backslash = false ∧ c.state ≠ .readingSquotedParm
  writes : out = [] ∨ out = [none] ∨ out = [some x]

private theorem turn {c : Options.Line} {x : Char} {e : Effect}
    (found : effect Options.space c.state c.backslash x = e)
    (good : e ≠ .bad) (goes : e ≠ .comment) : Turn c (advance x c e) x (pushed x e) := by
  cases e with
  | escape =>
    obtain ⟨rfl, ready, unsquoted⟩ := effect_escape found
    refine ⟨fun sep => absurd rfl sep.stores.2.1, ?_, ?_, ?_, ?_, ?_, .inl rfl⟩ <;>
      simp_all [pushed, advance]
  | skip =>
    obtain ⟨initial, blank⟩ := effect_skip found
    have plain := blank_plain blank
    refine ⟨fun sep => ?_, ?_, ?_, ?_, ?_, ?_, .inl rfl⟩
    · simp [sep.stores.1] at blank
    all_goals simp_all [pushed, advance]
  | enter next =>
    obtain ⟨initial, ready, quotes⟩ := effect_enter found
    refine ⟨fun sep => ?_, ?_, ?_, ?_, ?_, ?_, .inl rfl⟩
    · have := sep.stores
      grind
    all_goals grind [pushed, advance]
  | close =>
    have closes := effect_close found
    refine ⟨fun sep => ?_, ?_, ?_, ?_, ?_, ?_, .inr (.inl rfl)⟩
    · have := sep.stores
      grind
    · simp [pushed]
    · simp [pushed]
    · simp [advance]
    · grind
    · simp [advance]
      have := fun b : Options.space x = true => blank_plain b
      grind
  | store next =>
    obtain ⟨escapes, slash, stores⟩ := effect_store found
    refine ⟨fun sep => ⟨rfl, ?_⟩, ?_, ?_, ?_, ?_, ?_, .inr (.inr rfl)⟩
    · have := sep.stores
      have : escapable Options.space x = false := by simp [escapable, this]
      grind
    · simp [pushed]
    · grind [advance]
    · grind [advance, pushed]
    · grind [advance]
    · simp [advance]
      grind
  | comment => exact absurd rfl goes
  | bad => exact absurd rfl good

private theorem store_backslash (s : ConfigParser.Line) : (ConfigParser.store s).backslash = s.backslash := by
  unfold ConfigParser.store
  split <;> rfl

theorem not_separator_nul : ¬ Separator '\x00' := by decide

/-- How the Java reader goes on from a character. -/
structure TurnJava (j j' : ConfigParser.Line) (x : Char) (out : List (Option Char)) : Prop where
  short : out = [] ∨ ∃ a, out = [a]
  separator : ∀ y, out = [some y] → Separator y →
    y = x ∨ y = j.out ∧ x = '\\' ∧ j.backslash = false ∧ j.state ≠ .readingSquotedParm
  quotes : j'.state = .readingQuotedParm → j.state = .readingQuotedParm ∨ out = [] ∧ x = '"' ∧ j.backslash = false
  quoted : j.state = .readingQuotedParm → j'.state = .readingQuotedParm → j'.backslash = false → out = [some x]
  escapes : j'.backslash = true ↔ x = '\\' ∧ j.backslash = false ∧ j.state ≠ .readingSquotedParm
  squotes : j'.state = .readingSquotedParm → j'.backslash = false
  squoted : j.state = .readingSquotedParm → x ≠ '\'' → j'.state = .readingSquotedParm
  apostrophe : x = '\'' → j.state ≠ .readingSquotedParm → j.backslash = false
  echo : j'.backslash = false → Separator j'.out → j'.out = x ∧ out = [some x] ∧ j'.state = j.state ∧
    (j.state = .readingQuotedParm ∨ j.state = .readingSquotedParm ∨ j.backslash = true)
  odd : out = [some x] ∨ Odd x

private theorem turnJava {j : ConfigParser.Line} {x : Char} {f : Effect}
    (found : effect ConfigParser.space j.state j.backslash x = f) (ascii : x.toNat < 128) (silent : Silent j)
    (good : f ≠ .bad) (goes : f ≠ .comment) : TurnJava j (advanceJava x j f) x (pushedJava j.out x f) := by
  have blank : ConfigParser.space x = true ↔ _ := java_space ascii
  have nul := not_separator_nul
  have slash : ConfigParser.space '\\' = false := by decide
  have apostrophe : ConfigParser.space '\'' = false := by decide
  cases f with
  | escape =>
    obtain ⟨rfl, ready, unsquoted⟩ := effect_escape found
    have repeats : pushedJava j.out '\\' .escape = if j.out = '\x00' then [] else [some j.out] := rfl
    have advanced : (advanceJava '\\' j .escape).state = j.state ∧ (advanceJava '\\' j .escape).backslash = true := by
      simp [advanceJava, store_state, store_backslash]
    obtain ⟨state, backslash⟩ := advanced
    constructor <;> grind [Odd]
  | skip =>
    obtain ⟨initial, blank⟩ := effect_skip found
    have := silent initial
    constructor <;> grind [pushedJava, pushed, advanceJava, Odd]
  | enter next =>
    obtain ⟨initial, ready, quotes⟩ := effect_enter found
    have := silent initial
    constructor <;> grind [pushedJava, pushed, advanceJava, Odd]
  | close =>
    have closes := effect_close found
    constructor <;> grind [pushedJava, pushed, advanceJava, Odd]
  | store next =>
    obtain ⟨escapes, slash, stores⟩ := effect_store found
    unfold escapable at escapes
    constructor <;> grind [pushedJava, pushed, advanceJava, Odd]
  | comment => exact absurd rfl goes
  | bad => exact absurd rfl good

section Step

variable {c c' : Options.Line} {j j' : ConfigParser.Line} {pending rest out outJava : List (Option Char)} {x : Char}

/-- `rest` is owed when `out` is added to what is owed and `outJava` paid from it. -/
def Settled (pending out outJava rest : List (Option Char)) : Prop :=
  outJava = [] ∧ rest = pending ++ out ∨ ∃ a left, outJava = [a] ∧ pending = a :: left ∧ rest = left ++ out

theorem two_owed {owed : List (Option Char)} (separated : ∃ y, some y ∈ owed ∧ Separator y)
    (closed : ∃ before, owed = before ++ [none]) : 2 ≤ owed.length := by
  obtain ⟨y, member, -⟩ := separated
  obtain ⟨before, rfl⟩ := closed
  cases before with
  | nil => simp at member
  | cons => simp

private theorem separated_step (behind : Behind c j pending) (turn : Turn c c' x out)
    (turnJava : TurnJava j j' x outJava)
    (settled : Settled pending out outJava rest) :
    ∃ y, some y ∈ rest ∧ Separator y := by
  obtain ⟨y, member, separator⟩ := behind.separated
  rcases settled with ⟨-, rfl⟩ | ⟨a, left, paid, rfl, rfl⟩
  · exact ⟨y, List.mem_append_left _ member, separator⟩
  · rcases List.mem_cons.mp member with rfl | later
    · rcases turnJava.separator y paid separator with rfl | ⟨rfl, -, ready, unsquoted⟩
      · exact ⟨y, by simp [(turn.separator separator).1], separator⟩
      · obtain ⟨inside, before, last⟩ := behind.echo ready unsquoted separator
        rcases behind.long inside with two | ⟨-, escaped⟩
        · refine ⟨j.out, List.mem_append_left _ ?_, separator⟩
          have end_ : left ≠ [] := by
            rintro rfl
            simp at two
          have kept : left.getLast? = some (some j.out) := by
            rw [← List.getLast?_cons_of_ne_nil end_, last]
            simp
          exact List.mem_of_getLast? kept
        · rw [ready] at escaped
          cases escaped
    · exact ⟨y, List.mem_append_left _ later, separator⟩

private theorem odd_step (behind : Behind c j pending) (turn : Turn c c' x out) (turnJava : TurnJava j j' x outJava)
    (settled : Settled pending out outJava rest) :
    ∀ y, some y ∈ rest → Odd y := by
  have odd : Odd x := by
    rcases turnJava.odd with written | odd
    · rcases settled with ⟨nothing, -⟩ | ⟨a, left, paid, rfl, -⟩
      · rw [nothing] at written
        cases written
      · rw [paid] at written
        cases written
        exact behind.odd x List.mem_cons_self
    · exact odd
  intro y member
  have owed : some y ∈ pending ∨ some y ∈ out := by
    rcases settled with ⟨-, rfl⟩ | ⟨a, left, -, rfl, rfl⟩
    · exact List.mem_append.mp member
    · exact (List.mem_append.mp member).imp_left (List.mem_cons_of_mem a)
  rcases owed with owed | new
  · exact behind.odd y owed
  · rcases turn.writes with rfl | rfl | rfl
    · cases new
    · simp at new
    · cases List.mem_singleton.mp new
      exact odd

theorem still_closed (closed : ∃ before, pending = before ++ [none]) (separated : ∃ y, some y ∈ rest ∧ Separator y)
    (settled : Settled pending [] outJava rest) :
    ∃ before, rest = before ++ [none] := by
  obtain ⟨before, ended⟩ := closed
  rcases settled with ⟨-, rfl⟩ | ⟨a, left, -, rfl, rfl⟩
  · exact ⟨before, by rw [ended, List.append_nil]⟩
  · rw [List.append_nil] at separated ⊢
    cases before with
    | nil =>
      simp only [List.nil_append, List.cons.injEq] at ended
      simp [ended.2] at separated
    | cons b before => exact ⟨before, (List.cons.inj ended).2⟩

private theorem closed_step (behind : Behind c j pending) (turn : Turn c c' x out)
    (settled : Settled pending out outJava rest)
    (separated : ∃ y, some y ∈ rest ∧ Separator y) (closed : c'.state = .initial) :
    ∃ before, rest = before ++ [none] := by
  rcases turn.closes closed with rfl | ⟨rfl, was⟩
  · rcases settled with ⟨-, rfl⟩ | ⟨_, left, -, -, rfl⟩
    · exact ⟨pending, rfl⟩
    · exact ⟨left, rfl⟩
  · exact still_closed (behind.closed was) separated settled

private theorem parity_step (behind : Behind c j pending) (turn : Turn c c' x out)
    (turnJava : TurnJava j j' x outJava)
    (unsquoted : c'.state ≠ .readingSquotedParm) (unsquotedJava : j'.state ≠ .readingSquotedParm) :
    c'.backslash = j'.backslash := by
  rw [Bool.eq_iff_iff, turn.escapes, turnJava.escapes]
  refine and_congr_right fun slash => ?_
  have open_ : c.state ≠ .readingSquotedParm := fun squoted => unsquoted (turn.stays squoted (by rw [slash]; decide))
  have openJava : j.state ≠ .readingSquotedParm :=
    fun squoted => unsquotedJava (turnJava.squoted squoted (by rw [slash]; decide))
  simp [open_, openJava, behind.parity open_ openJava]

private theorem long_step (behind : Behind c j pending) (turn : Turn c c' x out) (turnJava : TurnJava j j' x outJava)
    (settled : Settled pending out outJava rest)
    (separated : ∃ y, some y ∈ rest ∧ Separator y) (closed : c'.state = .initial → ∃ before, rest = before ++ [none])
    (inside : j'.state = .readingQuotedParm ∨ c'.state = .readingSquotedParm) :
    2 ≤ rest.length ∨ c'.backslash = true ∧ j'.backslash = true := by
  have owing : 1 ≤ pending.length := by
    obtain ⟨y, member, -⟩ := behind.separated
    exact List.length_pos_of_mem member
  have paid : pending.length + out.length ≤ rest.length + 1 ∧
      (outJava = [] → pending.length + out.length ≤ rest.length) := by
    rcases settled with ⟨-, rfl⟩ | ⟨a, left, rfl, rfl, rfl⟩
    · simp
    · simp; omega
  have skipping : out = [] → c.state = .initial → 2 ≤ rest.length := by
    rintro rfl was
    exact two_owed separated (still_closed (behind.closed was) separated settled)
  have writing : out ≠ [] → 1 ≤ out.length := List.length_pos_of_ne_nil
  rcases inside with quoted | squoted
  · rcases turnJava.quotes quoted with was | ⟨nothing, quote, -⟩
    · by_cases escaping : j'.backslash = true
      · obtain ⟨-, fresh, -⟩ := turnJava.escapes.mp escaping
        have two : 2 ≤ pending.length := by
          rcases behind.long (.inl was) with two | ⟨-, escaped⟩
          · exact two
          · rw [fresh] at escaped
            cases escaped
        by_cases silent : out = []
        · rcases turn.nothing silent with initial | ⟨-, escaped, -⟩
          · exact .inl (skipping silent initial)
          · exact .inr ⟨escaped, escaping⟩
        · have := writing silent
          exact .inl (by omega)
      · have ready := Bool.eq_false_iff.mpr escaping
        have written := turnJava.quoted was quoted ready
        by_cases silent : out = []
        · rcases turn.nothing silent with initial | ⟨slash, escaped, unsquoted⟩
          · exact .inl (skipping silent initial)
          · have fresh := (turn.escapes.mp escaped).2.1
            have same := behind.parity unsquoted (by rw [was]; decide)
            exact absurd (turnJava.escapes.mpr ⟨slash, same ▸ fresh, by rw [was]; decide⟩) escaping
        · have := writing silent
          rcases behind.long (.inl was) with two | ⟨escaped, -⟩
          · exact .inl (by omega)
          · -- a lone separator cannot be what an escaped character pays
            rcases settled with ⟨nothing, -⟩ | ⟨a, left, same, rfl, rfl⟩
            · rw [written] at nothing
              cases nothing
            · rw [written] at same
              cases same
              cases left with
              | nil =>
                obtain ⟨y, member, separator⟩ := behind.separated
                cases List.mem_singleton.mp member
                rw [(turn.separator separator).2] at escaped
                cases escaped
              | cons => exact .inl (by simp; omega)
    · by_cases silent : out = []
      · rcases turn.nothing silent with initial | ⟨slash, -⟩
        · exact .inl (skipping silent initial)
        · rw [quote] at slash
          exact absurd slash (by decide)
      · have := writing silent
        have := paid.2 nothing
        exact .inl (by omega)
  · obtain ⟨-, ⟨was, written⟩ | ⟨initial, silent⟩⟩ := turn.squotes squoted
    · rcases behind.long (.inr was) with two | ⟨escaped, -⟩
      · have := writing written
        exact .inl (by omega)
      · rw [behind.plain was] at escaped
        cases escaped
    · exact .inl (skipping silent initial)

private theorem echo_step (behind : Behind c j pending) (turn : Turn c c' x out) (turnJava : TurnJava j j' x outJava)
    (settled : Settled pending out outJava rest)
    (ready : j'.backslash = false) (unsquoted : j'.state ≠ .readingSquotedParm) (separator : Separator j'.out) :
    (j'.state = .readingQuotedParm ∨ c'.state = .readingSquotedParm) ∧ ∃ before, rest = before ++ [some j'.out] := by
  obtain ⟨same, paid, state, inside⟩ := turnJava.echo ready separator
  rw [same] at separator ⊢
  obtain ⟨rfl, fresh⟩ := turn.separator separator
  constructor
  · rcases inside with quoted | squoted | escaped
    · exact .inl (state.trans quoted)
    · exact absurd (state.trans squoted) unsquoted
    · by_cases squoted : c.state = .readingSquotedParm
      · exact .inr (turn.stays squoted separator.stores.2.2.2.1)
      · have := behind.parity squoted (state ▸ unsquoted)
        rw [fresh, escaped] at this
        cases this
  · rcases settled with ⟨nothing, -⟩ | ⟨_, left, -, -, rfl⟩
    · rw [paid] at nothing
      cases nothing
    · exact ⟨left, rfl⟩

end Step

/-- One character on: the readers come apart or the Java one stays behind. -/
theorem Behind.step {c : Options.Line} {j : ConfigParser.Line} {pending : List (Option Char)} {x : Char}
    (behind : Behind c j pending) (ascii : x.toNat < 128)
    (good : effect Options.space c.state c.backslash x ≠ .bad)
    (goes : effect Options.space c.state c.backslash x ≠ .comment)
    (goodJava : effect ConfigParser.space j.state j.backslash x ≠ .bad)
    (goesJava : effect ConfigParser.space j.state j.backslash x ≠ .comment) :
    let c' := advance x c (effect Options.space c.state c.backslash x)
    let j' := advanceJava x j (effect ConfigParser.space j.state j.backslash x)
    Apart (word c'.p c'.parm) (word j'.parameters j'.currentarg) ∨ ∃ rest, Behind c' j' rest := by
  intro c' j'
  have turn : Turn c c' x _ := turn rfl good goes
  have turnJava : TurnJava j j' x _ := turnJava rfl ascii behind.silent goodJava goesJava
  have written : word c'.p c'.parm = _ := word_advance c x _
  have writtenJava : word j'.parameters j'.currentarg = _ := word_advanceJava j x _
  generalize pushed x (effect Options.space c.state c.backslash x) = out at *
  generalize pushedJava j.out x (effect ConfigParser.space j.state j.backslash x) = outJava at *
  rw [behind.written] at written
  have owing : pending ≠ [] := by
    obtain ⟨y, member, -⟩ := behind.separated
    exact List.ne_nil_of_mem member
  have build : ∀ rest, word c'.p c'.parm = word j'.parameters j'.currentarg ++ rest →
      Settled pending out outJava rest →
      Behind c' j' rest := by
    intro rest written settled
    have separated := separated_step behind turn turnJava settled
    exact {
      tidy := behind.tidy.advance x
      silent := behind.silent.advance x
      written := written
      separated := separated
      odd := odd_step behind turn turnJava settled
      closed := closed_step behind turn settled separated
      plain := fun squoted => (turn.squotes squoted).1
      plainJava := turnJava.squotes
      parity := parity_step behind turn turnJava
      long := long_step behind turn turnJava settled separated (closed_step behind turn settled separated)
      echo := echo_step behind turn turnJava settled }
  obtain ⟨y, left, rfl⟩ := List.exists_cons_of_ne_nil owing
  rcases turnJava.short with rfl | ⟨a, rfl⟩
  · exact .inr ⟨_, build _ (by rw [written, writtenJava]; simp) (.inl ⟨rfl, rfl⟩)⟩
  · by_cases same : a = y
    · subst same
      exact .inr ⟨left ++ out, build _ (by rw [written, writtenJava]; simp) (.inr ⟨_, _, rfl, rfl, rfl⟩)⟩
    · refine .inl ⟨word j.parameters j.currentarg, y, a, Ne.symm same, ?_, ?_⟩
      · rw [written]
        exact ⟨left ++ out, by simp⟩
      · rw [writtenJava]

/-- Both readers come to the end of the line with a parameter still owed. -/
theorem Behind.ends {c : Options.Line} {j : ConfigParser.Line} {pending : List (Option Char)}
    (behind : Behind c j pending) {ps : List (List Char)} (read : endLine c = .ok ps) : endLineJava j ≠ .ok ps := by
  intro readJava
  have owing : 1 ≤ pending.length := by
    obtain ⟨y, member, -⟩ := behind.separated
    exact List.length_pos_of_mem member
  have lengths := congrArg List.length behind.written
  rw [List.length_append] at lengths
  have full : (word j.parameters j.currentarg).length + 2 ≤ (word ps []).length := by
    unfold endLine at read
    split at read
    · cases read
      simp only [word_end, List.length_append, List.length_singleton, lengths]
      omega
    · unfold Options.finish at read
      split at read <;> cases read
      next initial =>
        have two := two_owed behind.separated (behind.closed initial)
        rw [← behind.tidy initial, lengths]
        omega
  have most : (word ps []).length ≤ (word j.parameters j.currentarg).length + 1 := by
    unfold endLineJava at readJava
    split at readJava <;> cases readJava
    · rw [word_end, List.length_append]
      exact Nat.le_refl _
    · rw [word_open _ j.currentarg, List.length_append]
      omega
  omega

theorem behind_differs (line : List Char) (clean : ∀ c ∈ line, c ≠ '\x00') (ascii : ∀ c ∈ line, c.toNat < 128)
    {c : Options.Line} {j : ConfigParser.Line} {pending : List (Option Char)} (behind : Behind c j pending)
    {ps : List (List Char)} (read : readRest c line = .ok ps) : readRestJava j line ≠ .ok ps := by
  induction line generalizing c j pending with
  | nil =>
    rw [readRest_nil] at read
    rw [readRestJava_nil j behind.silent]
    exact behind.ends read
  | cons x rest ih =>
    have grown := read_grows _ clean behind.tidy read
    obtain ⟨char, clean⟩ := List.forall_mem_cons.mp clean
    obtain ⟨here, ascii⟩ := List.forall_mem_cons.mp ascii
    obtain ⟨y, left, rfl⟩ : ∃ y left, pending = y :: left := by
      obtain ⟨y, member, -⟩ := behind.separated
      exact List.exists_cons_of_ne_nil (List.ne_nil_of_mem member)
    by_cases goesJava : effect ConfigParser.space j.state j.backslash x = .comment
    · rw [readRestJava_cons char behind.silent, goesJava]
      intro same
      cases same
      have longer := grown.length_le
      rw [behind.written, word_open j.parameters j.currentarg] at longer
      simp only [List.length_append, List.length_map, List.length_cons] at longer
      omega
    by_cases goodJava : effect ConfigParser.space j.state j.backslash x = .bad
    · rw [readRestJava_cons char behind.silent, goodJava]
      simp
    rw [readRestJava_next char behind.silent goodJava goesJava]
    obtain ⟨good, ⟨commented, rfl⟩ | ⟨goes, read⟩⟩ := readRest_cons char read
    · -- a comment character is not owed, so the Java reader cannot be writing it
      obtain ⟨-, -, mark⟩ := effect_comment commented
      have even : ¬ Odd x := by rcases mark with rfl | rfl <;> (unfold Odd; decide)
      have turn := turnJava rfl here behind.silent goodJava goesJava
      have written := turn.odd.resolve_right even
      refine apart_differs clean (behind.silent.advance x) ?_ grown
      rw [behind.written, word_advanceJava, written]
      refine ⟨word j.parameters j.currentarg, y, some x, ?_, ⟨left, by simp⟩, List.prefix_refl _⟩
      rintro rfl
      exact even (behind.odd x List.mem_cons_self)
    · rcases behind.step here good goes goodJava goesJava with apart | ⟨owed, behind⟩
      · exact apart_differs clean (behind.silent.advance x) apart
          (read_grows rest clean (behind.tidy.advance x) read)
      · exact ih clean ascii behind read

end RRoadVpn.Proofs.TokenizersApart
