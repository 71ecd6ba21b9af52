import RRoadVpn.ParseLine

/-! What one character does to an option line, for either reader. That depends
on the quoting state alone; the readers differ in which characters separate
parameters and in what they append to them. -/

namespace RRoadVpn.Proofs.LineEffects
open Library

inductive Effect where
  | escape
  | skip
  | enter (state : LineState)
  | close
  | store (state : LineState)
  | comment
  | bad
  deriving DecidableEq, Repr

/-- A stored character, unless a backslash stands before one it may not. -/
def stored (space : Char → Bool) (backslash : Bool) (c : Char) (state : LineState) : Effect :=
  if backslash && !escapable space c then .bad else .store state

def effect (space : Char → Bool) (state : LineState) (backslash : Bool) (c : Char) : Effect :=
  if !backslash && c == '\\' && state != .readingSquotedParm then .escape
  else
    match state with
    | .initial =>
      if space c then .skip
      else if c == ';' || c == '#' then .comment
      else if !backslash && c == '"' then .enter .readingQuotedParm
      else if !backslash && c == '\'' then .enter .readingSquotedParm
      else stored space backslash c .readingUnquotedParm
    | .readingUnquotedParm =>
      if !backslash && space c then .close else stored space backslash c .readingUnquotedParm
    | .readingQuotedParm => if !backslash && c == '"' then .close else stored space backslash c .readingQuotedParm
    | .readingSquotedParm => if c == '\'' then .close else stored space backslash c .readingSquotedParm

section Inversion

variable {space : Char → Bool} {state next : LineState} {backslash : Bool} {c : Char}

theorem effect_escape (found : effect space state backslash c = .escape) :
    c = '\\' ∧ backslash = false ∧ state ≠ .readingSquotedParm := by
  unfold effect stored at found
  cases state <;> cases backslash <;> grind

theorem effect_skip (found : effect space state backslash c = .skip) : state = .initial ∧ space c = true := by
  unfold effect stored at found
  cases state <;> cases backslash <;> grind

theorem effect_enter (found : effect space state backslash c = .enter next) :
    state = .initial ∧ backslash = false ∧
      (c = '"' ∧ next = .readingQuotedParm ∨ c = '\'' ∧ next = .readingSquotedParm) := by
  unfold effect stored at found
  cases state <;> cases backslash <;> grind

theorem effect_close (found : effect space state backslash c = .close) :
    state = .readingUnquotedParm ∧ backslash = false ∧ space c = true ∨
      state = .readingQuotedParm ∧ backslash = false ∧ c = '"' ∨ state = .readingSquotedParm ∧ c = '\'' := by
  unfold effect stored at found
  cases state <;> cases backslash <;> grind

theorem effect_comment (found : effect space state backslash c = .comment) :
    state = .initial ∧ space c = false ∧ (c = ';' ∨ c = '#') := by
  unfold effect stored at found
  cases state <;> cases backslash <;> grind

theorem effect_store (found : effect space state backslash c = .store next) :
    (backslash = true → escapable space c = true) ∧ (c = '\\' → backslash = true ∨ state = .readingSquotedParm) ∧
      (state = .initial ∧ next = .readingUnquotedParm ∧ space c = false ∧ c ≠ ';' ∧ c ≠ '#' ∨
        state = .readingUnquotedParm ∧ next = state ∧ (backslash = false → space c = false) ∨
        state = .readingQuotedParm ∧ next = state ∨
        state = .readingSquotedParm ∧ next = state ∧ c ≠ '\'') := by
  unfold effect stored at found
  cases state <;> cases backslash <;> grind

end Inversion

theorem parseChar_effect (s : Options.Line) {c : Char} (char : c ≠ '\x00') :
    Options.parseChar .unlimited s c =
      match effect Options.space s.state s.backslash c with
      | .escape => .next { s with backslash := true }
      | .skip => .next { s with backslash := false }
      | .enter state => .next { s with state := state, backslash := false }
      | .close => .next { state := .initial, backslash := false, parm := [], p := s.p ++ [s.parm] }
      | .store state => .next { s with state := state, backslash := false, parm := s.parm ++ [c] }
      | .comment => .stop (.ok s.p)
      | .bad => .stop (.error .badBackslash) := by
  obtain ⟨state, backslash, parm, p⟩ := s
  cases state <;> cases backslash <;>
    simp only [Options.parseChar, effect, readChar, stored, Options.store, Options.Limits.reached,
      Options.Limits.unlimited, Option.any_none, Bool.false_eq_true, Bool.and_false, ite_false] <;>
    grind [Options.finish]

private theorem parselineChar_effect (s : ConfigParser.Line) {c : Char} (char : c ≠ '\x00')
    (silent : s.state = .initial → s.out = '\x00') :
    ConfigParser.parselineChar s c =
      match effect ConfigParser.space s.state s.backslash c with
      | .escape => .next (ConfigParser.store { s with backslash := true })
      | .skip => .next { s with backslash := false }
      | .enter state => .next { s with state := state, backslash := false }
      | .close =>
        .next { state := .initial, backslash := false, out := '\x00', currentarg := [],
                parameters := s.parameters ++ [s.currentarg] }
      | .store state =>
        .next { s with state := state, backslash := false, out := c, currentarg := s.currentarg ++ [c] }
      | .comment => .stop (.ok s.parameters)
      | .bad => .stop (.error ConfigParser.badBackslash) := by
  obtain ⟨state, backslash, out, currentarg, parameters⟩ := s
  cases state <;> cases backslash <;>
    simp only [ConfigParser.parselineChar, effect, readChar, stored, ConfigParser.store] <;>
    grind

/-- The line as `parse_line` leaves it after a character with an effect that goes on. -/
def advance (c : Char) (s : Options.Line) : Effect → Options.Line
  | .escape => { s with backslash := true }
  | .enter state => { s with state := state, backslash := false }
  | .close => { state := .initial, backslash := false, parm := [], p := s.p ++ [s.parm] }
  | .store state => { s with state := state, backslash := false, parm := s.parm ++ [c] }
  | _ => { s with backslash := false }

/-- The same for `parseline`, which stores its last character again at a backslash. -/
def advanceJava (c : Char) (s : ConfigParser.Line) : Effect → ConfigParser.Line
  | .escape => ConfigParser.store { s with backslash := true }
  | .enter state => { s with state := state, backslash := false }
  | .close =>
    { state := .initial, backslash := false, out := '\x00', currentarg := [],
      parameters := s.parameters ++ [s.currentarg] }
  | .store state => { s with state := state, backslash := false, out := c, currentarg := s.currentarg ++ [c] }
  | _ => { s with backslash := false }

/-- The terminating NUL ends an unquoted parameter and leaves any other open. -/
def endLine (s : Options.Line) : Options.LineResult :=
  if s.state = .readingUnquotedParm ∧ s.backslash = false then .ok (s.p ++ [s.parm]) else Options.finish s

def endLineJava (s : ConfigParser.Line) : ConfigParser.LineResult :=
  if s.state = .readingUnquotedParm ∧ s.backslash = false then .ok (s.parameters ++ [s.currentarg])
  else .ok s.parameters

private theorem scan_nul (s : Options.Line) :
    scan (Options.parseChar .unlimited) Options.finish s ['\x00'] = endLine s := by
  obtain ⟨state, backslash, parm, p⟩ := s
  cases state <;> cases backslash <;> rfl

private theorem scan_nul_java (s : ConfigParser.Line) (silent : s.state = .initial → s.out = '\x00') :
    scan ConfigParser.parselineChar (fun s => .ok s.parameters) s ['\x00'] = endLineJava s := by
  obtain ⟨state, backslash, out, currentarg, parameters⟩ := s
  cases state with
  | initial =>
    cases silent rfl
    cases backslash <;> rfl
  | _ => cases backslash <;> rfl

def readRest (s : Options.Line) (line : List Char) : Options.LineResult :=
  scan (Options.parseChar .unlimited) Options.finish s (line ++ ['\x00'])

def readRestJava (s : ConfigParser.Line) (line : List Char) : ConfigParser.LineResult :=
  scan ConfigParser.parselineChar (fun s => .ok s.parameters) s (line ++ ['\x00'])

theorem parseline_rest (line : List Char) : ConfigParser.parseline line = readRestJava {} line := by
  unfold ConfigParser.parseline
  split
  next empty =>
    rw [List.length_eq_zero_iff.mp (beq_iff_eq.mp empty)]
    rfl
  · rfl

theorem readRest_nil (s : Options.Line) : readRest s [] = endLine s := scan_nul s

theorem readRestJava_nil (s : ConfigParser.Line) (silent : s.state = .initial → s.out = '\x00') :
    readRestJava s [] = endLineJava s := scan_nul_java s silent

theorem parseChar_next {s : Options.Line} {c : Char} (char : c ≠ '\x00')
    (good : effect Options.space s.state s.backslash c ≠ .bad)
    (goes : effect Options.space s.state s.backslash c ≠ .comment) :
    Options.parseChar .unlimited s c = .next (advance c s (effect Options.space s.state s.backslash c)) := by
  rw [parseChar_effect s char]
  split <;> first | contradiction | simp_all [advance]

/-- A line that reads well goes on after each character or ends in a comment. -/
theorem readRest_cons {s : Options.Line} {c : Char} {rest : List Char} {ps : List (List Char)} (char : c ≠ '\x00')
    (read : readRest s (c :: rest) = .ok ps) :
    effect Options.space s.state s.backslash c ≠ .bad ∧
      (effect Options.space s.state s.backslash c = .comment ∧ ps = s.p ∨
        effect Options.space s.state s.backslash c ≠ .comment ∧
          readRest (advance c s (effect Options.space s.state s.backslash c)) rest = .ok ps) := by
  rw [readRest, List.cons_append, scan, parseChar_effect s char] at read
  cases found : effect Options.space s.state s.backslash c <;> rw [found] at read
  case comment =>
    cases read
    simp
  case bad => cases read
  all_goals exact ⟨by simp, .inr ⟨by simp, read⟩⟩

theorem readRestJava_cons {s : ConfigParser.Line} {c : Char} {rest : List Char} (char : c ≠ '\x00')
    (silent : s.state = .initial → s.out = '\x00') :
    readRestJava s (c :: rest) =
      match effect ConfigParser.space s.state s.backslash c with
      | .comment => .ok s.parameters
      | .bad => .error ConfigParser.badBackslash
      | found => readRestJava (advanceJava c s found) rest := by
  rw [readRestJava, List.cons_append, scan, parselineChar_effect s char silent]
  cases effect ConfigParser.space s.state s.backslash c <;> rfl

theorem readRestJava_next {s : ConfigParser.Line} {c : Char} {rest : List Char} (char : c ≠ '\x00')
    (silent : s.state = .initial → s.out = '\x00')
    (good : effect ConfigParser.space s.state s.backslash c ≠ .bad)
    (goes : effect ConfigParser.space s.state s.backslash c ≠ .comment) :
    readRestJava s (c :: rest) =
      readRestJava (advanceJava c s (effect ConfigParser.space s.state s.backslash c)) rest := by
  rw [readRestJava_cons char silent]
  split <;> first | contradiction | rfl

end RRoadVpn.Proofs.LineEffects
