import RRoadVpn.Proofs.LineEffects

/-! The output of the two line readers as words that only grow, so that readers
whose words differ at one place never agree again. -/

namespace RRoadVpn.Proofs.TokenWords
open Library LineEffects

/-- The ASCII controls that are white space for Java and not for C. -/
def Separator (c : Char) : Prop := 0x1c ≤ c.toNat ∧ c.toNat ≤ 0x1f

instance : DecidablePred Separator := fun _ => inferInstanceAs (Decidable (_ ∧ _))

theorem Separator.stores {c : Char} (separator : Separator c) :
    Options.space c = false ∧ c ≠ '\\' ∧ c ≠ '"' ∧ c ≠ '\'' ∧ c ≠ ';' ∧ c ≠ '#' ∧ c ≠ '\x00' := by
  have all : ∀ n < 32, Separator (Char.ofNat n) → Options.space (Char.ofNat n) = false ∧ Char.ofNat n ≠ '\\' ∧
      Char.ofNat n ≠ '"' ∧ Char.ofNat n ≠ '\'' ∧ Char.ofNat n ≠ ';' ∧ Char.ofNat n ≠ '#' ∧
      Char.ofNat n ≠ '\x00' := by decide
  have here := all c.toNat (Nat.lt_succ_of_le separator.2)
  rw [Char.ofNat_toNat] at here
  exact here separator

theorem java_space {c : Char} (ascii : c.toNat < 128) :
    ConfigParser.space c = true ↔ Options.space c = true ∨ Separator c := by
  have all : ∀ n < 128, ConfigParser.space (Char.ofNat n) = true ↔
      Options.space (Char.ofNat n) = true ∨ Separator (Char.ofNat n) := by decide
  have here := all c.toNat ascii
  rwa [Char.ofNat_toNat] at here

theorem blank_plain {c : Char} (blank : Options.space c = true) : c ≠ '\\' ∧ c ≠ '"' ∧ c ≠ '\'' := by
  refine ⟨?_, ?_, ?_⟩ <;> rintro rfl <;> exact absurd blank (by decide)

theorem effect_java {state : LineState} {backslash : Bool} {c : Char} (ascii : c.toNat < 128)
    (good : effect Options.space state backslash c ≠ .bad)
    (quoted : Separator c → state = .readingQuotedParm ∨ state = .readingSquotedParm) :
    effect ConfigParser.space state backslash c = effect Options.space state backslash c := by
  by_cases separator : Separator c
  · obtain ⟨blank, slash, quote, apostrophe, -⟩ := separator.stores
    have ready : backslash = false := by
      cases backslash with
      | false => rfl
      | true =>
        refine absurd ?_ good
        rcases quoted separator with rfl | rfl <;> simp [effect, stored, escapable, blank, slash, quote, apostrophe]
    subst ready
    rcases quoted separator with rfl | rfl <;> simp [effect, stored, slash, quote, apostrophe]
  · have same : ConfigParser.space c = Options.space c := by
      rw [Bool.eq_iff_iff, java_space ascii, or_iff_left separator]
    unfold effect stored escapable
    rw [same]

/-! ### What the readers have written -/

/-- The output so far as one word, where `none` ends a parameter. -/
def word (p : List (List Char)) (parm : List Char) : List (Option Char) :=
  p.flatMap (fun parm => parm.map some ++ [none]) ++ parm.map some

theorem word_end (p : List (List Char)) (parm : List Char) : word (p ++ [parm]) [] = word p parm ++ [none] := by
  simp [word]

private theorem word_store (p : List (List Char)) (parm : List Char) (c : Char) :
    word p (parm ++ [c]) = word p parm ++ [some c] := by
  simp [word]

theorem word_open (p : List (List Char)) (parm : List Char) : word p parm = word p [] ++ parm.map some := by
  simp [word]

def pushed (c : Char) : Effect → List (Option Char)
  | .close => [none]
  | .store _ => [some c]
  | _ => []

/-- What it adds to the Java word, where a backslash repeats the last character. -/
def pushedJava (out c : Char) : Effect → List (Option Char)
  | .escape => if out = '\x00' then [] else [some out]
  | found => pushed c found

theorem word_advance (s : Options.Line) (c : Char) (found : Effect) :
    word (advance c s found).p (advance c s found).parm = word s.p s.parm ++ pushed c found := by
  cases found with
  | close => exact word_end _ _
  | store => exact word_store _ _ _
  | _ => exact (List.append_nil _).symm

theorem word_advanceJava (s : ConfigParser.Line) (c : Char) (found : Effect) :
    word (advanceJava c s found).parameters (advanceJava c s found).currentarg =
      word s.parameters s.currentarg ++ pushedJava s.out c found := by
  cases found with
  | escape =>
    by_cases silent : s.out = '\x00'
    · simp [advanceJava, ConfigParser.store, pushedJava, silent]
    · simp [advanceJava, ConfigParser.store, pushedJava, silent, word_store]
  | close => exact word_end _ _
  | store => exact word_store _ _ _
  | _ => exact (List.append_nil _).symm

theorem store_state (s : ConfigParser.Line) : (ConfigParser.store s).state = s.state := by
  unfold ConfigParser.store
  split <;> rfl

private theorem store_out (s : ConfigParser.Line) : (ConfigParser.store s).out = s.out := by
  unfold ConfigParser.store
  split <;> rfl

def Tidy (s : Options.Line) : Prop := s.state = .initial → s.parm = []

def Silent (s : ConfigParser.Line) : Prop := s.state = .initial → s.out = '\x00'

theorem Tidy.advance {s : Options.Line} (tidy : Tidy s) (c : Char) :
    Tidy (advance c s (effect Options.space s.state s.backslash c)) := by
  intro closed
  cases found : effect Options.space s.state s.backslash c with
  | close => rfl
  | store next =>
    rw [found] at closed
    simp only [LineEffects.advance] at closed
    subst closed
    unfold effect stored at found
    grind
  | enter next =>
    rw [found] at closed
    simp only [LineEffects.advance] at closed
    subst closed
    unfold effect stored at found
    grind
  | _ =>
    rw [found] at closed
    exact tidy closed

theorem Silent.advance {s : ConfigParser.Line} (silent : Silent s) (c : Char) :
    Silent (advanceJava c s (effect ConfigParser.space s.state s.backslash c)) := by
  intro closed
  cases found : effect ConfigParser.space s.state s.backslash c with
  | close => rfl
  | store next =>
    rw [found] at closed
    simp only [advanceJava] at closed
    subst closed
    unfold effect stored at found
    grind
  | enter next =>
    rw [found] at closed
    simp only [advanceJava] at closed
    subst closed
    unfold effect stored at found
    grind
  | escape =>
    rw [found] at closed
    rw [advanceJava, store_state] at closed
    rw [advanceJava, store_out]
    exact silent closed
  | _ =>
    rw [found] at closed
    exact silent closed

theorem read_grows (line : List Char) (clean : ∀ c ∈ line, c ≠ '\x00') {s : Options.Line} (tidy : Tidy s)
    {ps : List (List Char)} (read : readRest s line = .ok ps) : word s.p s.parm <+: word ps [] := by
  induction line generalizing s with
  | nil =>
    rw [readRest_nil, endLine] at read
    split at read
    · cases read
      exact ⟨[none], (word_end _ _).symm⟩
    · obtain ⟨state, backslash, parm, p⟩ := s
      cases state <;> cases read
      have empty : parm = [] := tidy rfl
      subst empty
      exact List.prefix_refl _
  | cons c rest ih =>
    obtain ⟨char, clean⟩ := List.forall_mem_cons.mp clean
    obtain ⟨-, ⟨commented, rfl⟩ | ⟨-, read⟩⟩ := readRest_cons char read
    · have closed : s.state = .initial := by
        unfold effect stored at commented
        grind
      rw [tidy closed]
    · have grown := ih clean (tidy.advance c) read
      rw [word_advance] at grown
      exact (List.prefix_append _ _).trans grown

theorem read_sublist (line : List Char) (clean : ∀ c ∈ line, c ≠ '\x00') {s : Options.Line} (tidy : Tidy s)
    {ps : List (List Char)} (read : readRest s line = .ok ps) :
    ∃ kept, kept.Sublist line ∧ ps.flatten = s.p.flatten ++ s.parm ++ kept := by
  induction line generalizing s with
  | nil =>
    refine ⟨[], List.Sublist.refl _, ?_⟩
    rw [readRest_nil, endLine] at read
    split at read
    · cases read
      simp
    · unfold Options.finish at read
      split at read <;> cases read
      next initial => simp [tidy initial]
  | cons c rest ih =>
    obtain ⟨char, clean⟩ := List.forall_mem_cons.mp clean
    obtain ⟨good, ⟨commented, rfl⟩ | ⟨goes, read⟩⟩ := readRest_cons char read
    · exact ⟨[], List.nil_sublist _, by simp [tidy (effect_comment commented).1]⟩
    obtain ⟨kept, sublist, whole⟩ := ih clean (tidy.advance c) read
    cases found : effect Options.space s.state s.backslash c with
    | store state =>
      rw [found] at whole
      exact ⟨c :: kept, sublist.cons_cons c, by simpa [advance] using whole⟩
    | close =>
      rw [found] at whole
      exact ⟨kept, sublist.cons c, by simpa [advance] using whole⟩
    | comment => exact absurd found goes
    | bad => exact absurd found good
    | _ =>
      rw [found] at whole
      exact ⟨kept, sublist.cons c, whole⟩

theorem readJava_grows (line : List Char) (clean : ∀ c ∈ line, c ≠ '\x00') {s : ConfigParser.Line} (silent : Silent s)
    {ps : List (List Char)} (read : readRestJava s line = .ok ps) :
    ∃ dropped, word s.parameters s.currentarg <+: word ps dropped := by
  induction line generalizing s with
  | nil =>
    rw [readRestJava_nil s silent, endLineJava] at read
    split at read <;> cases read
    · exact ⟨[], [none], (word_end _ _).symm⟩
    · exact ⟨s.currentarg, List.prefix_refl _⟩
  | cons c rest ih =>
    obtain ⟨char, clean⟩ := List.forall_mem_cons.mp clean
    rw [readRestJava_cons char silent] at read
    have kept := silent.advance c
    have grown := word_advanceJava s c (effect ConfigParser.space s.state s.backslash c)
    cases found : effect ConfigParser.space s.state s.backslash c <;> rw [found] at read kept grown
    case comment =>
      cases read
      exact ⟨s.currentarg, List.prefix_refl _⟩
    case bad => cases read
    all_goals
      obtain ⟨dropped, more⟩ := ih clean kept read
      rw [grown] at more
      exact ⟨dropped, (List.prefix_append _ _).trans more⟩

/-! ### Coming apart -/

def Apart (first second : List (Option Char)) : Prop :=
  ∃ common x y, x ≠ y ∧ common ++ [x] <+: first ∧ common ++ [y] <+: second

theorem Apart.mono {first second first' second' : List (Option Char)} (apart : Apart first second)
    (grown : first <+: first') (grown' : second <+: second') : Apart first' second' := by
  obtain ⟨common, x, y, differ, left, right⟩ := apart
  exact ⟨common, x, y, differ, left.trans grown, right.trans grown'⟩

private theorem Apart.no_common {first second whole : List (Option Char)} (apart : Apart first second)
    (left : first <+: whole) (right : second <+: whole) : False := by
  obtain ⟨common, x, y, differ, one, other⟩ := apart
  have same := List.prefix_of_prefix_length_le (one.trans left) (other.trans right) (by simp)
  exact differ (by simpa using same.eq_of_length (by simp))

theorem Apart.of_shorter (common short long : List (Option Char)) {x : Option Char}
    (shorter : short.length < long.length) (differ : x ∉ long) : Apart (common ++ (short ++ [x])) (common ++ long) := by
  induction short generalizing common long with
  | nil =>
    obtain ⟨y, rest, rfl⟩ := List.exists_cons_of_length_pos shorter
    exact ⟨common, x, y, fun same => differ (by simp [same]), by simp, ⟨rest, by simp⟩⟩
  | cons a short ih =>
    obtain ⟨y, rest, rfl⟩ := List.exists_cons_of_length_pos (Nat.zero_lt_of_lt shorter)
    by_cases same : a = y
    · subst same
      have tail := ih (common ++ [a]) rest (by simpa using shorter)
        (fun member => differ (List.mem_cons_of_mem a member))
      simpa using tail
    · exact ⟨common, a, y, same, ⟨short ++ [x], by simp⟩, ⟨rest, by simp⟩⟩

theorem apart_differs {line : List Char} (clean : ∀ c ∈ line, c ≠ '\x00') {first : List (Option Char)}
    {j : ConfigParser.Line} (silent : Silent j) (apart : Apart first (word j.parameters j.currentarg))
    {ps : List (List Char)} (left : first <+: word ps []) : readRestJava j line ≠ .ok ps := by
  intro read
  obtain ⟨dropped, right⟩ := readJava_grows line clean silent read
  refine apart.no_common (left.trans ?_) right
  rw [word_open ps dropped]
  exact List.prefix_append _ _

end RRoadVpn.Proofs.TokenWords
