import RRoadVpn.Library.Lines
import RRoadVpn.ProcessLog

/-! How a line of the process is classified. The group of the pattern for the flags is inside
the repetition, so only the last digit of the flags is read. -/

namespace RRoadVpn.Proofs.LogFlags
open Library OpenVPNThread
open JavaText (Text)

/-! ### The line -/

def digitValue (c : Char) : Nat := if c ≤ '9' then c.toNat - 48 else c.toNat - 87

def number (digits : Text) : Nat := digits.foldl (fun n c => 16 * n + digitValue c) 0

/-- The parts of a line: the time, the flags and the message. -/
structure Line where
  seconds : Text
  micros : Text
  flags : Text
  msg : Text
  seconds_digits : seconds ≠ [] ∧ ∀ c ∈ seconds, decimal c = true
  micros_digits : micros ≠ [] ∧ ∀ c ∈ micros, decimal c = true
  flags_digits : flags ≠ [] ∧ ∀ c ∈ flags, lowerHex c = true
  flags_int : number flags < 2 ^ 31
  msg_line : ∀ c ∈ msg, c ≠ '\n' ∧ c ≠ '\r'

namespace Line

variable (line : Line)

def text : Text := line.seconds ++ '.' :: line.micros ++ ' ' :: line.flags ++ ' ' :: line.msg

def word : Nat := number line.flags

def level : LogLevel :=
  if line.word.testBit 4 then .error
  else if line.word.testBit 5 ∨ line.word.testBit 6 then .warning
  else if line.word.testBit 7 then .verbose
  else .info

def verbosity : Nat :=
  if "MANAGEMENT: CMD".toList <+: line.msg then max 4 (line.word &&& 0x0F) else line.word &&& 0x0F

/-- The message is logged as the flags say. -/
def Classified (s : State) : Prop :=
  ∃ s' more, readLine s line.text = some s' ∧
    s'.logged = s.logged ++ .logMessageOpenVPN line.level (BitVec.ofNat 32 line.verbosity) line.msg :: more

/-- No character of the message ends a line for the pattern, where more characters do than for the reader. -/
def Unbroken : Prop := ∀ c ∈ line.msg, lineTerminator c = false

end Line

/-! ### The match -/

private theorem cut_at {c : Char} {first first' rest rest' : Text} (absent : c ∉ first) (absent' : c ∉ first')
    (same : first ++ c :: rest = first' ++ c :: rest') : first = first' ∧ rest = rest' := by
  have other {part : Text} (none_ : c ∉ part) : ∀ a ∈ part, (a != c) = true :=
    fun a member => bne_iff_ne.mpr fun equal => none_ (equal ▸ member)
  have mark : ∃ a ∈ [c], (a != c) = false := ⟨c, List.mem_singleton_self c, by simp⟩
  exact append_mark_inj (other absent) (other absent') mark same

private theorem absent {accepts : Char → Bool} {c : Char} (other : accepts c = false) {part : Text}
    (inside : ∀ a ∈ part, accepts a = true) : c ∉ part := fun member => by
  have accepted := inside c member
  rw [other] at accepted
  cases accepted

private theorem fits_one {item : Repeated Char} (one : item.most = some 1) (least : item.least = 1) {first : Text}
    (fits : item.Fits first) : ∃ c, first = [c] ∧ item.accepts c = true := by
  obtain ⟨inside, enough, few⟩ := fits
  obtain ⟨c, rfl⟩ := List.length_eq_one_iff.mp (Nat.le_antisymm (few 1 one) (least ▸ enough))
  exact ⟨c, rfl, inside c (List.mem_singleton_self c)⟩

variable (line : Line)

def found : List (Option Text) := [some line.seconds, some line.micros, line.flags.getLast?.map ([·]), some line.msg]

private theorem splits_line (unbroken : line.Unbroken) : Splits pattern line.text (found line) := by
  have once {item : Repeated Char} (one : item.most = some 1) (least : item.least = 1) {c : Char}
      (accepted : item.accepts c = true) :
      item.Fits [c] := by
    refine ⟨List.forall_mem_singleton.mpr accepted, Nat.le_of_eq least, fun most given => ?_⟩
    rw [one] at given
    cases given
    exact Nat.le_refl 1
  have many {item : Repeated Char} (unbounded : item.most = none) (least : item.least = 1) {part : Text}
      (part_ : part ≠ [] ∧ ∀ c ∈ part, item.accepts c = true) : item.Fits part := by
    refine ⟨part_.2, least ▸ List.length_pos_iff.mpr part_.1, fun most given => ?_⟩
    rw [unbounded] at given
    cases given
  refine ⟨line.seconds, '.' :: line.micros ++ ' ' :: line.flags ++ ' ' :: line.msg, _, by simp [Line.text],
    many rfl rfl line.seconds_digits, ?_, rfl⟩
  refine ⟨['.'], line.micros ++ ' ' :: line.flags ++ ' ' :: line.msg, _, by simp, once rfl rfl rfl, ?_, rfl⟩
  refine ⟨line.micros, ' ' :: line.flags ++ ' ' :: line.msg, _, by simp, many rfl rfl line.micros_digits, ?_, rfl⟩
  refine ⟨[' '], line.flags ++ ' ' :: line.msg, _, by simp, once rfl rfl rfl, ?_, rfl⟩
  refine ⟨line.flags, ' ' :: line.msg, _, rfl, many rfl rfl line.flags_digits, ?_, rfl⟩
  refine ⟨[' '], line.msg, _, rfl, once rfl rfl rfl, ?_, rfl⟩
  refine ⟨line.msg, [], _, (List.append_nil _).symm,
    ⟨fun c member => ?_, Nat.zero_le _, fun most given => by cases given⟩, ⟨rfl, rfl⟩, rfl⟩
  simp [unbroken c member]

theorem splits_only {groups : List (Option Text)} (splits : Splits pattern line.text groups) :
    line.Unbroken ∧ groups = found line := by
  obtain ⟨seconds, _, _, text, seconds_, splits, rfl⟩ := splits
  obtain ⟨point, _, _, rfl, point_, splits, rfl⟩ := splits
  obtain ⟨micros, _, _, rfl, micros_, splits, rfl⟩ := splits
  obtain ⟨blank, _, _, rfl, blank_, splits, rfl⟩ := splits
  obtain ⟨flags, _, _, rfl, flags_, splits, rfl⟩ := splits
  obtain ⟨gap, _, _, rfl, gap_, splits, rfl⟩ := splits
  obtain ⟨msg, _, _, rfl, msg_, ⟨rfl, rfl⟩, rfl⟩ := splits
  obtain ⟨any, rfl, -⟩ := fits_one rfl rfl point_
  obtain ⟨c, rfl, first⟩ := fits_one rfl rfl blank_
  obtain ⟨c', rfl, second⟩ := fits_one rfl rfl gap_
  obtain rfl : c = ' ' := by simpa using first
  obtain rfl : c' = ' ' := by simpa using second
  have seconds_blank : ' ' ∉ seconds := absent rfl seconds_.1
  have seconds_point : '.' ∉ seconds := absent rfl seconds_.1
  have micros_blank : ' ' ∉ micros := absent rfl micros_.1
  have micros_point : '.' ∉ micros := absent rfl micros_.1
  have time_blank : ' ' ∉ line.seconds ++ '.' :: line.micros := by
    simpa using ⟨absent rfl line.seconds_digits.2, absent rfl line.micros_digits.2⟩
  have text_ : (line.seconds ++ '.' :: line.micros) ++ ' ' :: (line.flags ++ ' ' :: line.msg) =
      seconds ++ any :: micros ++ ' ' :: (flags ++ ' ' :: msg) := by
    simpa [Line.text] using text
  -- a blank between the two numbers would leave no place for the point
  have any_blank : ' ' ≠ any := by
    rintro rfl
    have time : line.seconds ++ '.' :: line.micros = seconds :=
      (cut_at time_blank seconds_blank (by simpa using text_)).1
    exact seconds_point (time ▸ by simp)
  obtain ⟨time, rest⟩ := cut_at time_blank (by simpa using ⟨seconds_blank, any_blank, micros_blank⟩) text_
  obtain rfl : any = '.' := by
    have inside : '.' ∈ seconds ++ any :: micros := time ▸ by simp
    simp only [List.mem_append, List.mem_cons] at inside
    exact ((inside.resolve_left seconds_point).resolve_right micros_point).symm
  obtain ⟨rfl, rfl⟩ := cut_at (absent rfl line.seconds_digits.2) seconds_point time
  obtain ⟨rfl, rfl⟩ := cut_at (absent rfl line.flags_digits.2) (absent rfl flags_.1) rest
  exact ⟨fun c member => by simpa using msg_.1 c member, rfl⟩

/-! ### The flags -/

private theorem digit_value {d : Char} (digit : lowerHex d = true) :
    digitValue d < 16 ∧ d ≠ '-' ∧ d ≠ '+' ∧ UUID.hexDigit d = some (digitValue d) := by
  have code : d.toNat ∈ List.range' 48 10 ++ List.range' 97 6 := by
    have range : (48 ≤ d.toNat ∧ d.toNat ≤ 57) ∨ (97 ≤ d.toNat ∧ d.toNat ≤ 102) := by
      simp only [lowerHex, Bool.or_eq_true, Bool.and_eq_true, decide_eq_true_eq, Char.le_def,
        UInt32.le_iff_toNat_le] at digit
      exact digit
    rw [List.mem_append, List.mem_range'_1, List.mem_range'_1]
    omega
  have each : ∀ n ∈ List.range' 48 10 ++ List.range' 97 6, digitValue (Char.ofNat n) < 16 ∧ Char.ofNat n ≠ '-' ∧
      Char.ofNat n ≠ '+' ∧ UUID.hexDigit (Char.ofNat n) = some (digitValue (Char.ofNat n)) := by decide +kernel
  simpa only [Char.ofNat_toNat] using each d.toNat code

private theorem parseHex_digit {d : Char} {v : Nat} (minus : d ≠ '-') (plus : d ≠ '+')
    (digit : UUID.hexDigit d = some v)
    (small : v < 16) : parseHex [d] = some (BitVec.ofNat 32 v) := by
  unfold parseHex
  split
  next negative rest sign =>
    split at sign
    next signed => exact absurd (List.cons.inj signed).1 minus
    next signed => exact absurd (List.cons.inj signed).1 plus
    next =>
      cases sign
      have magnitude : Nat.ofDigits (16 : Int) [v] = v := by simp [Nat.ofDigits]
      have fits : -0x80000000 ≤ (v : Int) ∧ (v : Int) ≤ 0x7fffffff := by omega
      simp only [List.mapM_cons, List.mapM_nil, digit, Option.pure_def, Option.bind_eq_bind, Option.bind_some,
        List.cons_ne_nil,
        if_false, List.reverse_singleton, magnitude, Bool.false_eq_true, fits, and_self, if_true,
        BitVec.ofInt_natCast]

/-- The flags are their last digit and what stands before it. -/
theorem last_digit : ∃ before d, line.flags = before ++
    [d] ∧ lowerHex d = true ∧ line.word = 16 * number before + digitValue d := by
  obtain ⟨before, d, flags⟩ := (List.eq_nil_or_concat line.flags).resolve_left line.flags_digits.1
  rw [List.concat_eq_append] at flags
  refine ⟨before, d, flags, line.flags_digits.2 d (flags ▸ by simp), ?_⟩
  simp [Line.word, number, flags]

/-- One digit has none of the bits for a level, and all of the bits for the verbosity. -/
theorem digit_status : ∀ v < 16, logStatus (BitVec.ofNat 32 v) = .info ∧
    BitVec.ofNat 32 v &&& 0x0F = BitVec.ofNat 32 v ∧
    (if (BitVec.ofNat 32 v).toInt ≤ 4 then 4 else BitVec.ofNat 32 v) = BitVec.ofNat 32 (max 4 v) := by
  decide +kernel

private theorem level_info : line.level = .info ↔ ∀ i ∈ [4, 5, 6, 7], line.word.testBit i = false := by
  simp only [Line.level, List.forall_mem_cons, List.not_mem_nil, false_implies, implies_true, and_true]
  cases line.word.testBit 4 <;> cases line.word.testBit 5 <;> cases line.word.testBit 6 <;>
    cases line.word.testBit 7 <;> simp

private theorem calls_unbroken (unbroken : line.Unbroken) :
    ∃ more, logCalls line.text =
      some (.logMessageOpenVPN .info (BitVec.ofNat 32 line.verbosity) line.msg :: more) := by
  have match_ := groups_eq (splits_line line unbroken) fun other splits => (splits_only line splits).2
  obtain ⟨before, d, flags, digit, word⟩ := last_digit line
  obtain ⟨small, minus, plus, value⟩ := digit_value digit
  have parsed := parseHex_digit minus plus value small
  obtain ⟨status, low, raised⟩ := digit_status _ small
  have verbosity : logLevel (BitVec.ofNat 32 (digitValue d)) line.msg = BitVec.ofNat 32 line.verbosity := by
    have mask : line.word &&& 0x0F = digitValue d := by
      rw [show (0x0F : Nat) = 2 ^ 4 - 1 from rfl, Nat.and_two_pow_sub_one_eq_mod, word]
      omega
    rw [logLevel, low, raised, Line.verbosity, mask]
    split <;> rfl
  simp only [logCalls, match_, found, flags, List.getLast?_concat, Option.map_some, Option.getD_some, parsed,
    Option.bind_eq_bind,
    Option.bind_some, status, verbosity]
  exact ⟨_, rfl⟩

private theorem calls_broken (broken : ¬ line.Unbroken) : logCalls line.text = some
    [.logInfo ("P:".toList ++ line.text)] := by
  have never := groups_eq_none fun other splits => broken (splits_only line splits).1
  simp only [logCalls, never]

private theorem readLine_logged {s s' : State} {text : Text} (turn : readLine s text = some s') :
    ∃ calls, logCalls text = some calls ∧ s'.logged = s.logged ++ calls := by
  simp only [readLine, Option.bind_eq_bind, Option.bind_eq_some_iff, Option.pure_def, Option.some.injEq] at turn
  obtain ⟨calls, logged, rfl⟩ := turn
  exact ⟨calls, logged, rfl⟩

/-- A line is logged as its flags say exactly when they have none of the bits for a level. -/
theorem classified_exact (line : Line) (s : State) :
    line.Classified s ↔ line.Unbroken ∧ ∀ i ∈ [4, 5, 6, 7], line.word.testBit i = false := by
  rw [← level_info]
  constructor
  · rintro ⟨s', more, turn, logged⟩
    obtain ⟨calls, logged', after⟩ := readLine_logged turn
    rw [after, List.append_cancel_left_eq] at logged
    by_cases unbroken : line.Unbroken
    · obtain ⟨more', calls'⟩ := calls_unbroken line unbroken
      rw [calls', logged, Option.some.injEq, List.cons.injEq] at logged'
      exact ⟨unbroken, (LogCall.logMessageOpenVPN.inj logged'.1).1.symm⟩
    · rw [calls_broken line unbroken, logged] at logged'
      cases logged'
  · rintro ⟨unbroken, level⟩
    obtain ⟨more, calls⟩ := calls_unbroken line unbroken
    refine ⟨_, more, by rw [readLine, calls]; rfl, ?_⟩
    rw [level]

def fatal : Line where
  seconds := ['1']
  micros := ['2']
  flags := ['1', '0']
  msg := ['x']
  seconds_digits := ⟨List.cons_ne_nil _ _, List.forall_mem_singleton.mpr rfl⟩
  micros_digits := ⟨List.cons_ne_nil _ _, List.forall_mem_singleton.mpr rfl⟩
  flags_digits := ⟨List.cons_ne_nil _ _, List.forall_mem_cons.mpr ⟨rfl, List.forall_mem_singleton.mpr rfl⟩⟩
  flags_int := by decide
  msg_line := List.forall_mem_singleton.mpr (by decide)

theorem fatal_logged_as_info :
    fatal.word.testBit 4 = true ∧ (readLine {} fatal.text).map State.logged =
      some [.logMessageOpenVPN .info 0 ['x']] ∧ ¬ fatal.Classified {} := by
  have logged : (readLine {} fatal.text).map State.logged = some [.logMessageOpenVPN .info 0 ['x']] :=
    by decide +kernel
  refine ⟨by decide +kernel, logged, ?_⟩
  rintro ⟨s', more, turn, first⟩
  rw [turn, Option.map_some, first] at logged
  cases logged

end RRoadVpn.Proofs.LogFlags
