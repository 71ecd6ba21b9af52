import Mathlib.Data.List.TakeWhile
import Mathlib.Tactic.FinCases
import RRoadVpn.ManagementChannel
import RRoadVpn.Proofs.EscapeRoundTrip
import RRoadVpn.Proofs.Tokenizers

/-! What OpenVPN's reader makes of a command that carries a value from the app: a name,
a type between single quotes, and the escaped value. -/

namespace RRoadVpn.Proofs.ReplyTexts
open Library LineEffects EscapeRoundTrip Options
open JavaText (Text)

/-! ### Reading under the bounds -/

/-- The parameters that are complete stay. -/
theorem parseChar_grows (limits : Limits) (s : Line) (c : Char) :
    (∀ after, parseChar limits s c = .next after → s.p <+: after.p) ∧
    ∀ ps, parseChar limits s c = .stop (.ok ps) → s.p <+: ps := by
  obtain ⟨state, backslash, parm, p⟩ := s
  constructor
  · intro after fed
    unfold parseChar store at fed
    cases read : readChar space '\x00' state backslash c <;> rw [read] at fed <;>
      grind [List.prefix_refl, List.prefix_append]
  · intro ps fed
    unfold parseChar store finish at fed
    cases read : readChar space '\x00' state backslash c <;> rw [read] at fed <;>
      grind [List.prefix_refl, List.prefix_append]

private theorem passes_grows {limits : Limits} {s final : Line} {text : Text}
    (passes : Passes (parseChar limits) s text final) :
    s.p <+: final.p := by
  induction passes with
  | nil => exact List.prefix_refl _
  | cons fed _ ih => exact ((parseChar_grows limits _ _).1 _ fed).trans ih

theorem scan_grows (limits : Limits) (line : Text) {s : Line} {ps : List Text}
    (read : scan (parseChar limits) finish s line = .ok ps) : s.p <+: ps := by
  induction line generalizing s with
  | nil =>
    rw [scan_nil, finish] at read
    split at read <;> cases read
    exact List.prefix_refl _
  | cons c line ih =>
    cases fed : parseChar limits s c with
    | next after =>
      rw [scan_next fed] at read
      exact ((parseChar_grows limits s c).1 after fed).trans (ih read)
    | stop result =>
      rw [scan_stop fed] at read
      subst read
      exact (parseChar_grows limits s c).2 ps fed

section Members

variable {allowed : Char → Prop}

def Within (allowed : Char → Prop) (s : Line) : Prop :=
  (∀ parm ∈ s.p, ∀ c ∈ parm, allowed c) ∧ ∀ c ∈ s.parm, allowed c

private theorem store_within (limits : Limits) {s : Line} (within : Within allowed s) {out : Char}
    (char : out ≠ '\x00' → allowed out) :
    (∀ after, store limits out s = .next after → Within allowed after) ∧
      ∀ ps, store limits out s = .stop (.ok ps) → ∀ parm ∈ ps, ∀ c ∈ parm, allowed c := by
  obtain ⟨state, backslash, parm, p⟩ := s
  obtain ⟨done, open_⟩ := within
  have longer : out ≠ '\x00' → ∀ c ∈ parm ++ [out], allowed c := by
    intro real c member
    rcases List.mem_append.mp member with old | new
    · exact open_ c old
    · rw [List.mem_singleton.mp new]
      exact char real
  constructor
  · intro after fed
    unfold store at fed
    grind [Within]
  · intro ps fed
    unfold store finish at fed
    grind

private theorem parseChar_within (limits : Limits) {s : Line} (within : Within allowed s) {c : Char}
    (char : c ≠ '\x00' → allowed c) :
    (∀ after, parseChar limits s c = .next after → Within allowed after) ∧
      ∀ ps, parseChar limits s c = .stop (.ok ps) → ∀ parm ∈ ps, ∀ x ∈ parm, allowed x := by
  obtain ⟨state, backslash, parm, p⟩ := s
  have closed : Within allowed { state := .initial, backslash := false, parm := [], p := p ++ [parm] } := by
    refine ⟨fun done member => ?_, by simp⟩
    rcases List.mem_append.mp member with old | new
    · exact within.1 done old
    · rw [List.mem_singleton.mp new]
      exact within.2
  unfold parseChar
  split
  · exact store_within limits (s := ⟨state, true, parm, p⟩) within (fun real => absurd rfl real)
  · cases read : readChar space '\x00' state backslash c with
    | comment =>
      refine ⟨fun after fed => (by cases fed), fun ps fed => ?_⟩
      unfold finish at fed
      cases state <;> cases fed
      exact within.1
    | done => exact store_within limits closed (fun real => absurd rfl real)
    | reading next out =>
      have real : out ≠ '\x00' → allowed out := by
        intro real
        have same : out = c := by
          unfold readChar at read
          grind
        rw [same] at real ⊢
        exact char real
      have here := store_within limits (s := ⟨next, false, parm, p⟩) within real
      dsimp only
      split
      · exact ⟨fun after fed => (by cases fed), fun ps fed => (by cases fed)⟩
      · exact here

/-- A parameter has no characters but those of the line. -/
theorem scan_within (limits : Limits) (line : Text) (inside : ∀ c ∈ line, c ≠ '\x00' → allowed c) {s : Line}
    (within : Within allowed s) {ps : List Text} (read : scan (parseChar limits) finish s line = .ok ps) :
    ∀ parm ∈ ps, ∀ c ∈ parm, allowed c := by
  induction line generalizing s with
  | nil =>
    rw [scan_nil, finish] at read
    split at read <;> cases read
    exact within.1
  | cons c line ih =>
    obtain ⟨here, later⟩ := List.forall_mem_cons.mp inside
    cases fed : parseChar limits s c with
    | next after =>
      rw [scan_next fed] at read
      exact ih later ((parseChar_within limits within here).1 after fed) read
    | stop result =>
      rw [scan_stop fed] at read
      subst read
      exact (parseChar_within limits within here).2 ps fed

end Members

private theorem parseChar_parm {s after : Line} {c : Char} (char : c ≠ '\x00')
    (fed : parseChar .unlimited s c = .next after) :
    after.parm.length ≤ s.parm.length + 1 := by
  rw [parseChar_effect s char] at fed
  cases found : effect Options.space s.state s.backslash c <;> rw [found] at fed <;> cases fed <;> simp

/-- What the unbounded reader passes through, the bounded one passes through while it is short. -/
theorem passes_standard {s final : Line} {text : Text} (passes : Passes (parseChar .unlimited) s text final)
    (clean : ∀ c ∈ text, c ≠ '\x00') (few : final.p.length < 16) (short : s.parm.length + text.length ≤ 256) :
    Passes (parseChar .standard) s text final := by
  induction passes with
  | nil => exact .nil _
  | @cons s c middle rest final fed after ih =>
    obtain ⟨char, clean⟩ := List.forall_mem_cons.mp clean
    have grown := (passes_grows after).length_le
    have here := ((parseChar_grows .unlimited s c).1 middle fed).length_le
    have longer := parseChar_parm char fed
    rw [List.length_cons] at short
    refine .cons ?_ (ih clean few (by omega))
    rw [Tokenizers.parseChar_standard s char (by omega) (by omega), if_neg, fed]
    rintro ⟨closes, last⟩
    rw [parseChar_effect s char, closes] at fed
    cases fed
    simp only [List.length_append, List.length_singleton] at grown
    omega

/-! ### Bytes as characters -/

def bytesOf (t : Text) : Text := ManRead.chars (Utf8.encode t)

def received (t : Text) : Text := ManRead.chars ((Utf8.encode t).filter ManRead.kept)

@[simp] theorem bytesOf_nil : bytesOf [] = [] := rfl

private theorem bytesOf_append (first second : Text) :
    bytesOf (first ++ second) = bytesOf first ++ bytesOf second := by
  simp [bytesOf, ManRead.chars]

theorem received_append (first second : Text) : received (first ++ second) = received first ++ received second := by
  simp [received, ManRead.chars]

private theorem bytesOf_cons (c : Char) (t : Text) :
    bytesOf (c :: t) = bytesOf [c] ++ bytesOf t := bytesOf_append [c] t

private theorem char_byte (b : UInt8) : (Char.ofNat b.toNat).toNat = b.toNat := by
  have small : b.toNat < 256 := b.toNat_lt
  have valid : b.toNat.isValidChar := .inl (by omega)
  rw [Char.ofNat, dif_pos valid]
  rfl

theorem bytesOf_injective {first second : Text} (same : bytesOf first = bytesOf second) : first = second := by
  refine Utf8.encode_inj ((List.map_injective_iff.mpr fun b b' equal => ?_) same)
  rw [← UInt8.toNat_inj, ← char_byte b, ← char_byte b', equal]

private theorem bytesOf_ascii {c : Char} (ascii : c.toNat < 128) : bytesOf [c] = [c] := by
  have encoded : String.utf8EncodeChar c = [UInt8.ofNat c.toNat] := by
    rw [String.utf8EncodeChar]
    exact if_pos (Nat.le_of_lt_succ ascii)
  have back : (UInt8.ofNat c.toNat).toNat = c.toNat := by
    rw [UInt8.toNat_ofNat']
    omega
  rw [bytesOf, Utf8.encode_cons, Utf8.encode_nil, List.append_nil, encoded, ManRead.chars, List.map_singleton, back,
    Char.ofNat_toNat]

private theorem bytesOf_other {c : Char} (other : 128 ≤ c.toNat) : ∀ x ∈ bytesOf [c], 128 ≤ x.toNat := by
  have large : ¬ c.val.toNat ≤ 0x7f := Nat.not_le.mpr other
  have bytes : ∀ b ∈ String.utf8EncodeChar c, 128 ≤ b.toNat := by
    intro b member
    simp only [String.utf8EncodeChar, large, if_false] at member
    split at member
    · fin_cases member <;> simp <;> omega
    · split at member <;> fin_cases member <;> simp <;> omega
  intro x member
  rw [bytesOf, Utf8.encode_cons, Utf8.encode_nil, List.append_nil, ManRead.chars] at member
  obtain ⟨b, inside, rfl⟩ := List.mem_map.mp member
  rw [char_byte]
  exact bytes b inside

theorem bytesOf_text {t : Text} (ascii : ∀ c ∈ t, c.toNat < 128) : bytesOf t = t := by
  induction t with
  | nil => rfl
  | cons c t ih =>
    obtain ⟨here, later⟩ := List.forall_mem_cons.mp ascii
    rw [bytesOf_cons, bytesOf_ascii here, ih later, List.singleton_append]

/-- What holds of every character beyond ASCII holds of a text when it holds of its bytes. -/
theorem forall_bytesOf {property : Char → Prop} (beyond : ∀ c : Char, 128 ≤ c.toNat → property c) (t : Text) :
    (∀ x ∈ bytesOf t, property x) ↔ ∀ c ∈ t, property c := by
  induction t with
  | nil => simp
  | cons c t ih =>
    rw [bytesOf_cons, List.forall_mem_append, List.forall_mem_cons, ih]
    refine and_congr_left fun _ => ?_
    by_cases ascii : c.toNat < 128
    · rw [bytesOf_ascii ascii, List.forall_mem_singleton]
    · have other : 128 ≤ c.toNat := Nat.le_of_not_lt ascii
      exact iff_of_true (fun x member => beyond x (bytesOf_other other x member)) (beyond c other)

private theorem ne_of_beyond {c d : Char} (beyond : 128 ≤ c.toNat) (ascii : d.toNat < 128) : c ≠ d := by
  rintro rfl
  omega

theorem bytesOf_eq_nil {t : Text} : bytesOf t = [] ↔ t = [] := by
  refine ⟨fun empty => ?_, fun empty => by rw [empty]; rfl⟩
  cases t with
  | nil => rfl
  | cons c t =>
    obtain ⟨b, inner, encoded, -⟩ := Utf8.utf8EncodeChar_cons c
    rw [bytesOf, Utf8.encode_cons, encoded] at empty
    cases empty

private theorem bytesOf_head (t : Text) {c : Char} (ascii : c.toNat < 128) :
    (bytesOf t).head? = some c ↔ t.head? = some c := by
  cases t with
  | nil => simp
  | cons d t =>
    rw [bytesOf_cons, List.head?_cons, Option.some.injEq]
    by_cases first : d.toNat < 128
    · rw [bytesOf_ascii first, List.singleton_append, List.head?_cons, Option.some.injEq]
    · have other : 128 ≤ d.toNat := Nat.le_of_not_lt first
      refine iff_of_false ?_ (ne_of_beyond other ascii)
      obtain ⟨x, rest, front⟩ := List.exists_cons_of_ne_nil
        (fun empty => List.cons_ne_nil d [] (bytesOf_eq_nil.mp empty) : bytesOf [d] ≠ [])
      rw [front, List.cons_append, List.head?_cons, Option.some.injEq]
      exact ne_of_beyond (bytesOf_other other x (by rw [front]; exact List.mem_cons_self)) ascii

/-! ### Escaped values -/

private theorem special_ascii {c : Char} (special : Special c) : c.toNat < 128 := by
  rcases special with rfl | rfl | rfl <;> decide

private theorem escapeChar_ascii {c : Char} (ascii : c.toNat < 128) : ∀ x ∈ escapeChar c, x.toNat < 128 := by
  unfold escapeChar
  split
  · simp
  · split
    · simp
    · split
      · simp
      · simpa using ascii

private theorem bytesOf_escapeChar (c : Char) : bytesOf (escapeChar c) = (bytesOf [c]).flatMap escapeChar := by
  by_cases ascii : c.toNat < 128
  · rw [bytesOf_ascii ascii, List.flatMap_singleton, bytesOf_text (escapeChar_ascii ascii)]
  · have plain : ∀ x : Char, 128 ≤ x.toNat → escapeChar x = [x] := by
      intro x beyond
      simp [escapeChar, ne_of_beyond beyond (d := '\\') (by decide), ne_of_beyond beyond (d := '"') (by decide),
        ne_of_beyond beyond (d := '\n') (by decide)]
    have other : 128 ≤ c.toNat := Nat.le_of_not_lt ascii
    rw [plain c other]
    have same : ∀ t : Text, (∀ x ∈ t, 128 ≤ x.toNat) → t.flatMap escapeChar = t := by
      intro t beyond
      induction t with
      | nil => rfl
      | cons x t ih =>
        obtain ⟨here, later⟩ := List.forall_mem_cons.mp beyond
        rw [List.flatMap_cons, plain x here, ih later, List.singleton_append]
    exact (same _ (bytesOf_other other)).symm

private theorem bytesOf_flatMap (t : Text) : bytesOf (t.flatMap escapeChar) = (bytesOf t).flatMap escapeChar := by
  induction t with
  | nil => rfl
  | cons c t ih =>
    rw [List.flatMap_cons, bytesOf_append, bytesOf_escapeChar, ih, ← List.flatMap_append, ← bytesOf_cons]

private theorem bare_bytesOf (t : Text) : Bare (bytesOf t) ↔ Bare t := by
  rw [Bare, Bare, ne_eq, ne_eq, bytesOf_eq_nil, forall_bytesOf]
  intro c beyond
  exact ⟨fun special => absurd (special_ascii special) (by omega), ne_of_beyond beyond (by decide),
    ne_of_beyond beyond (by decide), ne_of_beyond beyond (by decide)⟩

/-- Escaping does not look at the bytes beyond ASCII. -/
theorem bytesOf_escape (t : Text) : bytesOf (VpnProfile.escape t) = VpnProfile.escape (bytesOf t) := by
  by_cases bare : Bare t
  · rw [escape_bare bare, escape_bare ((bare_bytesOf t).mpr bare)]
  · rw [escape_quoted bare, escape_quoted fun quoted => bare ((bare_bytesOf t).mp quoted), bytesOf_append,
      bytesOf_append,
      bytesOf_flatMap, bytesOf_ascii (by decide)]

/-! ### What the command line keeps -/

def printable (c : Char) : Prop := 32 ≤ c.toNat ∧ c.toNat ≠ 127

instance : DecidablePred printable := fun c => inferInstanceAs (Decidable (32 ≤ c.toNat ∧ c.toNat ≠ 127))

theorem printable_beyond (c : Char) (beyond : 128 ≤ c.toNat) : printable c := ⟨by omega, by omega⟩

theorem kept_iff (b : UInt8) : ManRead.kept b = true ↔ printable (Char.ofNat b.toNat) ∨ b = 10 := by
  have del : b = 127 ↔ b.toNat = 127 := by rw [← UInt8.toNat_inj]; rfl
  have line : b = 10 ↔ b.toNat = 10 := by rw [← UInt8.toNat_inj]; rfl
  have zero : b = 0 ↔ b.toNat = 0 := by rw [← UInt8.toNat_inj]; rfl
  have print : (32 : UInt8) ≤ b ↔ 32 ≤ b.toNat := UInt8.le_iff_toNat_le
  simp only [ManRead.kept, printable, char_byte, Bool.and_eq_true, Bool.or_eq_true, bne_iff_ne, ne_eq, beq_iff_eq,
    decide_eq_true_eq, del, line, zero, print]
  omega

/-- Text without control characters loses nothing on the way. -/
theorem received_printable {t : Text} (clean : ∀ c ∈ t, printable c) : received t = bytesOf t := by
  have bytes := (forall_bytesOf printable_beyond t).mpr clean
  rw [received, List.filter_eq_self.mpr]
  · rfl
  · intro b member
    exact (kept_iff b).mpr (.inl (bytes _ (List.mem_map_of_mem member)))

/-- And no control character arrives but a line end. -/
theorem printable_received {t : Text} (line : '\n' ∉ t) : ∀ x ∈ received t, printable x := by
  have bytes := (forall_bytesOf (fun c beyond => ne_of_beyond beyond (d := '\n') (by decide)) t).mpr
    fun c member same => line (same ▸ member)
  intro x member
  obtain ⟨b, inside, rfl⟩ := List.mem_map.mp member
  obtain ⟨there, keeps⟩ := List.mem_filter.mp inside
  refine ((kept_iff b).mp keeps).resolve_right ?_
  rintro rfl
  exact bytes _ (List.mem_map_of_mem there) rfl

theorem printable_ne {c d : Char} (print : printable c) (control : ¬ printable d) :
    c ≠ d := fun same => control (same ▸ print)

private theorem mem_escape {t : Text} {c : Char} (member : c ∈ VpnProfile.escape t) :
    c ∈ t ∧ c ≠ '\n' ∨ c = '"' ∨ c = '\\' ∨ c = 'n' := by
  by_cases bare : Bare t
  · rw [escape_bare bare] at member
    exact .inl ⟨member, fun same => (bare.2 c member).1 (.inr (.inr same))⟩
  · rw [escape_quoted bare, List.mem_append, List.mem_append, List.mem_singleton] at member
    rcases member with (quote | inside) | quote
    · exact .inr (.inl quote)
    · obtain ⟨d, there, here⟩ := List.mem_flatMap.mp inside
      unfold escapeChar at here
      grind
    · exact .inr (.inl quote)

theorem line_not_mem_escape (t : Text) : '\n' ∉ VpnProfile.escape t := by
  intro member
  rcases mem_escape member with ⟨-, line⟩ | quote | slash | letter
  · exact line rfl
  · exact absurd quote (by decide)
  · exact absurd slash (by decide)
  · exact absurd letter (by decide)

theorem printable_escape {t : Text} (clean : ∀ c ∈ t, printable c) : ∀ c ∈ VpnProfile.escape t, printable c := by
  intro c member
  rcases mem_escape member with ⟨inside, -⟩ | rfl | rfl | rfl
  · exact clean c inside
  all_goals decide

/-! ### Commands with a value -/

/-- The name and the type of a command, with what stands around them. -/
def typed (name type : Text) : Text := name ++ " '".toList ++ type ++ "' ".toList

private theorem passes_typed {name type : Text} (nonempty : name ≠ []) (plain : ∀ c ∈ name, Plain c)
    (quoteless : ∀ c ∈ type, c ≠ '\x00' ∧ c ≠ '\'') :
    Passes (parseChar .unlimited) {} (typed name type) { p := [name, type] } := by
  have opened : Passes (parseChar .unlimited) { p := [name] } ['\''] { state := .readingSquotedParm, p := [name] } :=
    .cons rfl (.nil _)
  have inside : Passes (parseChar .unlimited) { state := .readingSquotedParm, p := [name] } type
      { state := .readingSquotedParm, parm := type, p := [name] } := by
    refine passes_stored (s := { state := .readingSquotedParm, p := [name] }) rfl fun c member => ?_
    obtain ⟨char, apostrophe⟩ := quoteless c member
    exact ⟨char, by simp [effect, stored, apostrophe]⟩
  have closed : Passes (parseChar .unlimited) { state := .readingSquotedParm, parm := type, p := [name] } ['\'', ' ']
      { p := [name, type] } := .cons rfl (.cons rfl (.nil _))
  have whole := (((passes_name nonempty plain).append opened).append inside).append closed
  have same : typed name type = name ++ [' '] ++ ['\''] ++ type ++ ['\'', ' '] := by simp [typed]
  rw [same]
  exact whole

private theorem typed_standard {name type : Text} (nonempty : name ≠ []) (plain : ∀ c ∈ name, Plain c)
    (quoteless : ∀ c ∈ type, c ≠ '\x00' ∧ c ≠ '\'') (short : (typed name type).length ≤ 256) :
    Passes (parseChar .standard) {} (typed name type) { p := [name, type] } := by
  refine passes_standard (passes_typed nonempty plain quoteless) ?_ (by simp) (by simpa using short)
  intro c member
  simp only [typed, List.mem_append] at member
  rcases member with ((inside | blank) | inside) | blank
  · exact (plain c inside).char
  · rintro rfl
    exact absurd blank (by decide)
  · exact (quoteless c inside).1
  · rintro rfl
    exact absurd blank (by decide)

def heard (name type value : Text) : LineResult := parseLine .standard
    (typed name type ++ received (VpnProfile.escape value))

/-- A name and a type that the reader gets past. -/
structure Typed (name type : Text) : Prop where
  nonempty : name ≠ []
  plain : ∀ c ∈ name, Plain c
  printable : ∀ c ∈ name ++ type, printable c
  ascii : ∀ c ∈ name ++ type, c.toNat < 128
  quoteless : '\'' ∉ type
  short : (typed name type).length ≤ 256

private theorem Typed.passes {name type : Text} (h : Typed name type) :
    Passes (parseChar .standard) {} (typed name type) { p := [name, type] } := by
  refine typed_standard h.nonempty h.plain (fun c member => ⟨?_, ?_⟩) h.short
  · exact printable_ne (h.printable c (List.mem_append_right _ member)) (by decide)
  · rintro rfl
    exact h.quoteless member

theorem typed_inside {name type : Text} (h : Typed name type) :
    ∀ c ∈ typed name type, printable c ∧ c.toNat < 128 := by
  have blanks : ∀ c ∈ [' ', '\''], printable c ∧ c.toNat < 128 :=
    List.forall_mem_cons.mpr ⟨by decide, List.forall_mem_singleton.mpr (by decide)⟩
  intro c member
  simp only [typed, List.mem_append] at member
  rcases member with ((front | blank) | back) | blank
  · exact ⟨h.printable c (List.mem_append_left _ front), h.ascii c (List.mem_append_left _ front)⟩
  · exact blanks c blank
  · exact ⟨h.printable c (List.mem_append_right _ back), h.ascii c (List.mem_append_right _ back)⟩
  · exact blanks c (List.mem_reverse.mp blank)

theorem received_typed {name type : Text} (h : Typed name type) (text : Text) :
    received (typed name type ++ text) = typed name type ++ received text := by
  rw [received_append, received_printable fun c member => (typed_inside h c member).1,
    bytesOf_text fun c member => (typed_inside h c member).2]

/-- However the value is read, name and type come first. -/
theorem heard_typed {name type value : Text} (h : Typed name type) {ps : List Text}
    (read : heard name type value = .ok ps) :
    [name, type] <+: ps := by
  rw [heard, parseLine, List.append_assoc, h.passes.scan] at read
  exact scan_grows .standard _ read

/-- A value that is read back: without control characters, not too long for the array it
is copied to, and not one written bare with a single quote in front. -/
structure Fits (value : Text) : Prop where
  printable : ∀ c ∈ value, printable c
  short : (Utf8.encode value).length ≤ 127
  quoteless : ¬ (Bare value ∧ value.head? = some '\'')

theorem length_bytesOf (t : Text) : (bytesOf t).length = (Utf8.encode t).length := List.length_map _

theorem space_printable {c : Char} (print : printable c) (blank : c ≠ ' ') : Options.space c = false := by
  have control : ∀ d : Char, ¬ printable d → c ≠ d := fun d => printable_ne print
  simp [Options.space, isspace, blank, control '\x00' (by decide), control '\t' (by decide), control '\n' (by decide),
    control '\x0b' (by decide), control '\x0c' (by decide), control '\r' (by decide)]

/-- A text that comes in escaped is read as the text, unless it is bare with a quote in front. -/
theorem reads_escaped {p : List Text} {w : Text} (clean : ∀ c ∈ w, printable c)
    (quoteless : ¬ (Bare w ∧ w.head? = some '\'')) :
    scan (parseChar .unlimited) finish { p := p } (VpnProfile.escape w ++ ['\x00']) = .ok (p ++ [w]) := by
  by_cases bare : Bare w
  · rw [escape_bare bare]
    obtain ⟨first, rest, rfl⟩ := List.exists_cons_of_ne_nil bare.1
    have blank : ∀ c ∈ first :: rest, Options.space c = false := fun c member =>
      space_printable (clean c member) (bare.2 c member).2.1
    obtain ⟨special, -, hash, semicolon⟩ := bare.2 first List.mem_cons_self
    simp only [Special, not_or] at special
    refine reads_plain ⟨blank first List.mem_cons_self, special.1, special.2.1, ?_, semicolon, hash⟩ fun c later => ?_
    · exact fun same => quoteless ⟨bare, by rw [same]; rfl⟩
    · have member := List.mem_cons_of_mem first later
      exact ⟨blank c member, fun slash => (bare.2 c member).1 (.inl slash)⟩
  · rw [escape_quoted bare]
    exact reads_quoted w fun c member =>
      ⟨printable_ne (clean c member) (by decide), printable_ne (clean c member) (by decide)⟩

theorem heard_fits {name type value : Text} (h : Typed name type) (fits : Fits value) :
    heard name type value = .ok [name, type, bytesOf value] := by
  have bytes := (forall_bytesOf printable_beyond value).mpr fits.printable
  have line : received (VpnProfile.escape value) = VpnProfile.escape (bytesOf value) := by
    rw [received_printable (printable_escape fits.printable), bytesOf_escape]
  have quoteless : ¬ (Bare (bytesOf value) ∧ (bytesOf value).head? = some '\'') := by
    rw [bare_bytesOf, bytesOf_head value (by decide)]
    exact fits.quoteless
  have names : ∀ c ∈ type, c ≠ '\x00' ∧ c ≠ '\'' := fun c member =>
    ⟨printable_ne (h.printable c (List.mem_append_right _ member)) (by decide),
      fun same => h.quoteless (same ▸ member)⟩
  have whole : readRest {} (typed name type ++ VpnProfile.escape (bytesOf value)) =
      .ok [name, type, bytesOf value] := by
    rw [readRest, List.append_assoc, (passes_typed h.nonempty h.plain names).scan]
    exact reads_escaped bytes quoteless
  have short := h.short
  have brief := fits.short
  rw [← length_bytesOf] at brief
  simp only [typed, List.length_append] at short
  rw [heard, line]
  refine Tokenizers.read_standard _ ?_ (fun _ => rfl) (by decide) whole (by simp) ?_
  · intro c member
    rcases List.mem_append.mp member with front | back
    · simp only [typed, List.mem_append] at front
      rcases front with ((inside | blank) | inside) | blank
      · exact (h.plain c inside).char
      · rintro rfl
        exact absurd blank (by decide)
      · exact (names c inside).1
      · rintro rfl
        exact absurd blank (by decide)
    · exact printable_ne (printable_escape bytes c back) (by decide)
  · intro parm member
    simp only [List.mem_cons, List.not_mem_nil, or_false] at member
    have quotes : " '".toList.length = 2 ∧ "' ".toList.length = 2 := by decide
    rcases member with rfl | rfl | rfl <;> omega

/-- A value read as something that begins with it fits. -/
theorem fits_of_heard {name type value x : Text} {more : List Text} (h : Typed name type) (nonempty : value ≠ [])
    (read : heard name type value = .ok (name :: type :: x :: more)) (same : x.take 127 = bytesOf value) :
    Fits value := by
  have state : Within printable { p := [name, type] } := by
    refine ⟨fun parm member c inside => ?_, by simp⟩
    simp only [List.mem_cons, List.not_mem_nil, or_false] at member
    rcases member with rfl | rfl
    · exact h.printable c (List.mem_append_left _ inside)
    · exact h.printable c (List.mem_append_right _ inside)
  rw [heard, parseLine, List.append_assoc, h.passes.scan] at read
  have arrived : ∀ c ∈ x, printable c := by
    refine scan_within .standard _ (fun c member char => ?_) state read x (by simp)
    rcases List.mem_append.mp member with inside | nul
    · exact printable_received (line_not_mem_escape value) c inside
    · exact absurd (List.mem_singleton.mp nul) char
  have clean : ∀ c ∈ value, printable c := by
    refine (forall_bytesOf printable_beyond value).mp fun c member => ?_
    rw [← same] at member
    exact arrived c (List.mem_of_mem_take member)
  have short : (bytesOf value).length ≤ 127 := by
    rw [← same, List.length_take]
    exact Nat.min_le_left _ _
  refine ⟨clean, by rwa [← length_bytesOf], ?_⟩
  rintro ⟨bare, quote⟩
  have bare' := (bare_bytesOf value).mpr bare
  have quote' := (bytesOf_head value (c := '\'') (by decide)).mpr quote
  rw [received_printable (printable_escape clean), bytesOf_escape, escape_bare bare'] at read
  obtain ⟨rest, begins⟩ : ∃ rest, bytesOf value = '\'' :: rest := by
    cases bytes : bytesOf value with
    | nil => exact absurd (bytesOf_eq_nil.mp bytes) nonempty
    | cons c rest =>
      rw [bytes] at quote'
      cases quote'
      exact ⟨rest, rfl⟩
  rw [begins] at read short same
  have chars : ∀ c ∈ rest, printable c := by
    have bytes := (forall_bytesOf printable_beyond value).mpr clean
    rw [begins] at bytes
    exact fun c member => bytes c (List.mem_cons_of_mem _ member)
  have opened : Passes
      (parseChar .standard) { p := [name, type] } ['\''] { state := .readingSquotedParm, p := [name, type] } :=
    .cons rfl (.nil _)
  -- The value is read as what stands before the next single quote.
  have inside (front : Text) (part : ∀ c ∈ front, c ∈ rest) (quoteless : '\'' ∉ front) (brief : front.length ≤ 127) :
      Passes (parseChar .standard) { state := .readingSquotedParm, p := [name, type] } front
        { state := .readingSquotedParm, parm := front, p := [name, type] } := by
    refine passes_standard (s := { state := .readingSquotedParm, p := [name, type] }) ?_ ?_ (by simp) ?_
    · refine passes_stored (s := { state := .readingSquotedParm, p := [name, type] }) rfl fun c member => ?_
      exact ⟨printable_ne (chars c (part c member)) (by decide),
        by simp [effect, stored, show c ≠ '\'' from fun equal => quoteless (equal ▸ member)]⟩
    · exact fun c member => printable_ne (chars c (part c member)) (by decide)
    · simp only [List.length_nil]
      omega
  have start : scan (parseChar .standard) finish { state := .readingSquotedParm, p := [name, type] }
      (rest ++ ['\x00']) =
      .ok (name :: type :: x :: more) := by
    rw [← read, ← opened.scan (rest ++ ['\x00'])]
    rfl
  rw [List.length_cons] at short
  by_cases closes : '\'' ∈ rest
  · obtain ⟨front, back, rfl, quoteless⟩ := List.eq_append_cons_of_mem closes
    have passed := (inside front (fun c member => List.mem_append_left _ member) quoteless
      (by rw [List.length_append] at short; omega)).append
      (.cons rfl (.nil _) : Passes
        (parseChar .standard) { state := .readingSquotedParm, parm := front, p := [name, type] }
        ['\''] { p := [name, type, front] })
    have parts : front ++ '\'' :: back ++ ['\x00'] = front ++ ['\''] ++ (back ++ ['\x00']) := by simp
    rw [parts, passed.scan] at start
    obtain ⟨_, equal⟩ := scan_grows .standard _ start
    simp only [List.cons_append, List.nil_append, List.cons.injEq, true_and] at equal
    rw [← equal.1] at same
    exact quoteless (List.mem_of_mem_take (by rw [same]; exact List.mem_cons_self))
  · have passed := inside rest (fun _ => id) closes (by omega)
    rw [passed.scan] at start
    exact absurd start (by simp [scan, parseChar, readChar, store, finish, Limits.reached, Limits.standard])

end RRoadVpn.Proofs.ReplyTexts
