import RRoadVpn.ManagementChannel
import RRoadVpn.Proofs.WrittenLines

/-! What one command of the client enters into the answer of a query, and which passwords
of the app OpenVPN ends up with. -/

namespace RRoadVpn.Proofs.ToldPasswords
open JavaText (Text)
open Manage ManageQueries ReplyTexts EscapeRoundTrip

variable (callbacks : Callbacks)

/-! ### One command -/

/-- What a command can enter into the answer. -/
inductive Entry where
  | username (text : Text)
  | password (text : Text)
  deriving DecidableEq, Repr

def Entry.into : Entry → UserPass → UserPass
  | .username text, up => setUsername up text
  | .password text, up => setPassword up text

/-- What a command enters into the answer of a query in this mode. -/
def entry (mode : QueryMode) (string : Text) : Command → Option Entry
  | .username => if mode = .userPass then some (.username (strncpynt string userPassLen)) else none
  | .password =>
    if mode = .pass ∨ mode = .userPass then
      some (.password (strncpynt (if string = [] then blankUp else string) userPassLen))
    else none
  | .needok => if mode = .needOk then some (.password (strncpynt string userPassLen)) else none
  | .needstr => if mode = .needStr then some (.password (strncpynt string userPassLen)) else none
  | _ => none

def entered (mode : QueryMode) (asked : Option Text) : List Text → Option Entry
  | name :: type :: string :: _ => if asked = some type then (Command.ofText name).bind (entry mode string) else none
  | _ => none

def finalized (mode : QueryMode) (up : UserPass) : UserPass :=
  match mode with
  | .userPass => if up.username = [] ∨ up.password = [] then up else { up with defined := true }
  | .disabled => { up with defined := false }
  | _ => if up.password = [] then up else { up with defined := true }

theorem manUpFinalize_eq (man : Management) :
    manUpFinalize man = { man with upQuery := finalized man.upQueryMode man.upQuery } := by
  cases mode : man.upQueryMode with
  | userPass =>
    simp only [manUpFinalize, finalized, mode]
    by_cases name : man.upQuery.username = []
    · rw [if_pos name, if_pos (.inl name), ← mode]
    · by_cases pass : man.upQuery.password = []
      · rw [if_neg name, if_pos pass, if_pos (.inr pass), ← mode]
      · rw [if_neg name, if_neg pass, if_neg (not_or.mpr ⟨name, pass⟩)]
  | disabled => simp only [manUpFinalize, finalized, mode]
  | _ =>
    by_cases pass : man.upQuery.password = [] <;> simp only [manUpFinalize, finalized, mode, pass, if_true, if_false]
    rw [← mode]

/-- An entry and what `man_up_finalize` makes of it. -/
def applied (mode : QueryMode) (e : Option Entry) (up : UserPass) : UserPass :=
  match e with
  | some e => finalized mode (e.into up)
  | none => up

/-- What a step leaves of the query that is asked, and its entry. -/
structure Enters (e : Option Entry) (man after : Management) : Prop where
  mode : after.upQueryMode = man.upQueryMode
  type : after.upQueryType = man.upQueryType
  up : after.upQuery = applied man.upQueryMode e man.upQuery

private theorem manQueryUserPass_enters (type string : Text) (modes : List QueryMode) (prompt : Text)
    (dest : UserPass → Text → UserPass) (enter : Text → Entry) (same : ∀ up text, dest up text = (enter text).into up)
    (man : Management) :
    Enters
      (if man.upQueryType = some type then
        if man.upQueryMode ∈ modes then some (enter (strncpynt string userPassLen)) else none
      else none)
      man (manQueryUserPass type string (neededIn modes man) prompt dest man) := by
  rw [neededIn]
  simp only [List.contains_iff_mem]
  by_cases mode : man.upQueryMode ∈ modes
  · simp only [if_pos mode]
    cases asked : man.upQueryType with
    | none => exact ⟨rfl, rfl, by simp [manQueryUserPass, msg, applied]⟩
    | some type' =>
      by_cases equal : type' = type
      · simp only [manQueryUserPass, if_pos equal, if_pos (congrArg some equal), manUpFinalize_eq]
        exact ⟨rfl, rfl, by simp [applied, msg, same]⟩
      · simp only [manQueryUserPass, if_neg equal, if_neg fun both => equal (Option.some.inj both)]
        exact ⟨rfl, rfl, rfl⟩
  · simp only [if_neg mode, ite_self]
    exact ⟨rfl, rfl, rfl⟩

private theorem manSignal_enters (name : Text) (man : Management) : Enters none man (manSignal name man) := by
  rw [manSignal]
  split
  · exact ⟨rfl, rfl, rfl⟩
  · split <;> exact ⟨rfl, rfl, rfl⟩

private theorem manNetworkChange_enters (samenetwork : Bool) (man : Management) :
    Enters none man (manNetworkChange callbacks samenetwork man) := by
  rw [manNetworkChange]
  cases callbacks.networkChange with
  | none => exact ⟨rfl, rfl, rfl⟩
  | some networkChange =>
    dsimp only
    split
    · obtain ⟨mode, type, up⟩ := manSignal_enters "SIGUSR1".toList
        (msg ("PROTECTFD: fd '".toList ++ (toString (networkChange samenetwork)).toList ++
          "' sent to be protected".toList) man)
      exact ⟨mode, type, up⟩
    · exact ⟨rfl, rfl, rfl⟩

private theorem manHold_enters (cmd : Option Text) (man : Management) : Enters none man (manHold cmd man) := by
  cases cmd with
  | none => exact ⟨rfl, rfl, rfl⟩
  | some cmd =>
    rw [manHold]
    split <;> [skip; split <;> [skip; split]] <;> exact ⟨rfl, rfl, rfl⟩

theorem withTwo_enters {name : Text} {command : Command} (found : Command.ofText name = some command) (p : List Text)
    (man : Management) {run : Text → Text → Management → Management}
    (enters : ∀ type string,
    Enters (if man.upQueryType = some type then entry man.upQueryMode string command else none) man
      (run type string man)) :
    Enters (entered man.upQueryMode man.upQueryType (name :: p)) man (withTwo name p run man) := by
  cases p with
  | nil => exact ⟨rfl, rfl, rfl⟩
  | cons type p =>
    cases p with
    | nil => exact ⟨rfl, rfl, rfl⟩
    | cons string p =>
      simp only [entered, found, Option.bind_some, withTwo]
      exact enters type string

private theorem entered_none {mode : QueryMode} {asked : Option Text} {name : Text} (p : List Text)
    (silent : ∀ command, Command.ofText name = some command → ∀ string, entry mode string command = none) :
    entered mode asked (name :: p) = none := by
  cases p with
  | nil => rfl
  | cons type p =>
    cases p with
    | nil => rfl
    | cons string p =>
      simp only [entered]
      cases found : Command.ofText name with
      | none => simp
      | some command => simp [silent command found]

/-- One command, by what it enters. -/
theorem dispatch_enters (name : Text) (p : List Text) (man : Management) :
    Enters (entered man.upQueryMode man.upQueryType (name :: p)) man (manDispatchCommand callbacks name p man) := by
  cases found : Command.ofText name with
  | none =>
    have nothing : entered man.upQueryMode man.upQueryType (name :: p) = none :=
      entered_none p fun command there => by rw [found] at there; cases there
    rw [nothing]
    simp only [manDispatchCommand, found]
    exact ⟨rfl, rfl, rfl⟩
  | some command =>
    have nothing (silent : ∀ string, entry man.upQueryMode string command = none) :
        entered man.upQueryMode man.upQueryType (name :: p) = none :=
      entered_none p fun other there => by rw [found] at there; cases there; exact silent
    cases command with
    | username =>
      simp only [manDispatchCommand, found]
      refine withTwo_enters found p man fun type string => ?_
      have here := manQueryUserPass_enters type string [.userPass] "username".toList setUsername .username
          (fun _ _ => rfl) man
      simpa only [entry, manQueryUsername, List.mem_singleton] using here
    | password =>
      simp only [manDispatchCommand, found]
      refine withTwo_enters found p man fun type string => ?_
      have here :=
        manQueryUserPass_enters type (if string = [] then blankUp else string) [.pass, .userPass] "password".toList
        setPassword .password (fun _ _ => rfl) man
      simpa only [entry, manQueryPassword, List.mem_pair] using here
    | needok =>
      simp only [manDispatchCommand, found]
      refine withTwo_enters found p man fun type string => ?_
      have here := manQueryUserPass_enters type string [.needOk] "needok-confirmation".toList setPassword .password
        (fun _ _ => rfl) man
      simpa only [entry, manQueryNeedOk, List.mem_singleton] using here
    | needstr =>
      simp only [manDispatchCommand, found]
      refine withTwo_enters found p man fun type string => ?_
      have here := manQueryUserPass_enters type string [.needStr] "needstr-string".toList setPassword .password
        (fun _ _ => rfl) man
      simpa only [entry, manQueryNeedStr, List.mem_singleton] using here
    | signal =>
      rw [nothing fun _ => rfl]
      simp only [manDispatchCommand, found]
      cases p with
      | nil => exact ⟨rfl, rfl, rfl⟩
      | cons sig p => exact manSignal_enters sig man
    | bytecount =>
      rw [nothing fun _ => rfl]
      simp only [manDispatchCommand, found]
      cases p <;> exact ⟨rfl, rfl, rfl⟩
    | version =>
      rw [nothing fun _ => rfl]
      simp only [manDispatchCommand, found]
      cases p <;> exact ⟨rfl, rfl, rfl⟩
    | networkChange =>
      rw [nothing fun _ => rfl]
      simp only [manDispatchCommand, found]
      exact manNetworkChange_enters callbacks _ man
    | hold =>
      rw [nothing fun _ => rfl]
      simp only [manDispatchCommand, found]
      exact manHold_enters p.head? man
    | pkSig =>
      rw [nothing fun _ => rfl]
      simp only [manDispatchCommand, found, manPkSig]
      split <;> exact ⟨rfl, rfl, rfl⟩
    | certificate =>
      rw [nothing fun _ => rfl]
      simp only [manDispatchCommand, found, manCertificate]
      split <;> exact ⟨rfl, rfl, rfl⟩
    | proxy =>
      rw [nothing fun _ => rfl]
      simp only [manDispatchCommand, found, manProxy]
      split <;> [skip; split] <;> exact ⟨rfl, rfl, rfl⟩
    | exit =>
      rw [nothing fun _ => rfl]
      simp only [manDispatchCommand, found]
      exact ⟨rfl, rfl, rfl⟩

/-- What a line enters; a line of a signature enters nothing. -/
def lineEntry (man : Management) (line : Text) : Option Entry :=
  match man.inExtra, Options.parseLine .standard line with
  | none, .ok ps => entered man.upQueryMode man.upQueryType ps
  | _, _ => none

theorem processLine_enters (man : Management) (line : Text) :
    Enters (lineEntry man line) man (processLine callbacks man line) := by
  cases extra : man.inExtra with
  | some lines =>
    simp only [processLine, extra, lineEntry]
    split
    · rw [inExtraDispatch]
      cases man.inExtraCmd <;> exact ⟨rfl, rfl, rfl⟩
    · exact ⟨rfl, rfl, rfl⟩
  | none =>
    simp only [processLine, extra, lineEntry, manProcessCommand]
    cases read : Options.parseLine .standard line with
    | error e => exact ⟨rfl, rfl, rfl⟩
    | ok ps =>
      cases ps with
      | nil => exact ⟨rfl, rfl, rfl⟩
      | cons name p =>
        obtain ⟨mode, type, up⟩ := dispatch_enters callbacks name p (inExtraReset man)
        exact ⟨mode, type, up⟩

/-! ### A password -/

/-- The password that `management_query_user_pass` returns. -/
def told (up : UserPass) : Text := if up.password = blankUp then [] else up.password

private theorem password_entered {man : Management} {type value : Text} (h : Typed "password".toList type)
    (asked : man.upQueryType = some type) (mode : man.upQueryMode = .pass) (extra : man.inExtra = none)
    (fresh : man.upQuery = {}) {x : Text} {more : List Text}
    (read : heard "password".toList type value = .ok ("password".toList :: type :: x :: more)) :
    (processLine callbacks man (received (typed "password".toList type ++ VpnProfile.escape value))).upQuery =
      { defined := true, password := if x = [] then blankUp else x.take 127 } := by
  have command : Command.ofText "password".toList = some .password := by decide
  have blank : blankUp.take 127 = blankUp ∧ blankUp ≠ [] := by decide
  rw [received_typed h, (processLine_enters callbacks man _).up]
  rw [heard] at read
  simp only [lineEntry, extra, read, asked, mode, entered, command, if_true, Option.bind_some, entry, true_or,
    strncpynt,
    userPassLen, applied, Entry.into, setPassword, fresh]
  by_cases empty : x = []
  · simp [empty, finalized, blank]
  · have some_ : x.take 127 ≠ [] := by simpa using empty
    simp [empty, finalized, some_]

/-- After a query for a password, OpenVPN takes the password of the app as it is exactly
when it fits and is not the text for an empty one. -/
theorem password_told_iff {man : Management} {type value : Text} (h : Typed "password".toList type)
    (asked : man.upQueryType = some type) (mode : man.upQueryMode = .pass) (extra : man.inExtra = none)
    (fresh : man.upQuery = {}) :
    let up := (processLine callbacks man (received (typed "password".toList type ++ VpnProfile.escape value))).upQuery
    up.defined = true ∧ told up = bytesOf value ↔ Fits value ∧ value ≠ blankUp := by
  have ascii : (blankUp.all fun c => decide (c.toNat < 128)) = true := by decide
  have plain : bytesOf blankUp = blankUp := bytesOf_text (by simpa using ascii)
  have short : blankUp ≠ [] := by decide
  constructor
  · rintro ⟨defined, same⟩
    cases read : heard "password".toList type value with
    | error e =>
      rw [heard] at read
      rw [received_typed h, (processLine_enters callbacks man _).up, lineEntry, extra, read, fresh] at defined
      cases defined
    | ok ps =>
      obtain ⟨more, rfl⟩ := heard_typed h read
      cases more with
      | nil =>
        rw [heard] at read
        rw [received_typed h, (processLine_enters callbacks man _).up, lineEntry, extra, read, fresh] at defined
        cases defined
      | cons x more =>
        rw [password_entered callbacks h asked mode extra fresh read, told] at same
        by_cases nonempty : value = []
        · subst nonempty
          exact ⟨⟨by simp, by decide, by simp [Bare]⟩, short.symm⟩
        · have bytes : bytesOf value ≠ [] := fun none => nonempty (bytesOf_eq_nil.mp none)
          have blank : ¬ (if x = [] then blankUp else x.take 127) = blankUp := by
            intro blank
            rw [if_pos blank] at same
            exact bytes same.symm
          rw [if_neg blank] at same
          have some_ : x ≠ [] := fun none => blank (by rw [if_pos none])
          simp only [if_neg some_] at same blank
          refine ⟨fits_of_heard h nonempty read same, fun equal => blank ?_⟩
          rw [same, equal, plain]
  · rintro ⟨fits, other⟩
    have read := heard_fits h fits
    rw [password_entered callbacks h asked mode extra fresh read, told]
    refine ⟨rfl, ?_⟩
    have brief : (bytesOf value).take 127 = bytesOf value :=
      List.take_of_length_le (by rw [length_bytesOf]; exact fits.short)
    by_cases nonempty : value = []
    · subst nonempty
      simp
    · have bytes : bytesOf value ≠ [] := fun none => nonempty (bytesOf_eq_nil.mp none)
      have differs : bytesOf value ≠ blankUp := by
        intro equal
        refine other (bytesOf_injective ?_)
        rw [equal, plain]
      simp only [if_neg bytes, brief, if_neg differs]

/-- A password with a blank, which is quoted. -/
theorem password_told_iff_key :
    let up := (processLine {} { upQueryMode := .pass, upQueryType := some "Private Key".toList }
      (received (typed "password".toList "Private Key".toList ++ VpnProfile.escape ['a', ' ', 'b']))).upQuery
    up.defined = true ∧ told up = bytesOf ['a', ' ', 'b'] ↔ Fits ['a', ' ', 'b'] ∧ ['a', ' ', 'b'] ≠ blankUp :=
  password_told_iff {} (WrittenLines.typed_of_check (by decide)) rfl rfl rfl rfl

end RRoadVpn.Proofs.ToldPasswords
