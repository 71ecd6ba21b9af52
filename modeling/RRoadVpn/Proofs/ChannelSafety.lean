import RRoadVpn.Proofs.ChannelWrites
import RRoadVpn.Proofs.ToldPasswords

/-! No run of the channel gives OpenVPN an answer that the app wrote for something else: what
ends a query comes from one command of the app, for a query of that type, with a secret of
that kind. -/

namespace RRoadVpn.Proofs.ChannelSafety
open Library Manage ManageQueries ManagementChannel ReplyTexts WrittenLines ChannelWrites ToldPasswords CommandFraming CachedPasswords
open JavaText (Text)
open ManRead (kept chars bufLen readSize)
open ManagementReplies (Thread Surroundings credentialCommand)

variable {p : LoginProfile} {entered : Kind → Text → Prop}

/-! ### What a line of the app enters -/

/-- What can be entered into the answer of a query, by what was written. -/
inductive Told (p : LoginProfile) (entered : Kind → Text → Prop) (wrote : List Text)
    (mode : QueryMode) (type : Text) : Entry → Prop where
  | username {v string more} (asked : mode = .userPass) (secret : Secret p entered "username".toList type v)
    (written : credentialCommand "username".toList type v ∈ wrote)
    (read : heard "username".toList type v = .ok ("username".toList :: type :: string :: more)) :
    Told p entered wrote mode type (.username (strncpynt string userPassLen))
  | password {v string more} (asked : mode = .pass ∨ mode = .userPass)
    (secret : Secret p entered "password".toList type v)
    (written : credentialCommand "password".toList type v ∈ wrote)
    (read : heard "password".toList type v = .ok ("password".toList :: type :: string :: more)) :
    Told p entered wrote mode type (.password (strncpynt (if string = [] then blankUp else string) userPassLen))
  | needok {status} (asked : mode = .needOk) (answers : Answers type status)
    (written : NeedOk.needok type status ∈ wrote) :
    Told p entered wrote mode type (.password status)

private theorem Told.grow {wrote : List Text} {mode : QueryMode} {type : Text} {e : Entry}
    (told : Told p entered wrote mode type e)
    (more : List Text) : Told p entered (wrote ++ more) mode type e := by
  cases told with
  | username asked secret written read => exact .username asked secret (List.mem_append_left _ written) read
  | password asked secret written read => exact .password asked secret (List.mem_append_left _ written) read
  | needok asked answers written => exact .needok asked answers (List.mem_append_left _ written)

private theorem strncpynt_ne_nil {text : Text} (nonempty : text ≠ []) : strncpynt text userPassLen ≠ [] := by
  obtain ⟨c, text, rfl⟩ := List.exists_cons_of_ne_nil nonempty
  exact List.cons_ne_nil c _

private theorem Told.password_ne_nil {wrote : List Text} {mode : QueryMode} {type text : Text}
    (told : Told p entered wrote mode type (.password text)) : text ≠ [] := by
  cases told with
  | @password v string more asked secret written read =>
    refine strncpynt_ne_nil ?_
    split
    · decide
    next some_ => exact some_
  | needok asked answers written => exact answers.status.2.2.1

theorem entered_some {mode : QueryMode} {type : Text} {ps : List Text} {e : Entry}
    (enters : ToldPasswords.entered mode (some type) ps = some e) :
    ∃ name string more command, ps = name :: type :: string :: more ∧ Command.ofText name = some command ∧
      entry mode string command = some e := by
  rcases ps with _ | ⟨name, _ | ⟨type', _ | ⟨string, more⟩⟩⟩
  · cases enters
  · cases enters
  · cases enters
  · simp only [ToldPasswords.entered] at enters
    split at enters
    next same =>
      cases same
      obtain ⟨command, found, entry⟩ := Option.bind_eq_some_iff.mp enters
      exact ⟨name, string, more, command, rfl, found, entry⟩
    · cases enters

def answering : List String := ["username", "password", "needok", "needstr"]

private theorem answering_of_entry {mode : QueryMode} {name string : Text} {command : Command} {e : Entry}
    (found : Command.ofText name = some command) (enters : entry mode string command = some e) :
    name ∈ answering.map String.toList := by
  obtain ⟨known, there, rfl⟩ := Option.map_eq_some_iff.mp found
  have same : known.2.toList = name := by simpa using List.find?_some there
  have member := List.mem_of_find?_eq_some there
  have checked : ∀ known ∈ Command.all, known.2.toList ∈ answering.map String.toList ∨
      known.1 ∉ [Command.username, .password, .needok, .needstr] := by decide
  rw [← same]
  refine (checked known member).resolve_right fun other => other ?_
  generalize known.1 = command at enters
  cases command <;> first | decide | cases enters

def names : List String := ["username", "password", "needok", "proxy"] ++ others.map Prod.fst

private theorem Said.name {word tail : Text} (said : Said p entered word tail) : word ∈ names.map String.toList := by
  cases said with
  | credential secret => cases secret <;> decide
  | needok answers => decide
  | proxy line => decide
  | other known => exact List.mem_map_of_mem (List.mem_append_right _ (List.mem_map_of_mem known))

/-- Behind a begin of a signature no command has the name of an answer. -/
theorem front_nil {front word : Text} (command : word ∈ names.map String.toList)
    (answer : front ++ word ∈ answering.map String.toList) : front = [] := by
  have checked : ∀ answer ∈ answering.map String.toList, ∀ word ∈ names.map String.toList,
      word.isSuffixOf answer = true → word = answer := by decide
  have same := checked _ answer _ command (List.isSuffixOf_iff_suffix.mpr (List.suffix_append front word))
  exact List.append_left_eq_self.mp same.symm

private theorem told_of_line {wrote : List Text} (writes : ∀ w ∈ wrote, AppWrite p entered w) {line : Text}
    (is : IsLine '\n' wrote.flatten line) {ps : List Text}
    (read : Options.parseLine .standard (received line) = .ok ps)
    {mode : QueryMode} {type : Text} {e : Entry} (enters : ToldPasswords.entered mode (some type) ps = some e) :
    Told p entered wrote mode type e := by
  obtain ⟨name, string, more, command, rfl, found, entry_⟩ := entered_some enters
  rcases name_of_made (made_of_isLine writes is) read with none | ⟨front, word, tail, rfl, rfl, body, said, written⟩
  · cases none
  have nothing := front_nil (Said.name said) (answering_of_entry found entry_)
  subst nothing
  rw [List.nil_append] at read found
  cases said with
  | @credential _ needed value secret =>
    have whole : word ++ (" '".toList ++ needed ++ "' ".toList ++ VpnProfile.escape value) =
        typed word needed ++ VpnProfile.escape value := by simp only [typed, List.append_assoc]
    have sent : credentialCommand word needed value ∈ wrote := by
      simpa only [credentialCommand, List.append_assoc] using written
    rw [whole, received_typed secret.typed] at read
    obtain ⟨_, same⟩ := heard_typed secret.typed read
    obtain ⟨rfl, -⟩ := List.cons.inj (List.cons.inj same).2
    have here : heard word needed value = .ok (word :: needed :: string :: more) := read
    rcases secret.name with rfl | rfl
    · obtain rfl : command = .username := Option.some.inj (found.symm.trans (by decide))
      rw [entry] at entry_
      split at entry_
      next asked =>
        cases entry_
        exact .username asked secret sent here
      · cases entry_
    · obtain rfl : command = .password := Option.some.inj (found.symm.trans (by decide))
      rw [entry] at entry_
      split at entry_
      next asked =>
        cases entry_
        exact .password asked secret sent here
      · cases entry_
  | @needok request status answers =>
    obtain ⟨bare, plain, -, short⟩ := answers.status
    have ascii : bytesOf status = status := bytesOf_text fun c member => (bare.spec c member).ascii
    have quoteless : status.head? ≠ some '\'' :=
      fun quote => (bare.spec _ (List.mem_of_head? quote)).quoteless rfl
    have fits : Fits status :=
      ⟨fun c member => (bare.spec c member).printable, by rwa [← length_bytesOf, ascii], fun both => quoteless both.2⟩
    have whole : "needok".toList ++ (" '".toList ++ request ++ "' ".toList ++ status) =
        typed "needok".toList request ++ VpnProfile.escape status := by simp only [typed, plain, List.append_assoc]
    rw [whole, received_typed answers.typed] at read
    have same := (heard_fits answers.typed fits).symm.trans read
    simp only [Except.ok.injEq, List.cons.injEq, ascii, true_and] at same
    obtain ⟨rfl, rfl, -⟩ := same
    obtain rfl : command = .needok := Option.some.inj (found.symm.trans (by decide))
    rw [entry] at entry_
    split at entry_
    next asked =>
      cases entry_
      have brief : strncpynt status userPassLen = status := List.take_of_length_le short
      rw [brief]
      exact .needok asked answers (by rw [needok_eq]; exact written)
    · cases entry_
  | proxy line => exact absurd (answering_of_entry found entry_) (by decide)
  | @other word tail known =>
    have checked : ∀ known ∈ others, known.1.toList ∉ answering.map String.toList := by decide
    exact absurd (answering_of_entry found entry_) (checked _ known)

/-! ### A query -/

structure From (given : Entry → Prop) (up : UserPass) : Prop where
  username : up.username ≠ [] → given (.username up.username)
  password : up.password ≠ [] → given (.password up.password)
  defined : up.defined = true → up.password ≠ []

private theorem finalized_from {given : Entry → Prop} {up : UserPass} (from_ : From given up) (mode : QueryMode) :
    From given (finalized mode up) := by
  have keeps : (finalized mode up).username = up.username ∧ (finalized mode up).password = up.password := by
    unfold finalized
    split <;> [split; skip; split] <;> exact ⟨rfl, rfl⟩
  refine ⟨by rw [keeps.1]; exact from_.username, by rw [keeps.2]; exact from_.password, fun defined => ?_⟩
  rw [keeps.2]
  unfold finalized at defined
  split at defined
  · split at defined
    · exact from_.defined defined
    next complete => exact fun none => complete (.inr none)
  · cases defined
  · split at defined
    · exact from_.defined defined
    next complete => exact complete

private theorem applied_from {given : Entry → Prop} {up : UserPass} (from_ : From given up)
    (nonempty : ∀ text, given (.password text) → text ≠ []) {mode : QueryMode} {e : Option Entry}
    (enters : ∀ entry, e = some entry → given entry) : From given (applied mode e up) := by
  cases e with
  | none => exact from_
  | some entry =>
    have here := enters entry rfl
    refine finalized_from ?_ mode
    cases entry with
    | username text => exact ⟨fun _ => here, from_.password, from_.defined⟩
    | password text => exact ⟨from_.username, fun _ => here, fun _ => nonempty text here⟩

structure Answer (given : QueryMode → Text → Entry → Prop) (q : Query) (up : UserPass) : Prop where
  username : up.username ≠ [] → given q.mode q.type (.username up.username)
  password : ∃ text, given q.mode q.type (.password text) ∧ up.password = if text = blankUp then [] else text

def Asking (given : QueryMode → Text → Entry → Prop) (wait : Wait) (man : Management) : Prop :=
  match wait with
  | .query q => man.upQueryMode = q.mode ∧ man.upQueryType = some q.type ∧ From (given q.mode q.type) man.upQuery
  | _ => man.upQueryMode = .disabled

structure ProcessValid (given : QueryMode → Text → Entry → Prop) (s : Process) : Prop where
  asking : Asking given s.wait s.man
  results : ∀ q up, .userPass q (some up) ∈ s.results → Answer given q up

variable {given : QueryMode → Text → Entry → Prop}

private theorem ProcessValid.weaken {wider : QueryMode → Text → Entry → Prop} {s : Process}
    (valid : ProcessValid given s)
    (more : ∀ mode type e, given mode type e → wider mode type e) : ProcessValid wider s := by
  refine ⟨?_, fun q up member => ?_⟩
  · have asking := valid.asking
    unfold Asking at asking ⊢
    split
    next q waits =>
      rw [waits] at asking
      obtain ⟨mode, type, from_⟩ := asking
      exact ⟨mode, type, fun some_ => more _ _ _ (from_.username some_),
        fun some_ => more _ _ _ (from_.password some_),
        from_.defined⟩
    next other =>
      split at asking
      next q waits => exact absurd waits (other q)
      · exact asking
  · obtain ⟨username, text, told, same⟩ := valid.results q up member
    exact ⟨fun some_ => more _ _ _ (username some_), text, more _ _ _ told, same⟩

variable (callbacks : Callbacks)

private theorem processLine_asking (nonempty : ∀ mode type text, given mode type (.password text) → text ≠ [])
    {wait : Wait}
    {man : Management} (asking : Asking given wait man) {line : Text}
    (tells : ∀ ps, Options.parseLine .standard line = .ok ps → ∀ mode type e,
      ToldPasswords.entered mode (some type) ps = some e → given mode type e) :
    Asking given wait (processLine callbacks man line) := by
  obtain ⟨mode, type, up⟩ := processLine_enters callbacks man line
  unfold Asking at asking ⊢
  cases wait with
  | query q =>
    obtain ⟨mode', type', from_⟩ := asking
    refine ⟨mode.trans mode', type.trans type', ?_⟩
    rw [up]
    refine applied_from from_ (nonempty q.mode q.type) fun entry there => ?_
    unfold lineEntry at there
    split at there
    next ps _ read =>
      rw [mode', type'] at there
      exact tells ps read _ _ entry there
    · cases there
  | _ => exact mode.trans asking

private theorem serve_asking (nonempty : ∀ mode type text, given mode type (.password text) → text ≠ []) {wait : Wait}
    {man : Management} (asking : Asking given wait man) {lines : List Text}
    (tells : ∀ line ∈ lines, ∀ ps, Options.parseLine .standard line = .ok ps → ∀ mode type e,
      ToldPasswords.entered mode (some type) ps = some e → given mode type e) :
    Asking given wait (serve (processLine callbacks) Management.halt man lines) := by
  induction lines generalizing man with
  | nil => exact asking
  | cons line lines ih =>
    obtain ⟨here, later⟩ := List.forall_mem_cons.mp tells
    cases halts : man.halt with
    | true => rwa [serve_halted _ _ halts]
    | false =>
      rw [serve_cons _ _ halts]
      exact ih (processLine_asking callbacks nonempty asking here) later

private theorem endSign_frame (ret : Bool) (s : Process) :
    (∃ b64, (endSign ret s).results = s.results ++ [.signature b64]) ∧ (endSign ret s).wait = .main ∧
      (endSign ret s).man.upQueryMode = s.man.upQueryMode := by
  have reply (condition : Prop) [Decidable condition] (text : Text) (man : Management) :
      (if condition then msg text s.man else man).upQueryMode =
        if condition then s.man.upQueryMode else man.upQueryMode := by
    split <;> rfl
  refine ⟨⟨_, rfl⟩, rfl, ?_⟩
  unfold endSign inExtraReset
  simp only [reply, ite_self]

theorem turn_valid {s : Process} (valid : ProcessValid given s) : ProcessValid given (turn s) := by
  have returns {result : Result} (no : ∀ q up, result ≠ .userPass q (some up)) :
      ∀ q up, Result.userPass q (some up) ∈ s.results ++ [result] → Answer given q up := by
    intro q up member
    rcases List.mem_append.mp member with old | new
    · exact valid.results q up old
    · exact absurd (List.mem_singleton.mp new).symm (no q up)
  have asking := valid.asking
  unfold turn
  cases waits : s.wait with
  | main => exact valid
  | query q =>
    rw [waits] at asking
    obtain ⟨mode, type, from_⟩ := asking
    dsimp only
    split
    · exact ⟨rfl, returns fun _ _ other => by cases other⟩
    · split
      next defined =>
        refine ⟨rfl, fun q' up member => ?_⟩
        rcases List.mem_append.mp member with old | new
        · exact valid.results q' up old
        · cases List.mem_singleton.mp new
          have some_ := from_.defined defined
          refine ⟨?_, s.man.upQuery.password, from_.password some_, ?_⟩
          · split <;> exact from_.username
          · split <;> rfl
      · exact valid
  | hold =>
    rw [waits] at asking
    dsimp only
    split
    · exact ⟨asking, returns fun _ _ other => by cases other⟩
    · exact valid
  | sign =>
    rw [waits] at asking
    have ended (ret : Bool) : ProcessValid given (endSign ret s) := by
      obtain ⟨⟨b64, results⟩, waits', mode⟩ := endSign_frame ret s
      refine ⟨?_, by rw [results]; exact returns fun _ _ other => by cases other⟩
      rw [waits']
      exact mode.trans asking
    dsimp only
    split
    · exact ended false
    · split
      · exact ended true
      · exact valid
  | proxy =>
    rw [waits] at asking
    have ended (ret : Bool) : ProcessValid given (endProxy ret s) :=
      ⟨asking, returns fun _ _ other => by cases other⟩
    dsimp only
    split
    · exact ended false
    · split
      · exact valid
      · exact ended true

/-- What a step that reads nothing leaves of the connection. -/
structure Frame (s after : Process) : Prop where
  connected : after.connected = s.connected
  in_ : after.in_ = s.in_
  halt : after.man.halt = s.man.halt

private theorem turn_frame (s : Process) : Frame s (turn s) := by
  have sign (ret : Bool) : Frame s (endSign ret s) := by
    have reply (condition : Prop) [Decidable condition] (text : Text) (man : Management) :
        (if condition then msg text s.man else man).halt = if condition then s.man.halt else man.halt := by
      split <;> rfl
    refine ⟨rfl, rfl, ?_⟩
    unfold endSign inExtraReset
    simp only [reply, ite_self]
  unfold turn
  cases s.wait with
  | main => exact ⟨rfl, rfl, rfl⟩
  | query q =>
    dsimp only
    split <;> [skip; split] <;> exact ⟨rfl, rfl, rfl⟩
  | hold =>
    dsimp only
    split <;> exact ⟨rfl, rfl, rfl⟩
  | sign =>
    dsimp only
    split
    · exact sign false
    · split
      · exact sign true
      · exact ⟨rfl, rfl, rfl⟩
  | proxy =>
    dsimp only
    split <;> [skip; split] <;> exact ⟨rfl, rfl, rfl⟩

theorem step_valid {s after : Process} (valid : ProcessValid given s) {e : ManageQueries.Event}
    (quiet : ∀ bytes, e ≠ .read bytes) (taken : ManageQueries.step callbacks s e = some after) :
    ProcessValid given after ∧ Frame s after := by
  have ends {before : Process} (kept : ProcessValid given before) (frame : Frame s before) :
      ProcessValid given (turn before) ∧ Frame s (turn before) := by
    obtain ⟨connected, in_, halt⟩ := turn_frame before
    exact ⟨turn_valid kept, connected.trans frame.connected, in_.trans frame.in_, halt.trans frame.halt⟩
  have idle (free : s.wait = .main) : s.man.upQueryMode = .disabled := by
    have asking := valid.asking
    rwa [free] at asking
  cases e with
  | query q =>
    simp only [ManageQueries.step, Option.ite_none_right_eq_some, Option.some.injEq] at taken
    obtain ⟨-, rfl⟩ := taken
    refine ends ⟨⟨rfl, rfl, ?_⟩, valid.results⟩ ⟨rfl, rfl, rfl⟩
    exact ⟨fun some_ => absurd rfl some_, fun some_ => absurd rfl some_, fun defined => by cases defined⟩
  | hold holdtime =>
    simp only [ManageQueries.step, Option.ite_none_right_eq_some, Option.some.injEq] at taken
    obtain ⟨⟨-, free⟩, rfl⟩ := taken
    unfold managementHold
    split
    · exact ends ⟨idle free, valid.results⟩ ⟨rfl, rfl, rfl⟩
    · exact ends valid ⟨rfl, rfl, rfl⟩
  | pkSig b64Data =>
    simp only [ManageQueries.step, Option.ite_none_right_eq_some, Option.some.injEq] at taken
    obtain ⟨⟨-, free⟩, rfl⟩ := taken
    exact ends ⟨idle free, valid.results⟩ ⟨rfl, rfl, rfl⟩
  | proxy current udp remote =>
    simp only [ManageQueries.step, Option.ite_none_right_eq_some, Option.some.injEq] at taken
    obtain ⟨⟨-, free⟩, rfl⟩ := taken
    exact ends ⟨idle free, valid.results⟩ ⟨rfl, rfl, rfl⟩
  | read bytes => exact absurd rfl (quiet bytes)
  | signal sig =>
    cases taken
    exact ends ⟨valid.asking, valid.results⟩ ⟨rfl, rfl, rfl⟩
  | restart =>
    simp only [ManageQueries.step, Option.ite_none_right_eq_some, Option.some.injEq] at taken
    obtain ⟨-, rfl⟩ := taken
    exact ⟨⟨valid.asking, valid.results⟩, rfl, rfl, rfl⟩

/-! ### The stream -/

/-- What of a text is left in the command line, as bytes. -/
def receivedBytes (text : Text) : List UInt8 := (getBytes text).filter kept

private theorem receivedBytes_line {text : Text} (line : '\n' ∉ text) : 10 ∉ receivedBytes text := by
  intro member
  have arrived : Char.ofNat (10 : UInt8).toNat ∈ received text := List.mem_map_of_mem member
  exact absurd (printable_received line _ arrived) (by decide)

private theorem receivedBytes_unlines (lines : List Text) (rest : Text) :
    receivedBytes (unlines '\n' lines ++ rest) = unlines 10 (lines.map receivedBytes) ++ receivedBytes rest := by
  induction lines with
  | nil => rfl
  | cons line lines ih =>
    have newline : receivedBytes ['\n'] = [10] := by decide +kernel
    have parts : ∀ first second : Text, receivedBytes (first ++ second) = receivedBytes first ++
        receivedBytes second := by
      intro first second
      simp [receivedBytes, getBytes]
    rw [List.map_cons, unlines_cons, unlines_cons, List.append_assoc, List.cons_append, parts,
      ← List.singleton_append,
      parts, newline, ih, List.append_assoc, List.cons_append]
    rfl

/-- The lines at the beginning of what was received are lines that were written. -/
theorem lines_received {text : Text} {lines : List (List UInt8)} {rest more : List UInt8}
    (part : unlines 10 lines ++ rest ++ more = receivedBytes text) (clean : ∀ line ∈ lines, 10 ∉ line) :
    ∀ bytes ∈ lines, ∃ line, IsLine '\n' text line ∧ chars bytes = received line := by
  obtain ⟨written, left, rfl, whole, open_⟩ := exists_unlines '\n' text
  rw [receivedBytes_unlines] at part
  obtain ⟨later, same, -⟩ := unlines_aligned clean (by
    intro bytes member
    obtain ⟨line, inside, rfl⟩ := List.mem_map.mp member
    exact receivedBytes_line (whole line inside)) (receivedBytes_line open_) part
  intro bytes member
  obtain ⟨line, inside, rfl⟩ :=
    List.mem_map.mp (same ▸ List.mem_append_left later member : bytes ∈ written.map receivedBytes)
  exact ⟨line, ⟨written, left, rfl, whole, inside⟩, rfl⟩

/-- No stretch without a line end is longer than what is safe under every cut. -/
def Short (bytes : List UInt8) : Prop := ∀ part, part <:+: bytes → 10 ∉ part → part.length ≤ bufLen - readSize

private theorem Short.infix {bytes more : List UInt8} (short : Short more) (inside : bytes <:+: more) : Short bytes :=
  fun part there clean => short part (there.trans inside) clean

/-- OpenVPN is so far in its stream and waits for the rest of a line. -/
structure Following (s : Process) (consumed : List UInt8) : Prop where
  halt : s.man.halt = false
  ready : Ready s.in_
  open_ : 10 ∉ s.in_.buf.content
  lines : ∃ lines, consumed.filter kept = unlines 10 lines ++ s.in_.buf.content ∧ ∀ line ∈ lines, 10 ∉ line

private theorem Following.frame {s after : Process} {consumed : List UInt8} (following : Following s consumed)
    (frame : Frame s after) :
    Following after consumed := by
  obtain ⟨halt, ready, open_, lines⟩ := following
  exact ⟨frame.halt.trans halt, by rw [frame.in_]; exact ready, by rw [frame.in_]; exact open_,
    by rw [frame.in_]; exact lines⟩

/-- A read of a stream with short lines handles lines that were written. -/
theorem read_valid (nonempty : ∀ mode type text, given mode type (.password text) → text ≠ []) {text : Text}
    (short : Short (receivedBytes text))
    (tells : ∀ line, IsLine '\n' text line → ∀ ps, Options.parseLine .standard (received line) = .ok ps →
      ∀ mode type e, ToldPasswords.entered mode (some type) ps = some e → given mode type e)
    {s : Process} (valid : ProcessValid given s) {consumed bytes more : List UInt8} (following : Following s consumed)
    (stream : consumed ++ bytes ++ more = getBytes text) (some_ : bytes ≠ []) (size : bytes.length ≤ readSize) :
    ProcessValid given (read callbacks bytes s) ∧
      ((read callbacks bytes s).connected = true → Following (read callbacks bytes s) (consumed ++ bytes)) := by
  obtain ⟨alive, ready, open_, lines, before, clean⟩ := following
  have whole : consumed.filter kept ++ bytes.filter kept ++ more.filter kept = receivedBytes text := by
    rw [receivedBytes, ← stream, List.filter_append, List.filter_append]
  have held : s.in_.buf.content.length ≤ bufLen - readSize := by
    refine short _ ⟨unlines 10 lines, bytes.filter kept ++ more.filter kept, ?_⟩ open_
    rw [← before, ← whole, List.append_assoc]
  have room : s.in_.buf.content.length + (bytes.filter kept).length ≤ bufLen := by
    have filtered := List.length_filter_le kept bytes
    simp only [bufLen, readSize] at held size ⊢
    omega
  have filled := add_fits s.in_.buf bytes room
  obtain ⟨here, rest, content, whole', left⟩ := exists_unlines 10 (s.in_.buf.content ++ bytes.filter kept)
  obtain ⟨man, in_⟩ :=
    manRead_eq (processLine callbacks) Management.halt (c := { man := s.man, in_ := s.in_ }) ready alive
    (filled.trans content) whole' left
  have later : (consumed ++ bytes).filter kept = unlines 10 (lines ++ here) ++ rest := by
    rw [List.filter_append, before, List.append_assoc, content, unlines_append, List.append_assoc]
  have received_ : ∀ line ∈ here, ∃ written, IsLine '\n' text written ∧ chars line = received written := by
    have part : unlines 10 (lines ++ here) ++ rest ++ more.filter kept = receivedBytes text := by
      rw [← later, ← whole, List.filter_append]
    exact fun line member => lines_received part (List.forall_mem_append.mpr ⟨clean, whole'⟩) line
      (List.mem_append_right _ member)
  have tells_ : ∀ line ∈ here.map chars, ∀ ps, Options.parseLine .standard line = .ok ps → ∀ mode type e,
      ToldPasswords.entered mode (some type) ps = some e → given mode type e := by
    intro line member ps parsed mode type e enters
    obtain ⟨bytes, inside, rfl⟩ := List.mem_map.mp member
    obtain ⟨written, is, same⟩ := received_ bytes inside
    exact tells written is ps (same ▸ parsed) mode type e enters
  have asking := serve_asking callbacks nonempty valid.asking tells_
  rw [← man] at asking
  simp only [ManageQueries.read, if_neg some_]
  generalize ManRead.manRead (processLine callbacks) Management.halt { man := s.man, in_ := s.in_ } bytes =
    c at man in_ asking ⊢
  cases halts : c.man.halt with
  | true =>
    rw [if_pos rfl]
    refine ⟨turn_valid ⟨asking, valid.results⟩, fun connected => ?_⟩
    rw [(turn_frame _).connected] at connected
    cases connected
  | false =>
    rw [if_neg (by simp)]
    refine ⟨turn_valid ⟨asking, valid.results⟩, fun _ => ?_⟩
    obtain ⟨ready', content'⟩ := in_ halts
    refine Following.frame ⟨halts, ready', by rw [content']; exact left, lines ++ here, ?_, ?_⟩ (turn_frame _)
    · rw [content']
      exact later
    · exact List.forall_mem_append.mpr ⟨clean, whole'⟩

/-! ### Runs of the channel -/

/-- What stays true of the channel while its lines are short. -/
structure Valid (p : LoginProfile) (entered : Kind → Text → Prop) (s : Channel) :
    Prop where
  thread : ThreadValid p entered s.thread
  wrote : ∀ w ∈ s.wrote, AppWrite p entered w
  process : ProcessValid (Told p entered s.wrote) s.openvpn
  stream : ∃ consumed, consumed ++ s.socket = getBytes s.wrote.flatten ∧
    (s.openvpn.connected = true → Following s.openvpn consumed)

/-- What the events of a run may do: the user enters known passwords, signatures are words, and
the hosts of proxies have no line break. -/
structure Admitted (p : LoginProfile) (entered : Kind → Text → Prop) (e : ManagementChannel.Event) : Prop where
  cached : ∀ uuid kind v, e = .setCachedPassword uuid kind.type (some v) → UUID.fromString uuid = some p.mUuid →
    entered kind v
  signs : ∀ env, e = .processCommand env → ∀ data b64, env.getSignedData data = some b64 → Word b64
  system : ∀ env, e = .processCommand env → ∀ host port, env.detectProxy = some (host, port) → '\n' ∉ host.toList
  orbot : ∀ host port, e = .onOrbotReady host port → '\n' ∉ host.toList

private theorem Valid.process_step {s after : Channel} (valid : Valid p entered s) {e : ManageQueries.Event}
    (quiet : ∀ bytes, e ≠ .read bytes) (taken : ManagementChannel.process callbacks e s = some after) :
    Valid p entered after ∧ after.wrote = s.wrote := by
  obtain ⟨openvpn, there, rfl⟩ := Option.map_eq_some_iff.mp taken
  obtain ⟨process, frame⟩ := step_valid callbacks valid.process quiet there
  obtain ⟨consumed, stream, following⟩ := valid.stream
  refine ⟨⟨valid.thread, valid.wrote, process, consumed, stream, fun connected => ?_⟩, rfl⟩
  exact (following (frame.connected ▸ connected)).frame frame

private theorem Valid.thread_step {s : Channel} (valid : Valid p entered s) {thread : Thread} {seen : Nat}
    (kept : ThreadValid p entered thread) : Valid p entered { s with thread, seen } :=
  ⟨kept, valid.wrote, valid.process, valid.stream⟩

private theorem Valid.ui_step {s after : Channel} (valid : Valid p entered s) {f : Thread → Thread}
    (kept : ThreadValid p entered (f s.thread)) (taken : ui f s = some after) :
    Valid p entered after ∧ after.wrote = s.wrote := by
  simp only [ui, Option.ite_none_right_eq_some, Option.some.injEq] at taken
  obtain ⟨-, rfl⟩ := taken
  exact ⟨valid.thread_step kept, rfl⟩

theorem Valid.put {s : Channel} (valid : Valid p entered s) {cmd : Text}
    (known : AppWrite p entered cmd) :
    Valid p entered (put cmd s) := by
  obtain ⟨consumed, stream, following⟩ := valid.stream
  refine ⟨valid.thread, ?_, valid.process.weaken fun _ _ _ told => told.grow [cmd], consumed, ?_, following⟩
  · exact List.forall_mem_append.mpr ⟨valid.wrote, List.forall_mem_singleton.mpr known⟩
  · simp only [ManagementChannel.put, List.flatten_append, List.flatten_singleton, getBytes,
      Utf8.encode_append] at stream ⊢
    rw [← List.append_assoc, stream]

theorem wrote_grows {s after : Channel} {e : ManagementChannel.Event}
    (taken : ManagementChannel.step callbacks s e = some after) :
    s.wrote <+: after.wrote := by
  have process {e : ManageQueries.Event} {after : Channel}
      (taken : ManagementChannel.process callbacks e s = some after) :
      s.wrote <+: after.wrote := by
    obtain ⟨_, -, rfl⟩ := Option.map_eq_some_iff.mp taken
    exact List.prefix_refl _
  have ui {f : Thread → Thread} (taken : ManagementChannel.ui f s = some after) : s.wrote <+: after.wrote := by
    simp only [ManagementChannel.ui, Option.ite_none_right_eq_some, Option.some.injEq] at taken
    obtain ⟨-, rfl⟩ := taken
    exact List.prefix_refl _
  cases e with
  | query | hold | pkSig | proxy | signal | restart => exact process taken
  | read n =>
    simp only [ManagementChannel.step, Option.ite_none_right_eq_some] at taken
    obtain ⟨middle, there, rfl⟩ := Option.map_eq_some_iff.mp taken.2
    exact (process there : s.wrote <+: middle.wrote)
  | endOfStream =>
    simp only [ManagementChannel.step, Option.ite_none_right_eq_some] at taken
    exact process taken.2
  | processCommand env =>
    simp only [ManagementChannel.step] at taken
    split at taken
    · simp only [Option.ite_none_right_eq_some, Option.some.injEq] at taken
      obtain ⟨-, rfl⟩ := taken
      exact List.prefix_refl _
    · cases taken
  | write | uiWrite =>
    simp only [ManagementChannel.step] at taken
    split at taken <;> cases taken
    exact List.prefix_append _ _
  | releaseHold | resumeHold | networkChange | signalusr1 | onOrbotReady | orbotTimeOut | stopVPN => exact ui taken
  | setCachedPassword uuid type password =>
    obtain ⟨_, -, rfl⟩ := Option.map_eq_some_iff.mp taken
    exact List.prefix_refl _

private theorem receivedBytes_begins {first second : List Text} (begins : first <+: second) :
    receivedBytes first.flatten <+: receivedBytes second.flatten := by
  obtain ⟨more, rfl⟩ := begins
  exact ⟨receivedBytes more.flatten, by simp [receivedBytes, getBytes]⟩

private theorem read_keeps {s after : Channel} {n : Nat} (valid : Valid p entered s)
    (short : Short (receivedBytes s.wrote.flatten))
    (taken : ManagementChannel.step callbacks s (.read n) = some after) : Valid p entered after := by
  simp only [ManagementChannel.step, Option.ite_none_right_eq_some] at taken
  obtain ⟨⟨positive, enough⟩, taken⟩ := taken
  obtain ⟨middle, there, rfl⟩ := Option.map_eq_some_iff.mp taken
  obtain ⟨openvpn, reads, rfl⟩ := Option.map_eq_some_iff.mp there
  simp only [ManageQueries.step, Option.ite_none_right_eq_some, Option.some.injEq] at reads
  obtain ⟨⟨connected, size⟩, rfl⟩ := reads
  obtain ⟨consumed, stream, following⟩ := valid.stream
  have whole : consumed ++ s.socket.take n ++ s.socket.drop n = getBytes s.wrote.flatten := by
    rw [List.append_assoc, List.take_append_drop, stream]
  have some_ : s.socket.take n ≠ [] := by
    rw [ne_eq, ← List.length_eq_zero_iff, List.length_take]
    omega
  have nonempty : ∀ mode type text, Told p entered s.wrote mode type (.password text) → text ≠ [] :=
    fun _ _ _ told => told.password_ne_nil
  obtain ⟨process, follows⟩ := read_valid callbacks nonempty short
      (fun line is ps read mode type e enters => told_of_line valid.wrote is read enters) valid.process
    (following connected) whole some_ size
  exact ⟨valid.thread, valid.wrote, process, consumed ++ s.socket.take n, whole, follows⟩

private theorem endOfStream_keeps {s after : Channel} (valid : Valid p entered s)
    (taken : ManagementChannel.step callbacks s .endOfStream = some after) : Valid p entered after := by
  simp only [ManagementChannel.step, Option.ite_none_right_eq_some] at taken
  obtain ⟨openvpn, reads, rfl⟩ := Option.map_eq_some_iff.mp taken.2
  simp only [ManageQueries.step, Option.ite_none_right_eq_some, Option.some.injEq] at reads
  obtain ⟨-, rfl⟩ := reads
  obtain ⟨consumed, stream, -⟩ := valid.stream
  have ended : ProcessValid (Told p entered s.wrote) (resetClientSocket s.openvpn) :=
    ⟨valid.process.asking, valid.process.results⟩
  refine ⟨valid.thread, valid.wrote, turn_valid ended, consumed, stream, fun connected => ?_⟩
  have gone : (ManageQueries.read callbacks [] s.openvpn).connected = false := (turn_frame _).connected
  exact absurd (gone.symm.trans connected) (by decide)

private theorem write_keeps {s after : Channel} (valid : Valid p entered s)
    (taken : ManagementChannel.step callbacks s .write = some after) : Valid p entered after := by
  simp only [ManagementChannel.step] at taken
  split at taken
  next cmd outbox pending =>
    cases taken
    have commands := valid.thread.outbox
    rw [pending, List.forall_mem_cons] at commands
    have rest : Valid p entered { s with thread := { s.thread with outbox } } := valid.thread_step
      ⟨valid.thread.profile, valid.thread.connection, valid.thread.cache, commands.2, valid.thread.uiOutbox⟩
    exact rest.put commands.1
  · cases taken

private theorem uiWrite_keeps {s after : Channel} (valid : Valid p entered s)
    (taken : ManagementChannel.step callbacks s .uiWrite = some after) : Valid p entered after := by
  simp only [ManagementChannel.step] at taken
  split at taken
  next cmd uiOutbox pending =>
    cases taken
    have commands := valid.thread.uiOutbox
    rw [pending, List.forall_mem_cons] at commands
    have rest : Valid p entered { s with thread := { s.thread with uiOutbox } } := valid.thread_step
      ⟨valid.thread.profile, valid.thread.connection, valid.thread.cache, valid.thread.outbox, commands.2⟩
    exact rest.put commands.1
  · cases taken

private theorem setCachedPassword_keeps {s after : Channel} {uuid : Text} {type : Int} {password : Option Text}
    (admitted : Admitted p entered (.setCachedPassword uuid type password)) (valid : Valid p entered s)
    (taken : ManagementChannel.step callbacks s (.setCachedPassword uuid type password) = some after) :
    Valid p entered after := by
  obtain ⟨mInstance, set, rfl⟩ := Option.map_eq_some_iff.mp taken
  refine valid.thread_step ⟨valid.thread.profile, valid.thread.connection, fun kind v found => ?_,
    valid.thread.outbox, valid.thread.uiOutbox⟩
  have access : PasswordCache.access s.thread.mInstance (.setCachedPassword uuid type password) = some mInstance := by
    rw [PasswordCache.access, set]
    rfl
  have found : cached kind p.mUuid (some mInstance) = some v := found
  rw [← access] at found
  rcases cached_access found with ⟨parsed, kind_, rfl⟩ | old
  · exact admitted.cached uuid kind v (by rw [kind_]) parsed
  · exact valid.thread.cache kind v old

theorem step_keeps {s after : Channel} {e : ManagementChannel.Event} (proxies : ProxyLines p)
    (admitted : Admitted p entered e) (valid : Valid p entered s) (short : Short (receivedBytes s.wrote.flatten))
    (taken : ManagementChannel.step callbacks s e = some after) : Valid p entered after := by
  cases e with
  | query | hold | pkSig | proxy | signal | restart =>
    exact (valid.process_step callbacks (fun _ same => by cases same) taken).1
  | read n => exact read_keeps callbacks valid short taken
  | endOfStream => exact endOfStream_keeps callbacks valid taken
  | processCommand env =>
    simp only [ManagementChannel.step] at taken
    split at taken
    next line _ =>
      simp only [Option.ite_none_right_eq_some, Option.some.injEq] at taken
      obtain ⟨-, rfl⟩ := taken
      exact valid.thread_step (processCommand_valid (admitted.signs env rfl) proxies
        (admitted.system env rfl) valid.thread _)
    · cases taken
  | write => exact write_keeps callbacks valid taken
  | uiWrite => exact uiWrite_keeps callbacks valid taken
  | releaseHold => exact (valid.ui_step (releaseHold_valid valid.thread) taken).1
  | resumeHold shouldBeRunning =>
    exact (valid.ui_step (mResumeHoldRunnable_valid valid.thread shouldBeRunning) taken).1
  | networkChange samenetwork => exact (valid.ui_step (networkChange_valid valid.thread samenetwork) taken).1
  | signalusr1 => exact (valid.ui_step (signalusr1_valid valid.thread) taken).1
  | onOrbotReady socksHost socksPort =>
    exact (valid.ui_step (onOrbotReady_valid valid.thread (admitted.orbot socksHost socksPort rfl) socksPort) taken).1
  | orbotTimeOut => exact (valid.ui_step (orbotStatusTimeOutRunnable_valid valid.thread) taken).1
  | stopVPN => exact (valid.ui_step (stopOpenVPN_valid valid.thread) taken).1
  | setCachedPassword uuid type password => exact setCachedPassword_keeps callbacks admitted valid taken

/-- The user entered this password for the profile in a run. -/
def EnteredIn (p : LoginProfile) (events : List ManagementChannel.Event) (kind : Kind) (v : Text) : Prop :=
  ∃ uuid, .setCachedPassword uuid kind.type (some v) ∈ events ∧ UUID.fromString uuid = some p.mUuid

/-- In every run, however the threads of the app write and OpenVPN reads, asks and is
signalled: an answer that a query returns comes from commands that the app wrote for a
query of this type, with a secret of the profile for it or the status of this very request. -/
theorem credentials_not_crossed {events : List ManagementChannel.Event} {final : Channel}
    (run : Run (ManagementChannel.step callbacks) Free { thread := { mProfile := p } } events final)
    (proxies : ProxyLines p)
    (system : ∀ env, .processCommand env ∈ events → ∀ host port, env.detectProxy = some (host, port) →
      '\n' ∉ host.toList)
    (orbot : ∀ host port, .onOrbotReady host port ∈ events → '\n' ∉ host.toList)
    (signs : ∀ env, .processCommand env ∈ events → ∀ data b64, env.getSignedData data = some b64 → Word b64)
    (short : Short (receivedBytes final.wrote.flatten)) {q : Query} {up : UserPass}
    (returned : .userPass q (some up) ∈ final.openvpn.results) :
    Answer (Told p (EnteredIn p events) final.wrote) q up := by
  have start : Valid p (EnteredIn p events) { thread := { mProfile := p } } := by
    refine ⟨⟨rfl, fun conn none => (by cases none), fun kind v found => ?_, ?_, by simp⟩, by simp, ⟨rfl, by simp⟩,
      [], rfl, fun _ => ?_⟩
    · cases kind <;> cases found
    · exact List.forall_mem_singleton.mpr (other_write "version" " 2" (by decide))
    · exact ⟨rfl, new_ready, by simp [ManRead.clear], [], rfl, by simp⟩
  have keeps : ∀ before e after, (Short (receivedBytes before.wrote.flatten) →
      Valid p (EnteredIn p events) before) →
      e ∈ events → ManagementChannel.step callbacks before e = some after →
        Short (receivedBytes after.wrote.flatten) → Valid p (EnteredIn p events) after := by
    intro before e after ih member taken short
    have earlier := short.infix (receivedBytes_begins (wrote_grows callbacks taken)).isInfix
    refine step_keeps callbacks proxies ⟨?_, ?_, ?_, ?_⟩ (ih earlier) earlier taken
    · rintro uuid kind v rfl parsed
      exact ⟨uuid, member, parsed⟩
    · rintro env rfl
      exact signs env member
    · rintro env rfl
      exact system env member
    · rintro host port rfl
      exact orbot host port member
  have always := run.members.invariant (fun _ => start) keeps
  exact (always short).process.results q up returned

private def proxied : LoginProfile :=
  { mUuid := ⟨0, 0⟩
    mConnections :=
      [{ mProxyType := .HTTP, mUseProxyAuth := true, mProxyAuthUser := some "u", mProxyAuthPassword := some "x" }] }

/-- OpenVPN asks for the proxy, and then for its credentials. -/
private def proxyRun : List ManagementChannel.Event :=
  [.write, .proxy 0 false "h", .read 10, .processCommand {}, .write, .read 39, .processCommand {},
    .query { type := "HTTP Proxy".toList, mode := .userPass }, .processCommand {}, .write, .write, .read 30, .read 18]

theorem credentials_not_crossed_proxy :
    ∃ final, proxyRun.foldlM (ManagementChannel.step {}) { thread := { mProfile := proxied } } = some final ∧
      Answer (Told proxied (EnteredIn proxied proxyRun) final.wrote)
        { type := "HTTP Proxy".toList, mode := .userPass } { defined := true, username := ['u'], password := ['x'] } := by
  have facts : (proxyRun.foldlM (ManagementChannel.step {}) { thread := { mProfile := proxied } }).map
        (fun s => (s.openvpn.results, decide ((receivedBytes s.wrote.flatten).length ≤ bufLen - readSize))) =
      some ([.proxy true, .userPass { type := "HTTP Proxy".toList, mode := .userPass }
        (some { defined := true, username := ['u'], password := ['x'] })], true) := by
    decide +kernel
  obtain ⟨final, executed, same⟩ := Option.map_eq_some_iff.mp facts
  obtain ⟨results, size⟩ := Prod.mk.inj same
  -- Nothing is signed in this run, and no proxy comes from the system or from Orbot.
  have env : ∀ env, .processCommand env ∈ proxyRun → env = {} := by
    intro env member
    simpa [proxyRun] using member
  have lines : ProxyLines proxied := by
    intro conn member
    cases List.mem_singleton.mp member
    decide
  refine ⟨final, executed, credentials_not_crossed {} (Run.of_exec executed) lines ?_ ?_ ?_ ?_
    (by rw [results]; simp)⟩
  · intro env' member host port detected
    cases env env' member
    cases detected
  · intro host port member
    simp [proxyRun] at member
  · intro env' member data b64 signed
    cases env env' member
    cases signed
  · intro part inside _
    exact inside.length_le.trans (of_decide_eq_true size)

end RRoadVpn.Proofs.ChannelSafety
