import Mathlib.Algebra.Order.BigOperators.Group.List
import RRoadVpn.Proofs.LogItemCodec
import RRoadVpn.Proofs.LoopCompletes

/-! OpenVPN's queries for a login, for the password of a key and for a signature: each is
answered with exactly what the app has, in whatever order the thread writes and OpenVPN reads. -/

namespace RRoadVpn.Proofs.QueriesComplete
open Library Manage ManageQueries ManagementChannel ReplyTexts WrittenLines ToldPasswords CommandFraming LoopCompletes
open JavaText (Text)
open ManRead (kept chars bufLen readSize)
open ManagementReplies (Thread Surroundings)

variable {callbacks : Callbacks} {s : Channel} {q : Query}

/-! ### The loop of a query -/

def answer (up : UserPass) : UserPass := if up.password = blankUp then { up with password := [] } else up

def queryLoop (q : Query) : Loop where
  wait := .query q
  ends man := man.upQuery.defined
  leave man := { man with upQueryMode := .disabled, upQueryType := none, specialStateMsg := none, upQuery := {} }
  result man := .userPass q (some (answer man.upQuery))

private theorem queryLoop_lawful (q : Query) : (queryLoop q).Lawful := by
  refine ⟨by simp [queryLoop], fun s man in_ waits unsignalled => ?_, fun _ => rfl, fun _ => rfl, fun _ => rfl⟩
  have here : s.wait = .query q := waits
  simp only [turn, here, unsignalled]
  rfl

private theorem query_begins (idle : Idle s) (mode : q.mode ≠ .disabled) :
    Begins callbacks (queryLoop q) s (.query q) (queryUserPass q s.openvpn) q.alert := by
  have fits : q.alert.length + 2 < errBufSize := by
    have cut : q.alert.length ≤ alertSize - 1 := List.length_take_le ..
    simp only [alertSize, errBufSize] at cut ⊢
    omega
  refine ⟨?_, rfl, rfl, rfl, rfl, fits, rfl⟩
  have guard : s.openvpn.connected = true ∧ s.openvpn.wait = .main ∧ q.mode ≠ .disabled :=
    ⟨idle.connected, idle.main, mode⟩
  have turned : turn (queryUserPass q s.openvpn) = queryUserPass q s.openvpn := by
    have unsignalled : (queryUserPass q s.openvpn).man.signalReceived = none := idle.unsignalled
    simp only [turn, unsignalled]
    rfl
  simp only [ManagementChannel.step, ManagementChannel.process, ManageQueries.step, if_pos guard, turned,
    Option.map_some]

/-! ### Credentials -/

def acceptedLine (type prompt : Text) : Text :=
  "SUCCESS: '".toList ++ type ++ "' ".toList ++ prompt ++ " entered, but not yet verified".toList

private theorem manQueryUserPass_needed (type string prompt : Text) (dest : UserPass → Text → UserPass)
    (man : Management) :
    manQueryUserPass type string (some type) prompt dest man =
      { man with
        upQuery := finalized man.upQueryMode (dest man.upQuery (strncpynt string userPassLen))
        out := man.out ++ [acceptedLine type prompt] } := by
  unfold manQueryUserPass acceptedLine
  dsimp only
  rw [if_pos rfl, manUpFinalize_eq, msg]

private theorem strncpynt_fits {value : Text} (fits : Fits value) :
    strncpynt (bytesOf value) userPassLen = bytesOf value :=
  List.take_of_length_le (by rw [length_bytesOf]; exact fits.short)

def body (name type value : Text) : Text := typed name type ++ VpnProfile.escape value

private theorem body_clean {name type value : Text} (h : Typed name type) (fits : Fits value) :
    ∀ c ∈ body name type value, printable c := by
  intro c member
  rcases List.mem_append.mp member with front | inside
  · exact (typed_inside h c front).1
  · exact printable_escape fits.printable c inside

private theorem length_escape (t : Text) : (VpnProfile.escape t).length ≤ 2 * t.length + 2 := by
  by_cases bare : EscapeRoundTrip.Bare t
  · rw [EscapeRoundTrip.escape_bare bare]
    omega
  · have each : ∀ c, (EscapeRoundTrip.escapeChar c).length ≤ 2 := by
      intro c
      unfold EscapeRoundTrip.escapeChar
      repeat' split
      all_goals simp
    have all : (t.flatMap EscapeRoundTrip.escapeChar).length ≤ 2 * t.length := by
      rw [List.length_flatMap, Nat.mul_comm, ← List.length_map (f := fun c => (EscapeRoundTrip.escapeChar c).length)]
      exact List.sum_le_card_nsmul _ _ (List.forall_mem_map.mpr fun c _ => each c)
    rw [EscapeRoundTrip.escape_quoted bare, List.length_append, List.length_append, List.length_singleton]
    omega

private theorem body_short {name type value : Text} (h : Typed name type) (fits : Fits value) :
    (getBytes (body name type value)).length ≤ bufLen - readSize := by
  have front : (Utf8.encode (typed name type)).length ≤ 256 := by
    rw [← length_bytesOf, bytesOf_text fun c member => (typed_inside h c member).2]
    exact h.short
  have back := length_escape (bytesOf value)
  have size := fits.short
  rw [← bytesOf_escape, length_bytesOf, length_bytesOf] at back
  rw [body, getBytes, Utf8.encode_append, List.length_append]
  simp only [bufLen, readSize]
  omega

theorem processLine_body {man : Management} {name type value : Text} (h : Typed name type) (fits : Fits value)
    (extra : man.inExtra = none) : processLine callbacks man (received (body name type value)) =
      manDispatchCommand callbacks name [type, bytesOf value] (inExtraReset man) := by
  have read := heard_fits h fits
  rw [heard] at read
  simp only [processLine, extra, manProcessCommand, body, received_typed h, read]

private theorem username_taken {man : Management} {type value : Text} (h : Typed "username".toList type)
    (fits : Fits value)
    (open_ : Open (queryLoop q) man) (extra : man.inExtra = none) (mode : man.upQueryMode = .userPass)
    (asked : man.upQueryType = some type)
    (other : Ignored (acceptedLine type "username".toList)) :
    Taken callbacks (queryLoop q) man (body "username".toList type value) { inExtraReset man with
      upQuery := finalized .userPass (setUsername man.upQuery (bytesOf value))
      out := man.out ++ [acceptedLine type "username".toList] } := by
  have command : Command.ofText "username".toList = some .username := by decide
  refine ⟨body_clean h fits, body_short h fits, open_, ?_, _, rfl, List.forall_mem_singleton.mpr other⟩
  have needed : neededIn [.userPass] (inExtraReset man) = some type := by
    simp only [neededIn, inExtraReset, mode, asked]
    rfl
  rw [processLine_body h fits extra]
  simp only [manDispatchCommand, command, withTwo, manQueryUsername, needed]
  rw [manQueryUserPass_needed, strncpynt_fits fits]
  simp only [inExtraReset, mode]

private theorem password_taken {man : Management} {type value : Text} (h : Typed "password".toList type)
    (fits : Fits value)
    (open_ : Open (queryLoop q) man) (extra : man.inExtra = none)
    (mode : man.upQueryMode = .pass ∨ man.upQueryMode = .userPass)
    (asked : man.upQueryType = some type) (other : Ignored (acceptedLine type "password".toList)) :
    Taken callbacks (queryLoop q) man (body "password".toList type value) { inExtraReset man with
      upQuery := finalized man.upQueryMode (setPassword man.upQuery (if value = [] then blankUp else bytesOf value))
      out := man.out ++ [acceptedLine type "password".toList] } := by
  have command : Command.ofText "password".toList = some .password := by decide
  refine ⟨body_clean h fits, body_short h fits, open_, ?_, _, rfl, List.forall_mem_singleton.mpr other⟩
  have needed : neededIn [.pass, .userPass] (inExtraReset man) = some type := by
    simp only [neededIn, inExtraReset, asked]
    rcases mode with mode | mode <;> rw [mode] <;> rfl
  have text : strncpynt (if bytesOf value = [] then blankUp else bytesOf value) userPassLen =
      if value = [] then blankUp else bytesOf value := by
    by_cases empty : value = []
    · rw [if_pos empty, if_pos (bytesOf_eq_nil.mpr empty)]
      decide
    · rw [if_neg empty, if_neg fun none => empty (bytesOf_eq_nil.mp none), strncpynt_fits fits]
  rw [processLine_body h fits extra]
  simp only [manDispatchCommand, command, withTwo, manQueryPassword, needed]
  rw [manQueryUserPass_needed, text]
  rfl

theorem processCommand_password (rest argument needed : Text) (colon : NeedOk.afterColon ('>' :: rest) = .ok argument)
    (line : ManagementReplies.Line.ofText (rest.takeWhile (· ≠ ':')) = some .PASSWORD)
    (quoted : NeedOk.quoted argument = .ok needed) (token : "Auth-Token:".toList.isPrefixOf argument = false)
    (failed : "Verification Failed".toList.isPrefixOf argument = false) (env : Surroundings) (t : Thread) :
    ManagementReplies.processCommand env ('>' :: rest) t =
      let (pw, username, mInstance) := ManagementReplies.credentials needed t
      { t with mInstance, outbox := t.outbox ++ ManagementReplies.credentialCommands needed pw username } := by
  simp only [ManagementReplies.processCommand, colon, line, ManagementReplies.processPWCommand, token, quoted, failed,
    Bool.false_eq_true, if_false]

/-- An empty password goes as the text for one, and comes back empty. -/
theorem entered_password {pw : Text} (other : pw ≠ blankUp) (up : UserPass)
    (entered : up.password = if pw = [] then blankUp else bytesOf pw) :
    up.password ≠ [] ∧ answer up = { up with password := bytesOf pw } := by
  have ascii : (blankUp.all fun c => decide (c.toNat < 128)) = true := by decide
  have plain : bytesOf blankUp = blankUp := bytesOf_text (by simpa using ascii)
  by_cases empty : pw = []
  · rw [if_pos empty] at entered
    rw [answer, entered, if_pos rfl, empty, bytesOf_nil]
    exact ⟨by decide, rfl⟩
  · rw [if_neg empty] at entered
    have differs : bytesOf pw ≠ blankUp := fun equal => other (bytesOf_injective (equal.trans plain.symm))
    rw [answer, entered, if_neg differs]
    exact ⟨fun none => empty (bytesOf_eq_nil.mp none), by rw [← entered]⟩

/-- A query is answered by commands that the thread writes for it. -/
theorem query_completes (thread : Thread) (idle : Idle s) (mode : q.mode ≠ .disabled)
    (running : thread.running = true)
    (outbox : thread.outbox = []) {bodies : List Text} {final : Management}
    (asks : ∀ env, ManagementReplies.processCommand env (decoded q.alert) s.thread =
      { thread with outbox := bodies.map (· ++ ['\n']) })
    (chain : Chain callbacks (queryLoop q) (queryUserPass q s.openvpn).man bodies final) (nonempty : bodies ≠ [])
    (halt : final.halt = false) (unsignalled : final.signalReceived = none) (version : 1 < final.clientVersion)
    (extra : final.inExtra = none) (defined : final.upQuery.defined = true) {up : UserPass}
    (returns : answer final.upQuery = up) {admits : Surroundings → Prop} (possible : ∃ env, admits env) :
    Completes callbacks admits s (.query q) thread (.userPass q (some up)) := by
  have written : ∀ cmd ∈ bodies.map (· ++ ['\n']), cmd ≠ [] := List.forall_mem_map.mpr fun _ _ => by simp
  have exchange := chain.exchange nonempty rfl written halt unsignalled version defined extra
    ⟨[], (List.append_nil _).symm, by simp⟩
  have result : (queryLoop q).result (serve (processLine callbacks) Management.halt (queryUserPass q s.openvpn).man
      ((bodies.map getBytes).map chars)) = .userPass q (some up) := by
    rw [chain.texts (List.Subset.refl _), chain.reaches, ← returns]
    rfl
  have completes := loop_completes thread idle (queryLoop_lawful q) (query_begins idle mode) running exchange possible
    (fun env _ => asks env) result
  rw [← outbox] at completes
  exact completes

/-! ### Logins -/

def authQuery : Query := { type := "Auth".toList, mode := .userPass }

/-- OpenVPN asks for a login that fits: however the thread's writes and OpenVPN's reads
follow one another, OpenVPN ends up with the user name and the password, as they are. -/
theorem login_completes (callbacks : Callbacks) (idle : Idle s) {u pw : Text}
    (name : s.thread.mProfile.mUsername = some u)
    (known : (s.thread.mProfile.getPasswordAuth s.thread.mInstance).1 = some pw) (nonempty : u ≠ [])
    (fitsName : Fits u) (fits : Fits pw) (other : pw ≠ blankUp) {admits : Surroundings → Prop}
    (possible : ∃ env, admits env) : Completes callbacks admits s (.query authQuery)
      { s.thread with mInstance := some (s.thread.mProfile.getPasswordAuth s.thread.mInstance).2 }
      (.userPass authQuery (some { defined := true, username := bytesOf u, password := bytesOf pw })) := by
  have alert : decoded authQuery.alert = '>' :: "PASSWORD:Need 'Auth' username/password".toList := by decide +kernel
  have typedName : Typed "username".toList "Auth".toList := typed_of_check (by decide)
  have typedPassword : Typed "password".toList "Auth".toList := typed_of_check (by decide)
  -- The thread writes two commands.
  have asks : ∀ env, ManagementReplies.processCommand env (decoded authQuery.alert) s.thread =
      { s.thread with
        mInstance := some (s.thread.mProfile.getPasswordAuth s.thread.mInstance).2
        outbox := [body "username".toList "Auth".toList u, body "password".toList "Auth".toList pw].map
          (· ++ ['\n']) } := by
    intro env
    have here : ¬ "Auth".toList = "Private Key".toList := by decide
    rw [alert, processCommand_password _ "Need 'Auth' username/password".toList "Auth".toList (by rfl) (by decide)
      (by rfl)
      (by decide) (by decide)]
    simp only [ManagementReplies.credentials, if_neg here, if_true, known, name, idle.outbox]
    rfl
  -- With the user name alone the query goes on.
  have named : finalized .userPass (setUsername {} (bytesOf u)) = { username := bytesOf u } := by
    simp [finalized, setUsername]
  have first : Taken callbacks (queryLoop authQuery) (queryUserPass authQuery s.openvpn).man _ _ :=
    username_taken typedName fitsName ⟨idle.halt, idle.unsignalled, rfl⟩ idle.extra rfl rfl
      (ignored_of_head (by decide) (by decide +kernel))
  have fresh : (queryUserPass authQuery s.openvpn).man.upQuery = {} := rfl
  rw [fresh, named] at first
  have second : Taken callbacks (queryLoop authQuery) { inExtraReset (queryUserPass authQuery s.openvpn).man with
      upQuery := { username := bytesOf u }
      out := (queryUserPass authQuery s.openvpn).man.out ++ [acceptedLine "Auth".toList "username".toList] } _ _ :=
    password_taken typedPassword fits ⟨idle.halt, idle.unsignalled, rfl⟩ rfl (.inr rfl) rfl
      (ignored_of_head (by decide) (by decide +kernel))
  obtain ⟨password, back⟩ := entered_password other
    (setPassword { username := bytesOf u, defined := true } (if pw = [] then blankUp else bytesOf pw)) rfl
  have ended : finalized .userPass (setPassword { username := bytesOf u } (if pw = [] then blankUp else bytesOf pw)) =
      setPassword { username := bytesOf u, defined := true } (if pw = [] then blankUp else bytesOf pw) := by
    have either : ¬ (bytesOf u = [] ∨ (if pw = [] then blankUp else bytesOf pw) = []) :=
      not_or.mpr ⟨fun none => nonempty (bytesOf_eq_nil.mp none), password⟩
    exact if_neg either
  exact query_completes
    { s.thread with mInstance := some (s.thread.mProfile.getPasswordAuth s.thread.mInstance).2 } idle (by decide)
    idle.running idle.outbox asks (.cons first (.cons second (.nil _))) (by simp) idle.halt idle.unsignalled
    idle.version rfl (congrArg UserPass.defined ended) ((congrArg answer ended).trans back) possible

/-- The channel behind the first command of the thread, with a profile. -/
def opened (mProfile : LoginProfile) : Channel :=
  { openvpn := { man := { clientVersion := 2 } }, thread := { mProfile, outbox := [] },
    wrote := ["version 2\n".toList] }

theorem opened_idle (mProfile : LoginProfile) : Idle (opened mProfile) :=
  ⟨rfl, rfl, (by decide : (1 : Int) < 2), rfl, rfl, rfl, new_ready, rfl, rfl, le_rfl, by simp [opened], rfl, rfl⟩

/-- A user name with a quote and an empty password. -/
theorem login_completes_quoted :
    Completes {} (fun _ => True) (opened { mUuid := ⟨0, 0⟩, mUsername := some ['a', '"'], mPassword := [] })
      (.query authQuery)
      { mProfile := { mUuid := ⟨0, 0⟩, mUsername := some ['a', '"'], mPassword := [] }, outbox := [],
        mInstance := some { mUuid := ⟨0, 0⟩ } }
      (.userPass authQuery (some { defined := true, username := bytesOf ['a', '"'], password := bytesOf [] })) := by
  have idle := opened_idle { mUuid := ⟨0, 0⟩, mUsername := some ['a', '"'], mPassword := [] }
  have fitsName : Fits ['a', '"'] := ⟨by simp [printable], by decide +kernel, by simp⟩
  have fits : Fits [] := ⟨by simp, by simp, by simp⟩
  exact login_completes {} idle rfl rfl (by decide) fitsName fits (by decide) ⟨{}, trivial⟩

def keyQuery : Query := { type := "Private Key".toList, mode := .pass }

/-- The same for the password of a private key, which is one command. -/
theorem key_completes (callbacks : Callbacks) (idle : Idle s) {pw : Text}
    (known : (s.thread.mProfile.getPasswordPrivateKey s.thread.mInstance).1 = some pw) (fits : Fits pw)
    (other : pw ≠ blankUp) {admits : Surroundings → Prop} (possible : ∃ env, admits env) :
    Completes callbacks admits s (.query keyQuery)
      { s.thread with mInstance := some (s.thread.mProfile.getPasswordPrivateKey s.thread.mInstance).2 }
      (.userPass keyQuery (some { defined := true, password := bytesOf pw })) := by
  have alert : decoded keyQuery.alert = '>' :: "PASSWORD:Need 'Private Key' password".toList := by decide +kernel
  have asks : ∀ env, ManagementReplies.processCommand env (decoded keyQuery.alert) s.thread =
      { s.thread with
        mInstance := some (s.thread.mProfile.getPasswordPrivateKey s.thread.mInstance).2
        outbox := [body "password".toList "Private Key".toList pw].map (· ++ ['\n']) } := by
    intro env
    rw [alert, processCommand_password _ "Need 'Private Key' password".toList "Private Key".toList (by rfl)
      (by decide)
      (by rfl) (by decide) (by decide)]
    simp only [ManagementReplies.credentials, if_true, known, idle.outbox]
    rfl
  have taken : Taken callbacks (queryLoop keyQuery) (queryUserPass keyQuery s.openvpn).man _ _ :=
    password_taken (typed_of_check (by decide)) fits ⟨idle.halt, idle.unsignalled, rfl⟩ idle.extra (.inl rfl) rfl
      (ignored_of_head (by decide) (by decide +kernel))
  obtain ⟨password, back⟩ := entered_password other
    (setPassword { defined := true } (if pw = [] then blankUp else bytesOf pw)) rfl
  have ended : finalized .pass (setPassword {} (if pw = [] then blankUp else bytesOf pw)) =
      setPassword { defined := true } (if pw = [] then blankUp else bytesOf pw) := if_neg password
  exact query_completes
    { s.thread with mInstance := some (s.thread.mProfile.getPasswordPrivateKey s.thread.mInstance).2 } idle
    (by decide)
    idle.running idle.outbox asks (.cons taken (.nil _)) (by simp) idle.halt idle.unsignalled
    idle.version rfl (congrArg UserPass.defined ended) ((congrArg answer ended).trans back) possible

/-- A password beyond ASCII. -/
theorem key_completes_umlaut :
    Completes {} (fun _ => True)
      (opened { mUuid := ⟨0, 0⟩, mAuthenticationType := .PKCS12, mPKCS12Password := some ['ü'] }) (.query keyQuery)
      { mProfile := { mUuid := ⟨0, 0⟩, mAuthenticationType := .PKCS12, mPKCS12Password := some ['ü'] }, outbox := [],
        mInstance := some { mUuid := ⟨0, 0⟩ } }
      (.userPass keyQuery (some { defined := true, password := bytesOf ['ü'] })) :=
  key_completes {} (opened_idle _) rfl ⟨by simp [printable], by decide +kernel, by simp⟩ (by decide)
    ⟨{}, trivial⟩

/-! ### Signatures -/

def signLoop : Loop where
  wait := .sign
  ends man := man.extKeyState = .ready
  leave man :=
    { inExtraReset (msg ("SUCCESS: ".toList ++ signCmd man ++ " command succeeded".toList) man) with
      specialStateMsg := none, extKeyState := .undef, extKeyInput := none }
  result man := .signature (flatten man.extKeyInput)

private theorem signLoop_lawful : signLoop.Lawful := by
  refine ⟨by simp [signLoop], fun s man in_ waits unsignalled => ?_, fun _ => rfl, fun _ => rfl, fun _ => rfl⟩
  have here : s.wait = .sign := waits
  simp only [turn, here, unsignalled, signLoop]
  by_cases ready : man.extKeyState = .ready
  · simp only [ready, endSign, Loop.finish]
    rfl
  · simp [ready]

private theorem sign_begins (idle : Idle s) {b64Data : Text}
    (fits : ('>' :: signPrompt s.openvpn.man ++ ':' :: b64Data).length + 2 < errBufSize) :
    Begins callbacks signLoop s (.pkSig b64Data) (queryPkSig b64Data s.openvpn)
      ('>' :: signPrompt s.openvpn.man ++ ':' :: b64Data) := by
  refine ⟨?_, rfl, rfl, rfl, rfl, fits, rfl⟩
  have guard : s.openvpn.connected = true ∧ s.openvpn.wait = .main := ⟨idle.connected, idle.main⟩
  have turned : turn (queryPkSig b64Data s.openvpn) = queryPkSig b64Data s.openvpn := by
    have unsignalled : (queryPkSig b64Data s.openvpn).man.signalReceived = none := idle.unsignalled
    simp only [turn, unsignalled]
    rfl
  simp only [ManagementChannel.step, ManagementChannel.process, ManageQueries.step, if_pos guard, turned,
    Option.map_some]

private theorem utf8bytes_ofList (text : Text) : LogItem.utf8bytes (String.ofList text) = Utf8.encode text := by
  simp [LogItem.utf8bytes, Utf8.encode, List.utf8Encode]

theorem decoded_ascii {line : Text} (ascii : ∀ c ∈ line, c.toNat < 128) : decoded line = line := by
  have bytes : (line.map fun c => UInt8.ofNat c.toNat) = Utf8.encode line := by
    induction line with
    | nil => rfl
    | cons c line ih =>
      obtain ⟨here, later⟩ := List.forall_mem_cons.mp ascii
      have encoded : String.utf8EncodeChar c = [UInt8.ofNat c.toNat] := by
        rw [String.utf8EncodeChar]
        exact if_pos (Nat.le_of_lt_succ here)
      rw [List.map_cons, Utf8.encode_cons, encoded, ih later, List.singleton_append]
  rw [decoded, bytes, ← utf8bytes_ofList, LogItemCodec.newString_utf8bytes, String.toList_ofList]

private theorem word_taken (man : Management) (word : Text) (plain : Word word)
    (short : word.length ≤ bufLen - readSize)
    (open_ : Open signLoop man) {after : Management} (same : processLine callbacks man word = after)
    (out : after.out = man.out) : Taken callbacks signLoop man word after := by
  refine ⟨fun c member => (plain.spec c member).printable, ?_, open_, ?_, [], ?_, by simp⟩
  · rwa [getBytes, ← length_bytesOf, bytesOf_text fun c member => (plain.spec c member).ascii]
  · rw [plain.received, same]
  · rw [out, List.append_nil]

/-- A single line is returned as it is, however long. -/
theorem flatten_one {line : Text} (nonempty : line ≠ []) : flatten (some [line]) = some line := by
  have few : ¬ 2 ≤ aggregateCount 2048 0 [line] := by
    simp only [aggregateCount]
    split <;> omega
  simp [flatten, aggregated, few, nonempty]

/-- What the thread does for a signature. -/
theorem processCommand_sign {data signed : Text} {env : Surroundings} (signs : env.getSignedData data = some signed)
    (t : Thread) :
    ManagementReplies.processCommand env ('>' :: "PK_SIGN".toList ++ ':' :: data) t =
      { t with outbox := t.outbox ++ ["pk-sig\n".toList, signed, "\nEND\n".toList] } := by
  change ManagementReplies.processCommand env ('>' :: ("PK_SIGN".toList ++ ':' :: data)) t = _
  have colon : NeedOk.afterColon ('>' :: ("PK_SIGN".toList ++ ':' :: data)) = .ok data := rfl
  have name : ManagementReplies.Line.ofText (("PK_SIGN".toList ++ ':' :: data).takeWhile (· ≠ ':')) =
      some .PK_SIGN := rfl
  simp only [ManagementReplies.processCommand, colon, name, ManagementReplies.processSignCommand, signs]

private theorem alert_ascii {b64Data : Text} (data : Word b64Data) :
    ∀ c ∈ '>' :: "PK_SIGN".toList ++ ':' :: b64Data, c.toNat < 128 := by
  have front : ('>' :: "PK_SIGN".toList).all (fun c => decide (c.toNat < 128)) = true := by decide
  intro c member
  rcases List.mem_append.mp member with begins | ends
  · exact of_decide_eq_true (List.all_eq_true.mp front c begins)
  · rcases List.mem_cons.mp ends with rfl | inside
    · decide
    · exact (data.spec c inside).ascii

/-- The three lines of a signature: the command, the signature itself and its end. -/
private theorem sign_chain (idle : Idle s) {b64Data signed : Text} (plain : Word signed)
    (other : signed ≠ "END".toList) (short : signed.length ≤ bufLen - readSize) :
    Chain callbacks signLoop (queryPkSig b64Data s.openvpn).man ["pk-sig".toList, signed, "END".toList]
      { inExtraReset (queryPkSig b64Data s.openvpn).man with
        extKeyState := .ready, inExtraCmd := .pkSign, inExtra := none, extKeyInput := some [signed] } := by
  have first : Taken callbacks signLoop (queryPkSig b64Data s.openvpn).man "pk-sig".toList
      { inExtraReset (queryPkSig b64Data s.openvpn).man with
        extKeyState := .input, inExtraCmd := .pkSign, inExtra := some [] } := by
    have open_ : Open signLoop (queryPkSig b64Data s.openvpn).man := ⟨idle.halt, idle.unsignalled, rfl⟩
    refine word_taken _ "pk-sig".toList (by decide) (by decide) open_ ?_ rfl
    have extra : (queryPkSig b64Data s.openvpn).man.inExtra = none := idle.extra
    have read : Options.parseLine .standard "pk-sig".toList = .ok ["pk-sig".toList] := by rfl
    have command : Command.ofText "pk-sig".toList = some .pkSig := by decide
    simp only [processLine, extra, manProcessCommand, read, manDispatchCommand, command]
    rfl
  have second : Taken callbacks signLoop { inExtraReset (queryPkSig b64Data s.openvpn).man with
      extKeyState := .input, inExtraCmd := .pkSign, inExtra := some [] } signed
      { inExtraReset (queryPkSig b64Data s.openvpn).man with
        extKeyState := .input, inExtraCmd := .pkSign, inExtra := some [signed] } := by
    refine word_taken _ signed plain short (by exact ⟨idle.halt, idle.unsignalled, rfl⟩) ?_ rfl
    simp only [processLine, if_neg other]
    rfl
  have third : Taken callbacks signLoop { inExtraReset (queryPkSig b64Data s.openvpn).man with
      extKeyState := .input, inExtraCmd := .pkSign, inExtra := some [signed] } "END".toList
      { inExtraReset (queryPkSig b64Data s.openvpn).man with
        extKeyState := .ready, inExtraCmd := .pkSign, inExtra := none, extKeyInput := some [signed] } := by
    refine word_taken _ "END".toList (by decide) (by decide) (by exact ⟨idle.halt, idle.unsignalled, rfl⟩) ?_ rfl
    simp only [processLine, if_true]
    rfl
  exact .cons first (.cons second (.cons third (.nil _)))

private theorem sign_commands (signed : Text) : ["pk-sig\n".toList, signed, "\nEND\n".toList].flatten =
    (["pk-sig".toList, signed, "END".toList].map (· ++ ['\n'])).flatten := by
  have open_ : "pk-sig\n".toList = "pk-sig".toList ++ ['\n'] := by decide
  have close : "\nEND\n".toList = '\n' :: "END".toList ++ ['\n'] := by decide
  rw [open_, close]
  simp

/-- OpenVPN asks for a signature of a text that its message holds: it gets the one that
`getSignedData` gives, whole. -/
theorem signature_completes (callbacks : Callbacks) (idle : Idle s) {b64Data signed : Text} (data : Word b64Data)
    (size : b64Data.length ≤ 1268) (plain : Word signed) (nonempty : signed ≠ []) (other : signed ≠ "END".toList)
    (short : signed.length ≤ bufLen - readSize) {admits : Surroundings → Prop}
    (signs : ∀ env, admits env → env.getSignedData b64Data = some signed)
    (possible : ∃ env, admits env) :
    Completes callbacks admits s (.pkSig b64Data) s.thread (.signature (some signed)) := by
  have version := idle.version
  have prompt : signPrompt s.openvpn.man = "PK_SIGN".toList := by
    rw [signPrompt, if_neg (by omega)]
  have fits : ('>' :: signPrompt s.openvpn.man ++ ':' :: b64Data).length + 2 < errBufSize := by
    have name : "PK_SIGN".toList.length = 7 := by decide
    simp only [prompt, List.length_append, List.length_cons, name, errBufSize]
    omega
  have begins : Begins callbacks signLoop s (.pkSig b64Data) _ _ := sign_begins idle fits
  rw [prompt] at begins
  have asks : ∀ env, admits env →
      ManagementReplies.processCommand env (decoded ('>' :: "PK_SIGN".toList ++ ':' :: b64Data)) s.thread =
        { s.thread with outbox := ["pk-sig\n".toList, signed, "\nEND\n".toList] } := by
    intro env admitted
    rw [decoded_ascii (alert_ascii data), processCommand_sign (signs env admitted), idle.outbox]
    rfl
  have chain : Chain callbacks signLoop (queryPkSig b64Data s.openvpn).man _ _ := sign_chain idle plain other short
  have closing : Ignored ("SUCCESS: ".toList ++ signCmd s.openvpn.man ++ " command succeeded".toList) := by
    rw [signCmd, if_neg (by omega)]
    exact ignored_of_head (by decide) (by decide +kernel)
  have written : ∀ cmd ∈ ["pk-sig\n".toList, signed, "\nEND\n".toList], cmd ≠ [] := by
    simp only [List.forall_mem_cons, List.not_mem_nil, false_implies, implies_true, and_true]
    exact ⟨by decide, nonempty, by decide⟩
  have exchange := chain.exchange (by simp) (sign_commands signed) written idle.halt idle.unsignalled idle.version rfl rfl
    ⟨_, rfl, List.forall_mem_singleton.mpr closing⟩
  have result : signLoop.result (serve (processLine callbacks) Management.halt (queryPkSig b64Data s.openvpn).man
      ((["pk-sig".toList, signed, "END".toList].map getBytes).map chars)) = .signature (some signed) := by
    rw [chain.texts (List.Subset.refl _), chain.reaches]
    exact congrArg Result.signature (flatten_one nonempty)
  have completes := loop_completes s.thread idle signLoop_lawful begins idle.running exchange possible asks result
  rw [← idle.outbox] at completes
  exact completes

/-- A short signature. -/
theorem signature_completes_short :
    Completes {} (fun env => env.getSignedData "Zm9v".toList = some "YmFy".toList) (opened { mUuid := ⟨0, 0⟩ })
      (.pkSig "Zm9v".toList) { mProfile := { mUuid := ⟨0, 0⟩ }, outbox := [] } (.signature (some "YmFy".toList)) :=
  signature_completes {} (opened_idle _) (by decide) (by decide) (by decide) (by decide) (by decide) (by decide)
    (fun _ => id) ⟨{ getSignedData := fun _ => some "YmFy".toList }, rfl⟩

end RRoadVpn.Proofs.QueriesComplete
