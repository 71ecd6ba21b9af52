import RRoadVpn.ManagementChannel
import RRoadVpn.Proofs.CachedPasswords
import RRoadVpn.Proofs.WrittenLines

/-! What the app writes to OpenVPN: every write is a known command, a part of a signature,
or carries a secret of the kind its command asks for. -/

namespace RRoadVpn.Proofs.ChannelWrites
open Library ReplyTexts WrittenLines CachedPasswords
open JavaText (Text)
open ManagementReplies (Thread Surroundings credentialCommand)
open NeedOk (Handling State Steps)

/-! ### Answers to NEED-OK -/

def statuses : List String := ["ok", "cancel", "NOACTION", "OPEN_BEFORE_CLOSE", "OPEN_AFTER_CLOSE"]

def Answers (request status : Text) : Prop :=
  request ∈ NeedOk.Request.all.map (·.2.toList) ∧ status ∈ statuses.map String.toList

def Answered (s : State) : Prop := ∀ w ∈ s.written, ∃ request status, Answers request status ∧
    w = NeedOk.needok request status

private theorem keeps_runtime {α : Type} (result : Except ConfigParser.RuntimeException α) :
    Keeps Answered (NeedOk.runtime result) := by
  cases result with
  | ok a => exact .pure a
  | error e => exact .throw _

private theorem keeps_lenFromMask (mask : Text) : Keeps Answered (NeedOk.lenFromMask mask) := by
  unfold NeedOk.lenFromMask
  split
  · exact .pure _
  · exact .throw _
  · exact .throw _

private theorem keeps_local {f : State → State} (same : ∀ s, (f s).written = s.written) :
    Keeps Answered (modify f : Handling Unit) := by
  refine .modify fun s held => ?_
  rw [Answered, same]
  exact held

private theorem keeps_needok {request status : Text} (answers : Answers request status) :
    Keeps Answered (NeedOk.managmentCommand (NeedOk.needok request status)) := by
  refine .modify fun s held w member => ?_
  rcases List.mem_append.mp member with old | new
  · exact held w old
  · exact ⟨request, status, answers, List.mem_singleton.mp new⟩

private theorem keeps_addRoute (dest mask gateway : Text) : Keeps Answered (NeedOk.addRoute dest mask gateway) := by
  refine (keeps_lenFromMask mask).bind fun _ => (keeps_runtime _).bind fun _ => Keeps.get.bind fun s => ?_
  cases s.mLocalIP with
  | none => exact .pure ()
  | some mLocalIP => exact (keeps_runtime _).bind fun _ => (keeps_runtime _).bind fun _ => .pure ()

variable (steps : Steps)

private theorem keeps_addRoutev6 (network : Text) : Keeps Answered (NeedOk.addRoutev6 steps network) := by
  refine (keeps_runtime _).bind fun host => ?_
  cases steps.getAllByName host with
  | UnknownHost => exact .pure ()
  | Inet4Address => exact .throw _
  | Inet6Address => exact (keeps_runtime _).bind fun _ => (keeps_runtime _).bind fun _ => .pure ()

private theorem keeps_push (extra : Text) (request : NeedOk.Request) :
    Keeps Answered (NeedOk.push steps extra request) := by
  cases request with
  | ROUTE =>
    unfold NeedOk.push
    dsimp only
    split
    · exact keeps_addRoute _ _ _
    · exact .pure ()
  | ROUTE6 =>
    exact (keeps_runtime _).bind fun _ => (keeps_runtime _).bind fun _ => keeps_addRoutev6 steps _
  | IFCONFIG =>
    refine (keeps_runtime _).bind fun _ => (keeps_runtime _).bind fun _ => (keeps_runtime _).bind fun _ =>
      (keeps_runtime _).bind fun _ => (keeps_runtime _).bind fun _ => ?_
    refine (keeps_lenFromMask _).bind fun _ => Keeps.bind ?_ fun _ => (keeps_runtime _).bind fun _ => keeps_runtime _
    exact keeps_local fun _ => rfl
  | IFCONFIG6 => exact (keeps_runtime _).bind fun _ => (keeps_runtime _).bind fun _ => .pure ()
  | _ => exact .pure ()

private theorem keeps_openTun : Keeps Answered (NeedOk.openTun steps) := by
  unfold NeedOk.openTun
  split
  · exact .pure _
  · exact .throw _
  · refine Keeps.bind ?_ fun _ => .pure _
    exact keeps_local fun _ => rfl

private theorem keeps_step (e : Option NeedOk.SendException) : Keeps Answered (NeedOk.step e) := by
  cases e with
  | none => exact .pure ()
  | some e => exact .throw e

private theorem keeps_sendTunFD {needed : Text} (known : Answers needed "ok".toList) (extra : Text) :
    Keeps Answered (NeedOk.sendTunFD steps needed extra) := by
  have sends : Keeps Answered (NeedOk.sendFD steps needed) := by
    refine (keeps_step _).bind fun _ => (keeps_step _).bind fun _ => ?_
    refine Keeps.bind ?_ fun _ => (keeps_step _).bind fun _ => keeps_step _
    refine .modify fun s held w member => ?_
    rcases List.mem_append.mp member with old | new
    · exact held w old
    · exact ⟨needed, _, known, List.mem_singleton.mp new⟩
  have catches (result : Except NeedOk.SendException Unit) : Keeps Answered (NeedOk.caught result) := by
    cases result with
    | ok _ => exact .pure true
    | error e =>
      rw [NeedOk.caught]
      split
      · exact .throw _
      · exact .pure false
  unfold NeedOk.sendTunFD
  split
  · exact .pure false
  · refine (keeps_openTun steps).bind fun pfd => ?_
    split
    · exact sends.run.bind catches
    · exact .pure false

private theorem keeps_processNeedCommand (argument : Text) :
    Keeps Answered (NeedOk.processNeedCommand steps argument) := by
  refine (keeps_runtime _).bind fun needed => (keeps_runtime _).bind fun extra => ?_
  cases found : NeedOk.Request.ofText needed with
  | none => exact .pure ()
  | some request =>
    have known : needed ∈ NeedOk.Request.all.map (·.2.toList) := by
      obtain ⟨entry, there, -⟩ := Option.map_eq_some_iff.mp found
      have same := List.find?_some there
      exact List.mem_map.mpr ⟨entry, List.mem_of_find?_eq_some there, by simpa using same⟩
    have status (status : String) (member : status ∈ statuses) : Answers needed status.toList :=
      ⟨known, List.mem_map_of_mem member⟩
    cases request with
    | OPENTUN =>
      refine (keeps_sendTunFD steps (status "ok" (by decide)) extra).bind fun answered => ?_
      split
      · exact .pure ()
      · exact keeps_needok (status "cancel" (by decide))
    | PERSIST_TUN_ACTION =>
      refine keeps_needok ?_
      cases steps.getTunReopenStatus
      · exact status "NOACTION" (by decide)
      · exact status "OPEN_BEFORE_CLOSE" (by decide)
      · exact status "OPEN_AFTER_CLOSE" (by decide)
    | _ => exact (keeps_push steps extra _).bind fun _ => keeps_needok (status "ok" (by decide))

/-! ### Commands -/

/-- The other commands, each with what stands behind its name. -/
def others : List (String × String) :=
  [("version", " 2"), ("hold", " release"), ("bytecount", " 2"), ("state", " on"), ("network-change", ""),
    ("network-change", " samenetwork"), ("signal", " SIGUSR1"), ("signal", " SIGINT"), ("pk-sig", "")]

section Secrets

variable (p : LoginProfile) (entered : Kind → Text → Prop)

/-- What a command with this name may carry for this type: what the profile stores, or what
the user entered for it. -/
inductive Secret : Text → Text → Text → Prop where
  | key {v} (known : entered .key v ∨ storedKey p = some v) : Secret "password".toList "Private Key".toList v
  | auth {v} (known : entered .auth v ∨ p.mPassword = v) : Secret "password".toList "Auth".toList v
  | user {v} (known : p.mUsername = some v) : Secret "username".toList "Auth".toList v
  | proxy {conn v} (known : conn ∈ p.mConnections) (stored : conn.mProxyAuthPassword = some v) :
    Secret "password".toList "HTTP Proxy".toList v.toList
  | proxyUser {conn v} (known : conn ∈ p.mConnections) (stored : conn.mProxyAuthUser = some v) :
    Secret "username".toList "HTTP Proxy".toList v.toList

/-- The commands of the app. -/
inductive Said : Text → Text → Prop where
  | credential {name needed value} (secret : Secret p entered name needed value) :
    Said name (" '".toList ++ needed ++ "' ".toList ++ VpnProfile.escape value)
  | needok {request status} (answers : Answers request status) :
    Said "needok".toList (" '".toList ++ request ++ "' ".toList ++ status)
  | proxy {args} (line : '\n' ∉ args) : Said "proxy".toList (' ' :: args)
  | other {word tail} (known : (word, tail) ∈ others) : Said word.toList tail.toList

end Secrets

variable {p : LoginProfile} {entered : Kind → Text → Prop}

theorem Secret.typed {name needed value : Text} (secret : Secret p entered name needed value) :
    Typed name needed := by
  cases secret <;> exact typed_of_check (by decide)

private theorem Secret.word {name needed value : Text} (secret : Secret p entered name needed value) : Word name := by
  cases secret <;> decide

theorem Secret.name {name needed value : Text} (secret : Secret p entered name needed value) :
    name = "username".toList ∨ name = "password".toList := by
  cases secret with
  | user | proxyUser => exact .inl rfl
  | _ => exact .inr rfl

private theorem typed_body {name type tail : Text} (h : Typed name type) (word : Word name) (line : '\n' ∉ tail) :
    Body name (" '".toList ++ type ++ "' ".toList ++ tail) := by
  refine ⟨h.nonempty, word, .inr ⟨_, rfl⟩, ?_⟩
  simp only [List.mem_append, not_or]
  refine ⟨⟨⟨by decide, fun member => ?_⟩, by decide⟩, line⟩
  exact printable_ne (h.printable _ (List.mem_append_right _ member)) (d := '\n') (by decide) rfl

theorem Answers.typed {request status : Text} (answers : Answers request status) : Typed "needok".toList request := by
  obtain ⟨entry, member, rfl⟩ := List.mem_map.mp answers.1
  have checked : (NeedOk.Request.all.all fun entry => typedCheck "needok".toList entry.2.toList) = true := by decide
  exact typed_of_check (List.all_eq_true.mp checked entry member)

theorem Answers.status {request status : Text} (answers : Answers request status) :
    Word status ∧ VpnProfile.escape status = status ∧ status ≠ [] ∧ status.length ≤ 127 := by
  obtain ⟨text, member, rfl⟩ := List.mem_map.mp answers.2
  have checked : (statuses.all fun text => decide (Word text.toList ∧ VpnProfile.escape text.toList = text.toList ∧
      text.toList ≠ [] ∧ text.toList.length ≤ 127)) = true := by decide
  exact of_decide_eq_true (List.all_eq_true.mp checked text member)

private theorem Said.body {word tail : Text} (said : Said p entered word tail) : Body word tail := by
  cases said with
  | credential secret => exact typed_body secret.typed secret.word (line_not_mem_escape _)
  | needok answers => exact typed_body answers.typed (by decide) answers.status.1.line
  | proxy line => exact ⟨by decide, by decide, .inr ⟨_, rfl⟩, by simpa using line⟩
  | @other word tail known =>
    have checked : (others.all fun entry => !entry.1.toList.isEmpty && entry.1.toList.all wordChar &&
        (entry.2.toList.isEmpty || entry.2.toList.head? == some ' ') && !entry.2.toList.contains '\n') = true :=
          by decide
    have here := List.all_eq_true.mp checked _ known
    simp only [Bool.and_eq_true, Bool.or_eq_true, Bool.not_eq_true', List.isEmpty_eq_false_iff, List.isEmpty_iff,
      beq_iff_eq, List.contains_eq_mem, decide_eq_false_iff_not] at here
    obtain ⟨⟨⟨nonempty, plain⟩, separated⟩, line⟩ := here
    exact ⟨nonempty, plain, separated.imp_right List.head?_eq_some_iff.mp, line⟩

abbrev AppWrite (p : LoginProfile) (entered : Kind → Text → Prop) : Text → Prop :=
  Write (Said p entered)

private theorem said_write {word tail : Text} (said : Said p entered word tail) :
    AppWrite p entered (word ++ tail ++ ['\n']) := .line said.body said

theorem other_write (word tail : String) (known : (word, tail) ∈ others) :
    AppWrite p entered (word.toList ++ tail.toList ++ ['\n']) := said_write (.other known)

private theorem credential_write {name needed value : Text} (secret : Secret p entered name needed value) :
    AppWrite p entered (credentialCommand name needed value) := by
  have here : AppWrite p entered _ := said_write (.credential secret)
  rw [credentialCommand]
  simpa only [List.append_assoc] using here

theorem needok_eq (request status : Text) : NeedOk.needok request status =
    "needok".toList ++ (" '".toList ++ request ++ "' ".toList ++ status) ++ ['\n'] := by
  have name : "needok '".toList = "needok".toList ++ " '".toList := by decide
  unfold NeedOk.needok
  rw [name]
  simp only [List.append_assoc]

private theorem needok_write {request status : Text} (answers : Answers request status) :
    AppWrite p entered (NeedOk.needok request status) := by
  rw [needok_eq]
  exact said_write (.needok answers)

/-! ### The threads -/

/-- What stays true of the thread. -/
structure ThreadValid (p : LoginProfile) (entered : Kind → Text → Prop) (t : Thread) : Prop where
  profile : t.mProfile = p
  connection : ∀ conn, t.mCurrentProxyConnection = some conn → conn ∈ p.mConnections
  cache : ∀ kind v, cached kind p.mUuid t.mInstance = some v → entered kind v
  outbox : ∀ w ∈ t.outbox, AppWrite p entered w
  uiOutbox : ∀ w ∈ t.uiOutbox, AppWrite p entered w

theorem cached_access {kind : Kind} {uuid : UUID} {mInstance : Option PasswordCache} {a : PasswordCache.Access}
    {v : Text}
    (found : cached kind uuid (PasswordCache.access mInstance a) = some v) :
    Enters kind uuid (some v) a ∨ cached kind uuid mInstance = some v := by
  rcases access_cases kind uuid mInstance a with ⟨password, enters, after⟩ | ⟨-, after⟩ | ⟨-, -, after⟩
  · rw [found] at after
    exact .inl (after ▸ enters)
  · exact .inr (after ▸ found)
  · rw [found] at after
    cases after

private theorem credentials_valid {t : Thread} (valid : ThreadValid p entered t) (needed : Text) :
    (∀ w ∈ ManagementReplies.credentialCommands needed (ManagementReplies.credentials needed t).1
      (ManagementReplies.credentials needed t).2.1, AppWrite p entered w) ∧
    ∀ kind v, cached kind p.mUuid (ManagementReplies.credentials needed t).2.2 = some v → entered kind v := by
  -- The commands for a password and a user name that are known for the type.
  have commands (pw username : Option Text)
      (password : ∀ v, pw = some v → Secret p entered "password".toList needed v)
      (user : ∀ v, username = some v → Secret p entered "username".toList needed v) :
      ∀ w ∈ ManagementReplies.credentialCommands needed pw username, AppWrite p entered w := by
    intro w member
    cases pw with
    | none => cases member
    | some pw =>
      simp only [ManagementReplies.credentialCommands, List.mem_append, List.mem_singleton] at member
      rcases member with named | rfl
      · obtain ⟨v, some_, rfl⟩ := Option.map_eq_some_iff.mp (Option.mem_toList.mp named)
        exact credential_write (user v some_)
      · exact credential_write (password pw rfl)
  rw [ManagementReplies.credentials]
  split
  next key =>
    subst key
    refine ⟨commands _ _ (fun v told => .key ?_) (fun _ none => by cases none), fun kind v found => ?_⟩
    · rw [valid.profile, getPasswordPrivateKey_eq] at told
      exact ((or_eq_some).mp told).imp (valid.cache .key v) And.right
    · refine (cached_access (a := .getPasswordPrivateKey t.mProfile) found).elim (fun never => never.elim)
        (valid.cache kind v)
  · split
    next auth =>
      subst auth
      refine ⟨commands _ _ (fun v told => .auth ?_) (fun v named => .user (valid.profile ▸ named)),
        fun kind v found => ?_⟩
      · rw [valid.profile, getPasswordAuth_eq] at told
        exact ((or_eq_some).mp told).imp (valid.cache .auth v) fun stored => Option.some.inj stored.2
      · refine (cached_access (a := .getPasswordAuth t.mProfile) found).elim (fun never => never.elim)
          (valid.cache kind v)
    · split
      next proxyType =>
        subst proxyType
        refine ⟨commands _ _ (fun v told => ?_) (fun v named => ?_), valid.cache⟩
        · obtain ⟨text, known, rfl⟩ := Option.map_eq_some_iff.mp told
          obtain ⟨conn, current, stored⟩ := Option.bind_eq_some_iff.mp known
          exact .proxy (valid.connection conn current) stored
        · obtain ⟨text, known, rfl⟩ := Option.map_eq_some_iff.mp named
          obtain ⟨conn, current, stored⟩ := Option.bind_eq_some_iff.mp known
          exact .proxyUser (valid.connection conn current) stored
      · exact ⟨commands none none (fun _ none => by cases none) (fun _ none => by cases none), valid.cache⟩

/-! ### Proxies -/

/-- No name and no port of a proxy in the profile has a line break. -/
def ProxyLines (p : LoginProfile) : Prop :=
  ∀ conn ∈ p.mConnections, '\n' ∉ conn.mProxyName.toList ∧ '\n' ∉ conn.mProxyPort.toList

private theorem line_not_mem_natText (n : Nat) : '\n' ∉ (toString n).toList := by
  intro member
  have digit : '\n' ∈ Nat.toDigits 10 n := by simpa using member
  exact absurd (Nat.isDigit_of_mem_toDigits (by decide) (by decide) digit) (by decide)

private theorem line_not_mem_intText (i : Int) : '\n' ∉ (toString i).toList := by
  cases i with
  | ofNat n => exact line_not_mem_natText n
  | negSucc n =>
    have shown : (toString (Int.negSucc n)).toList = '-' :: (toString (n + 1)).toList := by
      simp [toString, Int.repr]
    rw [shown, List.mem_cons, not_or]
    exact ⟨by decide, line_not_mem_natText (n + 1)⟩

private theorem sendProxyCMD_write {proxyType : ProxyType} {proxyname proxyport : Option String} {usePwAuth : Bool}
    (name : ∀ text, proxyname = some text → '\n' ∉ text.toList)
    (port : ∀ text, proxyport = some text → '\n' ∉ text.toList) {cmd : String}
    (sent : ProxyQuery.sendProxyCMD proxyType proxyname proxyport usePwAuth = .managmentCommand cmd) :
    AppWrite p entered cmd.toList := by
  have none_ : AppWrite p entered "proxy NONE\n".toList :=
    said_write (@Said.proxy p entered "NONE".toList (by decide))
  unfold ProxyQuery.sendProxyCMD at sent
  split at sent
  next text =>
    split at sent
    · cases sent
      exact none_
    · cases sent
      have ports : '\n' ∉ (proxyport.getD "null").toList := by
        cases proxyport with
        | none => decide
        | some text => exact port text rfl
      have kinds : '\n' ∉ (if proxyType = .HTTP then "HTTP" else "SOCKS").toList := by split <;> decide
      have auto : '\n' ∉ (if usePwAuth then " auto" else "").toList := by split <;> decide
      have args : '\n' ∉ (if proxyType = .HTTP then "HTTP" else "SOCKS").toList ++ " ".toList ++ text.toList ++
          " ".toList ++ (proxyport.getD "null").toList ++ (if usePwAuth then " auto" else "").toList := by
        simp only [List.mem_append, not_or]
        exact ⟨⟨⟨⟨⟨kinds, by decide⟩, name text rfl⟩, by decide⟩, ports⟩, auto⟩
      have here : AppWrite p entered _ := said_write (.proxy args)
      simpa using here
  · cases sent
    exact none_

private theorem sendOrbotProxy_valid {t : Thread} (valid : ThreadValid p entered t) {socksHost : String}
    (line : '\n' ∉ socksHost.toList) (socksPort : Int) :
    ThreadValid p entered (ManagementReplies.sendOrbotProxy socksHost socksPort t) := by
  unfold ManagementReplies.sendOrbotProxy
  split
  · exact valid
  next cmd sent =>
    have written : AppWrite p entered cmd.toList :=
      sendProxyCMD_write (fun text same => Option.some.inj same ▸ line)
        (fun text same => Option.some.inj same ▸ line_not_mem_intText socksPort) sent
    exact ⟨valid.profile, valid.connection, valid.cache, valid.outbox,
      List.forall_mem_append.mpr ⟨valid.uiOutbox, List.forall_mem_singleton.mpr written⟩⟩

theorem onOrbotReady_valid {t : Thread} (valid : ThreadValid p entered t) {socksHost : String}
    (line : '\n' ∉ socksHost.toList) (socksPort : Int) :
    ThreadValid p entered (ManagementReplies.onOrbotReady socksHost socksPort t) := by
  unfold ManagementReplies.onOrbotReady
  split
  · have unregistered : ThreadValid p entered { t with orbotTimeOuts := 0, statusCallback := false } :=
      ⟨valid.profile, valid.connection, valid.cache, valid.outbox, valid.uiOutbox⟩
    refine sendOrbotProxy_valid unregistered ?_ socksPort
    split
    · decide
    · exact line
  · exact valid

theorem orbotStatusTimeOutRunnable_valid {t : Thread} (valid : ThreadValid p entered t) :
    ThreadValid p entered (ManagementReplies.orbotStatusTimeOutRunnable t) := by
  unfold ManagementReplies.orbotStatusTimeOutRunnable
  split
  · exact valid
  · have unregistered : ThreadValid p entered
        { t with orbotTimeOuts := t.orbotTimeOuts - 1, statusCallback := false } :=
      ⟨valid.profile, valid.connection, valid.cache, valid.outbox, valid.uiOutbox⟩
    exact sendOrbotProxy_valid unregistered (by decide) _

theorem answer_write {detectProxy : Option (String × Nat)}
    (system : ∀ host port, detectProxy = some (host, port) → '\n' ∉ host.toList) {connection : Option Connection}
    (lines : ∀ conn, connection = some conn → '\n' ∉ conn.mProxyName.toList ∧ '\n' ∉ conn.mProxyPort.toList)
    {args : List Text} {cmd : String}
    (sent : ProxyQuery.answer detectProxy connection args = .managmentCommand cmd) :
    AppWrite p entered cmd.toList := by
  have stored (text : String) :
      (connection.map Connection.mProxyName = some text → '\n' ∉ text.toList) ∧
        (connection.map Connection.mProxyPort = some text → '\n' ∉ text.toList) := by
    constructor
    · intro same
      obtain ⟨conn, here, rfl⟩ := Option.map_eq_some_iff.mp same
      exact (lines conn here).1
    · intro same
      obtain ⟨conn, here, rfl⟩ := Option.map_eq_some_iff.mp same
      exact (lines conn here).2
  unfold ProxyQuery.answer at sent
  dsimp only at sent
  -- With the name and port of the connection, or with those that were detected.
  split at sent
  next host port detected =>
    dsimp only at sent
    split at sent
    · cases sent
    · refine sendProxyCMD_write ?_ ?_ sent
      · intro text same
        split at same
        · cases same
        · cases same
          exact system host port rfl
      · intro text same
        cases same
        exact line_not_mem_natText port
  next =>
    dsimp only at sent
    split at sent
    · cases sent
    · refine sendProxyCMD_write ?_ (fun text same => (stored text).2 same) sent
      intro text same
      split at same
      · cases same
      · exact (stored text).1 same

private theorem processProxyCMD_valid {t : Thread} (valid : ThreadValid p entered t) (proxies : ProxyLines p)
    {detectProxy : Option (String × Nat)}
    (system : ∀ host port, detectProxy = some (host, port) → '\n' ∉ host.toList) (argument : Text) :
    ThreadValid p entered (ManagementReplies.processProxyCMD detectProxy argument t) := by
  unfold ManagementReplies.processProxyCMD
  split
  · exact ⟨valid.profile, valid.connection, valid.cache, valid.outbox, valid.uiOutbox⟩
  next found answered =>
    have looked : ∃ connection : Option Connection, (∀ conn, connection = some conn → conn ∈ p.mConnections) ∧
        found.reply = ProxyQuery.answer detectProxy connection (ProxyQuery.split 3 argument) := by
      unfold ProxyQuery.processProxyCMD at answered
      obtain ⟨number, -, answered⟩ := Option.bind_eq_some_iff.mp answered
      dsimp only at answered
      split at answered
      · split at answered
        · cases answered
        · cases answered
          exact ⟨_, fun conn there => valid.profile ▸ List.mem_of_getElem? there, rfl⟩
      · cases answered
        exact ⟨none, fun conn none => (by cases none), rfl⟩
    have current : ∀ conn, (found.mCurrentProxyConnection.bind (t.mProfile.mConnections[·]?)).or
        t.mCurrentProxyConnection = some conn → conn ∈ p.mConnections := by
      intro conn same
      rcases Option.or_eq_some_iff.mp same with looked | ⟨-, old⟩
      · obtain ⟨i, -, there⟩ := Option.bind_eq_some_iff.mp looked
        exact valid.profile ▸ List.mem_of_getElem? there
      · exact valid.connection conn old
    obtain ⟨connection, member, reply⟩ := looked
    dsimp only
    split
    · exact ⟨valid.profile, current, valid.cache, valid.outbox, valid.uiOutbox⟩
    next cmd sent =>
      have written : AppWrite p entered cmd.toList :=
        answer_write system (fun conn here => proxies conn (member conn here)) (reply.symm.trans sent)
      exact ⟨valid.profile, current, valid.cache,
        List.forall_mem_append.mpr ⟨valid.outbox, List.forall_mem_singleton.mpr written⟩, valid.uiOutbox⟩

/-! ### Lines -/

theorem processCommand_valid {env : Surroundings} (signs : ∀ data b64, env.getSignedData data = some b64 → Word b64)
    (proxies : ProxyLines p) (system : ∀ host port, env.detectProxy = some (host, port) → '\n' ∉ host.toList)
    {t : Thread} (valid : ThreadValid p entered t) (command : Text) :
    ThreadValid p entered (ManagementReplies.processCommand env command t) := by
  have framed {after : Thread} (profile : after.mProfile = t.mProfile)
      (connection : after.mCurrentProxyConnection = t.mCurrentProxyConnection)
      (cache : ∀ kind v, cached kind p.mUuid after.mInstance = some v → entered kind v) (commands : List Text)
      (outbox : after.outbox = t.outbox ++ commands) (uiOutbox : after.uiOutbox = t.uiOutbox)
      (written : ∀ w ∈ commands, AppWrite p entered w) : ThreadValid p entered after :=
    ⟨profile.trans valid.profile, by rw [connection]; exact valid.connection, cache,
      by rw [outbox]; exact List.forall_mem_append.mpr ⟨valid.outbox, written⟩,
        by rw [uiOutbox]; exact valid.uiOutbox⟩
  have silent {after : Thread} (profile : after.mProfile = t.mProfile)
      (connection : after.mCurrentProxyConnection = t.mCurrentProxyConnection) (cache : after.mInstance = t.mInstance)
      (outbox : after.outbox = t.outbox) (uiOutbox : after.uiOutbox =
        t.uiOutbox) : ThreadValid p entered after :=
    framed profile connection (by rw [cache]; exact valid.cache) [] (by rw [outbox, List.append_nil]) uiOutbox
      (by simp)
  unfold ManagementReplies.processCommand
  split
  next rest argument _ =>
    split
    · unfold ManagementReplies.processPWCommand
      split
      · exact valid
      · split
        · exact valid
        next needed _ =>
          split
          · exact valid
          · obtain ⟨commands, cache⟩ := credentials_valid valid needed
            exact framed rfl rfl cache _ rfl rfl commands
    · unfold ManagementReplies.handleHold
      dsimp only
      split <;> exact silent rfl rfl rfl rfl rfl
    · have answered := keeps_processNeedCommand env.steps argument { mLocalIP := t.mLocalIP, written := [] }
          (by simp [Answered])
      refine framed rfl rfl valid.cache _ rfl rfl fun w member => ?_
      obtain ⟨request, status, answers, rfl⟩ := answered w member
      exact needok_write answers
    · exact processProxyCMD_valid valid proxies system argument
    · unfold ManagementReplies.processSignCommand
      have sign : AppWrite p entered "pk-sig\n".toList := other_write "pk-sig" "" (by decide)
      split
      · refine framed rfl rfl valid.cache _ rfl rfl ?_
        have kill : AppWrite p entered "signal SIGINT\n".toList :=
          other_write "signal" " SIGINT" (by decide)
        rw [List.forall_mem_cons, List.forall_mem_cons, List.forall_mem_singleton]
        exact ⟨sign, .ends, kill⟩
      next signed found =>
        refine framed rfl rfl valid.cache _ rfl rfl ?_
        rw [List.forall_mem_cons, List.forall_mem_cons, List.forall_mem_singleton]
        exact ⟨sign, .signed (signs _ _ found), .ends⟩
    · exact valid
  · exact valid

theorem uiWrites {t : Thread} (valid : ThreadValid p entered t) {after : Thread}
    (commands : List (String × String))
    (profile : after.mProfile = t.mProfile) (connection : after.mCurrentProxyConnection = t.mCurrentProxyConnection)
    (cache : after.mInstance = t.mInstance) (outbox : after.outbox = t.outbox)
    (known : ∀ c ∈ commands, c ∈ others)
    (uiOutbox : after.uiOutbox = t.uiOutbox ++ commands.map fun c => c.1.toList ++ c.2.toList ++ ['\n']) :
    ThreadValid p entered after := by
  refine ⟨profile.trans valid.profile, by rw [connection]; exact valid.connection, by rw [cache]; exact valid.cache,
    by rw [outbox]; exact valid.outbox, ?_⟩
  rw [uiOutbox, List.forall_mem_append]
  refine ⟨valid.uiOutbox, fun w member => ?_⟩
  obtain ⟨c, inside, rfl⟩ := List.mem_map.mp member
  exact other_write c.1 c.2 (known c inside)

private theorem releaseHoldCmd_valid {t : Thread} (valid : ThreadValid p entered t) :
    ThreadValid p entered (ManagementReplies.releaseHoldCmd t) :=
  uiWrites valid [("hold", " release"), ("bytecount", " 2"), ("state", " on")] rfl rfl rfl rfl (by decide)
    (congrArg (t.uiOutbox ++ ·) (by decide))

theorem releaseHold_valid {t : Thread} (valid : ThreadValid p entered t) :
    ThreadValid p entered (ManagementReplies.releaseHold t) := by
  rw [ManagementReplies.releaseHold]
  split
  · exact releaseHoldCmd_valid valid
  · exact valid

theorem mResumeHoldRunnable_valid {t : Thread} (valid : ThreadValid p entered t) (shouldBeRunning : Bool) :
    ThreadValid p entered (ManagementReplies.mResumeHoldRunnable shouldBeRunning t) := by
  rw [ManagementReplies.mResumeHoldRunnable]
  split
  · exact releaseHoldCmd_valid valid
  · exact valid

theorem networkChange_valid {t : Thread} (valid : ThreadValid p entered t) (samenetwork : Bool) :
    ThreadValid p entered (ManagementReplies.networkChange samenetwork t) := by
  rw [ManagementReplies.networkChange]
  split
  · exact releaseHold_valid valid
  · split
    · exact uiWrites valid [("network-change", " samenetwork")] rfl rfl rfl rfl (by decide) rfl
    · exact uiWrites valid [("network-change", "")] rfl rfl rfl rfl (by decide) rfl

theorem signalusr1_valid {t : Thread} (valid : ThreadValid p entered t) :
    ThreadValid p entered (ManagementReplies.signalusr1 t) := by
  rw [ManagementReplies.signalusr1]
  split
  · exact valid
  · exact uiWrites valid [("signal", " SIGUSR1")] rfl rfl rfl rfl (by decide) rfl

theorem stopOpenVPN_valid {t : Thread} (valid : ThreadValid p entered t) :
    ThreadValid p entered (ManagementReplies.stopOpenVPN t) :=
  uiWrites valid [("signal", " SIGINT")] rfl rfl rfl rfl (by decide) rfl

end RRoadVpn.Proofs.ChannelWrites
