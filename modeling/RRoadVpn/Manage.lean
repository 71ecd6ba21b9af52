import RRoadVpn.ManRead
import RRoadVpn.ParseLine

/-! OpenVPN's end of the management channel, manage.c as it is built for Android: the
commands of the client, and the three loops in which OpenVPN waits for one. -/

namespace RRoadVpn.Manage
open JavaText ManRead

/-! ### State -/

inductive Signal where
  | sigint
  | sigterm
  | sighup
  | sigusr1
  | sigusr2
  deriving DecidableEq, Repr

inductive QueryMode where
  | disabled
  | userPass
  | pass
  | needOk
  | needStr
  deriving DecidableEq, Repr

/-- `struct user_pass`, as far as the management interface fills it. -/
structure UserPass where
  defined : Bool := false
  username : Text := []
  password : Text := []
  deriving DecidableEq, Repr

inductive InExtraCmd where
  | undef
  | pkSign
  | certificate
  deriving DecidableEq, Repr

inductive KeyState where
  | undef
  | solicit
  | input
  | ready
  deriving DecidableEq, Repr

structure ProxyServer where
  server : Text
  port : Text
  /-- PAR_NCT, for an HTTP proxy. -/
  nct : Bool := false
  deriving DecidableEq, Repr

/-- `options.ce`, as far as the proxy command reaches it. -/
structure ConnectionEntry where
  /-- PROTO_TCP or PROTO_TCP_CLIENT. -/
  tcp : Bool := false
  /-- CE_MAN_QUERY_PROXY. -/
  manQueryProxy : Bool := false
  httpProxy : Option ProxyServer := none
  socksProxy : Option ProxyServer := none
  deriving DecidableEq, Repr

/-- `struct management`, with the signal that `throw_signal` leaves for the loops and the
entry that the process connects to. -/
structure Management where
  /-- MF_HOLD. -/
  hold : Bool := true
  /-- MANSIG_IGNORE_USR1_HUP. -/
  ignoreUsr1Hup : Bool := false
  mapUsr1ToHup : Bool := false
  mapUsr1ToTerm : Bool := false
  holdRelease : Bool := false
  specialStateMsg : Option Text := none
  upQueryMode : QueryMode := .disabled
  upQueryType : Option Text := none
  upQuery : UserPass := {}
  inExtra : Option (List Text) := none
  inExtraCmd : InExtraCmd := .undef
  extKeyState : KeyState := .undef
  extKeyInput : Option (List Text) := none
  extCertState : KeyState := .undef
  extCertInput : Option (List Text) := none
  clientVersion : Int := 1
  bytecountUpdateSeconds : Int := 0
  halt : Bool := false
  signalReceived : Option Signal := none
  ce : ConnectionEntry := {}
  /-- The messages for the client. -/
  out : List Text := []
  deriving DecidableEq, Repr

/-- `msg` at level M_CLIENT. -/
def msg (text : Text) (man : Management) : Management := { man with out := man.out ++ [text] }

def errBufSize : Nat := 1280

/-- The first line of these messages, as the client sees it, and how many messages are in it:
`log_entry_print` cuts a message to its buffer, and with it the end of the line. -/
def nextLine : List Text → Option (Text × Nat)
  | [] => none
  | text :: texts =>
    if text.length + 2 < errBufSize then some (text, 1)
    else
      (nextLine texts).map fun next => ((text ++ ['\r']).take (errBufSize - 1) ++ next.1, next.2 + 1)

/-- USER_PASS_LEN without PKCS#11. -/
def userPassLen : Nat := 128

def blankUp : Text := "[[BLANK]]".toList

/-- `strncpynt` into an array of so many characters. -/
def strncpynt (src : Text) (maxlen : Nat) : Text := src.take (maxlen - 1)

/-- `strtol` to base 10, which stops at the ends of a 64-bit long. -/
def strtol (s : Text) : Int :=
  let s := s.dropWhile Options.isspace
  let magnitude (digits : Text) : Int :=
    Nat.ofDigits 10 (((digits.takeWhile fun c => '0' ≤ c && c ≤ '9').map fun c => c.toNat - '0'.toNat).reverse)
  let value :=
    if s.head? = some '-' then -magnitude s.tail
    else if s.head? = some '+' then magnitude s.tail
    else magnitude s
  max (-2 ^ 63) (min value (2 ^ 63 - 1))

/-- `atoi`, as Android's C library has it: the low half of a long. -/
def atoi (s : Text) : Int := (strtol s).bmod (2 ^ 32)

/-! ### Signals -/

def signames : List (Signal × String) :=
  [(.sigint, "SIGINT"), (.sigterm, "SIGTERM"), (.sighup, "SIGHUP"), (.sigusr1, "SIGUSR1"), (.sigusr2, "SIGUSR2")]

def parseSignal (signame : Text) : Option Signal :=
  (signames.find? fun entry => entry.2.toList = signame).map Prod.fst

def signalName (sig : Signal) :
    Text := ((signames.find? fun entry => entry.1 = sig).map fun entry => entry.2.toList).getD []

/-- `none` for -1, an ignored signal. -/
def manModSignal (man : Management) (signum : Signal) : Option Signal :=
  let s := if signum = .sigusr1 then
      let s := if man.mapUsr1ToHup then .sighup else signum
      if man.mapUsr1ToTerm then .sigterm else s
    else signum
  if man.ignoreUsr1Hup && (s = .sighup || s = .sigusr1) then none else some s

def manSignal (name : Text) (man : Management) : Management :=
  match parseSignal name with
  | none => msg ("ERROR: signal '".toList ++ name ++ "' is not a known signal type".toList) man
  | some sig =>
    match manModSignal man sig with
    | some sigMod =>
      msg ("SUCCESS: signal ".toList ++ signalName sigMod ++
        " thrown".toList) { man with signalReceived := some sigMod }
    | none => msg (man.specialStateMsg.getD ("ERROR: signal '".toList ++ name ++ "' is currently ignored".toList)) man

/-! ### Answers to a query -/

def manUpFinalize (man : Management) : Management :=
  let entered := { man with upQuery := { man.upQuery with defined := true } }
  match man.upQueryMode with
  | .userPass => if man.upQuery.username = [] then man else if man.upQuery.password = [] then man else entered
  | .pass | .needOk | .needStr => if man.upQuery.password = [] then man else entered
  | .disabled => { man with upQuery := { man.upQuery with defined := false } }

/-- `man_query_user_pass`; `needed` is the type of the query if it is one that `prompt` answers. -/
def manQueryUserPass (type string : Text) (needed : Option Text) (prompt : Text) (dest : UserPass → Text → UserPass)
    (man : Management) : Management :=
  match needed with
  | some upQueryType =>
    if upQueryType = type then
      msg ("SUCCESS: '".toList ++ type ++ "' ".toList ++ prompt ++ " entered, but not yet verified".toList)
        (manUpFinalize { man with upQuery := dest man.upQuery (strncpynt string userPassLen) })
    else
      msg ("ERROR: ".toList ++ prompt ++ " of type '".toList ++ type ++
        "' entered, but we need one of type '".toList ++
        upQueryType ++ "'".toList) man
  | none => msg ("ERROR: no ".toList ++ prompt ++ " is currently needed at this time".toList) man

/-- The type that is asked for, in one of these modes. -/
def neededIn (modes : List QueryMode) (man : Management) : Option Text :=
  if modes.contains man.upQueryMode then man.upQueryType else none

def setUsername (up : UserPass) (text : Text) : UserPass := { up with username := text }

def setPassword (up : UserPass) (text : Text) : UserPass := { up with password := text }

def manQueryUsername (type string : Text) (man : Management) : Management :=
  manQueryUserPass type string (neededIn [.userPass] man) "username".toList setUsername man

def manQueryPassword (type string : Text) (man : Management) : Management :=
  manQueryUserPass type (if string = [] then blankUp else string) (neededIn [.pass, .userPass] man) "password".toList
    setPassword man

def manQueryNeedOk (type action : Text) (man : Management) : Management :=
  manQueryUserPass type action (neededIn [.needOk] man) "needok-confirmation".toList setPassword man

def manQueryNeedStr (type action : Text) (man : Management) : Management :=
  manQueryUserPass type action (neededIn [.needStr] man) "needstr-string".toList setPassword man

/-! ### The other commands -/

def manHold (cmd : Option Text) (man : Management) : Management :=
  match cmd with
  | some cmd =>
    if cmd = "on".toList then msg "SUCCESS: hold flag set to ON".toList { man with hold := true }
    else if cmd = "off".toList then msg "SUCCESS: hold flag set to OFF".toList { man with hold := false }
    else if cmd = "release".toList then msg "SUCCESS: hold release succeeded".toList { man with holdRelease := true }
    else msg "ERROR: bad hold command parameter".toList man
  | none => msg ("SUCCESS: hold=".toList ++ (if man.hold then ['1'] else ['0'])) man

def manBytecount (updateSeconds : Int) (man : Management) : Management :=
  msg "SUCCESS: bytecount interval changed".toList { man with bytecountUpdateSeconds := max updateSeconds 0 }

/-- IER_RESET. -/
def inExtraReset (man : Management) : Management := { man with inExtraCmd := .undef, inExtra := none }

/-- IER_NEW. -/
def inExtraNew (man : Management) : Management := { man with inExtra := some [] }

def manPkSig (cmdName : Text) (man : Management) : Management :=
  if man.extKeyState = .solicit then inExtraNew { man with extKeyState := .input, inExtraCmd := .pkSign }
  else msg ("ERROR: The ".toList ++ cmdName ++ " command is not currently available".toList) man

def manCertificate (man : Management) : Management :=
  if man.extCertState = .solicit then inExtraNew { man with extCertState := .input, inExtraCmd := .certificate }
  else msg "ERROR: The certificate command is not currently available".toList man

def inExtraDispatch (man : Management) : Management :=
  match man.inExtraCmd with
  | .pkSign => { man with extKeyState := .ready, extKeyInput := man.inExtra, inExtra := none }
  | .certificate => { man with extCertState := .ready, extCertInput := man.inExtra, inExtra := none }
  | .undef => inExtraReset man

/-- What the rest of the process does for a command. -/
structure Callbacks where
  /-- `persist.callback.network_change`, which returns a descriptor. -/
  networkChange : Option (Bool → Int) := none
  /-- Whether `persist.callback.proxy_cmd` is set. -/
  proxyCmd : Bool := true
  /-- What a command that reaches nothing of this state prints. -/
  replies : List Text → List Text := fun _ => []

def manNetworkChange (callbacks : Callbacks) (samenetwork : Bool) (man : Management) : Management :=
  match callbacks.networkChange with
  | none => man
  | some networkChange =>
    let fd := networkChange samenetwork
    let man := msg ("PROTECTFD: fd '".toList ++ (toString fd).toList ++ "' sent to be protected".toList) man
    if fd = -2 then manSignal "SIGUSR1".toList man else man

/-- `management_callback_proxy_cmd`, with the entry afterwards; HTTP over UDP leaves the query open. -/
def managementCallbackProxyCmd (p : List Text) (ce : ConnectionEntry) : Bool × ConnectionEntry :=
  let answered := { ce with manQueryProxy := false }
  if p.head? = some "NONE".toList then (true, answered)
  else
    match p with
    | type :: server :: port :: rest =>
      if type = "HTTP".toList then
        if ce.tcp then
          (true, { answered with httpProxy := some ⟨server, port, rest.head? == some "nct".toList⟩ })
        else (false, ce)
      else if type = "SOCKS".toList then (true, { answered with socksProxy := some ⟨server, port, false⟩ })
      else (false, answered)
    | _ => (false, answered)

def manProxy (callbacks : Callbacks) (p : List Text) (man : Management) : Management :=
  if callbacks.proxyCmd then
    let (status, ce) := managementCallbackProxyCmd p man.ce
    msg (if status then "SUCCESS: proxy command succeeded".toList else "ERROR: proxy command failed".toList)
      { man with ce }
  else msg "ERROR: The proxy command is not supported by the current daemon mode".toList man

/-! ### Commands -/

inductive Command where
  | exit
  | version
  | signal
  | networkChange
  | username
  | password
  | needok
  | needstr
  | hold
  | bytecount
  | pkSig
  | certificate
  | proxy
  deriving DecidableEq, Repr

namespace Command

def all : List (Command × String) :=
  [(exit, "exit"), (exit, "quit"), (version, "version"), (signal, "signal"), (networkChange, "network-change"),
    (username, "username"), (password, "password"), (needok, "needok"), (needstr, "needstr"), (hold, "hold"),
    (bytecount, "bytecount"), (pkSig, "rsa-sig"), (pkSig, "pk-sig"), (certificate, "certificate"),
    (proxy, "proxy")]

/-- The comparisons of `man_dispatch_command`. -/
def ofText (name : Text) : Option Command := (all.find? fun entry => entry.2.toList = name).map Prod.fst

end Command

def manNeed (name : Text) (n : Nat) (atLeast : Bool) (man : Management) : Management :=
  msg ("ERROR: the '".toList ++ name ++ "' command requires ".toList ++
    (if atLeast then "at least ".toList else []) ++ (toString n).toList ++ " parameter".toList ++
    (if n > 1 then ['s'] else [])) man

def withOne (name : Text) (p : List Text) (run : Text → Management → Management) (man : Management) : Management :=
  match p with
  | first :: _ => run first man
  | [] => manNeed name 1 false man

def withTwo (name : Text) (p : List Text) (run : Text → Text → Management → Management) (man : Management) :
    Management :=
  match p with
  | first :: second :: _ => run first second man
  | _ => manNeed name 2 false man

/-- `man_dispatch_command`; `p` holds the parameters behind the command's name. -/
def manDispatchCommand (callbacks : Callbacks) (name : Text) (p : List Text) (man : Management) : Management :=
  match Command.ofText name with
  | some .exit => { man with halt := true }
  | some .version =>
    match p with
    | version :: _ => { man with clientVersion := atoi version }
    | [] => { man with out := man.out ++ callbacks.replies [name] }
  | some .signal => withOne name p manSignal man
  | some .networkChange => manNetworkChange callbacks (p.head? == some "samenetwork".toList) man
  | some .username => withTwo name p manQueryUsername man
  | some .password => withTwo name p manQueryPassword man
  | some .needok => withTwo name p manQueryNeedOk man
  | some .needstr => withTwo name p manQueryNeedStr man
  | some .hold => manHold p.head? man
  | some .bytecount => withOne name p (fun seconds => manBytecount (atoi seconds)) man
  | some .pkSig => manPkSig name man
  | some .certificate => manCertificate man
  | some .proxy => if p = [] then manNeed name 1 true man else manProxy callbacks p man
  | none => { man with out := man.out ++ callbacks.replies (name :: p) }

/-- `man_process_command`, where no password protects the management port. -/
def manProcessCommand (callbacks : Callbacks) (man : Management) (line : Text) : Management :=
  let man := inExtraReset man
  match Options.parseLine .standard line with
  | .error e => msg ("ERROR: ".toList ++ (e.message "" "TCP" 0).toList) man
  | .ok [] => man
  | .ok (name :: p) => manDispatchCommand callbacks name p man

/-- The body of the loop of `man_read`. -/
def processLine (callbacks : Callbacks) (man : Management) (line : Text) : Management :=
  match man.inExtra with
  | some lines => if line = "END".toList then inExtraDispatch man else { man with inExtra := some (lines ++ [line]) }
  | none => manProcessCommand callbacks man line

end RRoadVpn.Manage
