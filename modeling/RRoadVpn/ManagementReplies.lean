import RRoadVpn.Escape
import RRoadVpn.NeedOk
import RRoadVpn.PasswordCache

/-! What `OpenVpnManagementThread` writes to OpenVPN: its replies to the lines that ask
for something, and the commands that other threads have it write. Writes go out one
by one, so those of two threads can mix. -/

namespace RRoadVpn.ManagementReplies
open JavaText (Text)

/-- What the thread asks others while it handles a line. -/
structure Surroundings where
  shouldBeRunning : Bool := true
  /-- `getSignedData`, null when the key cannot be used. -/
  getSignedData : Text → Option Text := fun _ => none
  /-- `ProxyDetection.detectProxy` of the profile: the host name and the port. -/
  detectProxy : Option (String × Nat) := none
  steps : NeedOk.Steps := {}

structure Thread where
  mProfile : LoginProfile
  mInstance : Option PasswordCache := none
  mCurrentProxyConnection : Option Connection := none
  mWaitingForRelease : Bool := false
  mLocalIP : Option Text := none
  /-- How often `orbotStatusTimeOutRunnable` is posted. -/
  orbotTimeOuts : Nat := 0
  /-- Whether `statusCallback` is registered. -/
  statusCallback : Bool := false
  /-- The calls of `managmentCommand` that the thread has yet to make. -/
  outbox : List Text := ["version 2\n".toList]
  /-- The same for the thread of the user interface. -/
  uiOutbox : List Text := []
  /-- False behind an exception, or when the socket is closed. -/
  running : Bool := true

def managmentCommand (cmd : Text) (t : Thread) : Thread := { t with outbox := t.outbox ++ [cmd] }

def mBytecountInterval : Nat := 2

/-! ### Credentials -/

/-- The command that answers a query for credentials. -/
def credentialCommand (name needed value : Text) : Text :=
  name ++ " '".toList ++ needed ++ "' ".toList ++ VpnProfile.escape value ++ ['\n']

/-- What `processPWCommand` finds for a type: password, user name and the cache afterwards. -/
def credentials (needed : Text) (t : Thread) : Option Text × Option Text × Option PasswordCache :=
  if needed = "Private Key".toList then
    let (pw, mInstance) := t.mProfile.getPasswordPrivateKey t.mInstance
    (pw, none, some mInstance)
  else if needed = "Auth".toList then
    let (pw, mInstance) := t.mProfile.getPasswordAuth t.mInstance
    (pw, t.mProfile.mUsername, some mInstance)
  else if needed = "HTTP Proxy".toList then
    ((t.mCurrentProxyConnection.bind (·.mProxyAuthPassword)).map String.toList,
      (t.mCurrentProxyConnection.bind (·.mProxyAuthUser)).map String.toList, t.mInstance)
  else (none, none, t.mInstance)

/-- The commands for a password and perhaps a user name; without a password the user is asked. -/
def credentialCommands (needed : Text) (pw username : Option Text) : List Text :=
  match pw with
  | none => []
  | some pw =>
    (username.map (credentialCommand "username".toList needed)).toList ++
      [credentialCommand "password".toList needed pw]

def processPWCommand (argument : Text) (t : Thread) : Thread :=
  if "Auth-Token:".toList.isPrefixOf argument then t
  else
    match NeedOk.quoted argument with
    | .error _ => t
    | .ok needed =>
      if "Verification Failed".toList.isPrefixOf argument then t
      else
        let (pw, username, mInstance) := credentials needed t
        { t with mInstance, outbox := t.outbox ++ credentialCommands needed pw username }

/-! ### Proxies -/

/-- An exception comes before the connection is remembered. -/
def processProxyCMD (detectProxy : Option (String × Nat)) (argument : Text) (t : Thread) : Thread :=
  match ProxyQuery.processProxyCMD detectProxy none t.mProfile.mConnections argument with
  | none => { t with running := false }
  | some found =>
    let connection := found.mCurrentProxyConnection.bind (t.mProfile.mConnections[·]?)
    let t := { t with mCurrentProxyConnection := connection.or t.mCurrentProxyConnection }
    match found.reply with
    | .startOrbot => { t with orbotTimeOuts := t.orbotTimeOuts + 1, statusCallback := true }
    | .managmentCommand cmd => managmentCommand cmd.toList t

def SOCKS_PROXY_PORT_DEFAULT : Int := 9050

/-- `sendProxyCMD` for Orbot, on the thread of the user interface. -/
def sendOrbotProxy (socksHost : String) (socksPort : Int) (t : Thread) : Thread :=
  match ProxyQuery.sendProxyCMD .SOCKS5 (some socksHost) (some (toString socksPort)) false with
  | .startOrbot => t
  | .managmentCommand cmd => { t with uiOutbox := t.uiOutbox ++ [cmd.toList] }

def onOrbotReady (socksHost : String) (socksPort : Int) (t : Thread) : Thread :=
  if t.statusCallback then
    sendOrbotProxy (if socksHost = "" then "127.0.0.1" else socksHost) socksPort
      { t with orbotTimeOuts := 0, statusCallback := false }
  else t

def orbotStatusTimeOutRunnable (t : Thread) : Thread :=
  if t.orbotTimeOuts = 0 then t
  else
    sendOrbotProxy "127.0.0.1" SOCKS_PROXY_PORT_DEFAULT
      { t with orbotTimeOuts := t.orbotTimeOuts - 1, statusCallback := false }

/-! ### The hold -/

def handleHold (argument : Text) (t : Thread) : Thread :=
  let t := { t with mWaitingForRelease := true }
  match (JavaText.split ':' argument)[1]?.bind JavaText.parseInt with
  | none => { t with running := false }
  | some _ => t

def releaseCommands : List Text :=
  ["hold release\n".toList, "bytecount ".toList ++ (toString mBytecountInterval).toList ++ ['\n'],
    "state on\n".toList]

/-- On the thread of the user interface. -/
def releaseHoldCmd (t : Thread) : Thread :=
  { t with mWaitingForRelease := false, uiOutbox := t.uiOutbox ++ releaseCommands }

def releaseHold (t : Thread) : Thread := if t.mWaitingForRelease then releaseHoldCmd t else t

def mResumeHoldRunnable (shouldBeRunning : Bool) (t : Thread) : Thread :=
  if shouldBeRunning then releaseHoldCmd t else t

def networkChange (samenetwork : Bool) (t : Thread) : Thread :=
  if t.mWaitingForRelease then releaseHold t
  else if samenetwork then { t with uiOutbox := t.uiOutbox ++ ["network-change samenetwork\n".toList] }
  else { t with uiOutbox := t.uiOutbox ++ ["network-change\n".toList] }

def signalusr1 (t : Thread) : Thread :=
  if t.mWaitingForRelease then t else { t with uiOutbox := t.uiOutbox ++ ["signal SIGUSR1\n".toList] }

/-- `stopOpenVPN`, which closes the socket. -/
def stopOpenVPN (t : Thread) :
    Thread := { t with uiOutbox := t.uiOutbox ++ ["signal SIGINT\n".toList], running := false }

/-! ### Lines -/

def processNeedCommand (steps : NeedOk.Steps) (argument : Text) (t : Thread) : Thread :=
  let (result, after) := NeedOk.handle steps argument { mLocalIP := t.mLocalIP, written := [] }
  { t with mLocalIP := after.mLocalIP, outbox := t.outbox ++ after.written, running := result.toOption.isSome }

def processSignCommand (getSignedData : Text → Option Text) (b64data : Text) (t : Thread) : Thread :=
  match getSignedData b64data with
  | none =>
    { t with outbox := t.outbox ++ ["pk-sig\n".toList, "\nEND\n".toList, "signal SIGINT\n".toList], running := false }
  | some signed => { t with outbox := t.outbox ++ ["pk-sig\n".toList, signed, "\nEND\n".toList] }

/-- The lines of `processCommand` that change the thread or make it write; the others report. -/
inductive Line where
  | PASSWORD
  | HOLD
  | NEEDOK
  | PROXY
  | PK_SIGN
  deriving DecidableEq, Repr

def Line.all : List (Line × String) :=
  [(.PASSWORD, "PASSWORD"), (.HOLD, "HOLD"), (.NEEDOK, "NEED-OK"), (.PROXY, "PROXY"), (.PK_SIGN, "PK_SIGN")]

def Line.ofText (cmd : Text) : Option Line := (Line.all.find? fun entry => entry.2.toList = cmd).map Prod.fst

def processCommand (env : Surroundings) (command : Text) (t : Thread) : Thread :=
  match command, NeedOk.afterColon command with
  | '>' :: rest, .ok argument =>
    match Line.ofText (rest.takeWhile (· ≠ ':')) with
    | some .PASSWORD => processPWCommand argument t
    | some .HOLD => handleHold argument t
    | some .NEEDOK => processNeedCommand env.steps argument t
    | some .PROXY => processProxyCMD env.detectProxy argument t
    | some .PK_SIGN => processSignCommand env.getSignedData argument t
    | none => t
  | _, _ => t

end RRoadVpn.ManagementReplies
