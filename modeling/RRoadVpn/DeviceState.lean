import RRoadVpn.TrafficHistory

/-! The device state receiver and the hold half of the management thread, as one
machine. Both objects run on their own threads; an event here is one callback
of either, with everything it calls on the other. -/

namespace RRoadVpn.DeviceState
open TrafficHistory (long)

inductive ConnectState where
  | shouldBeConnected
  | pendingDisconnect
  | disconnected
  deriving DecidableEq, Repr

inductive PauseReason where
  | noNetwork
  | userPause
  | screenOff
  deriving DecidableEq, Repr

/-- The parts of android.net.NetworkInfo the receiver decides on. -/
structure NetworkInfo where
  connected : Bool
  type : Int
  extraInfo : Option String
  deriving DecidableEq, Repr

structure Datapoint where
  timestamp : Int
  data : Int
  deriving DecidableEq, Repr

/-- Lines written to the management socket. -/
inductive Command where
  | holdRelease
  | bytecount (interval : Nat)
  | stateOn
  | networkChange (samenetwork : Bool)
  | signalSIGUSR1
  deriving DecidableEq, Repr

inductive Output where
  | managmentCommand (cmd : Command)
  | updateStatePause (reason : PauseReason)
  | connectRetry (waittime : Int)
  deriving DecidableEq, Repr

/-- An output together with the receiver's user pause at the moment it is sent. -/
structure Sent where
  output : Output
  userpause : ConnectState
  deriving DecidableEq, Repr

/-- `delayDisconnectPosts` and `resumeHoldPosts` count the pending posts of
mDelayDisconnectRunnable and mResumeHoldRunnable in their handlers' queues.
`mPauseCallback` says whether a receiver has been constructed. -/
structure Joint where
  network : ConnectState := .disconnected
  screen : ConnectState := .shouldBeConnected
  userpause : ConnectState := .shouldBeConnected
  trafficdata : List Datapoint := []
  lastConnectedNetwork : Option NetworkInfo := none
  delayDisconnectPosts : Nat := 0
  mPauseCallback : Bool := false
  mWaitingForRelease : Bool := false
  lastPauseReason : PauseReason := .noNetwork
  resumeHoldPosts : Nat := 0
  sent : List Sent := []
  deriving DecidableEq, Repr

structure Preferences where
  screenoff : Bool := false
  netchangereconnect : Bool := true
  deriving DecidableEq, Repr

/-- Milliseconds; the source multiplies its 60 s window by 1000 at the comparison. -/
def TRAFFIC_WINDOW : Int := 60 * 1000

def TRAFFIC_LIMIT : Int := 64 * 1024

def mBytecountInterval : Nat := 2

def emit (output : Output) (s : Joint) : Joint :=
  { s with sent := s.sent ++ [⟨output, s.userpause⟩] }

def managmentCommand (cmd : Command) : Joint → Joint := emit (.managmentCommand cmd)

/-! Management thread. -/

def shouldBeConnected (s : Joint) : Bool :=
  s.screen == .shouldBeConnected && s.userpause == .shouldBeConnected && s.network == .shouldBeConnected

def shouldBeRunning (s : Joint) : Bool :=
  if s.mPauseCallback then shouldBeConnected s else false

/-- The sleep before a second release within 5 s delays the thread and changes no state. -/
def releaseHoldCmd (s : Joint) : Joint :=
  { s with resumeHoldPosts := 0, mWaitingForRelease := false }
    |> managmentCommand .holdRelease
    |> managmentCommand (.bytecount mBytecountInterval)
    |> managmentCommand .stateOn

def releaseHold (s : Joint) : Joint :=
  if s.mWaitingForRelease then releaseHoldCmd s else s

def mResumeHoldRunnable (s : Joint) : Joint :=
  if shouldBeRunning s then releaseHoldCmd s else s

def handleHold (waittime : Int) (s : Joint) : Joint :=
  let s := { s with mWaitingForRelease := true }
  if shouldBeRunning s then
    let s := if waittime > 1 then emit (.connectRetry waittime) s else s
    { s with resumeHoldPosts := s.resumeHoldPosts + 1 }
  else emit (.updateStatePause s.lastPauseReason) s

def networkChange (samenetwork : Bool) (s : Joint) : Joint :=
  if s.mWaitingForRelease then releaseHold s else managmentCommand (.networkChange samenetwork) s

def signalusr1 (s : Joint) : Joint :=
  let s := { s with resumeHoldPosts := 0 }
  if s.mWaitingForRelease then emit (.updateStatePause s.lastPauseReason) s
  else managmentCommand .signalSIGUSR1 s

def pause (reason : PauseReason) (s : Joint) : Joint :=
  signalusr1 { s with lastPauseReason := reason }

def resume (s : Joint) : Joint :=
  { releaseHold s with lastPauseReason := .noNetwork }

/-! Device state receiver. -/

def getPauseReason (s : Joint) : PauseReason :=
  if s.userpause = .disconnected then .userPause
  else if s.screen = .disconnected then .screenOff
  else if s.network = .disconnected then .noNetwork
  else .userPause

/-- `mManagement.pause(getPauseReason())`. -/
def pauseNow (s : Joint) : Joint := pause (getPauseReason s) s

def disconnectPendingScreen (s : Joint) : Joint :=
  { s with screen := if s.screen = .pendingDisconnect then .disconnected else s.screen }

def mDelayDisconnectRunnable (s : Joint) : Joint :=
  if s.network ≠ .pendingDisconnect then s
  else pauseNow (disconnectPendingScreen { s with network := .disconnected })

/-- The trimming loop. `none` is the NoSuchElementException of getFirst on an empty list. -/
def trimTraffic (now : Int) : List Datapoint → Option (List Datapoint)
  | [] => none
  | first :: rest =>
    if first.timestamp ≤ now - TRAFFIC_WINDOW then trimTraffic now rest else some (first :: rest)

def windowtraffic (trafficdata : List Datapoint) : Int := trafficdata.foldl (fun sum dp => long (sum + dp.data)) 0

def updateByteCount (now diffIn diffOut : Int) (s : Joint) : Joint :=
  if s.screen ≠ .pendingDisconnect then s
  else
    match trimTraffic now (s.trafficdata ++ [⟨now, long (diffIn + diffOut)⟩]) with
    | none => { s with trafficdata := [] }
    | some kept =>
      let s := { s with trafficdata := kept }
      if windowtraffic kept < TRAFFIC_LIMIT then pauseNow { s with screen := .disconnected } else s

def userPause (shouldBePaused : Bool) (s : Joint) : Joint :=
  if shouldBePaused then pauseNow { s with userpause := .disconnected }
  else
    let wereConnected := shouldBeConnected s
    let s := { s with userpause := .shouldBeConnected }
    if shouldBeConnected s && !wereConnected then resume s
    -- Also taken when nothing was paused.
    else pauseNow s

def fillTrafficData (now : Int) (s : Joint) : Joint :=
  { s with trafficdata := s.trafficdata ++ [⟨now, TRAFFIC_LIMIT⟩] }

def screenOff (prefs : Preferences) (now : Int) (s : Joint) : Joint :=
  if prefs.screenoff then
    let s := fillTrafficData now { s with screen := .pendingDisconnect }
    { s with screen := if s.network = .disconnected ∨ s.userpause = .disconnected then .disconnected else s.screen }
  else s

def screenOn (s : Joint) : Joint :=
  let connected := shouldBeConnected s
  let s := { s with screen := .shouldBeConnected, delayDisconnectPosts := 0 }
  if shouldBeConnected s != connected then resume s
  else if !shouldBeConnected s then pauseNow s
  else s

def sameNetwork (lastConnectedNetwork : Option NetworkInfo) (networkInfo : NetworkInfo) : Bool :=
  match lastConnectedNetwork with
  | none => false
  | some last => last.type == networkInfo.type && last.extraInfo == networkInfo.extraInfo

/-- A different network, or a connection that is not established anymore. -/
def networkReplaced (pendingDisconnect same : Bool) (s : Joint) : Joint :=
  let s := disconnectPendingScreen s
  if shouldBeConnected s then
    let s := { s with delayDisconnectPosts := 0 }
    if pendingDisconnect || !same then networkChange same s else resume s
  else s

def networkStateChange (prefs : Preferences) (networkInfo : Option NetworkInfo) (s : Joint) : Joint :=
  match networkInfo with
  | some info =>
    if info.connected then
      let pendingDisconnect := s.network == .pendingDisconnect
      let s := { s with network := .shouldBeConnected }
      let same := sameNetwork s.lastConnectedNetwork info
      if pendingDisconnect && same then
        -- Unlike the other branch, without asking shouldBeConnected.
        networkChange true { s with delayDisconnectPosts := 0 }
      else
        { networkReplaced pendingDisconnect same s with lastConnectedNetwork := some info }
    else s
  | none =>
    if prefs.netchangereconnect then
      { s with network := .pendingDisconnect, delayDisconnectPosts := s.delayDisconnectPosts + 1 }
    else s

/-- `registerDeviceStateReceiver` is the service constructing the receiver, which
becomes the thread's pause callback, and handing it the first network state. -/
inductive Event where
  | registerDeviceStateReceiver (networkInfo : Option NetworkInfo)
  | networkBroadcast (networkInfo : Option NetworkInfo)
  | delayDisconnectExpired
  | screenOff (now : Int)
  | screenOn
  | trafficSample (now diffIn diffOut : Int)
  | userPause (shouldBePaused : Bool)
  | hold (waittime : Int)
  | resumeHold
  deriving DecidableEq, Repr

/-- `none` where the event cannot occur: broadcasts need a registered receiver and
a runnable runs only while it is posted. -/
def step (prefs : Preferences) (s : Joint) : Event → Option Joint
  | .registerDeviceStateReceiver info =>
    if s.mPauseCallback then none else some (networkStateChange prefs info { s with mPauseCallback := true })
  | .networkBroadcast info => if s.mPauseCallback then some (networkStateChange prefs info s) else none
  | .delayDisconnectExpired =>
    match s.delayDisconnectPosts with
    | 0 => none
    | posts + 1 => some (mDelayDisconnectRunnable { s with delayDisconnectPosts := posts })
  | .screenOff now => if s.mPauseCallback then some (screenOff prefs now s) else none
  | .screenOn => if s.mPauseCallback then some (screenOn s) else none
  | .trafficSample now diffIn diffOut =>
    if s.mPauseCallback then some (updateByteCount now diffIn diffOut s) else none
  -- The service forwards the request only to an existing receiver.
  | .userPause shouldBePaused => some (if s.mPauseCallback then userPause shouldBePaused s else s)
  | .hold waittime => some (handleHold waittime s)
  | .resumeHold =>
    match s.resumeHoldPosts with
    | 0 => none
    | posts + 1 => some (mResumeHoldRunnable { s with resumeHoldPosts := posts })

end RRoadVpn.DeviceState
