import RRoadVpn.LogFile

/-! `OpenVPNStatusService` and one client that registers with it. The registration
runs on its own thread; log calls and state updates hold the lock of `VpnStatus`,
and what they queue for the client is broadcast by the status handler. Byte counts
and the connected VPN, which carry neither items nor states, are left out. -/

namespace RRoadVpn.StatusService
open LogFileHandler (MAXLOGENTRIES)

inductive ConnectionStatus where
  | LEVEL_CONNECTED
  | LEVEL_VPNPAUSED
  | LEVEL_CONNECTING_SERVER_REPLIED
  | LEVEL_CONNECTING_NO_SERVER_REPLY_YET
  | LEVEL_NONETWORK
  | LEVEL_NOTCONNECTED
  | LEVEL_START
  | LEVEL_AUTH_FAILED
  | LEVEL_WAITING_FOR_USER_INPUT
  | UNKNOWN_LEVEL
  deriving DecidableEq, Repr

structure UpdateMessage where
  state : String
  logmessage : String
  resId : BitVec 32
  level : ConnectionStatus
  deriving DecidableEq, Repr

/-- A log item object; the number tells objects with equal contents apart. -/
structure LogObject where
  number : Nat
  item : LogItem
  deriving DecidableEq, Repr

inductive Message where
  | SEND_NEW_LOGITEM (obj : LogObject)
  | SEND_NEW_STATE (obj : UpdateMessage)
  deriving DecidableEq, Repr

/-- How far `registerStatusCallback` is. -/
inductive Registration where
  | called
  | snapshot
  | checked (nonNull : Bool)
  | updated
  | registered
  deriving DecidableEq, Repr

/-- `sending` is the state update between its assignment and its message. `logbuffer`
of the registration is `taken`, and `pushing` what of it the thread has still to write;
`later` are the items logged after it was taken. `received` and `status` are the client's. -/
structure State where
  logbuffer : List LogObject := []
  objects : Nat := 0
  mLastUpdateMessage : Option UpdateMessage := none
  sending : Option UpdateMessage := none
  messages : List Message := []
  registration : Registration := .called
  taken : List LogObject := []
  pushing : List LogObject := []
  later : List LogObject := []
  received : List LogObject := []
  status : Option UpdateMessage := none
  deriving DecidableEq, Repr

/-- The service is created over what has been logged before. -/
def start (logged : List LogItem) : State :=
  { logbuffer := logged.mapIdx LogObject.mk, objects := logged.length }

/-- `removeFirst` until at most `MAXLOGENTRIES` items are left, once there are too many. -/
def trim (logbuffer : List LogObject) : List LogObject :=
  if logbuffer.length > MAXLOGENTRIES + MAXLOGENTRIES / 2 then logbuffer.drop (logbuffer.length - MAXLOGENTRIES)
  else logbuffer

/-- `VpnStatus.newLogItem` and the service's `newLog`. -/
def newLogItem (logItem : LogItem) (cachedLine : Bool) (s : State) : State :=
  let obj : LogObject := ⟨s.objects, logItem⟩
  let logbuffer := trim (if cachedLine then obj :: s.logbuffer else s.logbuffer ++ [obj])
  { s with
    logbuffer, objects := s.objects + 1, messages := s.messages ++ [.SEND_NEW_LOGITEM obj],
    later := if s.registration = .called then s.later else s.later ++ [obj] }

/-- The item passes the pipe: it is marshalled, and the client's `LogItem(buf, len)` accepts the bytes. -/
def crosses (obj : LogObject) : Bool :=
  match obj.item.getMarschaledBytes with
  | .error _ => false
  | .ok bytes => (LogItem.ofBytes bytes bytes.length).isOk

/-- The next item of the pushing thread, which the client reads; an exception ends both. -/
def pushLog (s : State) : State :=
  match s.pushing with
  | [] => s
  | obj :: rest =>
    if crosses obj then { s with pushing := rest, received := s.received ++ [obj] } else { s with pushing := [] }

/-- `handleMessage`, which broadcasts to the client once it is registered. -/
def handleMessage (s : State) : Message → State
  | .SEND_NEW_LOGITEM obj => if s.registration = .registered then { s with received := s.received ++ [obj] } else s
  | .SEND_NEW_STATE obj => if s.registration = .registered then { s with status := some obj } else s

inductive Event where
  | newLogItem (logItem : LogItem) (cachedLine : Bool)
  | clearBuffer
  | updateState (message : UpdateMessage)
  | sendState
  | broadcast
  | getlogbuffer
  | checkState
  | sendUpdate
  | register
  | pushLog
  deriving DecidableEq, Repr

/-- The log calls, `clearLog`'s emptying of the buffer, the updates and `getlogbuffer`
wait for the lock that an update holds until it has queued its message. -/
def step (s : State) : Event → Option State
  | .newLogItem logItem cachedLine => if s.sending = none then some (newLogItem logItem cachedLine s) else none
  | .clearBuffer => if s.sending = none then some { s with logbuffer := [] } else none
  | .updateState message =>
    if s.sending = none then some { s with mLastUpdateMessage := some message, sending := some message } else none
  | .sendState => s.sending.map fun message =>
    { s with sending := none, messages := s.messages ++ [.SEND_NEW_STATE message] }
  | .broadcast =>
    match s.messages with
    | [] => none
    | message :: rest => some (handleMessage { s with messages := rest } message)
  | .getlogbuffer =>
    if s.sending = none ∧ s.registration = .called then some { s with registration := .snapshot, taken := s.logbuffer }
    else none
  | .checkState =>
    if s.registration = .snapshot then some { s with registration := .checked s.mLastUpdateMessage.isSome } else none
  | .sendUpdate =>
    match s.registration with
    | .checked true => some { s with registration := .updated, status := s.mLastUpdateMessage }
    | .checked false => some { s with registration := .updated }
    | _ => none
  | .register =>
    if s.registration = .updated then some { s with registration := .registered, pushing := s.taken } else none
  | .pushLog => if s.pushing = [] then none else some (pushLog s)

end RRoadVpn.StatusService
