import RRoadVpn.LogFile

/-! The log of the application. `VpnStatus.newLogItem` keeps the buffer and queues
messages for the `LogFileHandler`, whose LOG_INIT restores the buffer from the
cache file. Log listeners, which only look on, are left out. -/

namespace RRoadVpn
open LogFileHandler

namespace LogItem

/-- `LogItem(level, message)` at a time. -/
def ofMessage (level : LogLevel) (message : String) (logtime : BitVec 64) : LogItem :=
  { mLevel := some level, mMessage := some message, logtime }

/-- `LogItem(level, ressourceId, args)` at a time. -/
def ofResource (level : LogLevel) (ressourceId : BitVec 32) (args : List LogArg) (logtime : BitVec 64) : LogItem :=
  { mLevel := some level, mRessourceId := ressourceId, mArgs := some args, logtime }

end LogItem

namespace LogFileHandler

def writeLogItemToDisk (li : LogItem) : Except LogItem.MarschalError (List UInt8) := do
  return writeEscapedBytes (← li.getMarschaledBytes)

/-- The contents of the file after these items were written to it. -/
def writeLogItems : List LogItem → Except LogItem.MarschalError (List UInt8)
  | [] => .ok []
  | li :: items => do
    let written ← writeLogItemToDisk li
    return written ++ (← writeLogItems items)

inductive Message where
  | logMessage (item : LogItem)
  | trimLogFile
  deriving DecidableEq, Repr

end LogFileHandler

/-- What reading the file takes from the platform: the clock at the k-th item
built, the generated resource ids and the text of exceptions. -/
structure Runtime where
  currentTimeMillis : Nat → BitVec 64
  reread_log : BitVec 32
  unhandled_exception : BitVec 32
  getMessage : Thrown → Option String
  stackTrace : Thrown → String
  reread_log_ne : reread_log ≠ 0
  unhandled_exception_ne : unhandled_exception ≠ 0

/-- The buffer and the messages that wait for the handler, once there is one. -/
structure VpnStatus where
  logbuffer : List LogItem := []
  mLogFileHandler : Option (List Message) := none
  deriving DecidableEq, Repr

namespace VpnStatus

def sendMessage (status : VpnStatus) (message : Message) : VpnStatus :=
  { status with mLogFileHandler := status.mLogFileHandler.map (· ++ [message]) }

/-- `removeFirst` until the buffer has at most `MAXLOGENTRIES` items. -/
def removeOldest : List LogItem → List LogItem
  | [] => []
  | item :: items => if (item :: items).length > MAXLOGENTRIES then removeOldest items else item :: items

def newLogItem (status : VpnStatus) (logItem : LogItem) (cachedLine : Bool) : VpnStatus :=
  let status :=
    if cachedLine then { status with logbuffer := logItem :: status.logbuffer }
    else { status with logbuffer := status.logbuffer ++ [logItem] }.sendMessage (.logMessage logItem)
  if status.logbuffer.length > MAXLOGENTRIES + MAXLOGENTRIES / 2 then
    { status with logbuffer := removeOldest status.logbuffer }.sendMessage .trimLogFile
  else status

/-- A live item. -/
def logLive (status : VpnStatus) (logItem : LogItem) : VpnStatus := status.newLogItem logItem false

/-- What `logInformation` logs is given. -/
def clearLog (status : VpnStatus) (information : LogItem) : VpnStatus :=
  ({ status with logbuffer := [] }.newLogItem information false).sendMessage .trimLogFile

section Reading

variable (runtime : Runtime)

def logLine (status : VpnStatus) (k : Nat) : Line LogItem → VpnStatus
  | .debug text => status.newLogItem (.ofMessage .debug text (runtime.currentTimeMillis k)) false
  | .error text => status.newLogItem (.ofMessage .error text (runtime.currentTimeMillis k)) false
  | .rereadLog itemsRead =>
    status.newLogItem (.ofResource .debug runtime.reread_log [.integer (BitVec.ofNat 32 itemsRead)]
      (runtime.currentTimeMillis k)) false
  | .restored li => status.newLogItem li true

def logLines (status : VpnStatus) (k : Nat) : List (Line LogItem) → VpnStatus
  | [] => status
  | line :: lines => logLines (logLine runtime status k line) (k + 1) lines

def logException (status : VpnStatus) (k : Nat) (e : Thrown) : VpnStatus :=
  let message := match runtime.getMessage e with
    | none => LogArg.null
    | some text => .string text
  status.newLogItem (.ofResource .error runtime.unhandled_exception [message, .string (runtime.stackTrace e)]
    (runtime.currentTimeMillis k)) false

/-- `LogFileHandler.readLogCache`, which is given the file's contents if it is there. -/
def readLogCache (status : VpnStatus) : Option (List UInt8) → Option VpnStatus
  | none => some status
  | some contents =>
    match readCacheContents restoreLogItem contents with
    | none => none
    | some reread =>
      let status := logLines runtime status 0 reread.lines
      match reread.thrown with
      | none => some status
      | some e =>
        let k := reread.lines.length
        let status := status.newLogItem
          (.ofMessage .error "Reading cached logfile failed" (runtime.currentTimeMillis k)) false
        some (logException runtime status (k + 1) e)

/-- `initLogCache` and the handler's LOG_INIT, which is its first message. -/
def initLogCache (status : VpnStatus) (logfile : Option (List UInt8)) : Option VpnStatus :=
  readLogCache runtime { status with mLogFileHandler := some [] } logfile

end Reading

end VpnStatus

end RRoadVpn
