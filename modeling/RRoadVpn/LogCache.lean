import RRoadVpn.StatusService
import RRoadVpn.VpnStatus

/-! The log and its cache file from `initLogCache` on: the buffer of `VpnStatus`, the
messages of the `LogFileHandler` and the file it writes. A log call, a flush and
`clearLog` hold the lock of `VpnStatus`; the handler looks at the buffer once for a
message, under that lock, so its step is one. Writing to the file succeeds. -/

namespace RRoadVpn.LogCache
open LogFileHandler (MAXLOGENTRIES)
open StatusService (LogObject trim)

inductive Message where
  | LOG_INIT
  | LOG_MESSAGE (obj : LogObject)
  | TRIM_LOG_FILE
  | FLUSH_TO_DISK
  deriving DecidableEq, Repr

/-- `records` are the objects that were written to the file since it was last empty,
`logged` those logged since `initLogCache` and `cleared` those that a `clearLog` removed. -/
structure State where
  logbuffer : List LogObject := []
  objects : Nat := 0
  messages : List Message := [.LOG_INIT]
  mLogFile : Option (List UInt8) := none
  records : List LogObject := []
  logged : List LogObject := []
  cleared : List LogObject := []
  deriving DecidableEq, Repr

/-- `initLogCache` over what has been logged before. -/
def initLogCache (logged : List LogItem) : State :=
  { logbuffer := logged.mapIdx LogObject.mk, objects := logged.length }

/-- `VpnStatus.newLogItem`, which sends the item and, when it has shortened the buffer, a trim. -/
def newLogItem (logItem : LogItem) (cachedLine : Bool) (s : State) : State :=
  let obj : LogObject := ⟨s.objects, logItem⟩
  let logbuffer := if cachedLine then obj :: s.logbuffer else s.logbuffer ++ [obj]
  { s with
    logbuffer := trim logbuffer
    objects := s.objects + 1
    messages := s.messages ++ (if cachedLine then [] else [.LOG_MESSAGE obj]) ++
      (if logbuffer.length > MAXLOGENTRIES + MAXLOGENTRIES / 2 then [.TRIM_LOG_FILE] else [])
    logged := if cachedLine then s.logged else s.logged ++ [obj] }

/-- `VpnStatus.clearLog`, which logs the information about the device. -/
def clearLog (information : LogItem) (s : State) : State :=
  let s := newLogItem information false { s with logbuffer := [], cleared := s.cleared ++ s.logbuffer }
  { s with messages := s.messages ++ [.TRIM_LOG_FILE] }

/-- `writeLogItemToDisk` for one object after the other, up to an exception. -/
def writeLogItems (s : State) : List LogObject → State × Option LogItem.MarschalError
  | [] => (s, none)
  | obj :: objs =>
    match LogFileHandler.writeLogItemToDisk obj.item with
    | .error e => (s, some e)
    | .ok bytes =>
      writeLogItems { s with mLogFile := s.mLogFile.map (· ++ bytes), records := s.records ++ [obj] } objs

section Handler

-- The items that the handler's catch logs.
variable (caught : Message → LogItem.MarschalError → List LogItem)

/-- The catch around the handling of a message. -/
def guarded (message : Message) : State × Option LogItem.MarschalError → State
  | (s, none) => s
  | (s, some e) => (caught message e).foldl (fun s logItem => newLogItem logItem false s) s

def handleMessage (s : State) : Message → State
  | .LOG_INIT => { s with mLogFile := some [] }
  | .LOG_MESSAGE obj => if s.mLogFile = none then s else guarded caught (.LOG_MESSAGE obj) (writeLogItems s [obj])
  | .TRIM_LOG_FILE =>
    guarded caught .TRIM_LOG_FILE (writeLogItems { s with mLogFile := some [], records := [] } s.logbuffer)
  | .FLUSH_TO_DISK => s

/-- `readLogCache` restores items while LOG_INIT is handled; `handleMessage` ends a message. -/
inductive Event where
  | newLogItem (logItem : LogItem)
  | clearLog (information : LogItem)
  | flushLog
  | restoreLogItem (logItem : LogItem)
  | handleMessage
  deriving DecidableEq, Repr

def step (s : State) : Event → Option State
  | .newLogItem logItem => some (newLogItem logItem false s)
  | .clearLog information => some (clearLog information s)
  | .flushLog => some { s with messages := s.messages ++ [.FLUSH_TO_DISK] }
  | .restoreLogItem logItem => if s.messages.head? = some .LOG_INIT then some (newLogItem logItem true s) else none
  | .handleMessage =>
    match s.messages with
    | [] => none
    | message :: rest => some (handleMessage caught { s with messages := rest } message)

end Handler

end RRoadVpn.LogCache
