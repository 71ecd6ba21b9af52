import RRoadVpn.TrafficHistory

/-! The byte counts that `VpnStatus` hands to its listeners. -/

namespace RRoadVpn

/-- What `ByteCountListener.updateByteCount` is given. -/
structure ByteCount where
  inBytes : Int
  outBytes : Int
  diffIn : Int
  diffOut : Int
  deriving DecidableEq, Repr

namespace ByteCount
open TrafficHistory

/-- The fields of `VpnStatus` for byte counts. -/
structure State (α : Type*) where
  trafficHistory : TrafficHistory := {}
  byteCountListener : List α := []

/-- The calls of listeners, in their order. -/
abbrev Calls (α : Type*) := List (α × ByteCount)

variable {α : Type*}

def addByteCountListener (currentTimeMillis : Int) (bcl : α) (s : State α) : State α × Calls α :=
  let diff := getLastDiff currentTimeMillis none s.trafficHistory
  ({ s with byteCountListener := s.byteCountListener ++ [bcl] },
    [(bcl, ⟨diff.getIn, diff.getOut, diff.getDiffIn, diff.getDiffOut⟩)])

def removeByteCountListener [DecidableEq α] (bcl : α) (s : State α) : State α :=
  { s with byteCountListener := s.byteCountListener.erase bcl }

def updateByteCount (currentTimeMillis inBytes outBytes : Int) (s : State α) : State α × Calls α :=
  let (trafficHistory, diff) := add inBytes outBytes currentTimeMillis s.trafficHistory
  ({ s with trafficHistory }, s.byteCountListener.map (·, ⟨inBytes, outBytes, diff.getDiffIn, diff.getDiffOut⟩))

/-- The calls of `VpnStatus`, each with the clock. -/
inductive Event (α : Type*) where
  | addByteCountListener (currentTimeMillis : Int) (bcl : α)
  | removeByteCountListener (bcl : α)
  | updateByteCount (currentTimeMillis inBytes outBytes : Int)
  deriving DecidableEq, Repr

def step [DecidableEq α] (s : State α) : Event α → State α
  | .addByteCountListener currentTimeMillis bcl => (addByteCountListener currentTimeMillis bcl s).1
  | .removeByteCountListener bcl => removeByteCountListener bcl s
  | .updateByteCount currentTimeMillis inBytes outBytes => (updateByteCount currentTimeMillis inBytes outBytes s).1

end ByteCount

end RRoadVpn
