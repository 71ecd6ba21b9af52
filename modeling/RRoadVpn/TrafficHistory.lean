import Mathlib.Algebra.Group.Nat.Defs

/-! `TrafficHistory`: the byte counts of the last minutes, and the first ones of each minute
and of each hour. -/

namespace RRoadVpn

structure TrafficDatapoint where
  inBytes : Int
  outBytes : Int
  timestamp : Int
  deriving DecidableEq, Repr

/-- The last used points are null until the first point is added. -/
structure TrafficHistory where
  trafficHistorySeconds : List TrafficDatapoint := []
  trafficHistoryMinutes : List TrafficDatapoint := []
  trafficHistoryHours : List TrafficDatapoint := []
  lastSecondUsedForMinute : Option TrafficDatapoint := none
  lastMinuteUsedForHours : Option TrafficDatapoint := none
  deriving DecidableEq, Repr

namespace TrafficHistory

def PERIODS_TO_KEEP : Int := 5

def TIME_PERIOD_MINTUES : Int := 60 * 1000

def TIME_PERIOD_HOURS : Int := 3600 * 1000

structure LastDiff where
  lasttdp : TrafficDatapoint
  tdp : TrafficDatapoint
  deriving DecidableEq, Repr

def long (n : Int) : Int := n.bmod (2 ^ 64)

namespace LastDiff

def getDiffOut (diff : LastDiff) : Int := max 0 (long (diff.tdp.outBytes - diff.lasttdp.outBytes))

def getDiffIn (diff : LastDiff) : Int := max 0 (long (diff.tdp.inBytes - diff.lasttdp.inBytes))

def getIn (diff : LastDiff) : Int := diff.tdp.inBytes

def getOut (diff : LastDiff) : Int := diff.tdp.outBytes

end LastDiff

/-- The difference to the last point. Without a point it is that of the last one to itself, as
each iterator begins at the end again. -/
def getLastDiff (currentTimeMillis : Int) (tdp : Option TrafficDatapoint) (h : TrafficHistory) : LastDiff :=
  let lasttdp := h.trafficHistorySeconds.getLast?.getD ⟨0, 0, currentTimeMillis⟩
  ⟨lasttdp, tdp.getD lasttdp⟩

def period (timePeriod : Int) (tdp : TrafficDatapoint) : Int := tdp.timestamp.tdiv timePeriod

def toRemove (timePeriod : Int) (newTdp tph : TrafficDatapoint) : Bool :=
  PERIODS_TO_KEEP ≤ (newTdp.timestamp - tph.timestamp).tdiv timePeriod

def removeAll (timePeriod : Int) (newTdp : TrafficDatapoint) (tpList : List TrafficDatapoint) : List TrafficDatapoint :=
  tpList.filter fun tph => !toRemove timePeriod newTdp tph

/-- `removeAndAverage(newTdp, false)`: from minutes to hours. -/
def averageMinutes (newTdp : TrafficDatapoint) (h : TrafficHistory) : TrafficHistory :=
  let lastTsPeriod := h.lastMinuteUsedForHours.getD ⟨0, 0, 0⟩
  if period TIME_PERIOD_HOURS newTdp > period TIME_PERIOD_HOURS lastTsPeriod then
    { h with
      trafficHistoryHours := h.trafficHistoryHours ++ [newTdp]
      lastMinuteUsedForHours := some newTdp
      trafficHistoryMinutes := removeAll TIME_PERIOD_HOURS newTdp h.trafficHistoryMinutes }
  else h

/-- `removeAndAverage(newTdp, true)`: from seconds to minutes, and on to hours before it removes. -/
def averageSeconds (newTdp : TrafficDatapoint) (h : TrafficHistory) : TrafficHistory :=
  let lastTsPeriod := h.lastSecondUsedForMinute.getD ⟨0, 0, 0⟩
  if period TIME_PERIOD_MINTUES newTdp > period TIME_PERIOD_MINTUES lastTsPeriod then
    let h := averageMinutes newTdp
      { h with trafficHistoryMinutes := h.trafficHistoryMinutes ++ [newTdp], lastSecondUsedForMinute := some newTdp }
    { h with trafficHistorySeconds := removeAll TIME_PERIOD_MINTUES newTdp h.trafficHistorySeconds }
  else h

def addDataPoint (tdp : TrafficDatapoint) (h : TrafficHistory) : TrafficHistory :=
  let h := { h with trafficHistorySeconds := h.trafficHistorySeconds ++ [tdp] }
  let h :=
    if h.lastSecondUsedForMinute = none then
      { h with lastSecondUsedForMinute := some ⟨0, 0, 0⟩, lastMinuteUsedForHours := some ⟨0, 0, 0⟩ }
    else h
  averageSeconds tdp h

def add (inBytes outBytes currentTimeMillis : Int) (h : TrafficHistory) : TrafficHistory × LastDiff :=
  let tdp : TrafficDatapoint := ⟨inBytes, outBytes, currentTimeMillis⟩
  let diff := getLastDiff currentTimeMillis (some tdp) h
  (addDataPoint tdp h, diff)

end TrafficHistory

end RRoadVpn
