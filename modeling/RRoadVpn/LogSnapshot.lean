import RRoadVpn.LogItem

/-! The log buffer on its way through the pipe of `registerStatusCallback`: the thread
"pushLogs" of the service writes it, `onServiceConnected` of the client reads it. -/

namespace RRoadVpn.LogSnapshot
open Library LogItem

def endMark : Nat := 0x7fff

def writeShort (v : Nat) : List UInt8 := bigEndian 2 v

/-- `pushLogs` when the log file has been read: what it writes, and the exception it dies of.
Only an `IOException` is caught, which the items do not raise. -/
def pushLogs : List LogItem → List UInt8 × Option MarschalError
  | [] => (writeShort endMark, none)
  | logItem :: logbuffer =>
    match logItem.getMarschaledBytes with
    | .error e => ([], some e)
    | .ok bytes =>
      let (written, e) := pushLogs logbuffer
      (writeShort bytes.length ++ bytes ++ written, e)

/-- How the loop of the client ends. -/
inductive ReadEnd where
  | endMark
  | endOfFile
  | negativeLength
  | logItem (e : UnmarschalError)
  deriving DecidableEq, Repr

structure Received where
  items : List LogItem
  ended : ReadEnd
  left : List UInt8
  deriving DecidableEq, Repr

def Received.cons (item : LogItem) (r : Received) : Received := { r with items := item :: r.items }

def readShort (high low : UInt8) : Int := (BitVec.ofNat 16 (ofBigEndian [high, low])).toInt

/-- The loop over the stream until the writer closes it; `buf` keeps what an item does not fill. -/
def readItems (buf : List UInt8) : List UInt8 → Received
  | high :: low :: fd =>
    let len := readShort high low
    if len = endMark then ⟨[], .endMark, fd⟩
    else if len < 0 then ⟨[], .negativeLength, fd⟩
    else if fd.length < len.toNat then ⟨[], .endOfFile, []⟩
    else
      let buf := fd.take len.toNat ++ buf.drop len.toNat
      match LogItem.ofBytes buf len with
      | .error e => ⟨[], .logItem e, fd.drop len.toNat⟩
      | .ok item => (readItems buf (fd.drop len.toNat)).cons item
  | _ => ⟨[], .endOfFile, []⟩
termination_by fd => fd.length
decreasing_by
  simp only [List.length_drop, List.length_cons]
  omega

def newBuffer : List UInt8 := List.replicate 65336 0

end RRoadVpn.LogSnapshot
