import RRoadVpn.LogItem

/-! The log cache file: `LogFileHandler.writeEscapedBytes` frames an item's bytes
with a magic byte and a length, `readCacheContents` finds the items again. The
reader runs on a stream whose `read` fills the request unless the file ends. -/

namespace RRoadVpn.LogFileHandler
open Library

def MAGIC_BYTE : UInt8 := 0x55

def MAXLOGENTRIES : Nat := 1000

def escapeByte (b : UInt8) : List UInt8 :=
  if b = MAGIC_BYTE ∨ b = MAGIC_BYTE + 1 then [MAGIC_BYTE + 1, b - MAGIC_BYTE] else [b]

def writeEscapedBytes (bytes : List UInt8) : List UInt8 :=
  [MAGIC_BYTE] ++ bigEndian 4 bytes.length ++ bytes.flatMap escapeByte

/-! ### Reading -/

def bufLength : Nat := 16384

/-- What the reader does to the log, where `restored` is the callback's success. -/
inductive Line (α : Type) where
  | debug (text : String)
  | error (text : String)
  | rereadLog (itemsRead : Nat)
  | restored (value : α)
  deriving DecidableEq, Repr

def Line.value? {α : Type} : Line α → Option α
  | .restored value => some value
  | _ => none

inductive Thrown where
  | arrayIndexOutOfBounds (index : Nat)
  | unmarschal (error : LogItem.UnmarschalError)
  deriving DecidableEq, Repr

/-- The lines in their order and the exception that ended the reading, if one did. -/
structure Reread (α : Type) where
  lines : List (Line α)
  thrown : Option Thrown
  deriving DecidableEq, Repr

namespace Reread

variable {α : Type}

def prepend (lines : List (Line α)) (reread : Reread α) : Reread α :=
  { reread with lines := lines ++ reread.lines }

def values (reread : Reread α) : List α := reread.lines.filterMap Line.value?

end Reread

/-- The first `buf` of the reader; only its contents near the front matter. -/
abbrev Buf := Nat → UInt8

def fill (buf : Buf) (off : Nat) (bytes : List UInt8) : Buf := fun i =>
  if off ≤ i then bytes.getD (i - off) (buf i) else buf i

/-- `logFile.read(buf, off, n)` for a positive `n`: the count, which is -1 at the
end of the file, the buffer and the rest of the stream. -/
def read (buf : Buf) (off n : Nat) (stream : List UInt8) : Int × Buf × List UInt8 :=
  if stream = [] then (-1, buf, [])
  else ((stream.take n).length, fill buf off (stream.take n), stream.drop n)

/-- `(byte) logFile.read()`, where the end of the file reads as -1. -/
def readByte : List UInt8 → UInt8 × List UInt8
  | [] => (0xff, [])
  | b :: stream => (b, stream)

inductive Skip where
  | found (buf : Buf) (skipped : Nat) (stream : List UInt8)
  | lost (skipped : Nat)

/-- The search for a magic byte, one more byte of the stream at a time. -/
def skip (buf : Buf) (skipped : Nat) : List UInt8 → Skip
  | [] => if buf skipped = MAGIC_BYTE then .found buf skipped [] else .lost (skipped + 1)
  | b :: stream =>
    if buf skipped = MAGIC_BYTE then .found buf skipped (b :: stream)
    else if skipped + 1 + 10 > bufLength then .lost (skipped + 1)
    else skip (fill buf (skipped + 1 + 4) [b]) (skipped + 1) stream

inductive Body where
  | complete (bytes stream : List UInt8)
  | unexpectedMagic (pos : Nat) (stream : List UInt8)
  | badEscape (b : UInt8) (stream : List UInt8)
  | thrown (index : Nat)
  deriving DecidableEq, Repr

/-- `buf2[pos++] = b`, and the rest of the loop. -/
def put (pos : Nat) (b : UInt8) (rest : Body) : Body :=
  if bufLength ≤ pos then .thrown pos
  else
    match rest with
    | .complete bytes stream => .complete (b :: bytes) stream
    | body => body

/-- The loop that unescapes a body; `left` is `len - pos`. -/
def readBody : (left pos : Nat) → List UInt8 → Body
  | 0, _, stream => .complete [] stream
  | left + 1, pos, stream =>
    let (b, stream) := readByte stream
    if b = MAGIC_BYTE then .unexpectedMagic pos stream
    else if b = MAGIC_BYTE + 1 then
      let (b, stream) := readByte stream
      if b = 0 then put pos MAGIC_BYTE (readBody left (pos + 1) stream)
      else if b = 1 then put pos (MAGIC_BYTE + 1) (readBody left (pos + 1) stream)
      else .badEscape b stream
    else put pos b (readBody left (pos + 1) stream)

/-- The signed length of the record whose magic byte is at `skipped`. -/
def lengthAt (buf : Buf) (skipped : Nat) : Int :=
  (BitVec.ofNat 32 (ofBigEndian ((List.range 4).map fun i => buf (skipped + 1 + i)))).toInt

def bodyBuffer (bytes : List UInt8) : List UInt8 := bytes ++ List.replicate (bufLength - bytes.length) 0

/-- A restoring callback that ends in a line or an exception. -/
abbrev Restore (α : Type) := List UInt8 → Int → Except Thrown (Line α)

section Loop

variable {α : Type} (restoreLogItem : Restore α)

def finish (itemsRead : Nat) : Reread α := ⟨[.rereadLog itemsRead], none⟩

def skippedLine (skipped : Nat) : List (Line α) :=
  if skipped > 0 then [.debug ("Skipped " ++ toString skipped ++ " bytes before finding a magic byte")] else []

/-- The reading loop, entered with the count of its last read; `none` when the
fuel ends first. -/
def readloop (fuel : Nat) (buf : Buf) (count : Int) (stream : List UInt8) (itemsRead : Nat) : Option (Reread α) :=
  if count < 5 then some (finish itemsRead)
  else
    match fuel with
    | 0 => none
    | fuel + 1 =>
      match skip buf 0 stream with
      | .lost skipped =>
        some ((finish itemsRead).prepend
          [.debug ("Skipped " ++ toString skipped ++ " bytes and no a magic byte found")])
      | .found buf skipped stream =>
        match readBody (lengthAt buf skipped).toNat 0 stream with
        | .thrown index => some ⟨skippedLine skipped, some (.arrayIndexOutOfBounds index)⟩
        | .unexpectedMagic pos stream =>
          let (count, buf, stream) := read buf 1 4 stream
          (readloop fuel buf (count + 1) stream itemsRead).map (Reread.prepend (skippedLine skipped ++
            [.debug ("Unexpected magic byte found at pos " ++ toString pos ++ ", abort current log item")]))
        | .badEscape b stream =>
          let (count, buf, stream) := read buf 1 4 stream
          (readloop fuel buf (count + 1) stream itemsRead).map (Reread.prepend (skippedLine skipped ++
            [.debug ("Escaped byte not 0 or 1: " ++ toString b.toInt8.toInt)]))
        | .complete bytes stream =>
          match restoreLogItem (bodyBuffer bytes) (lengthAt buf skipped) with
          | .error thrown => some ⟨skippedLine skipped, some thrown⟩
          | .ok line =>
            let (count, buf, stream) := read buf 0 5 stream
            if itemsRead + 1 > 2 * MAXLOGENTRIES then
              (readloop fuel buf 0 stream (itemsRead + 1)).map (Reread.prepend (skippedLine skipped ++
                [line, .error "Too many logentries read from cache, aborting."]))
            else
              (readloop fuel buf count stream (itemsRead + 1)).map (Reread.prepend (skippedLine skipped ++ [line]))

def readCacheContents (input : List UInt8) : Option (Reread α) :=
  let (count, buf, stream) := read (fun _ => 0) 0 5 input
  readloop restoreLogItem (input.length + 1) buf count stream 0

end Loop

def hexArray : List Char := "0123456789ABCDEF".toList

def bytesToHex (bytes : List UInt8) (len : Int) : String :=
  String.ofList ((bytes.take len.toNat).flatMap fun b =>
    [hexArray.getD (b.toNat / 16) '0', hexArray.getD (b.toNat % 16) '0'])

/-- The callback of the running application: a restored item is a cached line. -/
def restoreLogItem : Restore LogItem := fun buf len =>
  match LogItem.ofBytes buf len with
  | .error error => .error (.unmarschal error)
  | .ok li =>
    if li.verify then .ok (.restored li)
    else
      .ok (.error ("Could not read log item from file: " ++ toString len ++ ": " ++ bytesToHex buf (max len 80)))

end RRoadVpn.LogFileHandler
