import RRoadVpn.Library.Decoder

/-! Log items and their binary form: `LogItem.getMarschaledBytes` and the
constructor `LogItem(byte[], int)`. Numbers are big-endian, as ByteBuffer writes
them; a float or double stands for its bits. -/

namespace RRoadVpn
open Library

inductive LogLevel where
  | info
  | error
  | warning
  | verbose
  | debug
  deriving DecidableEq, Repr

namespace LogLevel

def getInt : LogLevel → Int
  | info => 2
  | error => -2
  | warning => 1
  | verbose => 3
  | debug => 4

def getEnumByValue (value : Int) : Option LogLevel :=
  if value = 2 then some info
  else if value = -2 then some error
  else if value = 1 then some warning
  else if value = 3 then some verbose
  else if value = 4 then some debug
  else none

end LogLevel

/-- An element of `mArgs`. `other` is any other object, known by its `toString`. -/
inductive LogArg where
  | string (value : String)
  | integer (value : BitVec 32)
  | float (bits : BitVec 32)
  | double (bits : BitVec 64)
  | long (value : BitVec 64)
  | null
  | other (text : String)
  deriving DecidableEq, Repr

structure LogItem where
  mArgs : Option (List LogArg) := none
  mMessage : Option String := none
  mRessourceId : BitVec 32 := 0
  mLevel : Option LogLevel := some .info
  logtime : BitVec 64
  mVerbosityLevel : BitVec 32 := -1
  deriving DecidableEq, Repr

namespace LogItem

def verify (item : LogItem) : Bool :=
  if item.mLevel = none then false
  else if item.mMessage = none ∧ item.mRessourceId = 0 then false
  else true

/-! ### Writing -/

/-- The size of the buffer an item is marshalled into. -/
def bufferSize : Nat := 16384

def putChar (c : Char) : List UInt8 := bigEndian 2 c.toNat

def putInt (value : BitVec 32) : List UInt8 := bigEndian 4 value.toNat

def putLong (value : BitVec 64) : List UInt8 := bigEndian 8 value.toNat

def utf8bytes (str : String) : List UInt8 := str.toByteArray.data.toList

def marschalString (str : String) : List UInt8 :=
  putInt (BitVec.ofNat 32 (utf8bytes str).length) ++ utf8bytes str

def marschalMessage : Option String → List UInt8
  | none => putInt 0
  | some message => if message = "" then putInt 0 else marschalString message

def marschalArg : LogArg → List UInt8
  | .string value => putChar 's' ++ marschalString value
  | .integer value => putChar 'i' ++ putInt value
  | .float bits => putChar 'f' ++ putInt bits
  | .double bits => putChar 'd' ++ putLong bits
  | .long value => putChar 'l' ++ putLong value
  | .null => putChar '0'
  | .other text => putChar 's' ++ marschalString text

def marschalArgs : Option (List LogArg) → List UInt8
  | none => putInt 0
  | some args => if args = [] then putInt 0 else putInt (BitVec.ofNat 32 args.length) ++ args.flatMap marschalArg

/-- The bytes put into the buffer, for a level that is not null. -/
def marschal (item : LogItem) (level : LogLevel) : List UInt8 :=
  [0] ++ putLong item.logtime ++ putInt item.mVerbosityLevel ++ putInt (BitVec.ofInt 32 level.getInt) ++
    putInt item.mRessourceId ++ marschalMessage item.mMessage ++ marschalArgs item.mArgs

inductive MarschalError where
  | nullPointer
  | bufferOverflow
  deriving DecidableEq, Repr

def getMarschaledBytes (item : LogItem) : Except MarschalError (List UInt8) :=
  match item.mLevel with
  | none => .error .nullPointer
  | some level =>
    if bufferSize < (marschal item level).length then .error .bufferOverflow else .ok (marschal item level)

/-! ### Reading -/

inductive UnmarschalError where
  | bufferUnderflow
  | negativeArraySize (size : Int)
  | indexOutOfBounds (message : Option String)
  | unsupportedEncoding (message : String)
  deriving DecidableEq, Repr

abbrev Unmarschal := Decoder UInt8 UnmarschalError

def get (n : Nat) : Unmarschal (List UInt8) := take .bufferUnderflow n

def getChar : Unmarschal Nat := do return ofBigEndian (← get 2)

def getInt : Unmarschal (BitVec 32) := do return BitVec.ofNat 32 (ofBigEndian (← get 4))

def getLong : Unmarschal (BitVec 64) := do return BitVec.ofNat 64 (ofBigEndian (← get 8))

/-- `new byte[len]` and a `get` that fills it. -/
def getArray (len : BitVec 32) : Unmarschal (List UInt8) :=
  if len.toInt < 0 then fail (.negativeArraySize len.toInt) else get len.toNat

def replaceMalformed (bytes : List UInt8) : List Char :=
  match bytes with
  | [] => []
  | _ :: rest =>
    match ByteArray.utf8DecodeChar? ⟨bytes.toArray⟩ 0 with
    | some c => c :: replaceMalformed (rest.drop (c.utf8Size - 1))
    | none => '\uFFFD' :: replaceMalformed rest
termination_by bytes.length
decreasing_by all_goals simp; try omega

def newString (bytes : List UInt8) : String :=
  match String.fromUTF8? ⟨bytes.toArray⟩ with
  | some str => str
  | none => String.ofList (replaceMalformed bytes)

def unmarschalString : Unmarschal String := do
  let len ← getInt
  return newString (← getArray len)

def unmarschalMessage : Unmarschal (Option String) := do
  let len ← getInt
  if len = 0 then return none
  let left ← remaining
  if len.toInt > left then
    fail (.indexOutOfBounds (some
      ("String length " ++ toString len.toInt ++ " is bigger than remaining bytes " ++ toString left)))
  else return some (newString (← getArray len))

def unmarschalArg : Unmarschal LogArg := do
  let type ← getChar
  if type = 's'.toNat then return .string (← unmarschalString)
  else if type = 'i'.toNat then return .integer (← getInt)
  else if type = 'd'.toNat then return .double (← getLong)
  else if type = 'f'.toNat then return .float (← getInt)
  else if type = 'l'.toNat then return .long (← getLong)
  else if type = '0'.toNat then return .null
  else fail (.unsupportedEncoding ("Unknown format type: " ++ String.singleton (Char.ofNat type)))

def unmarschalLoop : Nat → Unmarschal (List LogArg)
  | 0 => return []
  | n + 1 => do
    let arg ← unmarschalArg
    return arg :: (← unmarschalLoop n)

def unmarschalArgs : Unmarschal (Option (List LogArg)) := do
  let numArgs ← getInt
  if numArgs.toInt > 30 then fail (.indexOutOfBounds (some "Too many arguments for Logitem to unmarschal"))
  else if numArgs = 0 then return none
  else if numArgs.toInt < 0 then fail (.negativeArraySize numArgs.toInt)
  else return some (← unmarschalLoop numArgs.toNat)

def unmarschal : Unmarschal LogItem := do
  let _ ← get 1
  let logtime ← getLong
  let mVerbosityLevel ← getInt
  let level ← getInt
  let mRessourceId ← getInt
  let mMessage ← unmarschalMessage
  let mArgs ← unmarschalArgs
  return { mArgs, mMessage, mRessourceId, mLevel := LogLevel.getEnumByValue level.toInt, logtime, mVerbosityLevel }

def ofBytes (bytes : List UInt8) (length : Int) : Except UnmarschalError LogItem :=
  if length < 0 ∨ bytes.length < length then .error (.indexOutOfBounds none)
  else
    match unmarschal (bytes.take length.toNat) with
    | .error error => .error error
    | .ok (item, left) =>
      if left.length > 0 then
        .error (.unsupportedEncoding (toString left.length ++ " bytes left after unmarshaling everything"))
      else .ok item

end LogItem

end RRoadVpn
