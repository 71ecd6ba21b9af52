import Mathlib.Tactic.SplitIfs
import RRoadVpn.Library.Noting
import RRoadVpn.LogItem

/-! The constructor `LogItem(byte[], int)` with the arrays that it creates: the size that is
asked for and the bytes that are left at that moment. -/

namespace RRoadVpn.LogItemArrays
open Library Noting LogItem

inductive Request where
  | bytes (size : Int) (left : Nat)
  | objects (size : Int)
  deriving DecidableEq, Repr

abbrev Unmarschal := Noting UInt8 UnmarschalError Request

def newBytes (len : BitVec 32) : Unmarschal Unit := do
  note (.bytes len.toInt)
  if len.toInt < 0 then lift (fail (.negativeArraySize len.toInt)) else return ()

def newObjects (numArgs : BitVec 32) : Unmarschal Unit := do
  note fun _ => .objects numArgs.toInt
  if numArgs.toInt < 0 then lift (fail (.negativeArraySize numArgs.toInt)) else return ()

/-- `new byte[len]` and a `get` that fills it. -/
def getArray (len : BitVec 32) : Unmarschal (List UInt8) := do
  newBytes len
  lift (get len.toNat)

def unmarschalString : Unmarschal String := do
  let len ← lift getInt
  return newString (← getArray len)

def unmarschalMessage : Unmarschal (Option String) := do
  let len ← lift getInt
  if len = 0 then return none
  else
    let left ← lift remaining
    if len.toInt > left then
      lift (fail (.indexOutOfBounds (some
        ("String length " ++ toString len.toInt ++ " is bigger than remaining bytes " ++ toString left))))
    else return some (newString (← getArray len))

def unmarschalArg : Unmarschal LogArg := do
  let type ← lift getChar
  if type = 's'.toNat then return .string (← unmarschalString)
  else if type = 'i'.toNat then return .integer (← lift getInt)
  else if type = 'd'.toNat then return .double (← lift getLong)
  else if type = 'f'.toNat then return .float (← lift getInt)
  else if type = 'l'.toNat then return .long (← lift getLong)
  else if type = '0'.toNat then return .null
  else lift (fail (.unsupportedEncoding ("Unknown format type: " ++ String.singleton (Char.ofNat type))))

def unmarschalLoop : Nat → Unmarschal (List LogArg)
  | 0 => return []
  | n + 1 => do
    let arg ← unmarschalArg
    return arg :: (← unmarschalLoop n)

def unmarschalArgs : Unmarschal (Option (List LogArg)) := do
  let numArgs ← lift getInt
  if numArgs.toInt > 30 then lift (fail (.indexOutOfBounds (some "Too many arguments for Logitem to unmarschal")))
  else if numArgs = 0 then return none
  else
    newObjects numArgs
    return some (← unmarschalLoop numArgs.toNat)

def unmarschalHeader : Unmarschal (BitVec 64 × BitVec 32 × BitVec 32 × BitVec 32) := lift do
  let _ ← get 1
  let logtime ← getLong
  let mVerbosityLevel ← getInt
  let level ← getInt
  let mRessourceId ← getInt
  return (logtime, mVerbosityLevel, level, mRessourceId)

def unmarschal : Unmarschal LogItem := do
  let (logtime, mVerbosityLevel, level, mRessourceId) ← unmarschalHeader
  let mMessage ← unmarschalMessage
  let mArgs ← unmarschalArgs
  return { mArgs, mMessage, mRessourceId, mLevel := LogLevel.getEnumByValue level.toInt, logtime, mVerbosityLevel }

/-- `LogItem(in, length)` with its requests. -/
def ofBytes (bytes : List UInt8) (length : Int) : List Request × Except UnmarschalError LogItem :=
  if length < 0 ∨ bytes.length < length then ([], .error (.indexOutOfBounds none))
  else
    let (requests, result) := unmarschal (bytes.take length.toNat)
    match result with
    | .error error => (requests, .error error)
    | .ok (item, left) =>
      if left.length > 0 then
        (requests, .error (.unsupportedEncoding (toString left.length ++ " bytes left after unmarshaling everything")))
      else (requests, .ok item)

/-! ### Without the requests -/

@[simp] theorem erase_newBytes (len : BitVec 32) :
    erase (newBytes len) = if len.toInt < 0 then fail (.negativeArraySize len.toInt) else pure () := by
  simp [newBytes]

@[simp] theorem erase_getArray (len : BitVec 32) : erase (getArray len) = LogItem.getArray len := by
  simp only [getArray, erase_bind, erase_newBytes, erase_lift, LogItem.getArray]
  split <;> rfl

@[simp] theorem erase_unmarschalString : erase unmarschalString = LogItem.unmarschalString := by
  simp [unmarschalString, LogItem.unmarschalString]

@[simp] theorem erase_unmarschalMessage : erase unmarschalMessage = LogItem.unmarschalMessage := by
  simp only [unmarschalMessage, erase_bind, erase_lift, erase_ite, erase_pure, erase_getArray]
  rfl

@[simp] theorem erase_unmarschalArg : erase unmarschalArg = LogItem.unmarschalArg := by
  simp only [unmarschalArg, erase_bind, erase_lift, erase_ite, erase_pure, erase_unmarschalString]
  rfl

@[simp] theorem erase_unmarschalLoop (n : Nat) : erase (unmarschalLoop n) = LogItem.unmarschalLoop n := by
  induction n with
  | zero => rfl
  | succ n ih =>
    simp only [unmarschalLoop, erase_bind, erase_pure, erase_unmarschalArg, ih]
    rfl

@[simp] theorem erase_newObjects (numArgs : BitVec 32) :
    erase (newObjects numArgs) = if numArgs.toInt < 0 then fail (.negativeArraySize numArgs.toInt) else pure () := by
  simp [newObjects]

@[simp] theorem erase_unmarschalArgs : erase unmarschalArgs = LogItem.unmarschalArgs := by
  simp only [unmarschalArgs, erase_bind, erase_lift, erase_ite, erase_pure, erase_newObjects, erase_unmarschalLoop]
  refine congrArg (LogItem.getInt >>= ·) (funext fun numArgs => ?_)
  split_ifs <;> rfl

private theorem erase_unmarschal : erase unmarschal = LogItem.unmarschal := by
  simp only [unmarschal, unmarschalHeader, erase_bind, erase_lift, erase_pure, erase_unmarschalMessage, erase_unmarschalArgs,
    LogItem.unmarschal, bind_assoc, pure_bind]

/-- The constructor, as it is read without its arrays. -/
theorem ofBytes_eq (bytes : List UInt8) (length : Int) : (ofBytes bytes length).2 = LogItem.ofBytes bytes length := by
  rw [ofBytes, LogItem.ofBytes, ← erase_unmarschal]
  split
  · rfl
  · simp only [erase]
    rcases unmarschal (bytes.take length.toNat) with ⟨requests, error | ⟨item, left⟩⟩
    · rfl
    · simp only
      split <;> rfl

end RRoadVpn.LogItemArrays
