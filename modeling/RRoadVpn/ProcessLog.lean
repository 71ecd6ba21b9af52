import Mathlib.Data.List.Infix
import RRoadVpn.Library.Pattern
import RRoadVpn.LogItem
import RRoadVpn.Uuid

/-! What `OpenVPNThread` does with a line that the process prints. -/

namespace RRoadVpn.OpenVPNThread
open Library
open JavaText (Text)

def DUMP_PATH_STRING : Text := "Dump path: ".toList

def BROKEN_PIE_SUPPORT : Text := "/data/data/net.rroadvpn.openvpn/cache/pievpn".toList

def BROKEN_PIE_SUPPORT2 : Text := "syntax error".toList

def M_FATAL : BitVec 32 := 1 <<< 4

def M_NONFATAL : BitVec 32 := 1 <<< 5

def M_WARN : BitVec 32 := 1 <<< 6

def M_DEBUG : BitVec 32 := 1 <<< 7

inductive LogCall where
  | logMessageOpenVPN (level : LogLevel) (ovpnlevel : BitVec 32) (message : Text)
  | logError (message : Text)
  | logInfo (message : Text)
  deriving DecidableEq, Repr

structure State where
  mDumpPath : Option Text := none
  mBrokenPie : Bool := false
  logged : List LogCall := []
  deriving DecidableEq, Repr

/-! ### The pattern -/

def decimal (c : Char) : Bool := '0' ≤ c && c ≤ '9'

def lowerHex (c : Char) : Bool := '0' ≤ c && c ≤ '9' || 'a' ≤ c && c ≤ 'f'

def lineTerminator (c : Char) : Bool := c ∈ ['\n', '\r', '\u0085', '\u2028', '\u2029']

def pattern : List (Repeated Char) :=
  [{ accepts := decimal, group := .around },
    { accepts := fun c => !lineTerminator c, most := some 1 },
    { accepts := decimal, group := .around },
    { accepts := (· == ' '), most := some 1 },
    { accepts := lowerHex, group := .inside },
    { accepts := (· == ' '), most := some 1 },
    { accepts := fun c => !lineTerminator c, least := 0, group := .around }]

/-- `Integer.parseInt` in base sixteen. -/
def parseHex (s : Text) : Option (BitVec 32) := do
  let (negative, s) :=
    match s with
    | '-' :: rest => (true, rest)
    | '+' :: rest => (false, rest)
    | s => (false, s)
  let digits ← s.mapM UUID.hexDigit
  if digits = [] then none
  else
    let magnitude : Int := Nat.ofDigits 16 digits.reverse
    let value := if negative then -magnitude else magnitude
    if -0x80000000 ≤ value ∧ value ≤ 0x7fffffff then some (BitVec.ofInt 32 value) else none

/-! ### A line -/

def logStatus (flags : BitVec 32) : LogLevel :=
  if flags &&& M_FATAL ≠ 0 then .error
  else if flags &&& M_NONFATAL ≠ 0 then .warning
  else if flags &&& M_WARN ≠ 0 then .warning
  else if flags &&& M_DEBUG ≠ 0 then .verbose
  else .info

def logLevel (flags : BitVec 32) (msg : Text) : BitVec 32 :=
  let logLevel := flags &&& 0x0F
  if "MANAGEMENT: CMD".toList <+: msg then if logLevel.toInt ≤ 4 then 4 else logLevel else logLevel

def weakHash (msg : Text) : Bool :=
  "md too weak".toList <:+ msg && "OpenSSL: error".toList <+: msg || "error:140AB18E".toList <:+: msg

/-- The calls for a line; none where the flags are not a number. -/
def logCalls (logline : Text) : Option (List LogCall) :=
  match groups pattern logline with
  | some [_, _, third, fourth] => do
    let flags ← parseHex (third.getD [])
    let msg := fourth.getD []
    return [.logMessageOpenVPN (logStatus flags) (logLevel flags msg) msg] ++
      if weakHash msg then
        [.logError "OpenSSL reported a certificate with a weak hash, please the in app FAQ about weak hashes".toList]
      else []
  | _ => some [.logInfo ("P:".toList ++ logline)]

/-- A turn of the loop of `startOpenVPNThreadArgs`. -/
def readLine (s : State) (logline : Text) : Option State := do
  let mDumpPath := if DUMP_PATH_STRING <+: logline then some (logline.drop DUMP_PATH_STRING.length) else s.mDumpPath
  let mBrokenPie := s.mBrokenPie || BROKEN_PIE_SUPPORT <+: logline || BROKEN_PIE_SUPPORT2 <:+: logline
  let calls ← logCalls logline
  return { mDumpPath, mBrokenPie, logged := s.logged ++ calls }

end RRoadVpn.OpenVPNThread
