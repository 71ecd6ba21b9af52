import RRoadVpn.ConvertProfile
import RRoadVpn.Library.Attempts
import RRoadVpn.TunService

/-! How `OpenVpnManagementThread` answers `>NEED-OK`. Here a request is a text, and every
step of its handling can fail; what the pushed settings do to the service is in `TunService`. -/

namespace RRoadVpn.NeedOk
open JavaText (Text)
open ConfigParser (RuntimeException getInt calculateLenFromMask)
open OpenVPNService (TunAction LOLLIPOP)

/-- What can be thrown while a descriptor is sent; all but the last are caught. -/
inductive SendException where
  | NoSuchMethod
  | IllegalArgument
  | InvocationTarget
  | IOException
  | IllegalAccess
  | unchecked
  deriving DecidableEq, Repr

/-- Why a request is not handled to its end: the thread is dead or in a loop. -/
inductive Failure where
  | runtime (e : RuntimeException)
  | ClassCast
  | endless
  | openTun
  | sending (e : SendException)
  deriving DecidableEq, Repr

/-- What `openTun` returns, null also when Android does not establish the tunnel. -/
inductive OpenTun where
  | null
  | establishFailed
  | pfd
  | threw
  deriving DecidableEq, Repr

/-- What `InetAddress.getAllByName` finds. -/
inductive Host where
  | Inet6Address
  | Inet4Address
  | UnknownHost
  deriving DecidableEq, Repr

/-- How the steps go that the thread does not decide. -/
structure Steps where
  sdkInt : Nat := LOLLIPOP
  getAllByName : Text → Host := fun _ => .Inet6Address
  getTunReopenStatus : TunAction := .OPEN_BEFORE_CLOSE
  openTun : OpenTun := .pfd
  setInt : Option SendException := none
  setFileDescriptorsForSend : Option SendException := none
  /-- `setFileDescriptorsForSend(null)`. -/
  clearFileDescriptors : Option SendException := none
  close : Option SendException := none

structure State where
  /-- The text of the local address. -/
  mLocalIP : Option Text := none
  /-- What was written to the socket. -/
  written : List Text := []
  deriving DecidableEq, Repr

abbrev Handling := ExceptT Failure (StateM State)

def managmentCommand (cmd : Text) : Handling Unit := modify fun s => { s with written := s.written ++ [cmd] }

def needok (needed status : Text) : Text := "needok '".toList ++ needed ++ "' ".toList ++ status ++ ['\n']

/-! ### Arguments -/

def runtime {α : Type} : Except RuntimeException α → Handling α
  | .ok a => return a
  | .error e => throw (.runtime e)

def quoted (argument : Text) : Except RuntimeException Text :=
  match argument.dropWhile (· ≠ '\'') with
  | _ :: rest => if '\'' ∈ rest then .ok (rest.takeWhile (· ≠ '\'')) else .error .StringIndexOutOfBounds
  | [] => .error .StringIndexOutOfBounds

def afterColon (argument : Text) : Except RuntimeException Text :=
  match argument.dropWhile (· ≠ ':') with
  | _ :: rest => .ok rest
  | [] => .error .ArrayIndexOutOfBounds

def part (parts : List Text) (i : Nat) : Except RuntimeException Text :=
  match parts[i]? with
  | none => .error .ArrayIndexOutOfBounds
  | some s => .ok s

def parseInt (s : Text) : Except RuntimeException Int :=
  match JavaText.parseInt s with
  | none => .error (.NumberFormat s)
  | some n => .ok n

def lenFromMask (mask : Text) : Handling Int :=
  match calculateLenFromMask mask with
  | .ok len => return len
  | .error (.runtime e) => throw (.runtime e)
  | .error _ => throw .endless

/-! ### OpenVPN's side -/

def alertSize : Nat := 128

/-- The argument of the line that `management_android_control` sends and then waits for. -/
def androidControl (command msg : Text) : Text :=
  ((">NEED-OK:Need '".toList ++ command ++ "' confirmation MSG:".toList ++ msg).take (alertSize - 1)).drop ">NEED-OK:".length

/-! ### The service -/

/-- `addRoute`: what it reads as an address. -/
def addRoute (dest mask gateway : Text) : Handling Unit := do
  let _ ← lenFromMask mask
  let _ ← runtime (getInt gateway)
  match (← get).mLocalIP with
  | none => return ()
  | some mLocalIP =>
    let _ ← runtime (getInt mLocalIP)
    let _ ← runtime (getInt dest)
    return ()

section Steps

variable (steps : Steps)

def addRoutev6 (network : Text) : Handling Unit := do
  let v6parts := JavaText.split '/' network
  let host ← runtime (part v6parts 0)
  match steps.getAllByName host with
  | .UnknownHost => return ()
  | .Inet4Address => throw .ClassCast
  | .Inet6Address =>
    let mask ← runtime (part v6parts 1)
    let _ ← runtime (parseInt mask)
    return ()

/-- The length for a mask that is the other end's address. -/
def pointToPointLen (ip netmask mode : Text) : Except RuntimeException Int := do
  let netMaskAsInt ← getInt netmask
  let address ← getInt ip
  let masklen : Int := if mode = "net30".toList then 30 else 31
  let mask : BitVec 64 := if mode = "net30".toList then 0xfffffffffffffffc else 0xfffffffffffffffe
  return if netMaskAsInt &&& mask = address &&& mask then masklen else 32

def localLen (ip netmask mode : Text) (len : Int) : Except RuntimeException Int :=
  if len = 32 ∧ netmask ≠ "255.255.255.255".toList then pointToPointLen ip netmask mode else .ok len

def interfaceRoute (ip : Text) (len : Int) : Except RuntimeException Unit :=
  if len ≤ 31 ∧ steps.sdkInt ≥ LOLLIPOP then (getInt ip).map fun _ => () else .ok ()

/-- `setLocalIP`: the address is read as a number for such masks and such routes only. -/
def setLocalIP (ip netmask mode : Text) : Handling Unit := do
  let len ← lenFromMask netmask
  modify fun s => { s with mLocalIP := some ip }
  let len ← runtime (localLen ip netmask mode len)
  runtime (interfaceRoute steps ip len)

/-- `openTun` forgets the address before it establishes the tunnel. -/
def openTun : Handling Bool :=
  match steps.openTun with
  | .null => return false
  | .threw => throw .openTun
  | outcome => do
    modify fun s => { s with mLocalIP := none }
    return outcome = .pfd

/-! ### Requests -/

inductive Request where
  | PROTECTFD
  | DNSSERVER
  | DNS6SERVER
  | DNSDOMAIN
  | ROUTE
  | ROUTE6
  | IFCONFIG
  | IFCONFIG6
  | PERSIST_TUN_ACTION
  | OPENTUN
  deriving DecidableEq, Repr

namespace Request

def all : List (Request × String) :=
  [(PROTECTFD, "PROTECTFD"), (DNSSERVER, "DNSSERVER"), (DNS6SERVER, "DNS6SERVER"), (DNSDOMAIN, "DNSDOMAIN"), (ROUTE, "ROUTE"),
    (ROUTE6, "ROUTE6"), (IFCONFIG, "IFCONFIG"), (IFCONFIG6, "IFCONFIG6"), (PERSIST_TUN_ACTION, "PERSIST_TUN_ACTION"),
    (OPENTUN, "OPENTUN")]

def ofText (needed : Text) : Option Request := (all.find? fun entry => entry.2.toList = needed).map Prod.fst

end Request

def TunAction.text : TunAction → Text
  | .NOACTION => "NOACTION".toList
  | .OPEN_BEFORE_CLOSE => "OPEN_BEFORE_CLOSE".toList
  | .OPEN_AFTER_CLOSE => "OPEN_AFTER_CLOSE".toList

/-- A request with settings for the tunnel, or for a descriptor to protect, which always returns.
The device of a route does not matter here. -/
def push (extra : Text) : Request → Handling Unit
  | .ROUTE => do
    let routeparts := JavaText.split ' ' extra
    if routeparts.length ≥ 3 then
      addRoute (routeparts[0]?.getD []) (routeparts[1]?.getD []) (routeparts[2]?.getD [])
  | .ROUTE6 => do
    let routeparts := JavaText.split ' ' extra
    let network ← runtime (part routeparts 0)
    let _ ← runtime (part routeparts 1)
    addRoutev6 steps network
  | .IFCONFIG => do
    let ifconfigparts := JavaText.split ' ' extra
    let mtu ← runtime (part ifconfigparts 2)
    let _ ← runtime (parseInt mtu)
    let ip ← runtime (part ifconfigparts 0)
    let netmask ← runtime (part ifconfigparts 1)
    let mode ← runtime (part ifconfigparts 3)
    setLocalIP steps ip netmask mode
  | .IFCONFIG6 => do
    let ifconfig6parts := JavaText.split ' ' extra
    let mtu ← runtime (part ifconfig6parts 1)
    let _ ← runtime (parseInt mtu)
  | _ => return ()

/-- A step of `sendTunFD` that may throw. -/
def step : Option SendException → ExceptT SendException (StateM State) Unit
  | none => return ()
  | some e => throw e

/-- The `try` block of `sendTunFD`: the reply takes the descriptor with it. -/
def sendFD (needed : Text) : ExceptT SendException (StateM State) Unit := do
  step steps.setInt
  step steps.setFileDescriptorsForSend
  modify fun s => { s with written := s.written ++ [needok needed "ok".toList] }
  step steps.clearFileDescriptors
  step steps.close

/-- The end of the `try` block; only some exceptions are caught. -/
def caught : Except SendException Unit → Handling Bool
  | .ok _ => return true
  | .error e => if e = .unchecked then throw (.sending e) else return false

def sendTunFD (needed extra : Text) : Handling Bool :=
  if extra ≠ "tun".toList then return false
  else do
    let pfd ← openTun steps
    if pfd then caught (← (sendFD steps needed).run)
    else return false

/-- The switch over the requests, with the answer behind it. -/
def answer (needed extra : Text) : Option Request → Handling Unit
  | none => return ()
  | some .OPENTUN => do
    if ← sendTunFD steps needed extra then return ()
    else managmentCommand (needok needed "cancel".toList)
  | some .PERSIST_TUN_ACTION => managmentCommand (needok needed (TunAction.text steps.getTunReopenStatus))
  | some request => do
    push steps extra request
    managmentCommand (needok needed "ok".toList)

def processNeedCommand (argument : Text) : Handling Unit := do
  let needed ← runtime (quoted argument)
  let extra ← runtime (afterColon argument)
  answer steps needed extra (Request.ofText needed)

/-- The handling of a request, whether it returns and the state after it. -/
def handle (argument : Text) (s : State) : Except Failure Unit × State :=
  Library.attempt (processNeedCommand steps argument) s

end Steps

end RRoadVpn.NeedOk
