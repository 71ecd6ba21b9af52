import RRoadVpn.ConvertProfile
import RRoadVpn.TunService

/-! The addresses of `OpenVPNService` as the texts that are pushed: how `CIDRIP` reads and
prints them, and what `addRoute` and `setLocalIP` make of them, also where a text is not an
address. What is only logged is left out. -/

namespace RRoadVpn.PushedAddresses
open ConfigParser
open JavaText (Text)

structure CIDRIP where
  mIp : Text
  len : Int
  deriving DecidableEq, Repr

def broadcast : Text := "255.255.255.255".toList

def getInt (ipaddr : Text) : Except ImportError (BitVec 64) := (ConfigParser.getInt ipaddr).mapError .runtime

/-- A byte of a number, printed as `%d`. -/
def byte (newip mask : BitVec 64) (shift : Nat) : String := toString ((newip &&& mask).sshiftRight shift).toInt

/-- How `normalise` prints a number. The first mask is an int, which is widened with its sign. -/
def printed (newip : BitVec 64) : Text :=
  (byte newip 0xffffffffff000000 24 ++ "." ++ byte newip 0xff0000 16 ++ "." ++ byte newip 0xff00 8 ++ "." ++
    byte newip 0xff 0).toList

namespace CIDRIP

def ofMask (ip mask : Text) : Except ImportError CIDRIP := do
  let len ← calculateLenFromMask mask
  return { mIp := ip, len }

/-- The shift distance of a long is taken modulo 64. -/
def normalise (cidr : CIDRIP) : Except ImportError CIDRIP := do
  let ip ← getInt cidr.mIp
  let newip := ip &&& ((0xffffffff : BitVec 64) <<< ((32 - cidr.len) % 64).toNat)
  return if newip ≠ ip then { cidr with mIp := printed newip } else cidr

/-- The network of `NetworkSpace`, where addresses and lengths are not negative. -/
def toIpAddress (cidr : CIDRIP) (included : Bool) : Except ImportError IpAddress := do
  let ip ← getInt cidr.mIp
  return .ofCIDRIP ip.toInt.toNat cidr.len.toNat included

end CIDRIP

/-- The fields of the service that hold what was pushed for IPv4. -/
structure State where
  mLocalIP : Option CIDRIP := none
  mMtu : BitVec 32 := 0
  mRemoteGW : Option Text := none
  mRoutes : NetworkSpace := {}
  deriving DecidableEq, Repr

/-- A method of the service, which keeps what it has set when it fails. -/
abbrev Service := EStateM ImportError State

def addIP (cidrIp : CIDRIP) (included : Bool) : Service Unit := do
  let ip ← ofExcept (cidrIp.toIpAddress included)
  modify fun s => { s with mRoutes := s.mRoutes.add ip }

/-- `addRoute` as the management thread calls it. -/
def addRoute (dest mask gateway : Text) (device : Option String) : Service Unit := do
  let route ← ofExcept (CIDRIP.ofMask dest mask)
  let gatewayIP ← ofExcept (CIDRIP.toIpAddress ⟨gateway, 32⟩ false)
  let s ← get
  match s.mLocalIP with
  | none => return
  | some mLocalIP =>
    let localNet ← ofExcept (mLocalIP.toIpAddress true)
    let included := OpenVPNService.isAndroidTunDevice device || localNet.containsNet gatewayIP ||
      gateway == broadcast || some gateway == s.mRemoteGW
    let route ← ofExcept route.normalise
    addIP route included

/-- The length of the local network; a netmask that is no mask is read as the address of the peer. -/
def localLen (mLocalIP : CIDRIP) (netmask : Text) (mode : String) : Except ImportError Int := do
  let netMaskAsInt ← getInt netmask
  if mLocalIP.len = 32 ∧ netmask ≠ broadcast then
    let masklen := if mode = "net30" then 30 else 31
    let mask : BitVec 64 := if mode = "net30" then 0xfffffffffffffffc else 0xfffffffffffffffe
    let ip ← getInt mLocalIP.mIp
    return if netMaskAsInt &&& mask = ip &&& mask then masklen else 32
  else return mLocalIP.len

/-- `setLocalIP` as the management thread calls it. -/
def setLocalIP (sdkInt : Nat) (ip netmask : Text) (mtu : BitVec 32) (mode : String) : Service Unit := do
  let mLocalIP ← ofExcept (CIDRIP.ofMask ip netmask)
  modify fun s => { s with mLocalIP := some mLocalIP, mMtu := mtu, mRemoteGW := none }
  let len ← ofExcept (localLen mLocalIP netmask mode)
  let mLocalIP := { mLocalIP with len }
  modify fun s => { s with mLocalIP := some mLocalIP }
  if len ≤ 31 ∧ sdkInt ≥ OpenVPNService.LOLLIPOP then
    let interfaceRoute ← ofExcept mLocalIP.normalise
    addIP interfaceRoute true
  modify fun s => { s with mRemoteGW := some netmask }

/-- The calls that reach these fields. Of `openTun` we keep the local networks that it adds to
the routes and whether it gets to the end, where the settings are cleared. -/
inductive Call where
  | addRoute (dest mask gateway : Text) (device : Option String)
  | addCIDRRoute (route : CIDRIP) (included : Bool)
  | setLocalIP (ip netmask : Text) (mtu : BitVec 32) (mode : String)
  | setLocalCIDR (cdrip : CIDRIP)
  | setMtu (mtu : BitVec 32)
  | openTun (localNets : List IpAddress) (opened : Bool)
  deriving DecidableEq, Repr

def call (sdkInt : Nat) : Call → Service Unit
  | .addRoute dest mask gateway device => addRoute dest mask gateway device
  | .addCIDRRoute route included => addIP route included
  | .setLocalIP ip netmask mtu mode => setLocalIP sdkInt ip netmask mtu mode
  | .setLocalCIDR cdrip => modify fun s => { s with mLocalIP := some cdrip }
  | .setMtu mtu => modify fun s => { s with mMtu := mtu }
  | .openTun localNets opened =>
    modify fun s =>
      if opened then { s with mLocalIP := none, mRoutes := {} }
      else { s with mRoutes := localNets.foldl NetworkSpace.add s.mRoutes }

def step (sdkInt : Nat) (s : State) (c : Call) : Option State :=
  match (call sdkInt c).run s with
  | .ok _ s => some s
  | .error _ s => some s

end RRoadVpn.PushedAddresses
