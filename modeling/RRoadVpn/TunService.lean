import RRoadVpn.NetworkSpace

/-! `OpenVPNService` between two tunnels: the settings pushed by `>NEED-OK` commands
are kept in its fields until `openTun` builds a tunnel from them. Addresses are
numbers, as the management protocol prints them; what is only logged is left out. -/

namespace RRoadVpn

def dotted (ip : Nat) : String :=
  toString ((ip >>> 24) % 256) ++ "." ++ toString ((ip >>> 16) % 256) ++ "." ++ toString ((ip >>> 8) % 256) ++ "." ++
    toString (ip % 256)

structure CIDRIP where
  mIp : BitVec 32
  len : Nat
  deriving DecidableEq, Repr

namespace CIDRIP

/-- The zeros before the lowest set bit, which is at most the 33rd. -/
def lenZeros : Nat → Nat → Nat
  | 0, _ => 0
  | fuel + 1, netmask => if netmask % 2 = 0 then lenZeros fuel (netmask >>> 1) + 1 else 0

def calculateLenFromMask (mask : BitVec 32) : Nat :=
  let netmask := mask.toNat + 1 <<< 32
  let zeros := lenZeros 32 netmask
  if netmask >>> zeros ≠ 0x1ffffffff >>> zeros then 32 else 32 - zeros

def ofMask (ip mask : BitVec 32) : CIDRIP := { mIp := ip, len := calculateLenFromMask mask }

def toText (cidr : CIDRIP) : String := dotted cidr.mIp.toNat ++ "/" ++ toString cidr.len

def normalise (cidr : CIDRIP) : CIDRIP := { cidr with mIp := cidr.mIp &&& BitVec.ofNat 32 (0xffffffff <<< (32 - cidr.len)) }

end CIDRIP

namespace IpAddress

def ofCIDR (cidr : CIDRIP) (included : Bool) : IpAddress := .ofCIDRIP cidr.mIp.toNat cidr.len included

def hex (part : Nat) : String := String.ofList (Nat.toDigits 16 part)

/-- The loop over the parts of an IPv6 address from the right; there are eight. -/
def ipv6Parts : Nat → Nat → Option String → Bool → Option String
  | 0, _, ipv6str, _ => ipv6str
  | fuel + 1, r, ipv6str, lastPart =>
    if r = 0 then ipv6str
    else
      let part := r % 0x10000
      let ipv6str :=
        match ipv6str with
        | none => if part = 0 then none else if lastPart then some (hex part) else some (hex part ++ "::")
        | some text => some (hex part ++ ":" ++ text)
      ipv6Parts fuel (r >>> 16) ipv6str false

def getIPv6Address (ip : IpAddress) : String := (ipv6Parts 8 ip.netAddress none true).getD "::"

def toText (ip : IpAddress) : String :=
  if ip.isV4 then dotted ip.netAddress ++ "/" ++ toString ip.networkMask
  else ip.getIPv6Address ++ "/" ++ toString ip.networkMask

end IpAddress

namespace NetworkSpace

def getNetworks (space : NetworkSpace) (included : Bool) : List IpAddress :=
  space.mIpAddresses.filter (·.included == included)

end NetworkSpace

/-- What `openTun` gives to the builder. -/
structure Settings where
  mLocalIP : Option CIDRIP := none
  mLocalIPv6 : Option String := none
  mDnslist : List String := []
  mDomain : Option String := none
  mRoutes : NetworkSpace := {}
  mRoutesv6 : NetworkSpace := {}
  deriving DecidableEq, Repr

structure OpenVPNService extends Settings where
  mMtu : BitVec 32 := 0
  mRemoteGW : Option (BitVec 32) := none
  mLastTunCfg : Option String := none
  deriving DecidableEq, Repr

structure TunPlatform where
  sdkInt : Nat
  /-- A release of KitKat before 4.4.3. -/
  earlyKitKat : Bool
  mAllowLocalLAN : Bool
  doUseOpenVPN3 : Bool

/-- `getLocalNetworks` for both families. -/
structure LocalNetworks where
  ipv4 : List CIDRIP := []
  ipv6 : List (List UInt8 × Nat) := []
  deriving DecidableEq, Repr

namespace OpenVPNService

def LOLLIPOP : Nat := 21

def join (networks : List IpAddress) : String := "|".intercalate (networks.map IpAddress.toText)

def getTunConfigString (s : OpenVPNService) : String :=
  "TUNCFG UNQIUE STRING ips:" ++ (s.mLocalIP.map CIDRIP.toText).getD "" ++ s.mLocalIPv6.getD "" ++
    "routes: " ++ join (s.mRoutes.getNetworks true) ++ join (s.mRoutesv6.getNetworks true) ++
    "excl. routes:" ++ join (s.mRoutes.getNetworks false) ++ join (s.mRoutesv6.getNetworks false) ++
    "dns: " ++ "|".intercalate s.mDnslist ++ "domain: " ++ s.mDomain.getD "null" ++ "mtu: " ++ toString s.mMtu.toInt

inductive TunAction where
  | NOACTION
  | OPEN_BEFORE_CLOSE
  | OPEN_AFTER_CLOSE
  deriving DecidableEq, Repr

section Platform

variable (platform : TunPlatform)

def getTunReopenStatus (s : OpenVPNService) : TunAction :=
  if some s.getTunConfigString = s.mLastTunCfg then .NOACTION
  else if platform.earlyKitKat then .OPEN_AFTER_CLOSE
  else .OPEN_BEFORE_CLOSE

def addDNS (dns : String) (s : OpenVPNService) : OpenVPNService := { s with mDnslist := s.mDnslist ++ [dns] }

def setDomain (domain : String) (s : OpenVPNService) : OpenVPNService :=
  match s.mDomain with
  | none => { s with mDomain := some domain }
  | some _ => s

def VPNSERVICE_TUN : String := "vpnservice-tun"

def isAndroidTunDevice : Option String → Bool
  | none => false
  | some device => "tun".isPrefixOf device || "(null)" == device || VPNSERVICE_TUN == device

def addRoute (dest mask gateway : BitVec 32) (device : Option String) (s : OpenVPNService) : OpenVPNService :=
  match s.mLocalIP with
  | none => s
  | some mLocalIP =>
    let gatewayIP := IpAddress.ofCIDR ⟨gateway, 32⟩ false
    let included := isAndroidTunDevice device || (IpAddress.ofCIDR mLocalIP true).containsNet gatewayIP ||
      gateway == 0xffffffff || some gateway == s.mRemoteGW
    let route := (CIDRIP.ofMask dest mask).normalise
    { s with mRoutes := s.mRoutes.addIP route.mIp.toNat route.len included }

/-- `addRoutev6`, for a network whose address is known. -/
def addRoutev6 (network : Option (List UInt8 × Nat)) (included : Bool) (s : OpenVPNService) : OpenVPNService :=
  match network with
  | none => s
  | some (ip, mask) => { s with mRoutesv6 := s.mRoutesv6.addIPv6 ip mask included }

/-- The length of the local network when the netmask is an address. -/
def localLen (ip netmask : BitVec 32) (mode : String) : Nat :=
  let len := CIDRIP.calculateLenFromMask netmask
  if len = 32 ∧ netmask ≠ 0xffffffff then
    let masklen := if mode = "net30" then 30 else 31
    let mask : BitVec 32 := if mode = "net30" then 0xfffffffc else 0xfffffffe
    if netmask &&& mask = ip &&& mask then masklen else 32
  else len

def setLocalIP (ip netmask mtu : BitVec 32) (mode : String) (s : OpenVPNService) : OpenVPNService :=
  let mLocalIP : CIDRIP := ⟨ip, localLen ip netmask mode⟩
  let interfaceRoute := mLocalIP.normalise
  { s with
    mLocalIP := some mLocalIP
    mMtu := mtu
    mRoutes :=
      if mLocalIP.len ≤ 31 ∧ platform.sdkInt ≥ LOLLIPOP then s.mRoutes.addIP interfaceRoute.mIp.toNat interfaceRoute.len true
      else s.mRoutes
    mRemoteGW := some netmask }

def addLocalNetwork (mLocalIP : CIDRIP) (s : OpenVPNService) (net : CIDRIP) : OpenVPNService :=
  if net.mIp = mLocalIP.mIp then s
  else if platform.sdkInt < NetworkSpace.KITKAT ∧ ¬ platform.mAllowLocalLAN then
    { s with mRoutes := s.mRoutes.addIPSplit net.mIp.toNat net.len true }
  else if platform.sdkInt ≥ NetworkSpace.KITKAT ∧ platform.mAllowLocalLAN then
    { s with mRoutes := s.mRoutes.addIP net.mIp.toNat net.len false }
  else s

def addLocalNetworksToRoutes (nets : LocalNetworks) (mLocalIP : CIDRIP) (s : OpenVPNService) : OpenVPNService :=
  let s := nets.ipv4.foldl (addLocalNetwork platform mLocalIP) s
  if platform.mAllowLocalLAN then nets.ipv6.foldl (fun s net => addRoutev6 (some net) false s) s else s

/-- The part of `openTun` that adds the local networks. -/
def withLocalNetworks (nets : LocalNetworks) (s : OpenVPNService) : OpenVPNService :=
  match s.mLocalIP with
  | none => s
  | some mLocalIP => if platform.doUseOpenVPN3 then s else addLocalNetworksToRoutes platform nets mLocalIP s

/-- How Android takes the addresses and the tunnel. -/
inductive Outcome where
  | addressRejected
  | addressv6Rejected
  | establishFailed
  | established
  deriving DecidableEq, Repr

/-- `openTun`, with the settings that were given to `establish`. -/
def openTun (nets : LocalNetworks) (outcome : Outcome) (s : OpenVPNService) : OpenVPNService × Option Settings :=
  if s.mLocalIP = none ∧ s.mLocalIPv6 = none then (s, none)
  else
    let s := withLocalNetworks platform nets s
    if s.mLocalIP.isSome ∧ outcome = .addressRejected then (s, none)
    else if s.mLocalIPv6.isSome ∧ outcome = .addressv6Rejected then (s, none)
    else ({ s with toSettings := {}, mLastTunCfg := some s.getTunConfigString }, some s.toSettings)

end Platform

end OpenVPNService

namespace TunService
open OpenVPNService

/-- The commands that push a setting, with their arguments. -/
inductive Push where
  | IFCONFIG (ip netmask mtu : BitVec 32) (mode : String)
  | IFCONFIG6 (ipv6addr : String) (mtu : BitVec 32)
  | ROUTE (dest mask gateway : BitVec 32) (device : Option String)
  | ROUTE6 (network : Option (List UInt8 × Nat)) (device : String)
  | DNSSERVER (dns : String)
  | DNSDOMAIN (domain : String)
  deriving DecidableEq, Repr

/-- `>NEED-OK`, with the answer to PERSIST_TUN_ACTION and what happens in `openTun`. -/
inductive Command where
  | push (setting : Push)
  | PERSIST_TUN_ACTION (status : TunAction)
  | OPENTUN (extra : String) (nets : LocalNetworks) (outcome : Outcome)
  deriving DecidableEq, Repr

/-- A tunnel with the settings pushed since the decision before it. -/
structure Built where
  settings : Settings
  nets : LocalNetworks
  pushed : List Push
  deriving DecidableEq, Repr

structure State where
  service : OpenVPNService := {}
  pushed : List Push := []
  built : List Built := []
  deriving DecidableEq, Repr

section Platform

variable (platform : TunPlatform)

/-- The service's part of `processNeedCommand` for a setting. -/
def pushSetting (s : OpenVPNService) : Push → OpenVPNService
  | .IFCONFIG ip netmask mtu mode => setLocalIP platform ip netmask mtu mode s
  | .IFCONFIG6 ipv6addr mtu => { s with mMtu := mtu, mLocalIPv6 := some ipv6addr }
  | .ROUTE dest mask gateway device => addRoute dest mask gateway device s
  | .ROUTE6 network device => addRoutev6 network (isAndroidTunDevice (some device)) s
  | .DNSSERVER dns => addDNS dns s
  | .DNSDOMAIN domain => setDomain domain s

/-- `sendTunFD`, which is for tun devices only. -/
def sendTunFD (extra : String) (nets : LocalNetworks) (outcome : Outcome) (s : OpenVPNService) :
    OpenVPNService × Option Settings :=
  if extra ≠ "tun" then (s, none) else openTun platform nets outcome s

/-- `processNeedCommand`. A NOACTION answer and OPENTUN end a round. -/
def processNeedCommand (s : State) : Command → State
  | .push setting => { s with service := pushSetting platform s.service setting, pushed := s.pushed ++ [setting] }
  | .PERSIST_TUN_ACTION .NOACTION => { s with pushed := [] }
  | .PERSIST_TUN_ACTION _ => s
  | .OPENTUN extra nets outcome =>
    let (service, settings) := sendTunFD platform extra nets outcome s.service
    { service, pushed := [], built := s.built ++ (settings.map (⟨·, nets, s.pushed⟩)).toList }

end Platform

end TunService

end RRoadVpn
