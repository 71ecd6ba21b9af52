import RRoadVpn.Library.Collections
import Mathlib.Data.Nat.Bitwise

/-! `NetworkSpace`: the networks to route into the VPN or around it, and the list of
networks without overlaps that is computed from them. Addresses are numbers; the
assertions of debug builds are left out. -/

namespace RRoadVpn
open Library

structure IpAddress where
  netAddress : Nat
  networkMask : Nat
  included : Bool
  isV4 : Bool
  deriving DecidableEq, Repr

namespace IpAddress

/-- The constructor from a CIDR address and its length. -/
def ofCIDRIP (ip len : Nat) (included : Bool) : IpAddress :=
  { netAddress := ip, networkMask := len, included, isV4 := true }

/-- The constructor from the bytes of an IPv6 address. -/
def ofInet6Address (address : List UInt8) (mask : Nat) (included : Bool) : IpAddress :=
  let read := address.foldl (fun (s, net) b => (s - 8, net + b.toNat <<< (s - 8))) (128, 0)
  { netAddress := read.2, networkMask := mask, included, isV4 := false }

def setBit (n i : Nat) : Nat := if n.testBit i then n else n + 2 ^ i

def clearBit (n i : Nat) : Nat := if n.testBit i then n - 2 ^ i else n

/-- The bits of an address that the mask leaves open. -/
def numBits (ip : IpAddress) : Nat := if ip.isV4 then 32 - ip.networkMask else 128 - ip.networkMask

def getMaskedAddress (ip : IpAddress) (one : Bool) : Nat :=
  (List.range ip.numBits).foldl (fun n i => if one then setBit n i else clearBit n i) ip.netAddress

def getFirstAddress (ip : IpAddress) : Nat := ip.getMaskedAddress false

def getLastAddress (ip : IpAddress) : Nat := ip.getMaskedAddress true

/-- By the first address, and smaller networks before larger ones. -/
def compareTo (ip another : IpAddress) : Ordering :=
  match compare ip.getFirstAddress another.getFirstAddress with
  | .eq =>
    if ip.networkMask > another.networkMask then .lt
    else if another.networkMask = ip.networkMask then .eq
    else .gt
  | comp => comp

/-- Ignores `included`. -/
def equals (ip on : IpAddress) : Bool :=
  ip.networkMask == on.networkMask && on.getFirstAddress == ip.getFirstAddress

def split (ip : IpAddress) : IpAddress × IpAddress :=
  let firstHalf : IpAddress := ⟨ip.getFirstAddress, ip.networkMask + 1, ip.included, ip.isV4⟩
  let secondHalf : IpAddress := ⟨firstHalf.getLastAddress + 1, ip.networkMask + 1, ip.included, ip.isV4⟩
  (firstHalf, secondHalf)

def containsNet (ip network : IpAddress) : Bool :=
  ip.getFirstAddress ≤ network.getFirstAddress && network.getLastAddress ≤ ip.getLastAddress

end IpAddress

structure NetworkSpace where
  mIpAddresses : List IpAddress := []
  deriving DecidableEq, Repr

namespace NetworkSpace
open IpAddress

def add (space : NetworkSpace) (ip : IpAddress) : NetworkSpace := ⟨TreeSet.add compareTo ip space.mIpAddresses⟩

def addIP (space : NetworkSpace) (ip len : Nat) (included : Bool) : NetworkSpace := space.add (.ofCIDRIP ip len included)

def addIPSplit (space : NetworkSpace) (ip len : Nat) (included : Bool) : NetworkSpace :=
  let splitIps := (IpAddress.ofCIDRIP ip len included).split
  (space.add splitIps.1).add splitIps.2

def addIPv6 (space : NetworkSpace) (address : List UInt8) (mask : Nat) (included : Bool) : NetworkSpace :=
  space.add (.ofInet6Address address mask included)

abbrev Queue := PriorityQueue IpAddress.compareTo

def contains (networks : List IpAddress) (ip : IpAddress) : Bool := networks.any ip.equals

/-- The state at the head of the loop, where there is a current network. -/
structure Loop where
  currentNet : IpAddress
  networks : List IpAddress
  ipsDone : List IpAddress
  deriving DecidableEq, Repr

section Generate

variable (queue : Queue)

def addAbsent (networks : List IpAddress) (ip : IpAddress) : List IpAddress :=
  if contains networks ip then networks else queue.add networks ip

/-- The next network is split and its halves are queued, except for the current one. -/
def splitNext (currentNet nextNet : IpAddress) (networks : List IpAddress) : List IpAddress :=
  let newNets := nextNet.split
  let networks := addAbsent queue networks newNets.2
  if newNets.1.getLastAddress = currentNet.getLastAddress then networks else addAbsent queue networks newNets.1

/-- The current network is split: its second half is queued, except for the next one, and the next one is put back. -/
def splitCurrent (currentNet nextNet : IpAddress) (networks : List IpAddress) : List IpAddress :=
  let newNets := currentNet.split
  if newNets.2.networkMask = nextNet.networkMask then queue.add networks nextNet
  else queue.add (queue.add networks newNets.2) nextNet

/-- What the loop does with a next network that overlaps. -/
def overlap (currentNet nextNet : IpAddress) (networks ipsDone : List IpAddress) : Loop :=
  if currentNet.getFirstAddress = nextNet.getFirstAddress ∧ currentNet.networkMask ≥ nextNet.networkMask then
    if currentNet.included = nextNet.included then ⟨nextNet, networks, ipsDone⟩
    else ⟨currentNet, splitNext queue currentNet nextNet networks, ipsDone⟩
  else if currentNet.included = nextNet.included then ⟨currentNet, networks, ipsDone⟩
  else ⟨currentNet.split.1, splitCurrent queue currentNet nextNet networks, ipsDone⟩

/-- One round, which ends the loop with `ipsDone` when there is no next network. -/
def round (loop : Loop) : Loop ⊕ List IpAddress :=
  match queue.poll loop.networks with
  | none => .inr (TreeSet.add compareTo loop.currentNet loop.ipsDone)
  | some (nextNet, networks) =>
    if loop.currentNet.getLastAddress < nextNet.getFirstAddress then
      .inl ⟨nextNet, networks, TreeSet.add compareTo loop.currentNet loop.ipsDone⟩
    else .inl (overlap queue loop.currentNet nextNet networks loop.ipsDone)

/-- The loop; `none` when the fuel ends first. -/
def rounds : Nat → Loop → Option (List IpAddress)
  | 0, _ => none
  | fuel + 1, loop =>
    match round queue loop with
    | .inr ipsDone => some ipsDone
    | .inl loop => rounds fuel loop

def generateIPList (space : NetworkSpace) : Option (List IpAddress) :=
  match queue.poll space.mIpAddresses with
  | none => some []
  | some (currentNet, networks) =>
    rounds queue (space.mIpAddresses.map fun ip => 3 * 2 ^ ip.numBits).sum ⟨currentNet, networks, []⟩

def KITKAT : Nat := 19

/-- Whether an included network of the original set is added back before KitKat. -/
def addedBack (ipsSorted : List IpAddress) (origIp : IpAddress) : Bool :=
  origIp.included && !ipsSorted.any (fun ip => ip.compareTo origIp == .eq) &&
    !ipsSorted.any fun calculatedIp => !calculatedIp.included && origIp.containsNet calculatedIp

def getPositiveIPList (sdkInt : Nat) (space : NetworkSpace) : Option (List IpAddress) :=
  (generateIPList queue space).map fun ipsSorted =>
    let ips := ipsSorted.filter (·.included)
    if sdkInt < KITKAT then ips ++ space.mIpAddresses.filter (addedBack ipsSorted) else ips

end Generate

end NetworkSpace

end RRoadVpn
