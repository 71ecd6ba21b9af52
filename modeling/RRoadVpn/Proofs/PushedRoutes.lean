import Mathlib.Tactic.SplitIfs
import RRoadVpn.Library.Runs
import RRoadVpn.Proofs.NetworkBlocks
import RRoadVpn.Proofs.RouteTexts
import RRoadVpn.Proofs.TunTexts
import RRoadVpn.PushedAddresses

/-! `addRoute` and `setLocalIP` on dotted quads: the network that a pushed route adds, the
network of the interface, and what the gateway has to do with them. -/

namespace RRoadVpn.Proofs.PushedRoutes
open Library PushedAddresses NetworkBlocks RouteTexts
open JavaText (Text)

/-! ### Masks -/

def prefixMask (len : Nat) : BitVec 32 := BitVec.allOnes 32 <<< (32 - len)

def Contiguous (mask : BitVec 32) : Prop := ∃ len ≤ 32, mask = prefixMask len

private theorem prefixMask_toNat (len : Nat) : (prefixMask len).toNat = netmask len := by
  rw [prefixMask, BitVec.toNat_shiftLeft, BitVec.toNat_allOnes]
  rfl

theorem lenZeros_spec {fuel : Nat} {number : BitVec 64} (nonzero : number.toNat ≠ 0) (bound : number.toNat < 2 ^ fuel)
    (positive : number.toNat < 2 ^ 63) :
    ∃ zeros ones, ConfigParser.lenZeros fuel number = some (zeros, ones) ∧ number.toNat = ones.toNat * 2 ^ zeros := by
  induction fuel generalizing number with
  | zero => omega
  | succ fuel ih =>
    rw [ConfigParser.lenZeros]
    split
    next even =>
      have bit : number.toNat % 2 = 0 := by
        have same := congrArg BitVec.toNat even
        rwa [BitVec.toNat_and, show (1 : BitVec 64).toNat = 1 from rfl, Nat.and_one_is_mod] at same
      have half : (number.sshiftRight 1).toNat = number.toNat / 2 := by
        have msb : number.msb = false := by
          rw [BitVec.msb_eq_decide]
          simpa using positive
        rw [BitVec.sshiftRight_eq_of_msb_false msb, BitVec.toNat_ushiftRight, Nat.shiftRight_eq_div_pow, pow_one]
      obtain ⟨zeros, ones, found, product⟩ := @ih (number.sshiftRight 1) (by omega) (by omega) (by omega)
      refine ⟨zeros + 1, ones, by rw [found]; rfl, ?_⟩
      rw [pow_succ, ← Nat.mul_assoc, ← product, half]
      omega
    next odd => exact ⟨0, number, rfl, by simp⟩

private theorem maskLength_prefixMask {len : Nat} (few : len ≤ 32) :
    ConfigParser.maskLength (BitVec.ofNat 64 (prefixMask len).toNat) = some (len : Int) := by
  rw [prefixMask_toNat]
  exact maskLength_netmask few

theorem maskLength_other {mask : BitVec 32} (other : ¬ Contiguous mask) :
    ConfigParser.maskLength (BitVec.ofNat 64 mask.toNat) = some 32 := by
  have small := mask.isLt
  have sum : (BitVec.ofNat 64 mask.toNat + ConfigParser.bit33).toNat = mask.toNat + 2 ^ 32 := by
    rw [BitVec.toNat_add, BitVec.toNat_ofNat, show ConfigParser.bit33.toNat = 2 ^ 32 from rfl]
    omega
  have bounded : (BitVec.ofNat 64 mask.toNat + ConfigParser.bit33).toNat < 2 ^ 64 := by omega
  obtain ⟨zeros, ones, found, product⟩ := lenZeros_spec (by omega) bounded (by omega)
  rw [sum] at product
  rw [ConfigParser.maskLength, found, Option.map_some]
  refine congrArg some (if_pos ?_)
  rintro rfl
  refine other ⟨32 - zeros, by omega, BitVec.eq_of_toNat_eq ?_⟩
  have ends : ∀ zeros, zeros ≤ 32 → ((0x1ffffffff : BitVec 64).sshiftRight zeros).toNat * 2 ^ zeros =
      2 ^ 32 + netmask (32 - zeros) := by
    decide +kernel
  have few : zeros ≤ 32 := by
    by_contra many
    have large : 2 ^ 33 ≤ 2 ^ zeros := Nat.pow_le_pow_right (by decide) (by omega)
    have nonzero : ((0x1ffffffff : BitVec 64).sshiftRight zeros).toNat ≠ 0 := by
      intro zero
      rw [zero] at product
      omega
    have := Nat.mul_le_mul (Nat.one_le_iff_ne_zero.mpr nonzero) large
    omega
  rw [prefixMask_toNat]
  have := ends zeros few
  omega

theorem and_high {n mask bits j : Nat} (small : n < 2 ^ bits) (high : ∀ i < bits, mask.testBit i = decide (j ≤ i)) :
    n &&& mask = n / 2 ^ j * 2 ^ j := by
  rw [← Nat.shiftRight_eq_div_pow, ← Nat.shiftLeft_eq]
  apply Nat.eq_of_testBit_eq
  intro i
  rw [Nat.testBit_and, Nat.testBit_shiftLeft, Nat.testBit_shiftRight]
  by_cases inside : i < bits
  · rw [high i inside]
    by_cases above : j ≤ i
    · rw [Nat.add_sub_cancel' above]
      simp [above]
    · simp [above]
  · have gone : ∀ k, bits ≤ k → n.testBit k = false := fun k outside =>
      Nat.testBit_lt_two_pow (Nat.lt_of_lt_of_le small (Nat.pow_le_pow_right (by decide) outside))
    rw [gone i (by omega)]
    by_cases above : j ≤ i
    · rw [Nat.add_sub_cancel' above, gone i (by omega)]
      simp
    · simp [above]

private theorem and_prefixMask (a : BitVec 32) (len : Nat) :
    (a &&& prefixMask len).toNat = a.toNat / 2 ^ (32 - len) * 2 ^ (32 - len) := by
  rw [BitVec.toNat_and]
  refine and_high a.isLt fun i inside => ?_
  rw [BitVec.testBit_toNat, prefixMask, BitVec.getLsbD_shiftLeft, BitVec.getLsbD_allOnes]
  have shifted : i - (32 - len) < 32 := by omega
  simp only [inside, shifted, decide_true, Bool.true_and, Bool.and_true, ← decide_not, Nat.not_lt]

private theorem and_prefixMask_eq_iff {a d : BitVec 32} {len : Nat} :
    a &&& prefixMask len = d &&& prefixMask len ↔ a.toNat / 2 ^ (32 - len) = d.toNat / 2 ^ (32 - len) := by
  rw [← BitVec.toNat_inj, and_prefixMask, and_prefixMask]
  exact ⟨fun same => Nat.eq_of_mul_eq_mul_right (Nat.two_pow_pos _) same, fun same => by rw [same]⟩

/-! ### Texts -/

theorem byte_eq {n bits shift : Nat} {mask : BitVec 64} (small : n < 2 ^ 32)
    (ones : mask.toNat >>> shift = 2 ^ bits - 1) :
    byte (BitVec.ofNat 64 n) mask shift = toString ((n >>> shift) % 2 ^ bits) := by
  have value : (BitVec.ofNat 64 n).toNat = n := Nat.mod_eq_of_lt (by omega)
  have below : (BitVec.ofNat 64 n &&& mask).toNat ≤ n := by
    rw [BitVec.toNat_and, value]
    exact Nat.and_le_left
  have msb : (BitVec.ofNat 64 n &&& mask).msb = false := by
    rw [BitVec.msb_eq_decide]
    simp only [decide_eq_false_iff_not]
    omega
  have moved : ((BitVec.ofNat 64 n &&& mask).sshiftRight shift).toNat = (n >>> shift) % 2 ^ bits := by
    rw [BitVec.sshiftRight_eq_of_msb_false msb, BitVec.toNat_ushiftRight, BitVec.toNat_and, value,
      Nat.shiftRight_and_distrib,
      ones, Nat.and_two_pow_sub_one_eq_mod]
  have positive : ((BitVec.ofNat 64 n &&& mask).sshiftRight shift).toInt = ((n >>> shift) % 2 ^ bits : Nat) := by
    rw [BitVec.toInt_eq_toNat_of_lt, moved]
    rw [BitVec.sshiftRight_eq_of_msb_false msb, BitVec.toNat_ushiftRight]
    have := Nat.shiftRight_le (BitVec.ofNat 64 n &&& mask).toNat shift
    omega
  rw [byte, positive]
  rfl

private theorem printed_eq {n : Nat} (small : n < 2 ^ 32) : printed (BitVec.ofNat 64 n) = (dotted n).toList := by
  have top : (n >>> 24) % 2 ^ 40 = (n >>> 24) % 256 := by
    rw [Nat.shiftRight_eq_div_pow]
    omega
  have first : byte (BitVec.ofNat 64 n) 0xffffffffff000000 24 = toString ((n >>> 24) % 2 ^ 40) :=
    byte_eq small (by decide)
  have second : byte (BitVec.ofNat 64 n) 0xff0000 16 = toString ((n >>> 16) % 2 ^ 8) := byte_eq small (by decide)
  have third : byte (BitVec.ofNat 64 n) 0xff00 8 = toString ((n >>> 8) % 2 ^ 8) := byte_eq small (by decide)
  have fourth : byte (BitVec.ofNat 64 n) 0xff 0 = toString ((n >>> 0) % 2 ^ 8) := byte_eq small (by decide)
  rw [printed, first, second, third, fourth, top]
  rfl

/-! ### Networks -/

def Quad (text : Text) (address : BitVec 32) : Prop := DottedQuad text address.toNat

private theorem quad_dotted (address : BitVec 32) : Quad (dotted address.toNat).toList address :=
  dottedQuad_dotted address.isLt

private theorem Quad.getInt {text : Text} {address : BitVec 32} (quad : Quad text address) :
    PushedAddresses.getInt text = .ok (BitVec.ofNat 64 address.toNat) := by
  rw [PushedAddresses.getInt, getInt_quad quad]
  rfl

theorem ofMask_eq {ip mask : Text} {m : BitVec 32} (quad : Quad mask m) {len : Int}
    (length : ConfigParser.maskLength (BitVec.ofNat 64 m.toNat) = some len) :
    PushedAddresses.CIDRIP.ofMask ip mask = .ok ⟨ip, len⟩ := by
  rw [PushedAddresses.CIDRIP.ofMask, ConfigParser.calculateLenFromMask, getInt_quad quad]
  simp only [length]
  rfl

private theorem toIpAddress_eq {text : Text} {address : BitVec 32} (quad : Quad text address) (len : Nat)
    (included : Bool) :
    PushedAddresses.CIDRIP.toIpAddress ⟨text, len⟩ included = .ok (.ofCIDRIP address.toNat len included) := by
  have small := address.isLt
  have value : (BitVec.ofNat 64 address.toNat).toInt.toNat = address.toNat := by
    rw [BitVec.toInt_eq_toNat_of_lt]
    · rw [Int.toNat_natCast, BitVec.toNat_ofNat]
      omega
    · rw [BitVec.toNat_ofNat]
      omega
  rw [PushedAddresses.CIDRIP.toIpAddress, quad.getInt]
  exact congrArg (fun n => Except.ok (IpAddress.ofCIDRIP n len included)) value

theorem normalise_eq {text : Text} {address : BitVec 32} (quad : Quad text address) {len : Nat} (few : len ≤ 32) :
    ∃ plain, PushedAddresses.CIDRIP.normalise ⟨text, len⟩ = .ok ⟨plain, len⟩ ∧
      Quad plain (address &&& prefixMask len) := by
  have small := address.isLt
  have shift : ((32 - (len : Int)) % 64).toNat = 32 - len := by omega
  have cleared : BitVec.ofNat 64 address.toNat &&& ((0xffffffff : BitVec 64) <<< (32 - len)) =
      BitVec.ofNat 64 (address &&& prefixMask len).toNat := by
    apply BitVec.eq_of_toNat_eq
    have below : (address &&& prefixMask len).toNat < 2 ^ 32 := (address &&& prefixMask len).isLt
    rw [BitVec.toNat_and, BitVec.toNat_ofNat, BitVec.toNat_ofNat, Nat.mod_eq_of_lt (by omega),
      Nat.mod_eq_of_lt (by omega),
      and_prefixMask]
    refine and_high small fun i inside => ?_
    rw [BitVec.testBit_toNat, BitVec.getLsbD_shiftLeft,
      show (0xffffffff : BitVec 64) = BitVec.ofNat 64 (2 ^ 32 - 1) from rfl,
      BitVec.getLsbD_ofNat, Nat.testBit_two_pow_sub_one]
    have first : i < 64 := by omega
    have second : i - (32 - len) < 32 := by omega
    have third : i - (32 - len) < 64 := by omega
    simp only [first, second, third, decide_true, Bool.true_and, Bool.and_true, ← decide_not, Nat.not_lt]
  have whole : PushedAddresses.CIDRIP.normalise ⟨text, len⟩ =
      .ok (if BitVec.ofNat 64 (address &&& prefixMask len).toNat ≠ BitVec.ofNat 64 address.toNat then
        ⟨printed (BitVec.ofNat 64 (address &&& prefixMask len).toNat), len⟩ else ⟨text, len⟩) := by
    rw [PushedAddresses.CIDRIP.normalise, quad.getInt, ← cleared, ← shift]
    rfl
  rw [whole]
  by_cases same : BitVec.ofNat 64 (address &&& prefixMask len).toNat = BitVec.ofNat 64 address.toNat
  · refine ⟨text, ?_, ?_⟩
    · rw [if_neg (not_not_intro same)]
    · have back : address &&& prefixMask len = address := by
        have numbers := congrArg BitVec.toNat same
        have below : (address &&& prefixMask len).toNat < 2 ^ 32 := (address &&& prefixMask len).isLt
        rw [BitVec.toNat_ofNat, BitVec.toNat_ofNat, Nat.mod_eq_of_lt (by omega),
          Nat.mod_eq_of_lt (by omega)] at numbers
        exact BitVec.eq_of_toNat_eq numbers
      rwa [back]
  · refine ⟨(dotted (address &&& prefixMask len).toNat).toList, ?_, quad_dotted _⟩
    rw [if_pos same, printed_eq (address &&& prefixMask len).isLt]

/-! ### What is added -/

def Covers (net : IpAddress) (a : BitVec 32) : Prop := net.getFirstAddress ≤ a.toNat ∧ a.toNat ≤ net.getLastAddress

private theorem contains_iff {n a bits : Nat} : (⟨bits, n / 2 ^ bits⟩ : Block).Contains a ↔
    a / 2 ^ bits = n / 2 ^ bits := by
  have positive : 0 < 2 ^ bits := Nat.two_pow_pos bits
  show n / 2 ^ bits * 2 ^ bits ≤ a ∧ a < (n / 2 ^ bits + 1) * 2 ^ bits ↔ _
  rw [← Nat.le_div_iff_mul_le positive, ← Nat.div_lt_iff_lt_mul positive]
  omega

private theorem covers_iff {d a : BitVec 32} {len : Nat} {included : Bool} :
    Covers (.ofCIDRIP d.toNat len included) a ↔ a &&& prefixMask len = d &&& prefixMask len := by
  have last := getLastAddress_eq (.ofCIDRIP d.toNat len included)
  rw [and_prefixMask_eq_iff, ← contains_iff, Covers, getFirstAddress_eq, Block.Contains]
  show _ ↔ (block (.ofCIDRIP d.toNat len included)).first ≤ _ ∧ _ < (block (.ofCIDRIP d.toNat len included)).stop
  omega

private theorem containsNet_gateway {l g : BitVec 32} {len : Nat} {included included' : Bool} :
    (IpAddress.ofCIDRIP l.toNat len included).containsNet (.ofCIDRIP g.toNat 32 included') = true ↔
      g &&& prefixMask len = l &&& prefixMask len := by
  have host : block (.ofCIDRIP g.toNat 32 included') = Block.point g.toNat := by
    rw [block, Block.point]
    exact congrArg _ (Nat.div_one _)
  rw [containsNet_iff, host, Block.point_le_iff, and_prefixMask_eq_iff, ← contains_iff]
  rfl

/-- A network with the same first address and the same length is there. -/
def Present (space : NetworkSpace) (net : IpAddress) : Prop :=
  ∃ ip ∈ space.mIpAddresses, ip.getFirstAddress = net.getFirstAddress ∧ ip.networkMask = net.networkMask

/-- Exactly one network is added, and none when it is there. -/
def Gains (before after : NetworkSpace) (net : IpAddress) : Prop :=
  (Present before net → after = before) ∧ (¬ Present before net →
    after.mIpAddresses.Perm (net :: before.mIpAddresses))

def Sorted (s : State) : Prop := TreeSet.Sorted IpAddress.compareTo s.mRoutes.mIpAddresses

private theorem gains_add {space : NetworkSpace} (sorted : TreeSet.Sorted IpAddress.compareTo space.mIpAddresses)
    (net : IpAddress) :
    Gains space (space.add net) net := by
  constructor
  · rintro ⟨ip, member, first, mask⟩
    have equal : net.compareTo ip = .eq := compareTo_eq_iff.mpr ⟨first.symm, mask.symm⟩
    rw [NetworkSpace.add, TreeSet.add_of_mem sorted member equal]
  · intro absent
    refine TreeSet.add_perm fun ip member equal => absent ⟨ip, member, ?_⟩
    obtain ⟨first, mask⟩ := compareTo_eq_iff.mp equal
    exact ⟨first.symm, mask.symm⟩

/-- A network is printed with its first address. -/
structure Plain (net : IpAddress) : Prop where
  netAddress : net.netAddress = net.getFirstAddress
  text : net.toText = dotted net.getFirstAddress ++ "/" ++ toString net.networkMask

private theorem plain_masked (d : BitVec 32) (len : Nat) (included : Bool) :
    Plain (.ofCIDRIP (d &&& prefixMask len).toNat len included) := by
  have first : (IpAddress.ofCIDRIP (d &&& prefixMask len).toNat len included).getFirstAddress =
      (d &&& prefixMask len).toNat := by
    rw [getFirstAddress_eq, Block.first]
    show (d &&& prefixMask len).toNat / 2 ^ (32 - len) * 2 ^ (32 - len) = _
    rw [and_prefixMask, Nat.mul_div_cancel _ (Nat.two_pow_pos _)]
  refine ⟨first.symm, ?_⟩
  rw [first]
  rfl

private theorem masked_masked (d : BitVec 32) (len : Nat) :
    d &&& prefixMask len &&& prefixMask len = d &&& prefixMask len := by
  rw [BitVec.and_assoc, BitVec.and_self]

/-- The network that a pushed route stands for: the addresses that agree with it under a mask,
and a single one where the mask is none. -/
structure Pushed (net : IpAddress) (d m : BitVec 32) : Prop extends Plain net where
  network : Contiguous m → ∀ a, Covers net a ↔ a &&& m = d &&& m
  host : ¬ Contiguous m → ∀ a, Covers net a ↔ a = d

/-- What a mask makes of an address is the network of the route. -/
theorem ofMask_pushed {dest mask : Text} {d m : BitVec 32} (dest_quad : Quad dest d) (mask_quad : Quad mask m) :
    ∃ route plain, PushedAddresses.CIDRIP.ofMask dest mask = .ok route ∧ route.normalise = .ok plain ∧
      ∀ included, ∃ net, plain.toIpAddress included = .ok net ∧ Pushed net d m ∧ net.included = included := by
  by_cases contiguous : Contiguous m
  · obtain ⟨len, few, rfl⟩ := contiguous
    obtain ⟨plain, normalised, quad⟩ := normalise_eq dest_quad few
    refine ⟨⟨dest, len⟩, ⟨plain, len⟩, ofMask_eq mask_quad (maskLength_prefixMask few), normalised,
      fun included => ?_⟩
    refine ⟨_, toIpAddress_eq quad len included, ?_, rfl⟩
    refine { plain_masked d len included with network := fun _ a => ?_, host := fun other => ?_ }
    · rw [covers_iff, masked_masked]
    · exact absurd ⟨len, few, rfl⟩ other
  · obtain ⟨plain, normalised, quad⟩ := normalise_eq dest_quad (Nat.le_refl 32)
    refine ⟨⟨dest, 32⟩, ⟨plain, 32⟩, ofMask_eq mask_quad (maskLength_other contiguous), normalised,
      fun included => ?_⟩
    refine ⟨_, toIpAddress_eq quad 32 included, ?_, rfl⟩
    refine { plain_masked d 32 included with network := fun other => absurd other contiguous, host := fun _ a => ?_ }
    rw [covers_iff, masked_masked, show prefixMask 32 = BitVec.allOnes 32 from rfl, BitVec.and_allOnes,
      BitVec.and_allOnes]

/-! ### Calls -/

private theorem ofExcept_ok {α : Type} (a : α) :
    (ofExcept (Except.ok a : Except ConfigParser.ImportError α) : Service α) = pure a := rfl

private theorem get_run {α : Type} (f : State → Service α) (s : State) : (get >>= f).run s = (f s).run s := rfl

private theorem addIP_run {cidrIp : PushedAddresses.CIDRIP} {included : Bool} {net : IpAddress}
    (read : cidrIp.toIpAddress included = .ok net)
    (s : State) : (addIP cidrIp included).run s = .ok () { s with mRoutes := s.mRoutes.add net } := by
  rw [addIP, read]
  rfl

/-- Whether a pushed route is included, with the device, the gateway and the local network. -/
def Included (device : Option String) (gateway : Text) (g l : BitVec 32) (len : Nat) (mRemoteGW : Option Text) :
    Prop :=
  (∃ name, device = some name ∧ ("tun".isPrefixOf name = true ∨ name = "(null)" ∨ name = "vpnservice-tun")) ∨
    g &&& prefixMask len = l &&& prefixMask len ∨ gateway = broadcast ∨ mRemoteGW = some gateway

private theorem isAndroidTunDevice_iff {device : Option String} : OpenVPNService.isAndroidTunDevice device = true ↔
    ∃ name, device = some name ∧ ("tun".isPrefixOf name = true ∨ name = "(null)" ∨ name = "vpnservice-tun") := by
  cases device with
  | none => simp [OpenVPNService.isAndroidTunDevice]
  | some name =>
    simp only [OpenVPNService.isAndroidTunDevice, OpenVPNService.VPNSERVICE_TUN, Bool.or_eq_true, beq_iff_eq, or_assoc,
      Option.some.injEq, exists_eq_left', eq_comm (a := "(null)"), eq_comm (a := "vpnservice-tun")]

private theorem addRoute_run {dest mask gateway text : Text} {d m g l : BitVec 32} {len : Nat} {s : State}
    (device : Option String)
    (dest_quad : Quad dest d) (mask_quad : Quad mask m) (gateway_quad : Quad gateway g) (text_quad : Quad text l)
    (address : s.mLocalIP = some ⟨text, len⟩) :
    ∃ net, (addRoute dest mask gateway device).run s = .ok () { s with mRoutes := s.mRoutes.add net } ∧
      Pushed net d m ∧
      (net.included = true ↔ Included device gateway g l len s.mRemoteGW) := by
  obtain ⟨route, plain, length, normalised, read⟩ := ofMask_pushed dest_quad mask_quad
  have host : PushedAddresses.CIDRIP.toIpAddress ⟨gateway, 32⟩ false = .ok (.ofCIDRIP g.toNat 32 false) :=
    toIpAddress_eq gateway_quad 32 false
  let included := OpenVPNService.isAndroidTunDevice device ||
    (IpAddress.ofCIDRIP l.toNat len true).containsNet (IpAddress.ofCIDRIP g.toNat 32 false) ||
      gateway == broadcast || some gateway == s.mRemoteGW
  obtain ⟨net, network, pushed, flag⟩ := read included
  refine ⟨net, ?_, pushed, ?_⟩
  · rw [addRoute, length, ofExcept_ok, pure_bind, host, ofExcept_ok, pure_bind, get_run, address]
    dsimp only
    rw [toIpAddress_eq text_quad, ofExcept_ok, pure_bind, normalised, ofExcept_ok, pure_bind]
    refine (addIP_run network s).trans ?_
    rw [address]
  · rw [flag]
    simp only [included, Bool.or_eq_true, isAndroidTunDevice_iff, containsNet_gateway, beq_iff_eq, Included, or_assoc,
      eq_comm (a := some gateway)]

/-- How long the interface's network is: the length of the netmask where it is a mask, and
else what the two addresses have in common. -/
structure LocalLength (i n : BitVec 32) (mode : String) (len : Nat) : Prop where
  mask : ∀ bits ≤ 32, n = prefixMask bits → len = bits
  net30 : ¬ Contiguous n → mode = "net30" → n >>> 2 = i >>> 2 → len = 30
  pair : ¬ Contiguous n → mode ≠ "net30" → n >>> 1 = i >>> 1 → len = 31
  host : ¬ Contiguous n → ¬ (mode = "net30" ∧ n >>> 2 = i >>> 2) → ¬ (mode ≠ "net30" ∧ n >>> 1 = i >>> 1) → len = 32

private theorem prefixMask_injective {len bits : Nat} (few : len ≤ 32) (few' : bits ≤ 32)
    (same : prefixMask len = prefixMask bits) : len = bits := by
  have lengths := maskLength_prefixMask few
  rw [same, maskLength_prefixMask few'] at lengths
  exact (Int.ofNat.inj (Option.some.inj lengths)).symm

theorem and_eq_iff {i n : BitVec 32} {mask : BitVec 64} {j : Nat}
    (high : ∀ k < 32, mask.toNat.testBit k = decide (j ≤ k)) :
    BitVec.ofNat 64 n.toNat &&& mask = BitVec.ofNat 64 i.toNat &&& mask ↔ n >>> j = i >>> j := by
  have kept (a : BitVec 32) : (BitVec.ofNat 64 a.toNat &&& mask).toNat = a.toNat / 2 ^ j * 2 ^ j := by
    have small := a.isLt
    rw [BitVec.toNat_and, BitVec.toNat_ofNat, Nat.mod_eq_of_lt (by omega)]
    exact and_high small high
  rw [← BitVec.toNat_inj, ← BitVec.toNat_inj, kept, kept, BitVec.toNat_ushiftRight, BitVec.toNat_ushiftRight,
    Nat.shiftRight_eq_div_pow, Nat.shiftRight_eq_div_pow]
  exact ⟨fun same => Nat.eq_of_mul_eq_mul_right (Nat.two_pow_pos j) same, fun same => by rw [same]⟩

private theorem broadcast_prefixMask : (dotted (prefixMask 32).toNat).toList = broadcast := by decide

private theorem Quad.value_eq {text : Text} {a b : BitVec 32} (first : Quad text a) (second : Quad text b) :
    a = b := by
  have numbers := first.getInt.symm.trans second.getInt
  have same := congrArg BitVec.toNat (Except.ok.inj numbers)
  have := a.isLt
  have := b.isLt
  rw [BitVec.toNat_ofNat, BitVec.toNat_ofNat, Nat.mod_eq_of_lt (by omega), Nat.mod_eq_of_lt (by omega)] at same
  exact BitVec.eq_of_toNat_eq same

theorem localLen_mask {ip : Text} {bits : Nat} (few : bits ≤ 32) (mode : String) :
    localLen ⟨ip, bits⟩ (dotted (prefixMask bits).toNat).toList mode = .ok bits := by
  have unread : ¬ ((bits : Int) = 32 ∧ (dotted (prefixMask bits).toNat).toList ≠ broadcast) := by
    rintro ⟨whole, other⟩
    obtain rfl : bits = 32 := by omega
    exact other broadcast_prefixMask
  rw [localLen, (quad_dotted _).getInt]
  exact if_neg unread

private theorem localLen_peer {ip : Text} {i n : BitVec 32} (quad : Quad ip i) (other : ¬ Contiguous n)
    (mode : String) :
    localLen ⟨ip, 32⟩ (dotted n.toNat).toList mode =
      .ok (if mode = "net30" then if n >>> 2 = i >>> 2 then 30 else 32
        else if n >>> 1 = i >>> 1 then 31 else 32) := by
  have read : (32 : Int) = 32 ∧ (dotted n.toNat).toList ≠ broadcast := by
    refine ⟨rfl, fun same => other ⟨32, Nat.le_refl 32, ?_⟩⟩
    have full : Quad (dotted n.toNat).toList (prefixMask 32) := by
      rw [same, ← broadcast_prefixMask]
      exact quad_dotted _
    exact (quad_dotted n).value_eq full
  rw [localLen, (quad_dotted n).getInt]
  refine (if_pos read).trans ?_
  rw [quad.getInt]
  by_cases net30 : mode = "net30"
  · simp only [net30, if_true, ← @and_eq_iff i n 0xfffffffffffffffc 2 (by decide)]
    rfl
  · simp only [net30, if_false, ← @and_eq_iff i n 0xfffffffffffffffe 1 (by decide)]
    rfl

theorem localLen_eq {ip : Text} {i : BitVec 32} (quad : Quad ip i) (n : BitVec 32) (mode : String) :
    ∃ cidr : PushedAddresses.CIDRIP, ∃ len : Nat, PushedAddresses.CIDRIP.ofMask ip (dotted n.toNat).toList =
      .ok cidr ∧ cidr.mIp = ip ∧
      localLen cidr (dotted n.toNat).toList mode = .ok len ∧ len ≤ 32 ∧ LocalLength i n mode len := by
  by_cases contiguous : Contiguous n
  · obtain ⟨bits, few, rfl⟩ := contiguous
    refine ⟨⟨ip, bits⟩, bits, ofMask_eq (quad_dotted _) (maskLength_prefixMask few), rfl, localLen_mask few mode,
      few, ?_⟩
    have contiguous : Contiguous (prefixMask bits) := ⟨bits, few, rfl⟩
    exact ⟨fun bits' few' same => prefixMask_injective few few' same, fun other => absurd contiguous other,
      fun other => absurd contiguous other, fun other => absurd contiguous other⟩
  · let len := if mode = "net30" then if n >>> 2 = i >>> 2 then 30 else 32 else if n >>> 1 = i >>> 1 then 31 else 32
    have peer : localLen ⟨ip, 32⟩ (dotted n.toNat).toList mode = .ok (len : Nat) := by
      rw [localLen_peer quad contiguous mode]
      simp only [len]
      split_ifs <;> rfl
    refine ⟨⟨ip, 32⟩, len, ofMask_eq (quad_dotted _) (maskLength_other contiguous), rfl, peer, ?_, ?_⟩
    · simp only [len]
      split_ifs <;> decide
    · refine ⟨fun bits few same => absurd ⟨bits, few, same⟩ contiguous, fun _ net30 same => ?_,
        fun _ net30 same => ?_, fun _ first second => ?_⟩
      · simp only [len, net30, same, if_true]
      · simp only [len, net30, same, if_true, if_false]
      · simp only [len]
        split_ifs with net30 same same
        · exact absurd ⟨net30, same⟩ first
        · rfl
        · exact absurd ⟨net30, same⟩ second
        · rfl

def interfaceNet (i : BitVec 32) (len : Nat) : IpAddress := .ofCIDRIP (i &&& prefixMask len).toNat len true

private theorem setLocalIP_run {sdkInt : Nat} {ip : Text} {i : BitVec 32} (quad : Quad ip i) (n mtu : BitVec 32)
    (mode : String) (s : State) :
    ∃ len : Nat, LocalLength i n mode len ∧ len ≤ 32 ∧
      (setLocalIP sdkInt ip (dotted n.toNat).toList mtu mode).run s = .ok ()
        { mLocalIP := some ⟨ip, len⟩
          mMtu := mtu
          mRemoteGW := some (dotted n.toNat).toList
          mRoutes := if len ≤ 31 ∧ OpenVPNService.LOLLIPOP ≤ sdkInt then s.mRoutes.add
            (interfaceNet i len) else s.mRoutes } := by
  obtain ⟨⟨_, _⟩, len, read, rfl, length, few, derived⟩ := localLen_eq quad n mode
  obtain ⟨plain, normalised, masked⟩ := normalise_eq quad few
  have network := toIpAddress_eq masked len true
  refine ⟨len, derived, few, ?_⟩
  rw [setLocalIP, read, ofExcept_ok, pure_bind, length]
  simp only [ofExcept_ok, pure_bind, normalised]
  by_cases routed : len ≤ 31 ∧ OpenVPNService.LOLLIPOP ≤ sdkInt
  · have routed' : (len : Int) ≤ 31 ∧ sdkInt ≥ OpenVPNService.LOLLIPOP := ⟨by omega, routed.2⟩
    rw [if_pos routed]
    simp only [routed', and_self, if_true, addIP, network, ofExcept_ok, pure_bind]
    rfl
  · have unrouted : ¬ ((len : Int) ≤ 31 ∧ sdkInt ≥ OpenVPNService.LOLLIPOP) :=
      fun ⟨small, lollipop⟩ => routed ⟨by omega, lollipop⟩
    rw [if_neg routed]
    simp only [unrouted, if_false]
    rfl

/-! ### Runs -/

def left {α : Type} : EStateM.Result ConfigParser.ImportError State α → State
  | .ok _ s => s
  | .error _ s => s

private theorem step_eq (sdkInt : Nat) (s : State) (c : Call) :
    step sdkInt s c = some (left ((call sdkInt c).run s)) := by
  rw [step]
  split <;> simp [*, left]

def Kept {α : Type} (property : State → Prop) (x : Service α) : Prop := ∀ s, property s → property (left (x.run s))

section Kept

variable {property : State → Prop} {α β : Type}

private theorem kept_pure (a : α) : Kept property (pure a : Service α) := fun _ held => held

private theorem kept_ofExcept (a : Except ConfigParser.ImportError α) : Kept property (ofExcept a : Service α) := by
  intro s held
  cases a <;> exact held

private theorem kept_modify {f : State → State} (keeps : ∀ s, property s → property (f s)) :
    Kept property (modify f : Service Unit) := keeps

private theorem kept_bind {x : Service α} {f : α → Service β} (first : Kept property x)
    (later : ∀ a, Kept property (f a)) :
    Kept property (x >>= f) := by
  intro s held
  have middle := first s held
  show property (left (EStateM.bind x f s))
  rw [EStateM.bind]
  change property (left (x s)) at middle
  split
  next a s' ended =>
    rw [ended] at middle
    exact later a s' middle
  next e s' ended =>
    rw [ended] at middle
    exact middle

private theorem kept_get_bind {f : State → Service β} (later : ∀ s, Kept property (f s)) :
    Kept property (get >>= f) :=
  fun s held => later s s held

private theorem kept_addIP (cidrIp : PushedAddresses.CIDRIP) (included : Bool)
    (keeps : ∀ s ip, property s → property { s with mRoutes := s.mRoutes.add ip }) :
    Kept property (addIP cidrIp included) :=
  kept_bind (kept_ofExcept _) fun ip => kept_modify fun s => keeps s ip

private theorem kept_addRoute (dest mask gateway : Text) (device : Option String)
    (keeps : ∀ s ip, property s → property { s with mRoutes := s.mRoutes.add ip }) :
    Kept property (addRoute dest mask gateway device) := by
  refine kept_bind (kept_ofExcept _) fun route => kept_bind (kept_ofExcept _) fun gatewayIP =>
    kept_get_bind fun s => ?_
  split
  · exact kept_pure ()
  · exact kept_bind (kept_ofExcept _) fun localNet => kept_bind (kept_ofExcept _) fun route => kept_addIP _ _ keeps

end Kept

private theorem sorted_foldl {localNets : List IpAddress} {space : NetworkSpace}
    (sorted : TreeSet.Sorted IpAddress.compareTo space.mIpAddresses) :
    TreeSet.Sorted IpAddress.compareTo (localNets.foldl NetworkSpace.add space).mIpAddresses := by
  induction localNets generalizing space with
  | nil => exact sorted
  | cons ip localNets ih => exact ih (TreeSet.sorted_add sorted)

private theorem kept_sorted (sdkInt : Nat) (c : Call) : Kept Sorted (call sdkInt c) := by
  have add (s : State) (ip : IpAddress) (sorted : Sorted s) : Sorted { s with mRoutes := s.mRoutes.add ip } :=
    TreeSet.sorted_add sorted
  have set {f : State → State} (same : ∀ s, (f s).mRoutes = s.mRoutes) : Kept Sorted (modify f : Service Unit) :=
    kept_modify fun s sorted => by rwa [Sorted, same s]
  cases c with
  | addRoute dest mask gateway device => exact kept_addRoute dest mask gateway device add
  | addCIDRRoute route included => exact kept_addIP route included add
  | setLocalIP ip netmask mtu mode =>
    refine kept_bind (kept_ofExcept _) fun mLocalIP => kept_bind (set fun _ => rfl) fun _ =>
      kept_bind (kept_ofExcept _) fun len =>
      kept_bind (set fun _ => rfl) fun _ => ?_
    split
    · exact kept_bind (kept_ofExcept _) fun interfaceRoute => kept_bind (kept_addIP _ _ add) fun _ => set fun _ => rfl
    · exact set fun _ => rfl
  | setLocalCIDR cdrip => exact set fun _ => rfl
  | setMtu mtu => exact set fun _ => rfl
  | openTun localNets opened =>
    refine kept_modify fun s sorted => ?_
    split
    · exact List.Pairwise.nil
    · exact sorted_foldl sorted

private theorem sorted_start : Sorted {} := List.Pairwise.nil

private theorem sorted_run {sdkInt : Nat} {allowed : State → Call → Prop} {start final : State} {calls : List Call}
    (sorted : Sorted start)
    (run : Run (step sdkInt) allowed start calls final) : Sorted final := by
  refine run.invariant sorted fun before c after held _ taken => ?_
  rw [step_eq] at taken
  cases taken
  exact kept_sorted sdkInt c before held

/-- Between two tunnels: the tunnel is not opened and no other local address is set. -/
def Keeps (_ : State) : Call → Prop
  | .addRoute .. | .addCIDRRoute .. | .setMtu .. => True
  | .setLocalIP .. | .setLocalCIDR .. | .openTun .. => False

def Attached (mLocalIP : PushedAddresses.CIDRIP) (netmask : Text) (s : State) : Prop :=
  s.mLocalIP = some mLocalIP ∧ s.mRemoteGW = some netmask

private theorem attached_run {sdkInt : Nat} {mLocalIP : PushedAddresses.CIDRIP} {netmask : Text} {start final : State}
    {calls : List Call}
    (attached : Attached mLocalIP netmask start) (run : Run (step sdkInt) Keeps start calls final) :
    Attached mLocalIP netmask final := by
  refine run.invariant attached fun before c after held keeps taken => ?_
  rw [step_eq] at taken
  cases taken
  cases c with
  | addRoute dest mask gateway device =>
    exact kept_addRoute dest mask gateway device (fun _ _ attached => attached) before held
  | addCIDRRoute route included => exact kept_addIP route included (fun _ _ attached => attached) before held
  | setMtu mtu => exact held
  | setLocalIP => cases keeps
  | setLocalCIDR => cases keeps
  | openTun => cases keeps

/-! ### Main results -/

/-- A pushed route adds the network it stands for, included by its device or its gateway. -/
theorem addRoute_exact (sdkInt : Nat) {calls : List Call} {s : State} (run : Run (step sdkInt) Free {} calls s)
    {dest mask gateway text : Text} {d m g l : BitVec 32} {len : Nat} (device : Option String)
    (dest_quad : Quad dest d)
    (mask_quad : Quad mask m) (gateway_quad : Quad gateway g) (local_quad : Quad text l)
    (address : s.mLocalIP = some ⟨text, len⟩) :
    ∃ net routes, (addRoute dest mask gateway device).run s = .ok () { s with mRoutes := routes } ∧
      Gains s.mRoutes routes net ∧
      Pushed net d m ∧ (net.included = true ↔ Included device gateway g l len s.mRemoteGW) := by
  obtain ⟨net, added, pushed, flag⟩ := addRoute_run device dest_quad mask_quad gateway_quad local_quad address
  exact ⟨net, _, added, gains_add (sorted_run sorted_start run) net, pushed, flag⟩

theorem addRoute_exact_gateway : ∃ net routes,
    (addRoute (dotted 0x0a080105).toList (dotted 0xffffff00).toList (dotted 0x0a080001).toList none).run
      { mLocalIP := some ⟨(dotted 0x0a080002).toList, 24⟩ } =
        .ok () { mLocalIP := some ⟨(dotted 0x0a080002).toList, 24⟩, mRoutes := routes } ∧
      Gains {} routes net ∧ Pushed net 0x0a080105 0xffffff00 ∧
      (net.included = true ↔ Included none (dotted 0x0a080001).toList 0x0a080001 0x0a080002 24 none) :=
  have run : Run (step 21) Free {} [.setLocalCIDR ⟨(dotted 0x0a080002).toList, 24⟩]
      { mLocalIP := some ⟨(dotted 0x0a080002).toList, 24⟩ } := Run.of_exec rfl
  addRoute_exact 21 run none (quad_dotted 0x0a080105) (quad_dotted 0xffffff00) (quad_dotted 0x0a080001)
    (quad_dotted 0x0a080002) rfl

/-- The netmask is the length of the interface's network or the address of its peer, and a route
to it is included as long as it is. -/
theorem setLocalIP_exact (sdkInt : Nat) {calls : List Call} {s : State} (run : Run (step sdkInt) Free {} calls s)
    (i n mtu : BitVec 32) (mode : String) :
    ∃ (len : Nat) (after : State), LocalLength i n mode len ∧
      (setLocalIP sdkInt (dotted i.toNat).toList (dotted n.toNat).toList mtu mode).run s = .ok () after ∧
      after.mLocalIP = some ⟨(dotted i.toNat).toList, len⟩ ∧
      (OpenVPNService.LOLLIPOP ≤ sdkInt → len ≤ 31 → ∃ net, Gains s.mRoutes after.mRoutes net ∧ Plain net ∧
        net.included = true ∧
        ∀ a, Covers net a ↔ a &&& prefixMask len = i &&& prefixMask len) ∧
      (OpenVPNService.LOLLIPOP ≤ sdkInt → ¬ len ≤ 31 → after.mRoutes = s.mRoutes) ∧
      ∀ {later final}, Run (step sdkInt) Keeps after later final → ∀ {dest mask d m} (device : Option String),
        Quad dest d → Quad mask m →
        ∃ net routes, (addRoute dest mask (dotted n.toNat).toList device).run final =
          .ok () { final with mRoutes := routes } ∧
          Gains final.mRoutes routes net ∧ Pushed net d m ∧ net.included = true := by
  have sorted := sorted_run sorted_start run
  obtain ⟨len, derived, -, set⟩ := setLocalIP_run (quad_dotted i) n mtu mode s
  refine ⟨len, _, derived, set, rfl, fun lollipop small => ?_, fun _ large => if_neg fun routed => large routed.1, ?_⟩
  · refine ⟨interfaceNet i len, ?_, plain_masked i len true, rfl, fun a => ?_⟩
    · rw [if_pos ⟨small, lollipop⟩]
      exact gains_add sorted _
    · rw [interfaceNet, covers_iff, masked_masked]
  · intro later final rest dest mask d m device dest_quad mask_quad
    have started : Sorted
        (left ((call sdkInt (.setLocalIP (dotted i.toNat).toList (dotted n.toNat).toList mtu mode)).run s)) :=
      kept_sorted sdkInt _ s sorted
    rw [call, set] at started
    obtain ⟨address, peer⟩ := attached_run ⟨rfl, rfl⟩ rest
    obtain ⟨net, added, pushed, flag⟩ :=
      addRoute_run device dest_quad mask_quad (quad_dotted n) (quad_dotted i) address
    exact ⟨net, _, added, gains_add (sorted_run started rest) net, pushed, flag.mpr (Or.inr (Or.inr (Or.inr peer)))⟩

theorem setLocalIP_exact_first : ∃ (len : Nat) (after : State), LocalLength 0x0a080006 0x0a080005 "net30" len ∧
    (setLocalIP 21 (dotted 0x0a080006).toList (dotted 0x0a080005).toList 1500 "net30").run {} = .ok () after ∧
    after.mLocalIP = some ⟨(dotted 0x0a080006).toList, len⟩ := by
  obtain ⟨len, after, derived, set, address, _⟩ := setLocalIP_exact 21 .nil 0x0a080006 0x0a080005 1500 "net30"
  exact ⟨len, after, derived, set, address⟩

end RRoadVpn.Proofs.PushedRoutes
