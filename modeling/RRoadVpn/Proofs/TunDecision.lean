import RRoadVpn.Library.Runs
import RRoadVpn.Proofs.NetworkBlocks
import RRoadVpn.Proofs.TunRounds
import RRoadVpn.Proofs.TunTexts

/-! When the old tunnel is kept. The text it is decided by is saved by `openTun`, with
the local networks among the routes, and is compared with a text of the fields, which
hold what the round pushed and what the rounds before it left there. -/

namespace RRoadVpn.Proofs.TunDecision
open RRoadVpn.Library RRoadVpn.TunService RRoadVpn.OpenVPNService RRoadVpn.Proofs.TunTexts

variable (platform : TunPlatform)

/-- The texts of a setting are those of addresses, as OpenVPN prints them. -/
def PushPrinted : Push → Prop
  | .IFCONFIG6 ipv6addr _ => IPv6Text ipv6addr
  | .DNSSERVER dns => AddressText dns
  | _ => True

def CommandPrinted (_ : State) : Command → Prop
  | .push setting => PushPrinted setting
  | _ => True

/-- No command gets to the reset of `openTun`, so that the tunnel stays the last one. -/
def Stays (s : State) (command : Command) : Prop :=
  CommandPrinted s command ∧ ∀ extra nets outcome, command = .OPENTUN extra nets outcome → TunRounds.Kept s command

def SameFields (s t : OpenVPNService) : Prop := s.toSettings = t.toSettings ∧ s.mMtu = t.mMtu

/-- The rounds push the same addresses, routes with their flags, DNS servers, domain and MTU. -/
def SamePushed (second first : List Push) : Prop :=
  SameFields (TunRounds.replay platform second) (TunRounds.replay platform first)

/-- The tunnel of the first round is kept exactly for equal settings, and opened anew for others. -/
def Decides (first second : State) : Prop :=
  (getTunReopenStatus platform second.service = .NOACTION ↔ SamePushed platform second.pushed first.pushed) ∧
    (¬ SamePushed platform second.pushed first.pushed →
      getTunReopenStatus platform second.service = .OPEN_BEFORE_CLOSE ∨
        getTunReopenStatus platform second.service = .OPEN_AFTER_CLOSE)

/-! ### Local networks -/

def localRoute (mLocalIP net : CIDRIP) : List IpAddress :=
  if net.mIp = mLocalIP.mIp then []
  else if platform.sdkInt < NetworkSpace.KITKAT ∧ ¬ platform.mAllowLocalLAN then
    let splitIps := (IpAddress.ofCIDRIP net.mIp.toNat net.len true).split
    [splitIps.1, splitIps.2]
  else if platform.sdkInt ≥ NetworkSpace.KITKAT ∧ platform.mAllowLocalLAN then [.ofCIDRIP net.mIp.toNat net.len false]
  else []

/-- The routes that `openTun` adds for the networks of the device. -/
def localRoutes (nets : LocalNetworks) (s : OpenVPNService) : List IpAddress :=
  match s.mLocalIP with
  | none => []
  | some mLocalIP => if platform.doUseOpenVPN3 then [] else nets.ipv4.flatMap (localRoute platform mLocalIP)

def localRoutesv6 (nets : LocalNetworks) (s : OpenVPNService) : List IpAddress :=
  if s.mLocalIP.isSome ∧ ¬ platform.doUseOpenVPN3 ∧ platform.mAllowLocalLAN then
    nets.ipv6.map fun net => .ofInet6Address net.1 net.2 false
  else []

/-- The set has the network, or one that compares equal. -/
def Has (space : NetworkSpace) (ip : IpAddress) : Prop := ∃ other ∈ space.mIpAddresses, ip.compareTo other = .eq

/-- Every route for a network of the device was pushed. -/
def LocalPushed (nets : LocalNetworks) (s : OpenVPNService) : Prop :=
  (∀ ip ∈ localRoutes platform nets s, Has s.mRoutes ip) ∧ ∀ ip ∈ localRoutesv6 platform nets s, Has s.mRoutesv6 ip

instance (space : NetworkSpace) (ip : IpAddress) : Decidable (Has space ip) :=
  inferInstanceAs (Decidable (∃ other ∈ space.mIpAddresses, ip.compareTo other = .eq))

def addRoutes (routes : List IpAddress) (space : NetworkSpace) : NetworkSpace :=
  ⟨TreeSet.addAll IpAddress.compareTo routes space.mIpAddresses⟩

variable {platform}

private theorem addLocalNetwork_eq (mLocalIP net : CIDRIP) (s : OpenVPNService) :
    addLocalNetwork platform mLocalIP s net =
      { s with mRoutes := addRoutes (localRoute platform mLocalIP net) s.mRoutes } := by
  unfold addLocalNetwork localRoute
  split
  · rfl
  · split
    · rfl
    · split <;> rfl

private theorem addLocalNetworks_eq (mLocalIP : CIDRIP) (nets : List CIDRIP) (s : OpenVPNService) :
    nets.foldl (addLocalNetwork platform mLocalIP) s =
      { s with mRoutes := addRoutes (nets.flatMap (localRoute platform mLocalIP)) s.mRoutes } := by
  induction nets generalizing s with
  | nil => rfl
  | cons net nets ih =>
    rw [List.foldl_cons, addLocalNetwork_eq, ih]
    simp only [addRoutes, TreeSet.addAll, List.flatMap_cons, List.foldl_append]

private theorem addLocalNetworksv6_eq (nets : List (List UInt8 × Nat)) (s : OpenVPNService) :
    nets.foldl (fun s net => addRoutev6 (some net) false s) s =
      { s with mRoutesv6 := addRoutes (nets.map fun net => .ofInet6Address net.1 net.2 false) s.mRoutesv6 } := by
  induction nets generalizing s with
  | nil => rfl
  | cons net nets ih =>
    rw [List.foldl_cons, ih]
    rfl

theorem withLocalNetworks_eq (nets : LocalNetworks) (s : OpenVPNService) :
    withLocalNetworks platform nets s =
      { s with
        mRoutes := addRoutes (localRoutes platform nets s) s.mRoutes
        mRoutesv6 := addRoutes (localRoutesv6 platform nets s) s.mRoutesv6 } := by
  obtain ⟨⟨mLocalIP, mLocalIPv6, mDnslist, mDomain, mRoutes, mRoutesv6⟩, mMtu, mRemoteGW, mLastTunCfg⟩ := s
  unfold withLocalNetworks localRoutes localRoutesv6
  cases mLocalIP with
  | none => rfl
  | some mLocalIP =>
    cases client : platform.doUseOpenVPN3 with
    | true => rfl
    | false =>
      simp only [addLocalNetworksToRoutes, addLocalNetworks_eq, Bool.false_eq_true, if_false]
      cases allowed : platform.mAllowLocalLAN with
      | true =>
        rw [if_pos rfl, addLocalNetworksv6_eq]
        rfl
      | false => rfl

/-! ### What the service holds -/

/-- Printed settings, with the routes in order. -/
structure Sound (s : OpenVPNService) : Prop extends Printed s where
  sorted : TreeSet.Sorted IpAddress.compareTo s.mRoutes.mIpAddresses
  sortedv6 : TreeSet.Sorted IpAddress.compareTo s.mRoutesv6.mIpAddresses

private theorem Sound.addRoutes {s : OpenVPNService} (sound : Sound s) {ipv4 ipv6 : List IpAddress}
    (isV4 : ∀ ip ∈ ipv4, ip.isV4 = true) (isV6 : ∀ ip ∈ ipv6, ip.isV4 = false) :
    Sound { s with mRoutes := addRoutes ipv4 s.mRoutes, mRoutesv6 := addRoutes ipv6 s.mRoutesv6 } where
  mLocalIPv6 := sound.mLocalIPv6
  mDnslist := sound.mDnslist
  mRoutes := fun ip member => (TreeSet.mem_addAll member).elim (isV4 ip) (sound.mRoutes ip)
  mRoutesv6 := fun ip member => (TreeSet.mem_addAll member).elim (isV6 ip) (sound.mRoutesv6 ip)
  sorted := TreeSet.sorted_addAll sound.sorted
  sortedv6 := TreeSet.sorted_addAll sound.sortedv6

private theorem localRoutes_isV4 {nets : LocalNetworks} {s : OpenVPNService} :
    ∀ ip ∈ localRoutes platform nets s, ip.isV4 = true := by
  intro ip member
  unfold localRoutes at member
  split at member
  · cases member
  · split at member
    · cases member
    · obtain ⟨net, -, member⟩ := List.mem_flatMap.mp member
      unfold localRoute at member
      split at member
      · cases member
      · split at member
        · rcases List.mem_cons.mp member with rfl | member
          · rfl
          · rw [List.mem_singleton.mp member]
            rfl
        · split at member
          · rw [List.mem_singleton.mp member]
            rfl
          · cases member

private theorem localRoutesv6_isV6 {nets : LocalNetworks} {s : OpenVPNService} :
    ∀ ip ∈ localRoutesv6 platform nets s, ip.isV4 = false := by
  intro ip member
  unfold localRoutesv6 at member
  split at member
  · obtain ⟨net, -, rfl⟩ := List.mem_map.mp member
    rfl
  · cases member

private theorem Sound.withLocalNetworks {s : OpenVPNService} (sound : Sound s) (nets : LocalNetworks) :
    Sound (withLocalNetworks platform nets s) := by
  rw [withLocalNetworks_eq]
  exact sound.addRoutes localRoutes_isV4 localRoutesv6_isV6

private theorem Sound.push {s : OpenVPNService} (sound : Sound s) {setting : Push} (print : PushPrinted setting) :
    Sound (pushSetting platform s setting) := by
  have ipv4 (ip : IpAddress) (isV4 : ip.isV4 = true) : ∀ ip' ∈ [ip], ip'.isV4 = true :=
    List.forall_mem_singleton.mpr isV4
  cases setting with
  | IFCONFIG ip netmask mtu mode =>
    simp only [pushSetting, setLocalIP]
    split
    · exact { sound.addRoutes (ipv4 (.ofCIDRIP _ _ true) rfl) (List.forall_mem_nil _) with }
    · exact { sound with }
  | IFCONFIG6 ipv6addr mtu =>
    refine { sound with mLocalIPv6 := ?_ }
    intro text same
    cases same
    exact print
  | ROUTE dest mask gateway device =>
    simp only [pushSetting, addRoute]
    split
    · exact sound
    · exact { sound.addRoutes (ipv4 (.ofCIDRIP _ _ _) rfl) (List.forall_mem_nil _) with }
  | ROUTE6 network device =>
    simp only [pushSetting, addRoutev6]
    split
    · exact sound
    next ip mask =>
      have isV6 : ∀ net ∈ [IpAddress.ofInet6Address ip mask (isAndroidTunDevice (some device))], net.isV4 = false :=
        List.forall_mem_singleton.mpr rfl
      exact { sound.addRoutes (List.forall_mem_nil _) isV6 with }
  | DNSSERVER dns =>
    refine { sound with mDnslist := ?_ }
    intro server member
    rcases List.mem_append.mp member with before | here
    · exact sound.mDnslist server before
    · rw [List.mem_singleton.mp here]
      exact print
  | DNSDOMAIN domain =>
    simp only [pushSetting, setDomain]
    split
    · exact { sound with }
    · exact sound

private theorem sound_empty (mMtu : BitVec 32) (mRemoteGW : Option (BitVec 32)) (mLastTunCfg : Option String) :
    Sound { toSettings := {}, mMtu, mRemoteGW, mLastTunCfg } where
  mLocalIPv6 := nofun
  mDnslist := List.forall_mem_nil _
  mRoutes := List.forall_mem_nil _
  mRoutesv6 := List.forall_mem_nil _
  sorted := List.Pairwise.nil
  sortedv6 := List.Pairwise.nil

private theorem Sound.openTun {s : OpenVPNService} (sound : Sound s) (nets : LocalNetworks) (outcome : Outcome) :
    Sound (openTun platform nets outcome s).1 := by
  unfold OpenVPNService.openTun
  split
  · exact sound
  · simp only
    split
    · exact sound.withLocalNetworks nets
    · split
      · exact sound.withLocalNetworks nets
      · exact sound_empty _ _ _

private theorem Sound.step {before after : State} {command : Command} (sound : Sound before.service)
    (print : CommandPrinted before command) (taken : TunRounds.step platform before command = some after) :
    Sound after.service := by
  cases taken
  cases command with
  | push setting => exact sound.push print
  | PERSIST_TUN_ACTION status => cases status <;> exact sound
  | OPENTUN extra nets outcome =>
    simp only [processNeedCommand, sendTunFD]
    split
    · exact sound
    · exact sound.openTun nets outcome

theorem pushSetting_mLastTunCfg (s : OpenVPNService) (setting : Push) :
    (pushSetting platform s setting).mLastTunCfg = s.mLastTunCfg := by
  cases setting with
  | IFCONFIG ip netmask mtu mode => rfl
  | IFCONFIG6 ipv6addr mtu => rfl
  | ROUTE dest mask gateway device =>
    simp only [pushSetting, addRoute]
    split <;> rfl
  | ROUTE6 network device =>
    simp only [pushSetting, addRoutev6]
    split <;> rfl
  | DNSSERVER dns => rfl
  | DNSDOMAIN domain =>
    simp only [pushSetting, setDomain]
    split <;> rfl

private theorem sound_run {commands : List Command} {final : State}
    (run : Run (TunRounds.step platform) CommandPrinted {} commands final) : Sound final.service := by
  refine @Run.invariant _ _ _ _ _ (fun s : State => Sound s.service) (sound_empty 0 none none) ?_ _ _ run
  intro before command after sound print taken
  exact sound.step print taken

/-- Only the reset of `openTun` saves a text. -/
theorem stays_mLastTunCfg {before after : State} {command : Command} (stays : Stays before command)
    (taken : TunRounds.step platform before command = some after) :
    after.service.mLastTunCfg = before.service.mLastTunCfg := by
  cases taken
  cases command with
  | push setting => exact pushSetting_mLastTunCfg before.service setting
  | PERSIST_TUN_ACTION status => cases status <;> rfl
  | OPENTUN extra nets outcome =>
    have kept := stays.2 extra nets outcome rfl
    simp only [processNeedCommand, sendTunFD]
    split
    · rfl
    next isTun =>
      unfold OpenVPNService.openTun
      rw [withLocalNetworks_eq]
      split
      · rfl
      next address =>
        simp only [Option.isSome_iff_ne_none]
        rcases kept with other | none | rejected | rejectedv6
        · exact absurd other isTun
        · exact absurd none address
        · rw [if_pos rejected]
        · rw [if_pos rejectedv6]
          split <;> rfl

/-! ### Unchanged settings -/

/-- Equal settings are printed alike unless a network of the device is added in between. -/
theorem printedAlike_iff_of_same {first second : OpenVPNService} {nets : LocalNetworks} (sound : Sound first)
    (same : SameFields second first) :
    PrintedAlike second (withLocalNetworks platform nets first) ↔ LocalPushed platform nets first := by
  obtain ⟨settings, mtu⟩ := same
  have routes : second.mRoutes = first.mRoutes := congrArg Settings.mRoutes settings
  have routesv6 : second.mRoutesv6 = first.mRoutesv6 := congrArg Settings.mRoutesv6 settings
  rw [withLocalNetworks_eq]
  constructor
  · intro alike
    have length := alike.length_routes
    rw [routes, routesv6] at length
    have ipv4 :=
      @TreeSet.length_le_addAll _ IpAddress.compareTo (localRoutes platform nets first) first.mRoutes.mIpAddresses
    have ipv6 := @TreeSet.length_le_addAll _ IpAddress.compareTo
        (localRoutesv6 platform nets first) first.mRoutesv6.mIpAddresses
    simp only [addRoutes] at length
    exact ⟨TreeSet.mem_of_addAll (by omega), TreeSet.mem_of_addAll (by omega)⟩
  · rintro ⟨ipv4, ipv6⟩
    have kept : addRoutes (localRoutes platform nets first) first.mRoutes = first.mRoutes := by
      rw [addRoutes, TreeSet.addAll_of_mem sound.sorted ipv4]
    have keptv6 : addRoutes (localRoutesv6 platform nets first) first.mRoutesv6 = first.mRoutesv6 := by
      rw [addRoutes, TreeSet.addAll_of_mem sound.sortedv6 ipv6]
    rw [kept, keptv6]
    obtain ⟨settings', mMtu, mRemoteGW, mLastTunCfg⟩ := second
    cases settings
    exact ⟨Or.inl ⟨rfl, rfl⟩, Or.inl ⟨rfl, rfl⟩, Or.inl ⟨rfl, rfl⟩, rfl, rfl, mtu⟩

/-! ### The decision -/

private theorem sendTunFD_opened {s : State} {nets : LocalNetworks} {outcome : Outcome} {settings : Settings}
    (opened : (sendTunFD platform "tun" nets outcome s.service).2 = some settings) :
    (sendTunFD platform "tun" nets outcome s.service).1 =
      { s.service with
        toSettings := {}, mLastTunCfg := some (withLocalNetworks platform nets s.service).getTunConfigString } := by
  have reaches : ¬ TunRounds.Kept s (.OPENTUN "tun" nets outcome) := by
    rw [sendTunFD, if_neg (not_not.mpr rfl), openTun, withLocalNetworks_eq] at opened
    rintro (other | none | ⟨ip, rejected⟩ | ⟨ipv6, rejected⟩)
    · exact other rfl
    · rw [if_pos none] at opened
      cases opened
    · rw [if_neg fun none => ip none.1, if_pos ⟨Option.isSome_iff_ne_none.mpr ip, rejected⟩] at opened
      cases opened
    · rw [if_neg fun none => ipv6 none.2, rejected] at opened
      simp [Option.isSome_iff_ne_none.mpr ipv6] at opened
  exact congrArg Prod.fst (TunRounds.sendTunFD_reaches reaches)

/-- While the tunnel stays, NOACTION means that the fields are printed as they were at its opening. -/
theorem noaction_iff {first second : State} (sound : Sound first.service) {nets : LocalNetworks} {outcome : Outcome}
    {settings : Settings} (opened : (sendTunFD platform "tun" nets outcome first.service).2 = some settings)
    {later : List Command} (run : Run (TunRounds.step platform) Stays
      (processNeedCommand platform first (.OPENTUN "tun" nets outcome)) later second) :
    getTunReopenStatus platform second.service = .NOACTION ↔
      PrintedAlike second.service (withLocalNetworks platform nets first.service) := by
  have began := sendTunFD_opened opened
  obtain ⟨second', saved⟩ : Sound second.service ∧ second.service.mLastTunCfg =
      some (withLocalNetworks platform nets first.service).getTunConfigString := by
    refine @Run.invariant _ _ _ _ _ (fun s : State => Sound s.service ∧ s.service.mLastTunCfg = some _) ?_
      (fun before command after held stays taken => ?_) _ _ run
    · simp only [processNeedCommand, began]
      exact ⟨sound_empty _ _ _, trivial⟩
    · exact ⟨held.1.step stays.1 taken, (stays_mLastTunCfg stays taken).trans held.2⟩
  rw [← sameText_iff second'.toPrinted (sound.withLocalNetworks nets).toPrinted, getTunReopenStatus, saved]
  split
  next same => exact iff_of_true rfl (Option.some.inj same)
  next other =>
    refine iff_of_false ?_ fun same => other (congrArg some same)
    split <;> simp

/-- A round behind the one that opened the tunnel is decided as it should be exactly when equal settings find the
fields as they were and meet no network of the device that was not pushed, or are printed alike nevertheless, and
different ones are not. -/
theorem decides_iff (platform : TunPlatform) {before later : List Command} {first second : State}
    (run : Run (TunRounds.step platform) CommandPrinted {} before first) {nets : LocalNetworks} {settings : Settings}
    (opened : (sendTunFD platform "tun" nets .established first.service).2 = some settings)
    (round : Run (TunRounds.step platform) Stays
      (processNeedCommand platform first (.OPENTUN "tun" nets .established)) later second) :
    Decides platform first second ↔
      (SamePushed platform second.pushed first.pushed →
        (SameFields second.service first.service → LocalPushed platform nets first.service) ∧
          (¬ SameFields second.service first.service →
            PrintedAlike second.service (withLocalNetworks platform nets first.service))) ∧
      (¬ SamePushed platform second.pushed first.pushed →
        ¬ PrintedAlike second.service (withLocalNetworks platform nets first.service)) := by
  have sound := sound_run run
  have kept := noaction_iff sound opened round
  have alike : ((SameFields second.service first.service → LocalPushed platform nets first.service) ∧
      (¬ SameFields second.service first.service →
        PrintedAlike second.service (withLocalNetworks platform nets first.service))) ↔
      PrintedAlike second.service (withLocalNetworks platform nets first.service) := by
    by_cases fields : SameFields second.service first.service
    · simp only [fields, printedAlike_iff_of_same sound fields, true_implies, not_true_eq_false, false_implies,
        and_true]
    · simp only [fields, false_implies, not_false_eq_true, true_implies, true_and]
  by_cases same : SamePushed platform second.pushed first.pushed
  · simp only [Decides, kept, alike, same, not_true_eq_false, false_implies, and_true, iff_true, true_implies]
  · have other : getTunReopenStatus platform second.service ≠ .NOACTION →
        getTunReopenStatus platform second.service = .OPEN_BEFORE_CLOSE ∨
          getTunReopenStatus platform second.service = .OPEN_AFTER_CLOSE := by
      cases getTunReopenStatus platform second.service <;> simp
    simp only [Decides, same, false_implies, true_and, not_false_eq_true, true_implies, iff_false]
    constructor
    · rintro ⟨reopens, -⟩
      rwa [← kept]
    · intro differs
      have reopens : getTunReopenStatus platform second.service ≠ .NOACTION := by rwa [Ne, kept]
      exact ⟨reopens, other reopens⟩

private def kitkat : TunPlatform :=
  { sdkInt := 19, earlyKitKat := false, mAllowLocalLAN := true, doUseOpenVPN3 := false }

/-- 10.8.0.2 with a route to 10.0.0.0/8 and a DNS server. -/
private def settings : List Push :=
  [.IFCONFIG 0x0a080002 0xffffff00 1500 "subnet", .ROUTE 0x0a000000 0xff000000 0x0a080001 (some "tun"),
    .DNSSERVER "10.8.0.1"]

private def home : LocalNetworks := { ipv4 := [⟨0xc0a80114, 24⟩] }

private def pushes (s : State) : State := (settings.map Command.push).foldl (processNeedCommand kitkat) s

private theorem settings_printed : ∀ setting ∈ settings, PushPrinted setting := by
  have server : AddressText "10.8.0.1" := by simp [AddressText, printed, hex]
  exact List.forall_mem_cons.mpr ⟨trivial, List.forall_mem_cons.mpr ⟨trivial, List.forall_mem_singleton.mpr server⟩⟩

private theorem settings_run (s : State) : Run (TunRounds.step kitkat) Stays s (settings.map .push) (pushes s) := by
  have stays (s : State) (setting : Push) (member : setting ∈ settings) : Stays s (.push setting) :=
    ⟨settings_printed setting member, nofun⟩
  exact .snoc (.snoc (.snoc .nil (stays _ _ (by simp [settings])) rfl) (stays _ _ (by simp [settings])) rfl)
    (stays _ _ (by simp [settings])) rfl

theorem decides_unchanged :
    Decides kitkat (pushes {}) (pushes (processNeedCommand kitkat (pushes {}) (.OPENTUN "tun" {} .established))) := by
  refine (decides_iff kitkat ((settings_run {}).weaken fun _ _ stays => stays.1) rfl (settings_run _)).mpr
    ⟨fun _ => ⟨fun _ => ?_, fun other => absurd ⟨rfl, rfl⟩ other⟩, fun other => absurd ⟨rfl, rfl⟩ other⟩
  exact ⟨List.forall_mem_nil _, List.forall_mem_nil _⟩

/-- The same settings are pushed again, and the device has a network of its own. -/
theorem local_network_reopens :
    ∃ first second, Run (TunRounds.step kitkat) CommandPrinted {} (settings.map .push) first ∧
      (sendTunFD kitkat "tun" home .established first.service).2.isSome = true ∧
      Run (TunRounds.step kitkat) Stays (processNeedCommand kitkat first (.OPENTUN "tun" home .established))
        (settings.map .push) second ∧
      SamePushed kitkat second.pushed first.pushed ∧ getTunReopenStatus kitkat second.service ≠ .NOACTION ∧
      ¬ Decides kitkat first second := by
  have run := (settings_run {}).weaken fun _ _ stays => stays.1
  have missing : ¬ LocalPushed kitkat home (pushes {}).service := by
    rintro ⟨pushed, -⟩
    have routed := pushed (.ofCIDRIP 0xc0a80114 24 false) (by decide)
    exact absurd routed (by decide +kernel)
  have reopens : getTunReopenStatus kitkat
      (pushes (processNeedCommand kitkat (pushes {}) (.OPENTUN "tun" home .established))).service ≠ .NOACTION := by
    intro kept
    have alike := (noaction_iff (sound_run run) rfl (settings_run _)).mp kept
    refine missing ((printedAlike_iff_of_same (sound_run run) ?_).mp alike)
    exact ⟨rfl, rfl⟩
  exact ⟨_, _, run, rfl, settings_run _, ⟨rfl, rfl⟩, reopens, fun decides => reopens (decides.1.mpr ⟨rfl, rfl⟩)⟩

end RRoadVpn.Proofs.TunDecision
