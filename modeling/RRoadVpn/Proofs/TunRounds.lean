import RRoadVpn.Library.Runs
import RRoadVpn.TunService

/-! Which runs build every tunnel from the settings of its own round. A round that ends
without reaching the reset of `openTun` hands its settings on to the next. -/

namespace RRoadVpn.Proofs.TunRounds
open RRoadVpn.Library RRoadVpn.TunService RRoadVpn.OpenVPNService

variable (platform : TunPlatform)

/-- What a service without settings has after these were pushed. -/
def replay (pushed : List Push) : OpenVPNService := pushed.foldl (pushSetting platform) {}

/-- Every tunnel was built from the settings of its round and the local networks. -/
def NoLeak (s : State) : Prop :=
  ∀ built ∈ s.built,
    built.settings = (withLocalNetworks platform built.nets (replay platform built.pushed)).toSettings

/-- The command ends a round and keeps the fields. -/
def Kept (s : State) : Command → Prop
  | .push _ => False
  | .PERSIST_TUN_ACTION status => status = .NOACTION
  | .OPENTUN extra _ outcome =>
    extra ≠ "tun" ∨ (s.service.mLocalIP = none ∧ s.service.mLocalIPv6 = none) ∨
      (s.service.mLocalIP ≠ none ∧ outcome = .addressRejected) ∨
      (s.service.mLocalIPv6 ≠ none ∧ outcome = .addressv6Rejected)

/-- The fields are kept only when there is nothing in them. -/
def Allowed (s : State) (command : Command) : Prop := Kept s command → s.service.toSettings = {}

def step (s : State) (command : Command) : Option State := some (processNeedCommand platform s command)

/-! ### What the commands read -/

/-- The fields that matter for a tunnel: the gateway is looked at only with a local address. -/
structure Like (s t : OpenVPNService) : Prop where
  settings : s.toSettings = t.toSettings
  mRemoteGW : s.mLocalIP ≠ none → s.mRemoteGW = t.mRemoteGW

variable {platform}

private theorem Like.push {s t : OpenVPNService} (like : Like s t) (setting : Push) :
    Like (pushSetting platform s setting) (pushSetting platform t setting) := by
  obtain ⟨⟨mLocalIP, mLocalIPv6, mDnslist, mDomain, mRoutes, mRoutesv6⟩, mMtu, mRemoteGW, mLastTunCfg⟩ := s
  obtain ⟨settings, mMtu', mRemoteGW', mLastTunCfg'⟩ := t
  obtain ⟨same, gateway⟩ := like
  cases same
  cases setting with
  | IFCONFIG ip netmask mtu mode => exact ⟨rfl, fun _ => rfl⟩
  | IFCONFIG6 ipv6addr mtu => exact ⟨rfl, gateway⟩
  | ROUTE dest mask gatewayIP device =>
    cases mLocalIP with
    | none => exact ⟨rfl, gateway⟩
    | some ip =>
      have same : mRemoteGW = mRemoteGW' := gateway nofun
      subst same
      exact ⟨rfl, fun _ => rfl⟩
  | ROUTE6 network device =>
    cases network with
    | none => exact ⟨rfl, gateway⟩
    | some net => exact ⟨rfl, gateway⟩
  | DNSSERVER dns => exact ⟨rfl, gateway⟩
  | DNSDOMAIN domain =>
    cases mDomain with
    | none => exact ⟨rfl, gateway⟩
    | some old => exact ⟨rfl, gateway⟩

theorem foldl_settings {α : Type} {body : OpenVPNService → α → OpenVPNService}
    (kept : ∀ s t x, s.toSettings = t.toSettings → (body s x).toSettings = (body t x).toSettings) (xs : List α)
    {s t : OpenVPNService} (same : s.toSettings = t.toSettings) :
    (xs.foldl body s).toSettings = (xs.foldl body t).toSettings := by
  induction xs generalizing s t with
  | nil => exact same
  | cons x xs ih => exact ih (kept s t x same)

private theorem addLocalNetwork_settings (mLocalIP : CIDRIP) (s t : OpenVPNService) (net : CIDRIP)
    (same : s.toSettings = t.toSettings) :
    (addLocalNetwork platform mLocalIP s net).toSettings = (addLocalNetwork platform mLocalIP t net).toSettings := by
  unfold addLocalNetwork
  split
  · exact same
  · split
    · simp only [same]
    · split
      · simp only [same]
      · exact same

private theorem withLocalNetworks_settings (nets : LocalNetworks) {s t : OpenVPNService}
    (same : s.toSettings = t.toSettings) :
    (withLocalNetworks platform nets s).toSettings = (withLocalNetworks platform nets t).toSettings := by
  have ip : s.mLocalIP = t.mLocalIP := congrArg Settings.mLocalIP same
  unfold withLocalNetworks
  rw [ip]
  cases t.mLocalIP with
  | none => exact same
  | some mLocalIP =>
    have turn := @addLocalNetwork_settings platform mLocalIP
    have ipv4 := foldl_settings turn nets.ipv4 same
    simp only [addLocalNetworksToRoutes]
    split
    · exact same
    · split
      · apply foldl_settings _ nets.ipv6 ipv4
        intro s t net same
        simp only [addRoutev6, same]
      · exact ipv4

/-! ### Rounds -/

/-- The service has what was pushed in this round, and no tunnel has had more. -/
structure Fresh (s : State) : Prop where
  like : Like s.service (replay platform s.pushed)
  built : NoLeak platform s

theorem withLocalNetworks_routes (nets : LocalNetworks) (s : OpenVPNService) :
    ∃ mRoutes mRoutesv6, withLocalNetworks platform nets s = { s with mRoutes, mRoutesv6 } := by
  have ipv4 (mLocalIP : CIDRIP) (nets : List CIDRIP) (s : OpenVPNService) :
      ∃ mRoutes, nets.foldl (addLocalNetwork platform mLocalIP) s = { s with mRoutes } := by
    induction nets generalizing s with
    | nil => exact ⟨s.mRoutes, rfl⟩
    | cons net nets ih =>
      obtain ⟨mRoutes, outcome⟩ := ih (addLocalNetwork platform mLocalIP s net)
      refine ⟨mRoutes, outcome.trans ?_⟩
      unfold addLocalNetwork
      split
      · rfl
      · split
        · rfl
        · split <;> rfl
  have ipv6 (nets : List (List UInt8 × Nat)) (s : OpenVPNService) :
      ∃ mRoutesv6, nets.foldl (fun s net => addRoutev6 (some net) false s) s = { s with mRoutesv6 } := by
    induction nets generalizing s with
    | nil => exact ⟨s.mRoutesv6, rfl⟩
    | cons net nets ih =>
      obtain ⟨mRoutesv6, outcome⟩ := ih (addRoutev6 (some net) false s)
      exact ⟨mRoutesv6, outcome⟩
  unfold withLocalNetworks
  split
  · exact ⟨s.mRoutes, s.mRoutesv6, rfl⟩
  next mLocalIP _ =>
    split
    · exact ⟨s.mRoutes, s.mRoutesv6, rfl⟩
    · obtain ⟨mRoutes, first⟩ := ipv4 mLocalIP nets.ipv4 s
      simp only [addLocalNetworksToRoutes]
      rw [first]
      split
      · obtain ⟨mRoutesv6, second⟩ := ipv6 nets.ipv6 { s with mRoutes }
        exact ⟨mRoutes, mRoutesv6, second⟩
      · exact ⟨mRoutes, s.mRoutesv6, rfl⟩

/-- `openTun` gets to the reset, with the local networks added. -/
theorem sendTunFD_reaches {s : State} {extra : String} {nets : LocalNetworks} {outcome : Outcome}
    (reaches : ¬ Kept s (.OPENTUN extra nets outcome)) :
    sendTunFD platform extra nets outcome s.service =
      ({ s.service with
          toSettings := {}, mLastTunCfg := some (withLocalNetworks platform nets s.service).getTunConfigString },
        some (withLocalNetworks platform nets s.service).toSettings) := by
  obtain ⟨isTun, address, first, second⟩ : extra = "tun" ∧
      ¬ (s.service.mLocalIP = none ∧ s.service.mLocalIPv6 = none) ∧
      ¬ (s.service.mLocalIP ≠ none ∧ outcome = .addressRejected) ∧
      ¬ (s.service.mLocalIPv6 ≠ none ∧ outcome = .addressv6Rejected) := by
    simpa only [Kept, not_or, not_not] using reaches
  obtain ⟨mRoutes, mRoutesv6, routes⟩ := @withLocalNetworks_routes platform nets s.service
  rw [sendTunFD, if_neg (not_not.mpr isTun), openTun, if_neg address]
  simp only [routes, Option.isSome_iff_ne_none]
  rw [if_neg first, if_neg second]

theorem sendTunFD_empty {s : OpenVPNService} (clean : s.toSettings = {}) (extra : String) (nets : LocalNetworks)
    (outcome : Outcome) : sendTunFD platform extra nets outcome s = (s, none) := by
  have ip : s.mLocalIP = none := congrArg Settings.mLocalIP clean
  have ipv6 : s.mLocalIPv6 = none := congrArg Settings.mLocalIPv6 clean
  unfold sendTunFD
  split
  · rfl
  · rw [openTun, if_pos ⟨ip, ipv6⟩]

private theorem like_empty {s : OpenVPNService} (clean : s.toSettings = {}) : Like s {} := by
  refine ⟨clean, ?_⟩
  intro address
  exact absurd (congrArg Settings.mLocalIP clean) address

private theorem Fresh.step {before after : State} {command : Command} (fresh : @Fresh platform before)
    (allowed : Allowed before command) (taken : step platform before command = some after) :
    @Fresh platform after := by
  obtain ⟨like, built⟩ := fresh
  cases taken
  cases command with
  | push setting =>
    refine ⟨?_, built⟩
    simpa [processNeedCommand, replay, List.foldl_append] using like.push setting
  | PERSIST_TUN_ACTION status =>
    cases status with
    | NOACTION => exact ⟨like_empty (allowed rfl), built⟩
    | OPEN_BEFORE_CLOSE => exact ⟨like, built⟩
    | OPEN_AFTER_CLOSE => exact ⟨like, built⟩
  | OPENTUN extra nets outcome =>
    by_cases kept : Kept before (.OPENTUN extra nets outcome)
    · have clean := allowed kept
      simp only [processNeedCommand, sendTunFD_empty clean, Option.map_none, Option.toList_none, List.append_nil]
      exact ⟨like_empty clean, built⟩
    · simp only [processNeedCommand, sendTunFD_reaches kept, Option.map_some, Option.toList_some]
      refine ⟨like_empty rfl, ?_⟩
      intro other member
      rcases List.mem_append.mp member with member | member
      · exact built other member
      · rw [List.mem_singleton.mp member]
        exact withLocalNetworks_settings nets like.settings

/-! ### Leaks -/

/-- A round in which a tunnel is opened at once, or after a local address alone. -/
def nextRound (s : OpenVPNService) : List Command :=
  if s.mLocalIP = none ∧ s.mLocalIPv6 = none then
    [.push (.IFCONFIG 0 0xffffffff 1500 "p2p"), .OPENTUN "tun" {} .established]
  else [.OPENTUN "tun" {} .established]

private theorem withLocalNetworks_none (s : OpenVPNService) : withLocalNetworks platform {} s = s := by
  unfold withLocalNetworks
  split
  · rfl
  · split
    · rfl
    · unfold addLocalNetworksToRoutes
      split <;> rfl

/-- Opening a tunnel without local networks shows what the service has. -/
theorem noLeak_opened {s : State} (address : s.service.mLocalIP ≠ none ∨ s.service.mLocalIPv6 ≠ none)
    (noLeak : NoLeak platform (processNeedCommand platform s (.OPENTUN "tun" {} .established))) :
    s.service.toSettings = (replay platform s.pushed).toSettings := by
  have reaches : ¬ Kept s (.OPENTUN "tun" {} .established) := by
    rintro (other | ⟨ip, ipv6⟩ | ⟨_, other⟩ | ⟨_, other⟩)
    · exact other rfl
    · exact address.elim (absurd ip) (absurd ipv6)
    · cases other
    · cases other
  have member : (⟨s.service.toSettings, {}, s.pushed⟩ : Built) ∈
      (processNeedCommand platform s (.OPENTUN "tun" {} .established)).built := by
    simp [processNeedCommand, sendTunFD_reaches reaches, withLocalNetworks_none]
  have same := noLeak _ member
  rwa [withLocalNetworks_none] at same

theorem pushSetting_host (s : OpenVPNService) :
    (pushSetting platform s (.IFCONFIG 0 0xffffffff 1500 "p2p")).toSettings =
      { s.toSettings with mLocalIP := some ⟨0, 32⟩ } := by
  have len : localLen 0#32 4294967295#32 "p2p" = 32 := by decide
  simp [pushSetting, setLocalIP, len]

/-- Settings that are left over at the beginning of a round get into a tunnel. -/
theorem leak {s : State} (began : s.pushed = []) (stale : s.service.toSettings ≠ {}) :
    ∃ final, Run (step platform) Free s (nextRound s.service) final ∧ ¬ NoLeak platform final := by
  unfold nextRound
  split
  next noAddress =>
    refine ⟨_, Run.of_exec rfl, ?_⟩
    intro noLeak
    have address : (pushSetting platform s.service (.IFCONFIG 0 0xffffffff 1500 "p2p")).mLocalIP ≠ none := by
      rw [congrArg Settings.mLocalIP (pushSetting_host s.service)]
      nofun
    have same := noLeak_opened (s := processNeedCommand platform s (.push (.IFCONFIG 0 0xffffffff 1500 "p2p")))
      (Or.inl address) noLeak
    simp only [processNeedCommand, began, List.nil_append, replay, List.foldl_cons, List.foldl_nil, pushSetting_host]
      at same
    apply stale
    generalize s.service = service at noAddress same
    obtain ⟨⟨mLocalIP, mLocalIPv6, mDnslist, mDomain, mRoutes, mRoutesv6⟩, mMtu, mRemoteGW, mLastTunCfg⟩ := service
    cases same
    cases noAddress.1
    rfl
  next address =>
    refine ⟨_, Run.of_exec rfl, ?_⟩
    intro noLeak
    have same := noLeak_opened (not_and_or.mp address) noLeak
    rw [began] at same
    exact stale same

/-! ### Runs -/

private theorem fresh_run {commands : List Command} {final : State}
    (run : Run (step platform) Allowed {} commands final) :
    @Fresh platform final :=
  run.invariant ⟨like_empty rfl, nofun⟩ fun _ _ _ fresh allowed taken => fresh.step allowed taken

/-- A command that ends a round and keeps the fields begins a round with them. -/
theorem kept_hands_on {s : State} {command : Command} (kept : Kept s command) (stale : s.service.toSettings ≠ {}) :
    (processNeedCommand platform s command).pushed = [] ∧
      (processNeedCommand platform s command).service.toSettings ≠ {} := by
  cases command with
  | push setting => cases kept
  | PERSIST_TUN_ACTION status =>
    cases kept
    exact ⟨rfl, stale⟩
  | OPENTUN extra nets outcome =>
    refine ⟨rfl, ?_⟩
    simp only [processNeedCommand, sendTunFD]
    split
    · exact stale
    · obtain ⟨mRoutes, mRoutesv6, routes⟩ := @withLocalNetworks_routes platform nets s.service
      simp only [openTun, routes, Option.isSome_iff_ne_none]
      split
      · exact stale
      next address =>
        have left : ({ s.service.toSettings with mRoutes, mRoutesv6 } : Settings) ≠ {} := by
          intro empty
          exact address ⟨congrArg Settings.mLocalIP empty, congrArg Settings.mLocalIPv6 empty⟩
        split
        · exact left
        next first =>
          split
          · exact left
          next second =>
            rcases kept with other | none | ip | ipv6
            · contradiction
            · exact absurd none address
            · exact absurd ip first
            · exact absurd ipv6 second

/-- In a run that never hands settings on, every tunnel is built from its own round; the
first command that hands some on can be followed by a round with a leak. -/
theorem no_leak (platform : TunPlatform) {commands : List Command} {final : State}
    (run : Run (step platform) Allowed {} commands final) :
    NoLeak platform final ∧
      ∀ command, ¬ Allowed final command →
        ∃ more leaking, Run (step platform) Free {} (commands ++ command :: more) leaking ∧
          ¬ NoLeak platform leaking := by
  refine ⟨(fresh_run run).built, ?_⟩
  intro command refused
  obtain ⟨kept, stale⟩ := Classical.not_imp.mp refused
  obtain ⟨began, left⟩ := @kept_hands_on platform _ _ kept stale
  obtain ⟨leaking, rest, leaks⟩ := leak began left
  have first : Run (step platform) Free {} (commands ++ [command]) (processNeedCommand platform final command) :=
    .snoc run.free trivial rfl
  refine ⟨nextRound (processNeedCommand platform final command).service, leaking, ?_, leaks⟩
  simpa using first.append rest

private def lollipop : TunPlatform :=
  { sdkInt := 21, earlyKitKat := false, mAllowLocalLAN := false, doUseOpenVPN3 := false }

private def opened : List Command :=
  [.push (.IFCONFIG 0x0a080002 0xffffff00 1500 "subnet"), .push (.DNSSERVER "10.8.0.1"),
    .OPENTUN "tun" {} .established]

theorem no_leak_opened :
    ∃ final, NoLeak lollipop final ∧
      ∀ command, ¬ Allowed final command →
        ∃ more leaking, Run (step lollipop) Free {} (opened ++ command :: more) leaking ∧
          ¬ NoLeak lollipop leaking := by
  refine ⟨_, no_leak lollipop (.snoc (.snoc (.snoc .nil nofun rfl) nofun rfl) ?_ rfl)⟩
  rintro (other | ⟨ip, _⟩ | ⟨_, other⟩ | ⟨_, other⟩)
  · exact absurd rfl other
  · cases ip
  · cases other
  · cases other

/-- After a round like the last one, which keeps the tunnel, the next has the DNS servers of two rounds. -/
theorem dns_of_kept_round :
    ∃ kept final, Run (step lollipop) Free {} (opened ++ opened.dropLast) kept ∧
      getTunReopenStatus lollipop kept.service = .NOACTION ∧
      Run (step lollipop) Free {} (opened ++ opened.dropLast ++ .PERSIST_TUN_ACTION .NOACTION :: opened) final ∧
      ¬ NoLeak lollipop final := by
  refine ⟨_, _, Run.of_exec rfl, if_pos rfl, Run.of_exec rfl, ?_⟩
  intro noLeak
  have second := noLeak _ (List.mem_cons_of_mem _ List.mem_cons_self)
  have dns := congrArg Settings.mDnslist second
  cases dns

end RRoadVpn.Proofs.TunRounds
