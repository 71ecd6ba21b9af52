import RRoadVpn.ConfigParts
import RRoadVpn.Library.Fields
import RRoadVpn.Library.Lines
import RRoadVpn.Proofs.ImportFrames
import RRoadVpn.Proofs.RouteTexts

/-! The routes of a config through import and export: into two lists of CIDR addresses, and
from each list up to its first address that cannot be read. -/

namespace RRoadVpn.Proofs.ImportedRoutes
open RRoadVpn.ConfigParser RRoadVpn.Library RRoadVpn.Proofs.ImportSteps RRoadVpn.Proofs.ImportFrames
open RRoadVpn.VpnProfile
  (splitRoutes cidrRoutes cidrToIPAndNetmask getCustomRoutes configParts getConfigFile defaultNetwork)
open RouteTexts
open JavaText (Text)

/-! ### Lines -/

/-- A line of the form `route net mask gateway [metric]`, with the network and the length of its mask. -/
structure RouteLine (line : Args) (net len : Nat) : Prop where
  length : 4 ≤ line.length
  few : len ≤ 32
  address : DottedQuad (arg line 1) net
  mask : DottedQuad (arg line 2) (netmask len)

def bypass (line : Args) : Bool := arg line 3 = "net_gateway".toList

/-- The addresses that a line adds to the list of its direction. -/
def tokens (around : Bool) (line : Args) : List Text :=
  match route line with
  | .ok cidr => if cidr.2 = around then splitRoutes cidr.1 else []
  | .error _ => []

/-- The text of a route line names the network with this mask. -/
def Names (net len : Nat) (network : Text) : Prop :=
  ∃ address blanks mask, network = address ++ blanks ++ mask ∧ blanks ≠ [] ∧ (∀ c ∈ blanks, c = ' ') ∧
    DottedQuad address net ∧ DottedQuad mask (netmask len)

def Gives (net len : Nat) (token : Text) : Prop := ∃ network, cidrToIPAndNetmask token = some network ∧
    Names net len network

/-! ### The lists -/

private theorem splitRoutes_blank (first second : Text) :
    splitRoutes (first ++ ' ' :: second) = splitRoutes first ++ splitRoutes second :=
  fields_append first second rfl

private theorem route_blank {line : Args} {cidr : Text × Bool} (read : route line = .ok cidr) :
    ∃ text, cidr.1 = text ++ [' '] := by
  simp only [route] at read
  generalize (if line.length ≥ 3 then arg line 2 else "255.255.255.255".toList) = netmask at read
  generalize (if line.length ≥ 4 then arg line 3 else "vpn_gateway".toList) = gateway at read
  cases made : cidrip (arg line 1) netmask with
  | ok text =>
    rw [made] at read
    cases read
    exact ⟨text, rfl⟩
  | error e =>
    rw [made] at read
    cases e <;> cases read

theorem splitRoutes_lines {lines : List Args} {cidrs : List (Text × Bool)} (read : lines.mapM route = .ok cidrs)
    (around : Bool) :
    splitRoutes ((cidrs.filter fun cidr => cidr.2 = around).flatMap Prod.fst) = lines.flatMap (tokens around) := by
  induction lines generalizing cidrs with
  | nil =>
    cases read
    exact fields_nil
  | cons line lines ih =>
    rw [List.mapM_cons] at read
    obtain ⟨cidr, here, read⟩ := exceptBind_ok.mp read
    obtain ⟨others, later, read⟩ := exceptBind_ok.mp read
    cases read
    obtain ⟨text, blank⟩ := route_blank here
    rw [List.flatMap_cons, ← ih later, tokens, here]
    simp only
    split
    next same =>
      rw [List.filter_cons_of_pos (by simpa using same), List.flatMap_cons, blank, List.append_assoc,
        List.singleton_append, splitRoutes_blank]
      have end_ : splitRoutes (text ++ [' ']) = splitRoutes text := by
        rw [splitRoutes_blank]
        exact (congrArg _ fields_nil).trans (List.append_nil _)
      rw [end_]
    next other => rw [List.filter_cons_of_neg (by simpa using other), List.nil_append]

/-- The addresses up to the first one that cannot be read. -/
theorem mem_cidrRoutes {routes : List Text} {network : Text} :
    network ∈ cidrRoutes routes ↔ ∃ before token after, routes = before ++ token :: after ∧
      (∀ token ∈ before, (cidrToIPAndNetmask token).isSome) ∧ cidrToIPAndNetmask token = some network := by
  induction routes with
  | nil => simp [cidrRoutes]
  | cons token routes ih =>
    rw [cidrRoutes]
    cases read : cidrToIPAndNetmask token with
    | none =>
      refine iff_of_false (by simp) ?_
      rintro ⟨before, token', after, split, fine, found⟩
      cases before with
      | nil =>
        cases split
        rw [read] at found
        cases found
      | cons first before =>
        cases split
        have here := (List.forall_mem_cons.mp fine).1
        rw [read] at here
        cases here
    | some first =>
      simp only [List.mem_cons, ih]
      constructor
      · rintro (rfl | ⟨before, token', after, rfl, fine, found⟩)
        · exact ⟨[], token, routes, rfl, List.forall_mem_nil _, read⟩
        · exact ⟨token :: before, token', after, rfl, List.forall_mem_cons.mpr ⟨by rw [read]; rfl, fine⟩, found⟩
      · rintro ⟨before, token', after, split, fine, found⟩
        cases before with
        | nil =>
          cases split
          exact Or.inl (Option.some.inj (found.symm.trans read))
        | cons first before =>
          cases split
          exact Or.inr ⟨before, token', after, rfl, (List.forall_mem_cons.mp fine).2, found⟩

/-- An address for the network stands in the list, and none before it that cannot be read. -/
def Reached (net len : Nat) (addresses : List Text) : Prop :=
  ∃ before token after, addresses = before ++ token :: after ∧
    (∀ token ∈ before, (cidrToIPAndNetmask token).isSome) ∧ Gives net len token

private theorem reached_iff {net len : Nat} {addresses : List Text} :
    (∃ network ∈ cidrRoutes addresses, Names net len network) ↔ Reached net len addresses := by
  constructor
  · rintro ⟨network, member, names⟩
    obtain ⟨before, token, after, split, fine, found⟩ := mem_cidrRoutes.mp member
    exact ⟨before, token, after, split, fine, network, found, names⟩
  · rintro ⟨before, token, after, split, fine, network, found, names⟩
    exact ⟨network, mem_cidrRoutes.mpr ⟨before, token, after, split, fine, found⟩, names⟩

/-! ### The import -/

def routeArgs (parsed : Parsed) : List Args := (parsed.options.lookup "route".toList).getD []

/-- The config asks for the default route through the VPN. -/
def DefaultRoute (parsed : Parsed) : Prop :=
  ∃ lines, parsed.options.lookup "redirect-gateway".toList = some lines ∧ "!ipv4".toList ∉ lines.flatMap List.tail

def routeList (around : Bool) (c : Carried) : Option Text := if around then c.mExcludedRoutes else c.mCustomRoutes

variable (entrySet : EntrySet)

section Settings

variable {np : Draft} {d : Draft} {options left : Options}

private theorem settings_route :
    settings = settings.take 2 ++ ([allOptions "route" 1 4 routes] ++ settings.drop 3) := rfl

private theorem settings_redirect : settings = settings.take 8 ++ ([allOptions "redirect-gateway" 0 7 fun np defgw =>
    .ok (checkRedirectParameters np defgw)] ++ settings.drop 9) := rfl

private theorem routes_behind (around : Bool) :
    ∀ pass ∈ settings.drop 3, Frames (fun np => routeList around (draftCarried np)) pass := by
  obtain ⟨-, second, third⟩ := plain_frames (routeList around)
  have split : settings.drop 3 = (settings.drop 3).take 5 ++
      (allOptions "redirect-gateway" 0 7 fun np defgw => .ok (checkRedirectParameters np defgw)) ::
        ((settings.drop 9).take 5 ++ (allOptions "dhcp-option" 2 2 fun np dhcpoptions =>
          .ok (dhcpoptions.foldl dhcpoption np)) :: settings.drop 15) := rfl
  rw [split]
  simp only [List.forall_mem_append, List.forall_mem_cons]
  exact ⟨second, redirect_frames fun _ _ => rfl, third, dhcpoption_frames fun _ _ _ _ => rfl,
    later_frames (fun _ _ _ _ => rfl) (fun _ _ => rfl) fun _ _ _ => rfl⟩

private theorem redirect_around :
    (∀ pass ∈ settings.take 8, Frames (fun np => Carried.mUseDefaultRoute (draftCarried np)) pass) ∧
      ∀ pass ∈ settings.drop 9, Frames (fun np => Carried.mUseDefaultRoute (draftCarried np)) pass := by
  obtain ⟨first, second, third⟩ := plain_frames Carried.mUseDefaultRoute
  have before : settings.take 8 = settings.take 2 ++ allOptions "route" 1 4 routes :: (settings.drop 3).take 5 := rfl
  have after : settings.drop 9 = (settings.drop 9).take 5 ++ (allOptions "dhcp-option" 2 2 fun np dhcpoptions =>
      .ok (dhcpoptions.foldl dhcpoption np)) :: settings.drop 15 := rfl
  rw [before, after]
  simp only [List.forall_mem_append, List.forall_mem_cons]
  exact ⟨⟨first, routes_frames fun _ _ _ => rfl, second⟩, third, dhcpoption_frames fun _ _ _ _ => rfl,
    later_frames (fun _ _ _ _ => rfl) (fun _ _ => rfl) fun _ _ _ => rfl⟩

private theorem routes_list {np final : Draft} {lines : List Args} (done : routes np lines = .ok final)
    (around : Bool) :
    splitRoutes ((routeList around (draftCarried final)).getD []) = lines.flatMap (tokens around) := by
  unfold routes at done
  obtain ⟨cidrs, read, done⟩ := exceptBind_ok.mp done
  cases done
  rw [← splitRoutes_lines read around]
  cases around with
  | false =>
    have same : cidrs.filter (fun cidr => !cidr.2) = cidrs.filter fun cidr => cidr.2 = false :=
      List.filter_congr fun cidr _ => by cases cidr.2 <;> rfl
    rw [← same]
    rfl
  | true =>
    have same : cidrs.filter Prod.snd = cidrs.filter fun cidr => cidr.2 = true :=
      List.filter_congr fun cidr _ => by cases cidr.2 <;> rfl
    rw [← same]
    rfl

private theorem checkRedirectParameters_route (np : Draft) (defgw : List Args) :
    (checkRedirectParameters np defgw).mUseDefaultRoute =
      if "!ipv4".toList ∈ defgw.flatMap List.tail then np.mUseDefaultRoute else true := by
  have kept : ((defgw.flatMap List.tail).foldl redirectParameter np).mUseDefaultRoute = np.mUseDefaultRoute := by
    refine @foldl_kept _ _ _ (fun np => np.mUseDefaultRoute) _ (fun np parameter => ?_) _ np
    unfold redirectParameter
    repeat' split
    all_goals rfl
  unfold checkRedirectParameters
  simp only
  split
  · exact kept
  · rfl

end Settings

theorem importConfig_routes {profileName config : Text} {vp : VpnProfile}
    (imported : importConfig entrySet profileName config = .ok vp) :
    ∃ parsed, parseConfig config = .ok parsed ∧ (vp.mUseDefaultRoute = true ↔ DefaultRoute parsed) ∧
      ∀ around, splitRoutes ((routeList around (carried vp)).getD []) =
        (routeArgs parsed).flatMap (tokens around) := by
  obtain ⟨parsed, np, left, parse, ran, same⟩ :=
    @importConfig_observe _ entrySet (fun c => (c.mUseDefaultRoute, fun around => routeList around c))
      (fun _ _ => rfl)
      (fun _ _ => rfl) _ _ _ imported
  have flag : vp.mUseDefaultRoute = (draftCarried np).mUseDefaultRoute := congrArg Prod.fst same
  have lists (around : Bool) : routeList around (carried vp) = routeList around (draftCarried np) :=
    congrFun (congrArg Prod.snd same) around
  refine ⟨parsed, parse, ?_, fun around => ?_⟩
  · obtain ⟨middle, final, started, ended, absent, present⟩ := settings_allOptions entrySet settings_redirect
      redirect_around.1 redirect_around.2 (fun pass member => (others_carried entrySet pass member).of_carried)
      (by decide) ran
    have initial : middle.mUseDefaultRoute = false := started
    have ended : (draftCarried np).mUseDefaultRoute = final.mUseDefaultRoute := ended
    rw [flag, ended, DefaultRoute]
    cases given : parsed.options.lookup "redirect-gateway".toList with
    | none =>
      rw [absent given, initial]
      simp
    | some lines =>
      cases present lines given
      rw [checkRedirectParameters_route, initial]
      simp
  · obtain ⟨middle, final, started, ended, absent, present⟩ := settings_allOptions entrySet settings_route
      (plain_frames (routeList around)).1
      (routes_behind around) (fun pass member => (others_carried entrySet pass member).of_carried) (by decide) ran
    rw [lists, ended, routeArgs]
    cases given : parsed.options.lookup "route".toList with
    | none =>
      rw [absent given, started]
      cases around <;> exact fields_nil
    | some lines => exact routes_list (present lines given) around

/-! ### The export -/

/-- The parts have the route in its direction; one through the VPN may be left to the default route. -/
def Survives (net len : Nat) (parts : List ConfigPart) : Bool → Prop
  | true => ∃ network ∈ ConfigPart.networks .net_gateway parts, Names net len network
  | false => ∃ network ∈ ConfigPart.networks .vpn_gateway parts, Names net len network ∨ Names 0 0 network

/-- A route around the VPN needs a config without the default route, one through it comes to the same with it. -/
def Kept (parsed : Parsed) (net len : Nat) : Bool → Prop
  | true => ¬ DefaultRoute parsed ∧ Reached net len ((routeArgs parsed).flatMap (tokens true))
  | false =>
    DefaultRoute parsed ∨ Reached net len ((routeArgs parsed).flatMap (tokens false)) ∨
      Reached 0 0 ((routeArgs parsed).flatMap (tokens false))

private theorem names_default : Names 0 0 defaultNetwork := by
  have zero : Octet ['0'] 0 := ⟨by decide, by decide, List.forall_mem_singleton.mpr (by decide), by decide, by decide⟩
  have quad : DottedQuad "0.0.0.0".toList 0 :=
    ⟨['0'], ['0'], ['0'], ['0'], 0, 0, 0, 0, by decide +kernel, zero, zero, zero, zero, rfl⟩
  exact ⟨"0.0.0.0".toList, [' '], "0.0.0.0".toList, by decide +kernel, by decide, List.forall_mem_singleton.mpr rfl,
    quad, quad⟩

variable {device : Device} {configForOvpn3 : Bool} {profileName config text : Text} {vp : VpnProfile}
  {parsed : Parsed}

private theorem survives_iff {parts : List ConfigPart} (imported : importConfig entrySet profileName config = .ok vp)
    (parse : parseConfig config = .ok parsed) (exported : configParts device configForOvpn3 vp = some parts)
    (net len : Nat) (around : Bool) :
    Survives net len parts around ↔ Kept parsed net len around := by
  obtain ⟨parsed', parse', default, lists⟩ := importConfig_routes entrySet imported
  cases parse.symm.trans parse'
  have custom (routes : Option Text) : getCustomRoutes routes = cidrRoutes (splitRoutes (routes.getD [])) := by
    cases routes with
    | none => exact (congrArg cidrRoutes fields_nil).symm
    | some routes => rfl
  have networks := VpnProfile.configParts_networks exported
  by_cases whole : vp.mUseDefaultRoute
  · have asked := default.mp whole
    cases around with
    | true =>
      refine iff_of_false ?_ (fun kept => kept.1 asked)
      rintro ⟨network, member, -⟩
      rw [networks, if_pos whole] at member
      cases member
    | false =>
      refine iff_of_true ⟨defaultNetwork, ?_, Or.inr names_default⟩ (Or.inl asked)
      rw [networks, if_pos whole]
      exact List.mem_singleton_self _
  · have unasked : ¬ DefaultRoute parsed := fun asked => whole (default.mpr asked)
    cases around with
    | true =>
      have list : ConfigPart.networks .net_gateway parts = cidrRoutes ((routeArgs parsed).flatMap (tokens true)) := by
        rw [networks, if_neg whole, custom, ← lists true]
        rfl
      rw [Survives, Kept, list, reached_iff]
      exact (and_iff_right unasked).symm
    | false =>
      have list : ConfigPart.networks .vpn_gateway parts =
          cidrRoutes ((routeArgs parsed).flatMap (tokens false)) := by
        rw [networks, if_neg whole, custom, ← lists false]
        rfl
      rw [Survives, Kept, list, ← reached_iff, ← reached_iff, or_iff_right unasked]
      constructor
      · rintro ⟨network, member, names | names⟩
        · exact Or.inl ⟨network, member, names⟩
        · exact Or.inr ⟨network, member, names⟩
      · rintro (⟨network, member, names⟩ | ⟨network, member, names⟩)
        · exact ⟨network, member, Or.inl names⟩
        · exact ⟨network, member, Or.inr names⟩

/-- The exported text has every route line of the config. -/
def RoutesSurvive (device : Device) (configForOvpn3 : Bool) (parsed : Parsed) (vp : VpnProfile)
    (text : Text) : Prop :=
  ∃ parts, configParts device configForOvpn3 vp = some parts ∧ text = parts.flatMap ConfigPart.text ∧
    ∀ line ∈ routeArgs parsed, ∀ net len, RouteLine line net len → Survives net len parts (bypass line)

private theorem routesSurvive_iff (imported : importConfig entrySet profileName config = .ok vp)
    (parse : parseConfig config = .ok parsed) (written : getConfigFile device configForOvpn3 vp = some text) :
    RoutesSurvive device configForOvpn3 parsed vp text ↔
      ∀ line ∈ routeArgs parsed, ∀ net len, RouteLine line net len → Kept parsed net len (bypass line) := by
  obtain ⟨parts, exported, same⟩ :=
    Option.map_eq_some_iff.mp ((VpnProfile.getConfigFile_parts device configForOvpn3 vp).symm.trans written)
  have each := survives_iff entrySet imported parse exported
  constructor
  · rintro ⟨parts', exported', -, survive⟩ line member net len given
    cases exported.symm.trans exported'
    exact (each net len _).mp (survive line member net len given)
  · intro kept
    exact ⟨parts, exported, same.symm, fun line member net len given =>
      (each net len _).mpr (kept line member net len given)⟩

/-! ### Lines with addresses -/

private theorem DottedQuad.chars {s : Text} {n : Nat} (quad : DottedQuad s n) : ∀ c ∈ s, c.isDigit ∨ c = '.' := by
  obtain ⟨a, b, c, d, i, j, k, l, split, first, second, third, fourth, -⟩ := quad
  intro x member
  have whole : ['.'].intercalate (s.splitOn '.') = s := List.intercalate_splitOn '.'
  rw [← whole, split] at member
  rcases mem_intercalate '.' member with dot | ⟨piece, among, inside⟩
  · exact Or.inr dot
  · refine Or.inl ?_
    simp only [List.mem_cons, List.not_mem_nil, or_false] at among
    rcases among with rfl | rfl | rfl | rfl
    · exact first.digits x inside
    · exact second.digits x inside
    · exact third.digits x inside
    · exact fourth.digits x inside

private theorem netmask_small (len : Nat) : netmask len < 2 ^ 32 := Nat.mod_lt _ (by decide)

theorem tokens_routeLine {line : Args} {net len : Nat} (given : RouteLine line net len) :
    ∃ token, tokens (bypass line) line = [token] ∧ Gives net len token := by
  have plain : '/' ∉ arg line 1 ∧ ∀ c ∈ arg line 1, (c == '\n' || c == ' ' || c == '\t') = false := by
    have chars := DottedQuad.chars given.address
    refine ⟨fun slash => ?_, fun c member => ?_⟩
    · rcases chars '/' slash with digit | dot
      · exact absurd digit (by decide)
      · exact absurd dot (by decide)
    · rcases chars c member with digit | rfl
      · simp only [Bool.or_eq_false_iff, beq_eq_false_iff_ne]
        refine ⟨⟨?_, ?_⟩, ?_⟩ <;> rintro rfl <;> exact absurd digit (by decide)
      · rfl
  have digits : ∀ c ∈ (toString len).toList, (c == '\n' || c == ' ' || c == '\t') = false := by
    intro c member
    have digit := TunTexts.digits_toString len c member
    simp only [Bool.or_eq_false_iff, beq_eq_false_iff_ne]
    refine ⟨⟨?_, ?_⟩, ?_⟩ <;> rintro rfl <;> exact absurd digit (by decide)
  have read : route line = .ok (arg line 1 ++ ['/'] ++ (toString len).toList ++ [' '], bypass line) := by
    have three : line.length ≥ 3 := Nat.le_of_succ_le given.length
    simp only [route, if_pos three, if_pos given.length, cidrip_netmask given.few given.mask]
    rfl
  refine ⟨arg line 1 ++ ['/'] ++ (toString len).toList, ?_, ?_⟩
  · rw [tokens, read]
    simp only [if_true]
    rw [splitRoutes_blank]
    have one : splitRoutes (arg line 1 ++ ['/'] ++ (toString len).toList) =
        [arg line 1 ++ ['/'] ++ (toString len).toList] := by
      refine fields_one (fun c member => ?_) (by simp)
      rcases List.mem_append.mp member with member | member
      · rcases List.mem_append.mp member with member | member
        · exact plain.2 c member
        · rw [List.mem_singleton.mp member]
          rfl
      · exact digits c member
    rw [one]
    exact congrArg _ fields_nil
  · refine ⟨_, cidrToIPAndNetmask_length given.few plain.1, arg line 1, [' ', ' '], _, rfl, by simp, by simp,
      given.address,
      dottedQuad_dotted (netmask_small len)⟩

/-- Behind lines whose addresses can be read every route line is reached. -/
theorem reached_routeLine {lines : List Args} {line : Args} {net len : Nat} (given : RouteLine line net len)
    (member : line ∈ lines)
    (readable : ∀ token ∈ lines.flatMap (tokens (bypass line)), (cidrToIPAndNetmask token).isSome) :
    Reached net len (lines.flatMap (tokens (bypass line))) := by
  obtain ⟨before, after, rfl⟩ := List.append_of_mem member
  obtain ⟨token, one, gives⟩ := tokens_routeLine given
  rw [List.flatMap_append] at readable
  refine ⟨before.flatMap (tokens (bypass line)), token, after.flatMap (tokens (bypass line)), ?_, ?_, gives⟩
  · rw [List.flatMap_append, List.flatMap_cons, one]
    rfl
  · exact fun token inside => readable token (List.mem_append_left _ inside)

/-- In a config of such lines only routes around the VPN are lost, and only with the default route. -/
theorem kept_routeLines (every : ∀ line ∈ routeArgs parsed, ∃ net len, RouteLine line net len) :
    (∀ line ∈ routeArgs parsed, ∀ net len, RouteLine line net len → Kept parsed net len (bypass line)) ↔
      (DefaultRoute parsed → ∀ line ∈ routeArgs parsed, bypass line = false) := by
  have readable (around : Bool) : ∀ token ∈ (routeArgs parsed).flatMap (tokens around),
      (cidrToIPAndNetmask token).isSome := by
    intro token inside
    obtain ⟨line, member, inside⟩ := List.mem_flatMap.mp inside
    obtain ⟨net, len, given⟩ := every line member
    obtain ⟨one, listed, network, read, -⟩ := tokens_routeLine given
    by_cases same : bypass line = around
    · rw [← same, listed, List.mem_singleton] at inside
      rw [inside, read]
      rfl
    · have other : tokens around line = [] := by
        unfold tokens at listed ⊢
        cases read : route line with
        | error e => rfl
        | ok cidr =>
          rw [read] at listed
          simp only at listed ⊢
          split at listed
          next through => exact if_neg fun again => same (through.symm.trans again)
          next => cases listed
      rw [other] at inside
      cases inside
  have reached (line : Args) (member : line ∈ routeArgs parsed) (net len : Nat) (given : RouteLine line net len) :
      Reached net len ((routeArgs parsed).flatMap (tokens (bypass line))) :=
    reached_routeLine given member (readable _)
  constructor
  · intro kept asked line member
    obtain ⟨net, len, given⟩ := every line member
    have here := kept line member net len given
    cases around : bypass line with
    | false => rfl
    | true =>
      rw [around] at here
      exact absurd asked here.1
  · intro through line member net len given
    have here := reached line member net len given
    cases around : bypass line with
    | false =>
      rw [around] at here
      exact Or.inr (Or.inl here)
    | true =>
      rw [around] at here
      refine ⟨fun asked => ?_, here⟩
      exact absurd (through asked line member) (by simp [around])

/-- With the default route the exporter leaves out the list of routes around the VPN too, and each list ends at its
first address that cannot be read. -/
theorem imported_routes_exact (imported : importConfig entrySet profileName config = .ok vp)
    (parse : parseConfig config = .ok parsed) (written : getConfigFile device configForOvpn3 vp = some text) :
    RoutesSurvive device configForOvpn3 parsed vp text ↔
      ∀ line ∈ routeArgs parsed, ∀ net len, RouteLine line net len → Kept parsed net len (bypass line) :=
  routesSurvive_iff entrySet imported parse written

/-- The arguments of a route line, with the network and the mask as numbers. -/
def routeTo (net len : Nat) (gateway : String) : Args :=
  ["route".toList, (dotted net).toList, (dotted (netmask len)).toList, gateway.toList]

private theorem routeLine_routeTo {net len : Nat} (gateway : String) (small : net < 2 ^ 32) (few : len ≤ 32) :
    RouteLine (routeTo net len gateway) net len :=
  ⟨Nat.le_refl 4, few, dottedQuad_dotted small, dottedQuad_dotted (netmask_small len)⟩

def twoRoutes : Text :=
  configWith "route 10.1.0.0 255.255.0.0 vpn_gateway\nroute 192.168.7.0 255.255.255.0 net_gateway"

theorem imported_routes_exact_two :
    ∃ parsed vp text, parseConfig twoRoutes = .ok parsed ∧ importConfig default [] twoRoutes = .ok vp ∧
      getConfigFile phone false vp = some text ∧ (routeArgs parsed).length = 2 ∧
        RoutesSurvive phone false parsed vp text := by
  obtain ⟨parsed, vp, text, parse, found, imported, written⟩ :=
    @import_export _ (fun parsed => (routeArgs parsed, parsed.options.lookup "redirect-gateway".toList)) twoRoutes
      ([routeTo 0x0a010000 16 "vpn_gateway", routeTo 0xc0a80700 24 "net_gateway"], none) (by decide +kernel)
      (by decide +kernel)
  obtain ⟨lines, unasked⟩ := Prod.ext_iff.mp found
  have lines : routeArgs parsed = [routeTo 0x0a010000 16 "vpn_gateway", routeTo 0xc0a80700 24 "net_gateway"] := lines
  have every : ∀ line ∈ routeArgs parsed, ∃ net len, RouteLine line net len := by
    rw [lines]
    exact List.forall_mem_cons.mpr ⟨⟨_, _, routeLine_routeTo _ (by decide) (by decide)⟩,
      List.forall_mem_singleton.mpr ⟨_, _, routeLine_routeTo _ (by decide) (by decide)⟩⟩
  have kept := (kept_routeLines every).mpr fun asked => by
    obtain ⟨defgw, given, -⟩ := asked
    cases unasked.symm.trans given
  exact ⟨parsed, vp, text, parse, imported, written, by rw [lines]; rfl,
    (imported_routes_exact default imported parse written).mpr kept⟩

/-- A route around the VPN beside the default route. -/
theorem bypass_route_dropped :
    ¬ ∀ (entrySet : EntrySet) (device : Device) (configForOvpn3 : Bool) (profileName config text : Text)
      (vp : VpnProfile) (parsed : Parsed), importConfig entrySet profileName config = .ok vp →
      parseConfig config = .ok parsed → getConfigFile device configForOvpn3 vp = some text →
        RoutesSurvive device configForOvpn3 parsed vp text := by
  intro survive
  obtain ⟨parsed, vp, text, parse, found, imported, written⟩ :=
    @import_export _ (fun parsed => (routeArgs parsed, parsed.options.lookup "redirect-gateway".toList))
      (configWith "redirect-gateway\nroute 192.168.7.0 255.255.255.0 net_gateway")
      ([routeTo 0xc0a80700 24 "net_gateway"], some [["redirect-gateway".toList]]) (by decide +kernel)
        (by decide +kernel)
  obtain ⟨lines, asked⟩ := Prod.ext_iff.mp found
  have lines : routeArgs parsed = [routeTo 0xc0a80700 24 "net_gateway"] := lines
  have kept := (routesSurvive_iff default imported parse written).mp
    (survive default phone false [] _ text vp parsed imported parse written)
    (routeTo 0xc0a80700 24 "net_gateway") (by rw [lines]; exact List.mem_singleton_self _) _ _
    (routeLine_routeTo _ (by decide) (by decide))
  exact kept.1 ⟨_, asked, by decide⟩

end RRoadVpn.Proofs.ImportedRoutes
