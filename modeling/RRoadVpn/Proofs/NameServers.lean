import Mathlib.Data.List.TakeWhile
import RRoadVpn.ConfigParts
import RRoadVpn.Proofs.ImportFrames

/-! The name servers of a config through import and export: the profile has two places for
them, with default servers in both. -/

namespace RRoadVpn.Proofs.NameServers
open RRoadVpn.ConfigParser RRoadVpn.Library RRoadVpn.Proofs.ImportSteps RRoadVpn.Proofs.ImportFrames
open JavaText (Text)

/-! ### Two places -/

/-- A server takes the first place as long as the default server is there. -/
def taken (places : Text × Text) (address : Text) : Text × Text :=
  if places.1 = DEFAULT_DNS1 then (address, places.2) else (places.1, address)

/-- What is in the two places after all servers, without the empty ones. -/
def named (servers : List Text) : List Text :=
  let places := servers.foldl taken (DEFAULT_DNS1, DEFAULT_DNS2)
  [places.1, places.2].filter (· ≠ [])

private theorem foldl_taken_other {first : Text} (other : first ≠ DEFAULT_DNS1) (servers : List Text)
    (second : Text) :
    servers.foldl taken (first, second) = (first, servers.getLast?.getD second) := by
  induction servers generalizing second with
  | nil => rfl
  | cons address servers ih =>
    rw [List.foldl_cons, taken, if_neg other, ih, List.getLast?_cons]
    rfl

theorem foldl_taken (servers : List Text) (second : Text) :
    servers.foldl taken (DEFAULT_DNS1, second) =
      ((servers.dropWhile (· = DEFAULT_DNS1)).headD DEFAULT_DNS1,
        (servers.dropWhile (· = DEFAULT_DNS1)).tail.getLast?.getD second) := by
  induction servers with
  | nil => rfl
  | cons address servers ih =>
    rw [List.foldl_cons, taken, if_pos rfl]
    by_cases default : address = DEFAULT_DNS1
    · rw [default, ih, List.dropWhile_cons_of_pos (by simp)]
    · rw [foldl_taken_other default, List.dropWhile_cons_of_neg (by simpa using default)]
      rfl

/-- The servers that are named are of the config, the first one first, and one or two servers are all named. -/
structure Survive (servers named : List Text) : Prop where
  listed : ∀ address ∈ named, address ∈ servers
  first : named.head? = servers.head?
  all : servers.length ≤ 2 → named = servers

/-- Several servers, of which the first is not the default one, none of them empty if they are two. The second case
is that of an empty server in the first place, where the last server is like the first. -/
def Kept : List Text → Prop
  | first :: second :: others =>
    (first ≠ DEFAULT_DNS1 ∧ first ≠ [] ∧ (others = [] → second ≠ [])) ∨
      first = DEFAULT_DNS1 ∧ ∃ behind, (second :: others).dropWhile (· = DEFAULT_DNS1) = [] :: behind ∧
        behind.getLast? = some DEFAULT_DNS1
  | _ => False

private theorem defaults_apart : DEFAULT_DNS1 ≠ [] ∧ DEFAULT_DNS2 ≠ [] ∧ DEFAULT_DNS2 ≠ DEFAULT_DNS1 := by decide

theorem filter_head (first second : Text) (servers : List Text) :
    ([first, second].filter (· ≠ [])).head? ≠ ([] :: servers).head? := by
  intro same
  have member : [] ∈ [first, second].filter (· ≠ []) := List.mem_of_head? same
  exact absurd (List.mem_filter.mp member).2 (by simp)

private theorem named_other {first : Text} (other : first ≠ DEFAULT_DNS1) (filled : first ≠ []) (rest : List Text) :
    named (first :: rest) = first :: [rest.getLast?.getD DEFAULT_DNS2].filter (· ≠ []) := by
  have drop : (first :: rest).dropWhile (· = DEFAULT_DNS1) = first :: rest :=
    List.dropWhile_cons_of_neg (by simpa using other)
  simp only [named, foldl_taken, drop, List.headD_cons, List.tail_cons]
  exact List.filter_cons_of_pos (by simpa using filled)

private theorem survive_other {first : Text} (other : first ≠ DEFAULT_DNS1) (filled : first ≠ []) (rest : List Text) :
    Survive (first :: rest) (named (first :: rest)) ↔ Kept (first :: rest) := by
  have second := defaults_apart.2.1
  rw [named_other other filled]
  rcases rest with _ | ⟨server, others⟩
  · refine iff_of_false (fun survive => ?_) id
    have all := survive.all (by simp)
    simp [second] at all
  · have kept : Kept (first :: server :: others) ↔ (others = [] → server ≠ []) := by simp [Kept, other, filled]
    rw [kept]
    constructor
    · rintro survive rfl empty
      have all := survive.all (by simp)
      simp [empty] at all
    · intro given
      obtain ⟨last, found⟩ : ∃ last, (server :: others).getLast? = some last :=
        ⟨_, List.getLast?_eq_some_getLast (by simp)⟩
      rw [found, Option.getD_some]
      refine ⟨?_, rfl, fun few => ?_⟩
      · refine List.forall_mem_cons.mpr ⟨List.mem_cons_self, fun address member => ?_⟩
        rw [List.mem_singleton.mp (List.mem_filter.mp member).1]
        exact List.mem_cons_of_mem _ (List.mem_of_getLast? found)
      · have one : others = [] := by
          rw [← List.length_eq_zero_iff]
          simp only [List.length_cons] at few
          omega
        subst one
        cases found
        simp [given rfl]

private theorem survive_default (rest : List Text) :
    Survive (DEFAULT_DNS1 :: rest) (named (DEFAULT_DNS1 :: rest)) ↔ Kept (DEFAULT_DNS1 :: rest) := by
  obtain ⟨filled1, filled2, apart⟩ := defaults_apart
  have kept : Kept (DEFAULT_DNS1 :: rest) ↔ ∃ behind, rest.dropWhile (· = DEFAULT_DNS1) = [] :: behind ∧
      behind.getLast? = some DEFAULT_DNS1 := by
    cases rest <;> simp [Kept]
  have drop : (DEFAULT_DNS1 :: rest).dropWhile (· = DEFAULT_DNS1) = rest.dropWhile (· = DEFAULT_DNS1) :=
    List.dropWhile_cons_of_pos (by simp)
  rw [kept]
  simp only [named, foldl_taken, drop]
  cases left : rest.dropWhile (· = DEFAULT_DNS1) with
  | nil =>
    refine iff_of_false (fun survive => ?_) (by simp)
    have listed := survive.listed DEFAULT_DNS2 (by simp [filled2])
    rcases List.mem_cons.mp listed with same | member
    · exact apart same
    · exact apart (by simpa using List.dropWhile_eq_nil_iff.mp left _ member)
  | cons server behind =>
    have other : server ≠ DEFAULT_DNS1 := by
      have head := List.head?_dropWhile_not (· = DEFAULT_DNS1) rest
      rw [left] at head
      simpa using head
    by_cases empty : server = []
    · subst empty
      have many : 1 ≤ behind.length → ¬ (DEFAULT_DNS1 :: rest).length ≤ 2 := by
        have short := (List.dropWhile_suffix (l := rest) (· = DEFAULT_DNS1)).length_le
        rw [left] at short
        simp only [List.length_cons] at short ⊢
        omega
      cases found : behind.getLast? with
      | none =>
        refine iff_of_false (fun survive => ?_) ?_
        · have first := survive.first
          simp only [List.tail_cons, found, Option.getD_none] at first
          simp [filled2, apart] at first
        · rintro ⟨_, same, last⟩
          cases same
          rw [found] at last
          cases last
      | some last =>
        have exists_iff : (∃ behind', ([] :: behind : List Text) = [] :: behind' ∧
            behind'.getLast? = some DEFAULT_DNS1) ↔ last = DEFAULT_DNS1 := by
          simp [found]
        rw [exists_iff]
        constructor
        · intro survive
          have first := survive.first
          simp only [List.tail_cons, found, Option.getD_some] at first
          by_cases empty : last = [] <;> simp [empty] at first
          exact first
        · rintro rfl
          simp only [List.tail_cons, found, Option.getD_some]
          refine ⟨by simp, by simp [filled1], fun few => ?_⟩
          exact absurd few (many (List.length_pos_of_mem (List.mem_of_getLast? found)))
    · refine iff_of_false (fun survive => ?_) ?_
      · have first := survive.first
        simp [empty, other] at first
      · rintro ⟨_, same, -⟩
        exact empty (List.cons.inj same).1

private theorem named_exact {servers : List Text} (several : servers ≠ []) :
    Survive servers (named servers) ↔ Kept servers := by
  obtain ⟨first, rest, rfl⟩ := List.exists_cons_of_ne_nil several
  by_cases default : first = DEFAULT_DNS1
  · subst default
    exact survive_default rest
  · by_cases empty : first = []
    · subst empty
      refine iff_of_false (fun survive => filter_head _ _ rest survive.first) ?_
      cases rest <;> simp [Kept, defaults_apart.1.symm]
    · exact survive_other default empty rest

/-! ### The import -/

/-- The servers that the lines of `dhcp-option` give, in their order. -/
def servers (lines : List Args) : List Text :=
  (lines.filter fun line => arg line 1 = "DNS".toList).map fun line => arg line 2

def places (c : Carried) : Bool × Text × Text := (c.mOverrideDNS, c.mDNS1, c.mDNS2)

private theorem servers_cons (line : Args) (lines : List Args) :
    servers (line :: lines) = if arg line 1 = "DNS".toList then arg line 2 :: servers lines else servers lines := by
  unfold servers
  split
  next dns => rw [List.filter_cons_of_pos (by simpa using dns), List.map_cons]
  next other => rw [List.filter_cons_of_neg (by simpa using other)]

private theorem dhcpoption_places (np : Draft) (line : Args) :
    places (draftCarried (dhcpoption np line)) =
      if arg line 1 = "DNS".toList then (true, taken (np.mDNS1, np.mDNS2) (arg line 2))
      else places (draftCarried np) := by
  have apart : "DOMAIN".toList ≠ "DNS".toList := by decide
  unfold dhcpoption taken
  by_cases domain : arg line 1 = "DOMAIN".toList
  · rw [if_pos domain, if_neg (domain ▸ apart)]
    rfl
  · rw [if_neg domain]
    split
    · by_cases default : np.mDNS1 = DEFAULT_DNS1
      · rw [if_pos default, if_pos default]
        rfl
      · rw [if_neg default, if_neg default]
        rfl
    · rfl

/-- What all servers make of the places, and of the flag for them. -/
def replaced (old : Bool × Text × Text) (servers : List Text) : Bool × Text × Text :=
  (old.1 || servers ≠ [], servers.foldl taken old.2)

private theorem foldl_dhcpoption (lines : List Args) (np : Draft) :
    places (draftCarried (lines.foldl dhcpoption np)) = replaced (places (draftCarried np)) (servers lines) := by
  induction lines generalizing np with
  | nil => simp [servers, replaced]
  | cons line lines ih =>
    rw [List.foldl_cons, ih, servers_cons, dhcpoption_places]
    split
    · simp [replaced, places, draftCarried, carried]
    · rfl

variable (entrySet : EntrySet)

private theorem settings_dns : settings = settings.take 14 ++ ([allOptions "dhcp-option" 2 2 fun np dhcpoptions =>
    .ok (dhcpoptions.foldl dhcpoption np)] ++ settings.drop 15) := rfl

theorem earlier_places : ∀ pass ∈ settings.take 14, Frames (fun np => places (draftCarried np)) pass := by
  obtain ⟨first, second, third⟩ := plain_frames places
  have split : settings.take 14 = settings.take 2 ++ allOptions "route" 1 4 routes :: ((settings.drop 3).take 5 ++
      (allOptions "redirect-gateway" 0 7 fun np defgw => .ok (checkRedirectParameters np defgw)) ::
        (settings.drop 9).take 5) := rfl
  rw [split]
  simp only [List.forall_mem_append, List.forall_mem_cons]
  exact ⟨first, routes_frames fun _ _ _ => rfl, second, redirect_frames fun _ _ => rfl, third⟩

/-- The lines with `dhcp-option` of a parsed config. -/
def dhcpOptions (parsed : Parsed) : List Args := (parsed.options.lookup "dhcp-option".toList).getD []

theorem importConfig_places {profileName config : Text} {vp : VpnProfile}
    (imported : importConfig entrySet profileName config = .ok vp) :
    ∃ parsed, parseConfig config = .ok parsed ∧
      places (carried vp) = replaced (false, DEFAULT_DNS1, DEFAULT_DNS2) (servers (dhcpOptions parsed)) := by
  obtain ⟨parsed, np, left, parse, ran, same⟩ :=
    @importConfig_observe _ entrySet places (fun _ _ => rfl) (fun _ _ => rfl) _ _ _ imported
  obtain ⟨middle, final, started, ended, absent, present⟩ := settings_allOptions entrySet settings_dns earlier_places
    (later_frames (fun _ _ _ _ => rfl) (fun _ _ => rfl) fun _ _ _ => rfl)
    (fun pass member => (others_carried entrySet pass member).of_carried) (by decide) ran
  have initial : places (draftCarried middle) = (false, DEFAULT_DNS1, DEFAULT_DNS2) := started
  refine ⟨parsed, parse, ?_⟩
  rw [same, ended, ← initial, dhcpOptions]
  cases given : parsed.options.lookup "dhcp-option".toList with
  | none =>
    rw [absent given]
    exact foldl_dhcpoption [] middle
  | some lines =>
    cases present lines given
    exact foldl_dhcpoption lines middle

/-! ### The export -/

variable (device : Device) (configForOvpn3 : Bool)

private theorem nameServers_named {p : VpnProfile} {parts : List ConfigPart} {servers : List Text}
    (several : servers ≠ [])
    (kept : places (carried p) = replaced (false, DEFAULT_DNS1, DEFAULT_DNS2) servers)
    (exported : VpnProfile.configParts device configForOvpn3 p = some parts) :
    ConfigPart.nameServers parts = named servers := by
  have override : p.mOverrideDNS = true := by
    have flag : p.mOverrideDNS = (false || decide (servers ≠ [])) := congrArg Prod.fst kept
    simpa [several] using flag
  have slots : (p.mDNS1, p.mDNS2) = servers.foldl taken (DEFAULT_DNS1, DEFAULT_DNS2) := congrArg Prod.snd kept
  rw [VpnProfile.configParts_nameServers exported, if_pos (Or.inl override), named, ← slots]

/-- What the exported text names is what the config has named. -/
def NamesSurvive (servers : List Text) (vp : VpnProfile) (text : Text) : Prop :=
  ∃ parts, VpnProfile.configParts device configForOvpn3 vp = some parts ∧ text = parts.flatMap ConfigPart.text ∧
    Survive servers (ConfigPart.nameServers parts)

variable {device configForOvpn3} {profileName config text : Text} {vp : VpnProfile} {parsed : Parsed}

private theorem namesSurvive_iff (imported : importConfig entrySet profileName config = .ok vp)
    (parse : parseConfig config = .ok parsed) (several : servers (dhcpOptions parsed) ≠ [])
    (written : VpnProfile.getConfigFile device configForOvpn3 vp = some text) :
    NamesSurvive device configForOvpn3 (servers (dhcpOptions parsed)) vp text ↔
      Kept (servers (dhcpOptions parsed)) := by
  obtain ⟨parsed', parse', kept⟩ := importConfig_places entrySet imported
  cases parse.symm.trans parse'
  obtain ⟨parts, exported, same⟩ :=
    Option.map_eq_some_iff.mp ((VpnProfile.getConfigFile_parts device configForOvpn3 vp).symm.trans written)
  have names := nameServers_named device configForOvpn3 several kept exported
  rw [← named_exact several, ← names]
  constructor
  · rintro ⟨parts', exported', -, survive⟩
    cases exported.symm.trans exported'
    exact survive
  · exact fun survive => ⟨parts, exported, same.symm, survive⟩

/-- A single server leaves the second default one where it is, and a server like the first default one is put in its
place without filling it. -/
theorem name_servers_exact (imported : importConfig entrySet profileName config = .ok vp)
    (parse : parseConfig config = .ok parsed) (several : servers (dhcpOptions parsed) ≠ [])
    (written : VpnProfile.getConfigFile device configForOvpn3 vp = some text) :
    NamesSurvive device configForOvpn3 (servers (dhcpOptions parsed)) vp text ↔ Kept (servers (dhcpOptions parsed)) :=
  namesSurvive_iff entrySet imported parse several written

theorem name_servers_exact_two :
    ∃ vp text, importConfig default [] (configWith "dhcp-option DNS 10.0.0.1\ndhcp-option DNS 10.0.0.2") = .ok vp ∧
      VpnProfile.getConfigFile phone false vp = some text ∧
        NamesSurvive phone false ["10.0.0.1".toList, "10.0.0.2".toList] vp text := by
  obtain ⟨parsed, vp, text, parse, found, imported, written⟩ :=
    @import_export _ (fun parsed => servers (dhcpOptions parsed))
      (configWith "dhcp-option DNS 10.0.0.1\ndhcp-option DNS 10.0.0.2") ["10.0.0.1".toList, "10.0.0.2".toList]
      (by decide +kernel) (by decide +kernel)
  have kept : Kept ["10.0.0.1".toList, "10.0.0.2".toList] :=
    Or.inl ⟨by decide, by decide, fun _ => by decide⟩
  have survive := (name_servers_exact default imported parse (by rw [found]; decide) written).mpr (found ▸ kept)
  exact ⟨vp, text, imported, written, found ▸ survive⟩

/-- One server, which is not the default one. -/
theorem default_server_added :
    ¬ ∀ (entrySet : EntrySet) (device : Device) (configForOvpn3 : Bool) (profileName config text : Text)
      (vp : VpnProfile) (parsed : Parsed), importConfig entrySet profileName config = .ok vp →
      parseConfig config = .ok parsed → servers (dhcpOptions parsed) ≠ [] →
      VpnProfile.getConfigFile device configForOvpn3 vp = some text →
        NamesSurvive device configForOvpn3 (servers (dhcpOptions parsed)) vp text := by
  intro survive
  obtain ⟨parsed, vp, text, parse, found, imported, written⟩ :=
    @import_export _ (fun parsed => servers (dhcpOptions parsed)) (configWith "dhcp-option DNS 10.0.0.1")
      ["10.0.0.1".toList] (by decide +kernel) (by decide +kernel)
  have several : servers (dhcpOptions parsed) ≠ [] := by rw [found]; decide
  have kept := (namesSurvive_iff default imported parse several written).mp
    (survive default phone false [] _ text vp parsed imported parse several written)
  rw [found] at kept
  exact kept

end RRoadVpn.Proofs.NameServers
