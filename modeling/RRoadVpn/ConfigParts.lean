import RRoadVpn.VpnProfile

/-! An exported config as a list of parts: what it says about files, routes and name
servers, and the other lines between these. The text of a config is that of its parts. -/

namespace RRoadVpn
open JavaText (Text)

inductive Gateway where
  | vpn_gateway
  | net_gateway
  deriving DecidableEq, Repr

def Gateway.name : Gateway → Text
  | .vpn_gateway => "vpn_gateway".toList
  | .net_gateway => "net_gateway".toList

inductive ConfigPart where
  | lines (text : Text)
  | file (cfgentry : Text) (filedata : Option Text)
  | route (gateway : Gateway) (network : Text)
  | nameServer (address : Text)
  deriving DecidableEq, Repr

namespace ConfigPart
open VpnProfile

def text : ConfigPart → Text
  | .lines text => text
  | .file cfgentry filedata => insertFileData cfgentry filedata
  | .route gateway network => optionLine "route" (network ++ [' '] ++ gateway.name)
  | .nameServer address => optionLine "dhcp-option" ("DNS ".toList ++ address)

def networks (gateway : Gateway) (parts : List ConfigPart) : List Text :=
  parts.filterMap fun
    | .route through network => if through = gateway then some network else none
    | _ => none

def nameServers (parts : List ConfigPart) : List Text :=
  parts.filterMap fun
    | .nameServer address => some address
    | _ => none

end ConfigPart

namespace VpnProfile
open ConfigPart

section Export

variable (device : Device) (configForOvpn3 : Bool)

def credentialParts (p : VpnProfile) : Option (List ConfigPart) :=
  let certificates :=
    [.file "ca".toList p.mCaFilename, .file "key".toList p.mClientKeyFilename,
      .file "cert".toList p.mClientCertFilename]
  let pkcs12 := [.file "pkcs12".toList p.mPKCS12Filename]
  let external :=
    if configForOvpn3 then some []
    else (keystore device p).map fun keystore => [.lines ("### From Keystore/ext auth app ####\n".toList ++ keystore)]
  let authUserPass := .lines "auth-user-pass\n".toList
  match p.mAuthenticationType with
  | .USERPASS_CERTIFICATES => some (authUserPass :: certificates)
  | .CERTIFICATES => some certificates
  | .USERPASS_PKCS12 => some (authUserPass :: pkcs12)
  | .PKCS12 => some pkcs12
  | .USERPASS_KEYSTORE => external.map (authUserPass :: ·)
  | .KEYSTORE | .EXTERNAL_APP => external
  | .USERPASS =>
    some [authUserPass, .file "ca".toList p.mCaFilename, .lines (flagLine "client-cert-not-required" configForOvpn3)]
  | .STATICKEYS => some []

def tlsAuthEntry (p : VpnProfile) : Text :=
  if p.mAuthenticationType = .STATICKEYS then "secret".toList
  else if p.mTLSAuthDirection = "tls-crypt".toList then "tls-crypt".toList
  else "tls-auth".toList

def tlsAuthParts (p : VpnProfile) : List ConfigPart :=
  if p.mUseTLSAuth then
    [.file p.tlsAuthEntry p.mTLSAuthFilename,
      .lines (if p.mTLSAuthDirection ≠ [] ∧ ¬ p.mTLSAuthDirection = "tls-crypt".toList then
        optionLine "key-direction" p.mTLSAuthDirection
      else [])]
  else []

def defaultNetwork : Text := "0.0.0.0 0.0.0.0".toList

def routeParts (p : VpnProfile) : List ConfigPart :=
  [.lines (flagLine "route-ipv6 ::/0" p.mUseDefaultRoutev6)] ++
    (if p.mUseDefaultRoute then [.route .vpn_gateway defaultNetwork]
    else
      (getCustomRoutes p.mCustomRoutes).map (.route .vpn_gateway) ++
        (getCustomRoutes p.mExcludedRoutes).map (.route .net_gateway)) ++
    [.lines (if p.mUseDefaultRoutev6 then [] else (getCustomRoutesv6 p.mCustomRoutesv6).flatMap
      (optionLine "route-ipv6"))]

def dnsParts (p : VpnProfile) : List ConfigPart :=
  if p.mOverrideDNS ∨ ¬ p.mUsePull then
    ([p.mDNS1, p.mDNS2].filter (· ≠ [])).map .nameServer ++
      [.lines (if p.mSearchDomain = [] then [] else optionLine "dhcp-option" ("DOMAIN ".toList ++ p.mSearchDomain))]
  else []

def closing (p : VpnProfile) (serverChecks : Text) : Text :=
  mtuLines p ++ flagLine "nobind" p.mNobind ++ serverChecks ++
    (if p.mCipher = [] then [] else optionLine "cipher" p.mCipher) ++
    (if p.mAuth = [] then [] else optionLine "auth" p.mAuth) ++
    flagLine "#my favorite options :)\nremote-random-hostname" p.mUseRandomHostname ++
    flagLine "float" p.mUseFloat ++
    flagLine "persist-tun\n# persist-tun also enables pre resolving to avoid DNS resolve problem\npreresolve" p.mPersistTun ++
    flagLine "push-peer-info" p.mPushPeerInfo ++
    flagLine "# Use system proxy setting\nmanagement-query-proxy"
      (device.usesystemproxy && !configForOvpn3 && !p.usesExtraProxyOptions) ++
    (if p.mUseCustomConfig then
      "# Custom configuration options\n# You are on your on own here :)\n".toList ++ p.mCustomConfigOptions ++ ['\n']
    else []) ++
    (connectionBlocks configForOvpn3 p.mConnections).toList

/-- The parts of the exported config, none where the export throws. -/
def configParts (p : VpnProfile) : Option (List ConfigPart) := do
  let credentials ← credentialParts device configForOvpn3 p
  let serverChecks ← serverChecks p
  return [.lines (header device configForOvpn3 p ++
    (remotes p.mRemoteRandom configForOvpn3 p.mConnections).toList)] ++
    credentials ++
    [.lines (flagLine "auth-retry nointeract" (p.isUserPWAuth && p.mAuthRetry = .NOINTERACT))] ++
    (if isEmpty p.mCrlFilename then [] else [.file "crl-verify".toList p.mCrlFilename]) ++
    [.lines (flagLine "comp-lzo" p.mUseLzo)] ++ tlsAuthParts p ++ [.lines (addressLines p)] ++ routeParts p ++
    dnsParts p ++
    [.lines (closing device configForOvpn3 p serverChecks)]

/-! ### The text of the parts -/

private theorem flatMap_text_lines (text : Text) : [ConfigPart.lines text].flatMap ConfigPart.text = text := by
  simp [ConfigPart.text]

private theorem credentialParts_text (p : VpnProfile) :
    credentials device configForOvpn3 p =
      (credentialParts device configForOvpn3 p).map fun parts => parts.flatMap ConfigPart.text := by
  unfold credentials credentialParts
  cases p.mAuthenticationType <;> cases configForOvpn3 <;> cases keystore device p <;> simp [ConfigPart.text]

private theorem tlsAuthParts_text (p : VpnProfile) : tlsAuth p = (tlsAuthParts p).flatMap ConfigPart.text := by
  unfold tlsAuth tlsAuthParts tlsAuthEntry
  cases p.mUseTLSAuth with
  | false => rfl
  | true =>
    simp only [if_true, List.flatMap_cons, List.flatMap_nil, ConfigPart.text, List.append_nil]
    split
    · rfl
    · split <;> rfl

private theorem routeParts_text (p : VpnProfile) : routeLines p = (routeParts p).flatMap ConfigPart.text := by
  have each (gateway : Gateway) (networks : List Text) :
      (networks.map (ConfigPart.route gateway)).flatMap ConfigPart.text =
        networks.flatMap fun network => optionLine "route" (network ++ [' '] ++ gateway.name) := by
    rw [List.flatMap_map]
    rfl
  unfold routeLines routeParts
  rw [List.flatMap_append, List.flatMap_append, flatMap_text_lines, flatMap_text_lines]
  cases p.mUseDefaultRoute with
  | true => rfl
  | false =>
    simp only [Bool.false_eq_true, if_false, List.flatMap_append, each, List.append_assoc]
    rfl

private theorem flatMap_nonempty (line : Text → Text) (first second : Text) :
    ([first, second].filter (· ≠ [])).flatMap line =
      (if first = [] then [] else line first) ++ if second = [] then [] else line second := by
  by_cases noFirst : first = [] <;> by_cases noSecond : second = [] <;> simp [noFirst, noSecond]

private theorem dnsParts_text (p : VpnProfile) : dnsLines p = (dnsParts p).flatMap ConfigPart.text := by
  unfold dnsLines dnsParts
  split
  · rw [List.flatMap_append, flatMap_text_lines, List.flatMap_map, flatMap_nonempty]
    rfl
  · rfl

/-- The exported config is the text of its parts. -/
theorem getConfigFile_parts (p : VpnProfile) :
    getConfigFile device configForOvpn3 p =
      (configParts device configForOvpn3 p).map fun parts => parts.flatMap ConfigPart.text := by
  have crl : ((if isEmpty p.mCrlFilename then [] else [ConfigPart.file "crl-verify".toList p.mCrlFilename]) :
      List ConfigPart).flatMap ConfigPart.text =
        if isEmpty p.mCrlFilename then [] else insertFileData "crl-verify".toList p.mCrlFilename := by
    split
    · rfl
    · simp [ConfigPart.text]
  unfold getConfigFile settings configParts
  rw [credentialParts_text]
  cases credentialParts device configForOvpn3 p with
  | none => rfl
  | some credentials =>
    cases serverChecks p with
    | none => rfl
    | some serverChecks =>
      simp only [Option.map_some, Option.bind_eq_bind, Option.bind_some, Option.pure_def, List.flatMap_append,
        flatMap_text_lines, crl, ← tlsAuthParts_text, ← routeParts_text, ← dnsParts_text, closing, List.append_assoc]

/-! ### What the parts name -/

section Named

variable {device configForOvpn3} {p : VpnProfile} {parts : List ConfigPart}

def Unnamed (parts : List ConfigPart) : Prop :=
  ∀ part ∈ parts, (∃ text, part = .lines text) ∨ ∃ cfgentry filedata, part = .file cfgentry filedata

private theorem unnamed_nil : Unnamed [] := List.forall_mem_nil _

private theorem unnamed_lines (text : Text) (unnamed : Unnamed parts) : Unnamed (.lines text :: parts) :=
  List.forall_mem_cons.mpr ⟨Or.inl ⟨text, rfl⟩, unnamed⟩

private theorem unnamed_file (cfgentry : Text) (filedata : Option Text) (unnamed : Unnamed parts) :
    Unnamed (.file cfgentry filedata :: parts) :=
  List.forall_mem_cons.mpr ⟨Or.inr ⟨cfgentry, filedata, rfl⟩, unnamed⟩

private theorem Unnamed.filterMap {β : Type} {observe : ConfigPart → Option β}
    (lines : ∀ text, observe (.lines text) = none)
    (file : ∀ cfgentry filedata, observe (.file cfgentry filedata) = none) (unnamed : Unnamed parts) :
    parts.filterMap observe = [] := by
  refine List.filterMap_eq_nil_iff.mpr fun part member => ?_
  rcases unnamed part member with ⟨text, rfl⟩ | ⟨cfgentry, filedata, rfl⟩
  · exact lines text
  · exact file cfgentry filedata

private theorem credentialParts_unnamed (given : credentialParts device configForOvpn3 p = some parts) :
    Unnamed parts := by
  unfold credentialParts at given
  cases type : p.mAuthenticationType <;> rw [type] at given <;> cases configForOvpn3 <;>
    simp only [Option.map_map, Option.map_eq_some_iff, Option.some.injEq, Bool.false_eq_true, if_false,
      if_true] at given
  all_goals first
    | obtain ⟨_, rfl, rfl⟩ := given
    | obtain ⟨_, -, rfl⟩ := given
  all_goals
    repeat' first
      | exact unnamed_nil
      | refine unnamed_lines _ ?_
      | refine unnamed_file _ _ ?_

/-- Only the routes and the name servers say something about a network. -/
theorem configParts_filterMap {β : Type} {observe : ConfigPart → Option β}
    (lines : ∀ text, observe (.lines text) = none)
    (file : ∀ cfgentry filedata, observe (.file cfgentry filedata) = none)
    (exported : configParts device configForOvpn3 p = some parts) :
    parts.filterMap observe = (routeParts p).filterMap observe ++ (dnsParts p).filterMap observe := by
  obtain ⟨credentials, given, exported⟩ := Option.bind_eq_some_iff.mp exported
  obtain ⟨serverChecks, -, exported⟩ := Option.bind_eq_some_iff.mp exported
  cases exported
  have text (text : Text) : [ConfigPart.lines text].filterMap observe = [] :=
    (unnamed_lines text unnamed_nil).filterMap lines file
  have keys : credentials.filterMap observe = [] := (credentialParts_unnamed given).filterMap lines file
  have crl : Unnamed
      (if isEmpty p.mCrlFilename then [] else [ConfigPart.file "crl-verify".toList p.mCrlFilename]) := by
    split
    · exact unnamed_nil
    · exact unnamed_file _ _ unnamed_nil
  have tls : Unnamed (tlsAuthParts p) := by
    unfold tlsAuthParts
    split
    · exact unnamed_file _ _ (unnamed_lines _ unnamed_nil)
    · exact unnamed_nil
  simp only [List.filterMap_append, text, keys, crl.filterMap lines file, tls.filterMap lines file, List.nil_append,
    List.append_nil]

private theorem networks_append (gateway : Gateway) (first second : List ConfigPart) :
    networks gateway (first ++ second) = networks gateway first ++ networks gateway second :=
  List.filterMap_append

private theorem networks_map (gateway through : Gateway) (routes : List Text) :
    networks gateway (routes.map (.route through)) = if through = gateway then routes else [] := by
  unfold networks
  rw [List.filterMap_map]
  split
  next same => simp [same]
  next other => simp [other]

private theorem networks_nameServers (gateway : Gateway) (addresses : List Text) :
    networks gateway (addresses.map .nameServer) = [] := by
  refine List.filterMap_eq_nil_iff.mpr fun part member => ?_
  obtain ⟨_, -, rfl⟩ := List.mem_map.mp member
  rfl

private theorem nameServers_map (addresses : List Text) : nameServers (addresses.map .nameServer) = addresses := by
  unfold nameServers
  rw [List.filterMap_map]
  simp

theorem configParts_networks (exported : configParts device configForOvpn3 p = some parts) (gateway : Gateway) :
    networks gateway parts =
      if p.mUseDefaultRoute then if gateway = .vpn_gateway then [defaultNetwork] else []
      else getCustomRoutes (if gateway = .vpn_gateway then p.mCustomRoutes else p.mExcludedRoutes) := by
  have servers : networks gateway (dnsParts p) = [] := by
    unfold dnsParts
    split
    · rw [networks_append, networks_nameServers]
      rfl
    · rfl
  have all : networks gateway parts = networks gateway (routeParts p) ++ networks gateway (dnsParts p) :=
    configParts_filterMap (fun _ => rfl) (fun _ _ => rfl) exported
  have silent (text : Text) : networks gateway [.lines text] = [] := rfl
  rw [all, servers, List.append_nil, routeParts]
  simp only [networks_append, silent, List.nil_append, List.append_nil]
  cases p.mUseDefaultRoute <;> cases gateway <;> simp only [networks_append, networks_map, if_true, if_false,
    Bool.false_eq_true, reduceCtorEq, List.nil_append, List.append_nil] <;> rfl

theorem configParts_nameServers (exported : configParts device configForOvpn3 p = some parts) :
    nameServers parts =
      if p.mOverrideDNS ∨ ¬ p.mUsePull then [p.mDNS1, p.mDNS2].filter (· ≠ []) else [] := by
  have all : nameServers parts = nameServers (routeParts p) ++ nameServers (dnsParts p) :=
    configParts_filterMap (fun _ => rfl) (fun _ _ => rfl) exported
  have routes : nameServers (routeParts p) = [] := by
    refine List.filterMap_eq_nil_iff.mpr fun part member => ?_
    unfold routeParts at member
    cases part with
    | nameServer address =>
      exfalso
      revert member
      cases p.mUseDefaultRoute <;> simp
    | _ => rfl
  rw [all, routes, List.nil_append, dnsParts]
  split
  · exact (List.filterMap_append).trans (by rw [← nameServers, nameServers_map]; exact List.append_nil _)
  · rfl

end Named

end Export

end VpnProfile

end RRoadVpn
