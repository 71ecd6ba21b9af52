import Mathlib.Data.List.Forall2
import RRoadVpn.CheckProfile
import RRoadVpn.ConfigParts
import RRoadVpn.Library.Fields
import RRoadVpn.Proofs.EscapeRoundTrip
import RRoadVpn.Proofs.TunTexts

/-! Profiles that pass the check: which of them are exported with all their files and
routes. -/

namespace RRoadVpn.Proofs.AcceptedProfiles
open RRoadVpn.VpnProfile Library EscapeRoundTrip
open JavaText (Text)

/-! ### The check -/

def OwnCredentials (p : VpnProfile) : Prop :=
  p.mAuthenticationType ∈ [.USERPASS, .CERTIFICATES, .USERPASS_CERTIFICATES, .STATICKEYS]

instance (p : VpnProfile) : Decidable (OwnCredentials p) := inferInstanceAs (Decidable (_ ∈ _))

/-- What is true of a profile with no error. -/
structure Accepted (p : VpnProfile) : Prop where
  keystoreAlias : p.usesKeystore → p.mAlias ≠ none
  remoteCN : p.mCheckRemoteCN → p.mX509AuthType ≠ .TLSREMOTE
  address : ¬ p.mUsePull ∨ p.mAuthenticationType = .STATICKEYS → (p.mIPv4Address.bind cidrToIPAndNetmask).isSome
  custom : ¬ p.mUseDefaultRoute → ¬ noRoutes p.mCustomRoutes
  excluded : ¬ p.mUseDefaultRoute → ¬ noRoutes p.mExcludedRoutes
  tlsAuth : p.mUseTLSAuth → ¬ isEmpty p.mTLSAuthFilename
  ca : p.usesCertificates → ¬ isEmpty p.mCaFilename
  cert : p.usesCertificates → ¬ isEmpty p.mClientCertFilename
  key : p.usesCertificates → ¬ isEmpty p.mClientKeyFilename
  remote : ∃ conn ∈ p.mConnections, conn.mEnabled

private theorem check_passed {c : Prop} [Decidable c] {error others : ProfileCheck} (found : error ≠ .no_error_found)
    (checked : (if c then error else others) = .no_error_found) :
    ¬ c ∧ others = .no_error_found := by
  split at checked
  · exact absurd checked found
  next passed => exact ⟨passed, checked⟩

private theorem checkProfile_accepted {useOpenVPN3 checkTorReceier : Bool} {p : VpnProfile}
    (checked : checkProfile useOpenVPN3 checkTorReceier p = .no_error_found) : Accepted p := by
  obtain ⟨keystore, checked⟩ := check_passed (by decide) checked
  obtain ⟨ca, checked⟩ := check_passed (by decide) checked
  obtain ⟨remoteCN, checked⟩ := check_passed (by decide) checked
  obtain ⟨address, checked⟩ := check_passed (by decide) checked
  obtain ⟨custom, checked⟩ := check_passed (by decide) checked
  obtain ⟨excluded, checked⟩ := check_passed (by decide) checked
  obtain ⟨tlsAuth, checked⟩ := check_passed (by decide) checked
  obtain ⟨certificates, checked⟩ := check_passed (by decide) checked
  obtain ⟨-, checked⟩ := check_passed (by decide) checked
  obtain ⟨remote, -⟩ := check_passed (by decide) checked
  simp only [not_and, not_or] at *
  exact
    { keystoreAlias := keystore
      remoteCN := remoteCN
      address := fun uses => Option.ne_none_iff_isSome.mp (address uses)
      custom := custom
      excluded := excluded
      tlsAuth := tlsAuth
      ca := ca
      cert := fun uses => (certificates uses).1
      key := fun uses => (certificates uses).2
      remote := List.any_eq_true.mp (not_not.mp remote) }

/-! ### Files -/

/-- What is written for a file that the profile does not have. -/
def placeholder (cfgentry : Text) : Text := cfgentry ++ [' '] ++ "file missing in config profile".toList ++ ['\n']

private theorem escape_not_placeholder (data : Text) : escape data ≠ "file missing in config profile".toList := by
  have start : "file missing in config profile".toList = 'f' :: "ile missing in config profile".toList := rfl
  have blank : ' ' ∈ "file missing in config profile".toList := by decide
  intro same
  by_cases bare : Bare data
  · rw [escape_bare bare] at same
    subst same
    exact (bare.2 ' ' blank).2.1 rfl
  · rw [escape_quoted bare, start, List.append_assoc, List.singleton_append] at same
    exact absurd (List.cons.inj same).1 (by decide)

private theorem file_placeholder_iff {cfgentry : Text} {filedata : Option Text} (plain : cfgentry.head? ≠ some '<') :
    (ConfigPart.file cfgentry filedata).text = placeholder cfgentry ↔ filedata = none := by
  cases filedata with
  | none => exact iff_of_true rfl rfl
  | some data =>
    refine iff_of_false (fun same => ?_) (by simp)
    simp only [ConfigPart.text, insertFileData, placeholder] at same
    split at same
    · have first := congrArg List.head? same
      cases cfgentry with
      | nil => exact absurd (Option.some.inj (first : some '<' = some ' ')) (by decide)
      | cons c rest => exact plain first.symm
    · simp only [List.append_assoc, List.append_cancel_left_eq, List.append_cancel_right_eq] at same
      exact escape_not_placeholder data same

def Present : ConfigPart → Prop
  | .file cfgentry filedata => (ConfigPart.file cfgentry filedata).text ≠ placeholder cfgentry
  | _ => True

private theorem present_file {cfgentry : Text} {filedata : Option Text} (plain : cfgentry.head? ≠ some '<') :
    Present (.file cfgentry filedata) ↔ filedata ≠ none := not_congr (file_placeholder_iff plain)

private theorem not_isEmpty {s : Option Text} (filled : ¬ isEmpty s) : s ≠ none := by
  rintro rfl
  exact filled rfl

private theorem routeParts_present (p : VpnProfile) : ∀ part ∈ routeParts p, Present part := by
  unfold routeParts
  simp only [List.forall_mem_append, List.forall_mem_singleton]
  refine ⟨⟨trivial, ?_⟩, trivial⟩
  split
  · exact List.forall_mem_singleton.mpr trivial
  · exact List.forall_mem_append.mpr
      ⟨List.forall_mem_map.mpr fun _ _ => trivial, List.forall_mem_map.mpr fun _ _ => trivial⟩

private theorem dnsParts_present (p : VpnProfile) : ∀ part ∈ dnsParts p, Present part := by
  unfold dnsParts
  split
  · exact List.forall_mem_append.mpr ⟨List.forall_mem_map.mpr fun _ _ => trivial,
      List.forall_mem_singleton.mpr trivial⟩
  · exact List.forall_mem_nil _

private theorem tlsAuthParts_present {p : VpnProfile} (accepted : Accepted p) :
    ∀ part ∈ tlsAuthParts p, Present part := by
  have plain : p.tlsAuthEntry.head? ≠ some '<' := by
    unfold tlsAuthEntry
    repeat' split
    all_goals decide
  unfold tlsAuthParts
  split
  next uses =>
    exact List.forall_mem_cons.mpr
      ⟨(present_file plain).mpr (not_isEmpty (accepted.tlsAuth uses)), List.forall_mem_singleton.mpr trivial⟩
  next => exact List.forall_mem_nil _

section Export

variable {device : Device} {p : VpnProfile} {parts credentials : List ConfigPart} {serverChecks : Text}

theorem configParts_present (accepted : Accepted p) (given : credentialParts device false p = some credentials)
    (exported : configParts device false p = some parts) :
    (∀ part ∈ parts, Present part) ↔ ∀ part ∈ credentials, Present part := by
  obtain ⟨_, same, exported⟩ := Option.bind_eq_some_iff.mp exported
  obtain ⟨serverChecks, -, exported⟩ := Option.bind_eq_some_iff.mp exported
  cases given.symm.trans same
  cases exported
  have text (text : Text) : (∀ part ∈ [ConfigPart.lines text], Present part) ↔ True :=
    iff_true_intro (List.forall_mem_singleton.mpr trivial)
  have crl : ∀ part ∈ (if isEmpty p.mCrlFilename then [] else [ConfigPart.file "crl-verify".toList p.mCrlFilename]),
      Present part := by
    split
    · exact List.forall_mem_nil _
    next filled => exact List.forall_mem_singleton.mpr ((present_file (by decide)).mpr (not_isEmpty filled))
  simp only [List.forall_mem_append, text, iff_true_intro crl, iff_true_intro (tlsAuthParts_present accepted),
    iff_true_intro (routeParts_present p), iff_true_intro (dnsParts_present p), true_and, and_true]

private theorem serverChecks_some (accepted : Accepted p) : ∃ text, VpnProfile.serverChecks p = some text := by
  obtain ⟨conn, member, -⟩ := accepted.remote
  obtain ⟨first, others, split⟩ := List.exists_cons_of_ne_nil (List.ne_nil_of_mem member)
  have named : ∃ text, remoteCN p = some text := by
    unfold remoteCN
    simp only
    split
    · rw [split]
      exact ⟨_, rfl⟩
    · exact ⟨_, rfl⟩
  obtain ⟨name, named⟩ := named
  unfold VpnProfile.serverChecks
  simp only
  split
  · exact ⟨_, rfl⟩
  · split
    · rw [named]
      exact ⟨_, rfl⟩
    · exact ⟨_, rfl⟩

theorem credentials_present (accepted : Accepted p)
    (auth : OwnCredentials p) :
    ∃ credentials, credentialParts device false p = some credentials ∧
      ((∀ part ∈ credentials, Present part) ↔ (p.mAuthenticationType = .USERPASS → p.mCaFilename ≠ none)) := by
  have ca : Present (.file "ca".toList p.mCaFilename) ↔ p.mCaFilename ≠ none := present_file (by decide)
  have key : Present (.file "key".toList p.mClientKeyFilename) ↔ p.mClientKeyFilename ≠ none :=
    present_file (by decide)
  have cert : Present (.file "cert".toList p.mClientCertFilename) ↔ p.mClientCertFilename ≠ none :=
    present_file (by decide)
  have certificates (uses : p.usesCertificates) : ∀ part ∈ [ConfigPart.file "ca".toList p.mCaFilename,
      .file "key".toList p.mClientKeyFilename, .file "cert".toList p.mClientCertFilename], Present part := by
    simp only [List.forall_mem_cons, ca, key, cert]
    exact ⟨not_isEmpty (accepted.ca uses), not_isEmpty (accepted.key uses), not_isEmpty (accepted.cert uses),
      List.forall_mem_nil _⟩
  simp only [OwnCredentials, List.mem_cons, List.not_mem_nil, or_false] at auth
  rcases auth with type | type | type | type
  · refine ⟨_, by unfold credentialParts; rw [type], ?_⟩
    simp only [List.forall_mem_cons, ca, type, forall_const]
    exact ⟨fun present => present.2.1, fun given => ⟨trivial, given, trivial, List.forall_mem_nil _⟩⟩
  · refine ⟨_, by unfold credentialParts; rw [type], ?_⟩
    exact iff_of_true (certificates (by rw [usesCertificates, type])) (by simp [type])
  · refine ⟨_, by unfold credentialParts; rw [type], ?_⟩
    exact iff_of_true (List.forall_mem_cons.mpr ⟨trivial, certificates (by rw [usesCertificates, type])⟩)
      (by simp [type])
  · refine ⟨_, by unfold credentialParts; rw [type], ?_⟩
    exact iff_of_true (List.forall_mem_nil _) (by simp [type])

end Export

/-! ### Routes -/

private theorem split_inside {separator c : Char} {s part : Text} (member : part ∈ JavaText.split separator s)
    (inside : c ∈ part) :
    c ∈ s := by
  unfold JavaText.split at member
  split at member
  · exact (splitOnP_inside ((List.rdropWhile_prefix _ _).subset member) c inside).1
  · rw [List.mem_singleton] at member
    rwa [← member]

/-- A network is on one line when the route is. -/
theorem cidrToIPAndNetmask_line {route network : Text} (read : cidrToIPAndNetmask route = some network)
    (line : '\n' ∉ route) : '\n' ∉ network := by
  have parts : ∀ part ∈ (if (JavaText.split '/' route).length = 1 then JavaText.split '/' (route ++ "/32".toList)
      else JavaText.split '/' route), '\n' ∉ part := by
    split
    · intro part member inside
      rcases List.mem_append.mp (split_inside member inside) with inside | inside
      · exact line inside
      · exact absurd inside (by decide)
    · exact fun part member inside => line (split_inside member inside)
  have mask (ip : Nat) : '\n' ∉ (dotted ip).toList := fun inside =>
    absurd (TunTexts.dotted_chars ip '\n' inside) (by decide)
  simp only [cidrToIPAndNetmask] at read
  split at read
  next address length same =>
    rw [same] at parts
    split at read
    · cases read
    next len =>
      split at read
      · cases read
      · cases read
        rw [List.append_assoc, List.mem_append, List.mem_append]
        rintro (inside | inside | inside)
        · exact parts address List.mem_cons_self inside
        · exact absurd inside (by decide)
        · exact mask _ inside
  next => cases read

private theorem splitRoutes_line {routes route : Text} (member : route ∈ splitRoutes routes) : '\n' ∉ route := by
  intro inside
  exact absurd ((fields_inside member).2 '\n' inside).2 (by decide)

/-- Every route of a list stands on a line of its own, in the order of the list. -/
def Emitted (routes : Option Text) (networks : List Text) : Prop :=
  List.Forall₂ (fun route network => cidrToIPAndNetmask route = some network ∧ '\n' ∉ network)
    (splitRoutes (routes.getD [])) networks

private theorem cidrRoutes_exact {routes : List Text} (lines : ∀ route ∈ routes, '\n' ∉ route) :
    List.Forall₂ (fun route network => cidrToIPAndNetmask route = some network ∧ '\n' ∉ network) routes
      (cidrRoutes routes) ↔ ∀ route ∈ routes, (cidrToIPAndNetmask route).isSome := by
  induction routes with
  | nil => exact iff_of_true List.Forall₂.nil (List.forall_mem_nil _)
  | cons route routes ih =>
    obtain ⟨line, lines⟩ := List.forall_mem_cons.mp lines
    rw [List.forall_mem_cons, ← ih lines, cidrRoutes]
    cases read : cidrToIPAndNetmask route with
    | none => simp
    | some network => simp [read, cidrToIPAndNetmask_line read line]

private theorem emitted_exact (routes : Option Text) :
    Emitted routes (getCustomRoutes routes) ↔
      ∀ route ∈ splitRoutes (routes.getD []), (cidrToIPAndNetmask route).isSome := by
  cases routes with
  | none => exact iff_of_true List.Forall₂.nil (List.forall_mem_nil _)
  | some routes => exact cidrRoutes_exact fun _ member => splitRoutes_line member

/-! ### The export -/

/-- The config has all files, and without the default route all routes. -/
structure Complete (p : VpnProfile) (text : Text) (parts : List ConfigPart) : Prop where
  text_eq : text = parts.flatMap ConfigPart.text
  files : ∀ part ∈ parts, Present part
  custom : ¬ p.mUseDefaultRoute → Emitted p.mCustomRoutes (ConfigPart.networks .vpn_gateway parts)
  excluded : ¬ p.mUseDefaultRoute → Emitted p.mExcludedRoutes (ConfigPart.networks .net_gateway parts)

def ExportsComplete (device : Device) (p : VpnProfile) : Prop :=
  ∃ text parts, getConfigFile device false p = some text ∧ configParts device false p = some parts ∧
    Complete p text parts

/-- A password comes with a CA certificate, and without the default route all routes are CIDR addresses. -/
def Provided (p : VpnProfile) : Prop :=
  (p.mAuthenticationType = .USERPASS → p.mCaFilename ≠ none) ∧
    (¬ p.mUseDefaultRoute → ∀ route ∈ splitRoutes (p.mCustomRoutes.getD []) ++
      splitRoutes (p.mExcludedRoutes.getD []),
      (cidrToIPAndNetmask route).isSome)

private theorem exportsComplete_iff {device : Device} {p : VpnProfile} (auth : OwnCredentials p)
    (accepted : Accepted p) :
    ExportsComplete device p ↔ Provided p := by
  obtain ⟨credentials, given, files⟩ := @credentials_present device p accepted auth
  obtain ⟨serverChecks, checks⟩ := serverChecks_some accepted
  have exported : ∃ parts, configParts device false p = some parts := by
    unfold configParts
    rw [given, checks]
    exact ⟨_, rfl⟩
  obtain ⟨parts, exported⟩ := exported
  have written : getConfigFile device false p = some (parts.flatMap ConfigPart.text) := by
    rw [getConfigFile_parts, exported]
    rfl
  have networks (gateway : Gateway) (own : ¬ p.mUseDefaultRoute) : ConfigPart.networks gateway parts =
      getCustomRoutes (if gateway = .vpn_gateway then p.mCustomRoutes else p.mExcludedRoutes) :=
    (configParts_networks exported gateway).trans (if_neg own)
  rw [Provided, ← files, ← configParts_present accepted given exported]
  constructor
  · rintro ⟨text, parts', -, same, complete⟩
    cases exported.symm.trans same
    refine ⟨complete.files, fun own => List.forall_mem_append.mpr ⟨?_, ?_⟩⟩
    · exact (emitted_exact _).mp (networks .vpn_gateway own ▸ complete.custom own)
    · exact (emitted_exact _).mp (networks .net_gateway own ▸ complete.excluded own)
  · rintro ⟨present, routes⟩
    refine ⟨_, parts, written, exported, rfl, present, fun own => ?_, fun own => ?_⟩
    · rw [networks .vpn_gateway own]
      exact (emitted_exact _).mpr (List.forall_mem_append.mp (routes own)).1
    · rw [networks .net_gateway own]
      exact (emitted_exact _).mpr (List.forall_mem_append.mp (routes own)).2

/-- The check looks for the CA certificate with certificates only, and of a list of routes at the first one only. -/
theorem accepted_profiles_exact (device : Device) (checkTorReceier : Bool) (p : VpnProfile) (auth : OwnCredentials p)
    (accepted : checkProfile false checkTorReceier p = .no_error_found) :
    ExportsComplete device p ↔ Provided p :=
  exportsComplete_iff auth (checkProfile_accepted accepted)

def emulator : Device where
  cacheDir := "/data/user/0/net.rroadvpn/cache".toList
  versionEnvString := "net.rroadvpn 1.0".toList
  platformVersionEnvString := "26 8.0.0 x86 google goldfish sdk".toList
  sdkInt := 26
  externalCertificates := none
  keychain_access := "The keychain cannot be read".toList
  jelly_keystore_alphanumeric_bug := "Android 4.1".toList
  usesystemproxy := true

def passwordProfile (mCaFilename : Option Text) (mCustomRoutes : Text) : VpnProfile :=
  { mAuthenticationType := .USERPASS, mCaFilename, mUseDefaultRoute := false, mCustomRoutes := some mCustomRoutes,
    mConnections := [{}] }

theorem accepted_profiles_exact_password :
    ExportsComplete emulator (passwordProfile (some "ca.pem".toList) "10.0.0.0/8 192.168.7.1".toList) := by
  refine (accepted_profiles_exact emulator false _ (by decide) (by decide +kernel)).mpr ⟨?_, ?_⟩
  · exact fun _ => by simp [passwordProfile]
  · exact fun _ => by decide +kernel

/-- A length that is too large, behind a route that is read. -/
theorem second_route_dropped :
    ¬ ∀ device checkTorReceier p, OwnCredentials p → checkProfile false checkTorReceier p = .no_error_found →
      ExportsComplete device p := by
  intro complete
  have accepted : checkProfile false false (passwordProfile (some "ca.pem".toList) "10.0.0.0/8 10.1.0.0/33".toList) =
      .no_error_found := by decide +kernel
  have provided := (exportsComplete_iff (by decide) (checkProfile_accepted accepted)).mp
    (complete emulator false _ (by decide) accepted)
  have dropped : ¬ ∀ route ∈ splitRoutes "10.0.0.0/8 10.1.0.0/33".toList ++ splitRoutes [],
      (cidrToIPAndNetmask route).isSome := by decide +kernel
  exact dropped (provided.2 (by simp [passwordProfile]))

end RRoadVpn.Proofs.AcceptedProfiles
