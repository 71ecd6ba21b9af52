import Mathlib.Data.List.Infix
import RRoadVpn.ConnectionConfig
import RRoadVpn.InlineFile
import RRoadVpn.JavaText
import RRoadVpn.TunService

/-! `VpnProfile.getConfigFile` for OpenVPN 2.4. Fields with a default that is not null are
not null; passwords, which are not exported, and the list of apps are left out. -/

namespace RRoadVpn
open JavaText (Text)

inductive AuthenticationType where
  | CERTIFICATES
  | PKCS12
  | KEYSTORE
  | USERPASS
  | STATICKEYS
  | USERPASS_CERTIFICATES
  | USERPASS_PKCS12
  | USERPASS_KEYSTORE
  | EXTERNAL_APP
  deriving DecidableEq, Repr

inductive X509AuthType where
  | TLSREMOTE
  | TLSREMOTE_COMPAT_NOREMAPPING
  | TLSREMOTE_DN
  | TLSREMOTE_RDN
  | TLSREMOTE_RDN_PREFIX
  deriving DecidableEq, Repr

inductive AuthRetry where
  | NONE_FORGET
  | NONE_KEEP
  | NOINTERACT
  | INTERACT
  deriving DecidableEq, Repr

def DEFAULT_DNS1 : Text := "8.8.8.8".toList

def DEFAULT_DNS2 : Text := "8.8.4.4".toList

structure VpnProfile where
  mName : Text := []
  mServerName : Text := "openvpn.example.com".toList
  mAuthenticationType : AuthenticationType := .KEYSTORE
  mAlias : Option Text := none
  mUsername : Option Text := some []
  mPassword : Text := []
  mCaFilename : Option Text := none
  mClientCertFilename : Option Text := none
  mClientKeyFilename : Option Text := none
  mPKCS12Filename : Option Text := none
  mUseTLSAuth : Bool := false
  mTLSAuthFilename : Option Text := none
  mTLSAuthDirection : Text := []
  mCrlFilename : Option Text := none
  mAuthRetry : AuthRetry := .NONE_FORGET
  mUseLzo : Bool := true
  mUsePull : Bool := true
  mRoutenopull : Bool := false
  mIPv4Address : Option Text := none
  mIPv6Address : Option Text := none
  mUseDefaultRoute : Bool := true
  mUseDefaultRoutev6 : Bool := true
  mCustomRoutes : Option Text := none
  mCustomRoutesv6 : Text := []
  mExcludedRoutes : Option Text := none
  mAllowLocalLAN : Bool := false
  mOverrideDNS : Bool := false
  mDNS1 : Text := DEFAULT_DNS1
  mDNS2 : Text := DEFAULT_DNS2
  mSearchDomain : Text := "rroadvpn.net".toList
  mMssFix : Int := 0
  mTunMtu : Int := 0
  mNobind : Bool := false
  mCheckRemoteCN : Bool := true
  mRemoteCN : Text := []
  mX509AuthType : X509AuthType := .TLSREMOTE_RDN
  mx509UsernameField : Option Text := none
  mExpectTLSCert : Bool := false
  mVerb : Text := ['1']
  mCipher : Text := []
  mAuth : Text := []
  mUseRandomHostname : Bool := false
  mUseFloat : Bool := false
  mPersistTun : Bool := false
  mPushPeerInfo : Bool := false
  mConnectRetry : Text := ['2']
  mConnectRetryMax : Text := ['-', '1']
  mConnectRetryMaxTime : Text := "300".toList
  mRemoteRandom : Bool := false
  mConnections : List Connection := []
  mUseCustomConfig : Bool := false
  mCustomConfigOptions : Text := []

/-- `getExternalCertificates`; the first text is null when there is no CA certificate. -/
structure ExternalCertificates where
  ca : Option Text
  extra : Option Text
  user : Text

/-- What `getConfigFile` asks the system for. -/
structure Device where
  cacheDir : Text
  versionEnvString : Text
  platformVersionEnvString : Text
  sdkInt : Nat
  externalCertificates : Option ExternalCertificates
  keychain_access : Text
  jelly_keystore_alphanumeric_bug : Text
  usesystemproxy : Bool

namespace VpnProfile

/-- The settings that `clearDefaults` resets. -/
def clearDefaults (p : VpnProfile) : VpnProfile :=
  { p with
    mServerName := "unknown".toList
    mUsePull := false
    mUseLzo := false
    mUseDefaultRoute := false
    mUseDefaultRoutev6 := false
    mExpectTLSCert := false
    mCheckRemoteCN := false
    mPersistTun := false
    mAllowLocalLAN := true
    mPushPeerInfo := false
    mMssFix := 0 }

/-- An option, its argument as it is, and the end of the line. -/
def optionLine (option : String) (argument : Text) : Text := option.toList ++ [' '] ++ argument ++ ['\n']

def flagLine (option : String) (flag : Bool) : Text := if flag then option.toList ++ ['\n'] else []

/-! ### Routes -/

def cidrToIPAndNetmask (route : Text) : Option Text :=
  let parts := JavaText.split '/' route
  let parts := if parts.length = 1 then JavaText.split '/' (route ++ "/32".toList) else parts
  match parts with
  | [address, length] =>
    match JavaText.parseInt length with
    | none => none
    | some len =>
      if len < 0 ∨ len > 32 then none
      else some (address ++ [' ', ' '] ++ (dotted ((0xffffffff <<< (32 - len.toNat)) % 2 ^ 32)).toList)
  | _ => none

/-- The routes in a list with blanks or line breaks between them. -/
def splitRoutes (routes : Text) : List Text :=
  (routes.splitOnP fun c => c == '\n' || c == ' ' || c == '\t').filter (· ≠ [])

/-- The list of `getCustomRoutes` ends before the first network that is no CIDR address. -/
def cidrRoutes : List Text → List Text
  | [] => []
  | route :: routes =>
    match cidrToIPAndNetmask route with
    | none => []
    | some cidrroute => cidrroute :: cidrRoutes routes

def getCustomRoutes (routes : Option Text) : List Text :=
  match routes with
  | none => []
  | some routes => cidrRoutes (splitRoutes routes)

def getCustomRoutesv6 (routes : Text) : List Text := splitRoutes routes

/-- The IPv6 default route stands before the IPv4 routes, other IPv6 routes behind them. -/
def routeLines (p : VpnProfile) : Text :=
  flagLine "route-ipv6 ::/0" p.mUseDefaultRoutev6 ++
    (if p.mUseDefaultRoute then "route 0.0.0.0 0.0.0.0 vpn_gateway\n".toList
    else
      (getCustomRoutes p.mCustomRoutes).flatMap (fun route => optionLine "route" (route ++ " vpn_gateway".toList)) ++
        (getCustomRoutes p.mExcludedRoutes).flatMap fun route => optionLine "route" (route ++ " net_gateway".toList)) ++
    if p.mUseDefaultRoutev6 then [] else (getCustomRoutesv6 p.mCustomRoutesv6).flatMap (optionLine "route-ipv6")

/-! ### Parts of the config -/

def isUserPWAuth (p : VpnProfile) : Bool :=
  match p.mAuthenticationType with
  | .USERPASS | .USERPASS_CERTIFICATES | .USERPASS_KEYSTORE | .USERPASS_PKCS12 => true
  | _ => false

def isEmpty (s : Option Text) : Bool := s.getD [] == []

section Export

variable (device : Device) (configForOvpn3 : Bool)

def header (p : VpnProfile) : Text :=
  (if configForOvpn3 then "# Config for OpenVPN 3 C++\n".toList
  else
    "# Config for OpenVPN 2.x\n# Enables connection to GUI\nmanagement ".toList ++ device.cacheDir ++
      "/mgmtsocket unix\nmanagement-client\nmanagement-query-passwords\nmanagement-hold\n\n".toList ++
      optionLine "setenv" ("IV_GUI_VER ".toList ++ escape device.versionEnvString ++ [' ']) ++
      optionLine "setenv" ("IV_PLAT_VER ".toList ++ escape device.platformVersionEnvString) ++
      "machine-readable-output\nallow-recursive-routing\nifconfig-nowarn\n".toList) ++
    (if p.mUsePull then if p.mAuthenticationType = .STATICKEYS then "pull\n".toList else "client\n".toList
    else if p.mAuthenticationType = .STATICKEYS then [] else "tls-client\n".toList) ++
    "verb 4\n".toList ++
    (if p.mConnectRetryMax = "-1".toList then [] else optionLine "connect-retry-max" p.mConnectRetryMax) ++
    optionLine "connect-retry" ((if p.mConnectRetry = [] then ['2'] else p.mConnectRetry) ++ [' '] ++
      if p.mConnectRetryMaxTime = [] then "300".toList else p.mConnectRetryMaxTime) ++
    "resolv-retry 60\ndev tun\n".toList

def keystore (p : VpnProfile) : Option Text :=
  match device.externalCertificates with
  | some ks =>
    some ("<ca>\n".toList ++ ks.ca.getD "null".toList ++ "\n</ca>\n".toList ++
      (match ks.extra with
      | some extra => "<extra-certs>\n".toList ++ extra ++ "\n</extra-certs>\n".toList
      | none => []) ++
      "<cert>\n".toList ++ ks.user ++ "\n</cert>\nmanagement-external-key\n".toList)
  | none =>
    -- Android 4.1
    if device.sdkInt = 16 then
      match p.mAlias with
      | none => none
      | some name =>
        some (device.keychain_access ++ ['\n'] ++
          if name.length = 1 ∧ name.all Char.isAlphanum then [] else device.jelly_keystore_alphanumeric_bug ++ ['\n'])
    else some (device.keychain_access ++ ['\n'])

/-- The certificates and keys; none where the alias is null and looked at. -/
def credentials (p : VpnProfile) : Option Text :=
  let certificates :=
    insertFileData "ca".toList p.mCaFilename ++ insertFileData "key".toList p.mClientKeyFilename ++
      insertFileData "cert".toList p.mClientCertFilename
  let pkcs12 := insertFileData "pkcs12".toList p.mPKCS12Filename
  let external :=
    if configForOvpn3 then some []
    else (keystore device p).map ("### From Keystore/ext auth app ####\n".toList ++ ·)
  let authUserPass := "auth-user-pass\n".toList
  match p.mAuthenticationType with
  | .USERPASS_CERTIFICATES => some (authUserPass ++ certificates)
  | .CERTIFICATES => some certificates
  | .USERPASS_PKCS12 => some (authUserPass ++ pkcs12)
  | .PKCS12 => some pkcs12
  | .USERPASS_KEYSTORE => external.map (authUserPass ++ ·)
  | .KEYSTORE | .EXTERNAL_APP => external
  | .USERPASS =>
    some (authUserPass ++ insertFileData "ca".toList p.mCaFilename ++ flagLine "client-cert-not-required" configForOvpn3)
  | .STATICKEYS => some []

def tlsAuth (p : VpnProfile) : Text :=
  let useTlsCrypt := p.mTLSAuthDirection = "tls-crypt".toList
  if p.mUseTLSAuth then
    (if p.mAuthenticationType = .STATICKEYS then insertFileData "secret".toList p.mTLSAuthFilename
    else if useTlsCrypt then insertFileData "tls-crypt".toList p.mTLSAuthFilename
    else insertFileData "tls-auth".toList p.mTLSAuthFilename) ++
      if p.mTLSAuthDirection ≠ [] ∧ ¬ useTlsCrypt then optionLine "key-direction" p.mTLSAuthDirection else []
  else []

def addressLines (p : VpnProfile) : Text :=
  if p.mUsePull then flagLine "route-nopull" p.mRoutenopull
  else
    (if isEmpty p.mIPv4Address then []
    else optionLine "ifconfig" ((cidrToIPAndNetmask (p.mIPv4Address.getD [])).getD "null".toList)) ++
      if isEmpty p.mIPv6Address then []
      else
        let address := p.mIPv6Address.getD []
        optionLine "ifconfig-ipv6" (address ++ [' '] ++ address.takeWhile (· ≠ '/'))

def dnsLines (p : VpnProfile) : Text :=
  if p.mOverrideDNS ∨ ¬ p.mUsePull then
    (if p.mDNS1 = [] then [] else optionLine "dhcp-option" ("DNS ".toList ++ p.mDNS1)) ++
      (if p.mDNS2 = [] then [] else optionLine "dhcp-option" ("DNS ".toList ++ p.mDNS2)) ++
      if p.mSearchDomain = [] then [] else optionLine "dhcp-option" ("DOMAIN ".toList ++ p.mSearchDomain)
  else []

def mtuLines (p : VpnProfile) : Text :=
  (if p.mMssFix = 0 then []
  else if p.mMssFix = 1450 then "mssfix\n".toList
  else optionLine "mssfix" (toString p.mMssFix).toList) ++
    if p.mTunMtu ≥ 48 ∧ p.mTunMtu ≠ 1500 then optionLine "tun-mtu" (toString p.mTunMtu).toList else []

/-- The check of the server's name; none where there is no connection to take it from. -/
def remoteCN (p : VpnProfile) : Option Text :=
  let cn := escape p.mRemoteCN
  if p.mRemoteCN = [] then
    p.mConnections.head?.map fun conn => optionLine "verify-x509-name" (escape conn.mServerName.toList ++ " name".toList)
  else
    some (match p.mX509AuthType with
    | .TLSREMOTE_COMPAT_NOREMAPPING => "compat-names no-remapping\n".toList ++ optionLine "tls-remote" cn
    | .TLSREMOTE => optionLine "tls-remote" cn
    | .TLSREMOTE_RDN => optionLine "verify-x509-name" (cn ++ " name".toList)
    | .TLSREMOTE_RDN_PREFIX => optionLine "verify-x509-name" (cn ++ " name-prefix".toList)
    | .TLSREMOTE_DN => optionLine "verify-x509-name" cn)

def serverChecks (p : VpnProfile) : Option Text :=
  let expected := flagLine "remote-cert-tls server" p.mExpectTLSCert
  if p.mAuthenticationType = .STATICKEYS then some []
  else if p.mCheckRemoteCN then
    (remoteCN p).map fun remoteCN =>
      remoteCN ++
        (if isEmpty p.mx509UsernameField then []
        else optionLine "x509-username-field" (escape (p.mx509UsernameField.getD []))) ++
        expected
  else some expected

def usesExtraProxyOptions (p : VpnProfile) : Bool :=
  (p.mUseCustomConfig && decide ("http-proxy-option ".toList <:+: p.mCustomConfigOptions)) ||
    p.mConnections.any Connection.usesExtraProxyOptions

/-- Everything between the plain remotes and the connection blocks. -/
def settings (p : VpnProfile) : Option Text := do
  let credentials ← credentials device configForOvpn3 p
  let serverChecks ← serverChecks p
  return credentials ++
      flagLine "auth-retry nointeract" (p.isUserPWAuth && p.mAuthRetry = .NOINTERACT) ++
      (if isEmpty p.mCrlFilename then [] else insertFileData "crl-verify".toList p.mCrlFilename) ++
      flagLine "comp-lzo" p.mUseLzo ++
      tlsAuth p ++
      addressLines p ++
      routeLines p ++
      dnsLines p ++
      mtuLines p ++
      flagLine "nobind" p.mNobind ++
      serverChecks ++
      (if p.mCipher = [] then [] else optionLine "cipher" p.mCipher) ++
      (if p.mAuth = [] then [] else optionLine "auth" p.mAuth) ++
      flagLine "#my favorite options :)\nremote-random-hostname" p.mUseRandomHostname ++
      flagLine "float" p.mUseFloat ++
      flagLine "persist-tun\n# persist-tun also enables pre resolving to avoid DNS resolve problem\npreresolve" p.mPersistTun ++
      flagLine "push-peer-info" p.mPushPeerInfo ++
      flagLine "# Use system proxy setting\nmanagement-query-proxy"
        (device.usesystemproxy && !configForOvpn3 && !p.usesExtraProxyOptions) ++
      if p.mUseCustomConfig then
        "# Custom configuration options\n# You are on your on own here :)\n".toList ++ p.mCustomConfigOptions ++ ['\n']
      else []

/-- None where it throws. -/
def getConfigFile (p : VpnProfile) : Option Text :=
  (settings device configForOvpn3 p).map fun settings =>
    header device configForOvpn3 p ++ (remotes p.mRemoteRandom configForOvpn3 p.mConnections).toList ++ settings ++
      (connectionBlocks configForOvpn3 p.mConnections).toList

end Export

end VpnProfile

end RRoadVpn
