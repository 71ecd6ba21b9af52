import RRoadVpn.VpnProfile

/-! `VpnProfile.checkProfile`, the check before a profile is started. -/

namespace RRoadVpn

/-- The texts that `checkProfile` returns, by the names of the resources. -/
inductive ProfileCheck where
  | no_keystore_cert_selected
  | no_ca_cert_selected
  | deprecated_tls_remote
  | ipv4_format_error
  | custom_route_format_error
  | missing_tlsauth
  | missing_certificates
  | missing_ca_certificate
  | remote_no_server_selected
  | openvpn3_nostatickeys
  | openvpn3_pkcs12
  | openvpn3_socksproxy
  | error_orbot_and_proxy_options
  | no_orbotfound
  | no_error_found
  deriving DecidableEq, Repr

namespace VpnProfile
open JavaText (Text)

def usesKeystore (p : VpnProfile) : Bool :=
  match p.mAuthenticationType with
  | .KEYSTORE | .USERPASS_KEYSTORE | .EXTERNAL_APP => true
  | _ => false

def usesCertificates (p : VpnProfile) : Bool :=
  match p.mAuthenticationType with
  | .CERTIFICATES | .USERPASS_CERTIFICATES => true
  | _ => false

def usesPKCS12 (p : VpnProfile) : Bool :=
  match p.mAuthenticationType with
  | .PKCS12 | .USERPASS_PKCS12 => true
  | _ => false

def noRoutes (routes : Option Text) : Bool := !isEmpty routes && (getCustomRoutes routes).isEmpty

def usesOrbot (p : VpnProfile) : Bool := p.mConnections.any (·.mProxyType = .ORBOT)

/-- `checkTorReceier` is what `OrbotHelper` says about the device. -/
def checkProfile (useOpenVPN3 checkTorReceier : Bool) (p : VpnProfile) : ProfileCheck :=
  if p.usesKeystore ∧ p.mAlias = none then .no_keystore_cert_selected
  else if p.usesCertificates ∧ isEmpty p.mCaFilename then .no_ca_cert_selected
  else if p.mCheckRemoteCN ∧ p.mX509AuthType = .TLSREMOTE then .deprecated_tls_remote
  else if (¬ p.mUsePull ∨ p.mAuthenticationType = .STATICKEYS) ∧ p.mIPv4Address.bind cidrToIPAndNetmask = none then
    .ipv4_format_error
  else if ¬ p.mUseDefaultRoute ∧ noRoutes p.mCustomRoutes then .custom_route_format_error
  else if ¬ p.mUseDefaultRoute ∧ noRoutes p.mExcludedRoutes then .custom_route_format_error
  else if p.mUseTLSAuth ∧ isEmpty p.mTLSAuthFilename then .missing_tlsauth
  else if p.usesCertificates ∧ (isEmpty p.mClientCertFilename ∨
    isEmpty p.mClientKeyFilename) then .missing_certificates
  else if p.usesCertificates ∧ isEmpty p.mCaFilename then .missing_ca_certificate
  else if ¬ p.mConnections.any Connection.mEnabled then .remote_no_server_selected
  else if useOpenVPN3 ∧ p.mAuthenticationType = .STATICKEYS then .openvpn3_nostatickeys
  else if useOpenVPN3 ∧ p.usesPKCS12 then .openvpn3_pkcs12
  else if useOpenVPN3 ∧ p.mConnections.any (fun conn => conn.mProxyType = .ORBOT ∨ conn.mProxyType = .SOCKS5) then
    .openvpn3_socksproxy
  else if p.usesOrbot ∧ p.usesExtraProxyOptions then .error_orbot_and_proxy_options
  else if p.usesOrbot ∧ ¬ checkTorReceier then .no_orbotfound
  else .no_error_found

end VpnProfile

end RRoadVpn
