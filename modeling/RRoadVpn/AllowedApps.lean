import RRoadVpn.ConnectionConfig
import RRoadVpn.JavaText
import RRoadVpn.Library.Traversal

/-! The apps that `OpenVPNService` lets use the VPN, or keeps from it. -/

namespace RRoadVpn.AllowedApps
open Library
open JavaText (Text)

def ORBOT_PACKAGE_NAME : Text := "org.torproject.android".toList

/-- The fields of the profile for this. -/
structure Profile where
  mConnections : List Connection
  mAllowedAppsVpn : CountedSet Text
  mAllowedAppsVpnAreDisallowed : Bool

/-- The packages of the device, and the one of the app. -/
structure Packages where
  installed : Text → Bool
  packageName : Text

inductive LogLine where
  | profileUsesOrbot
  | orbotNotInstalled
  | app_no_longer_exists (pkg : Text)
  | no_allowed_app (packageName : Text)
  | shouldNotHappen
  | disallowed_vpn_apps_info (apps : Text)
  | allowed_vpn_apps_info (apps : Text)
  deriving DecidableEq, Repr

/-- The profile, what the builder was given, and the log. -/
structure State where
  profile : Profile
  allowed : List Text := []
  disallowed : List Text := []
  atLeastOneAllowedApp : Bool := false
  logged : List LogLine := []

namespace State

def log (line : LogLine) (s : State) : State := { s with logged := s.logged ++ [line] }

def forget (pkg : Text) (s : State) : State :=
  { s with profile.mAllowedAppsVpn := s.profile.mAllowedAppsVpn.remove pkg }.log (.app_no_longer_exists pkg)

end State

variable (packages : Packages)

def addPackage (profileUsesOrBot : Bool) (s : State) (pkg : Text) : State :=
  if s.profile.mAllowedAppsVpnAreDisallowed then
    if packages.installed pkg then { s with disallowed := s.disallowed ++ [pkg] } else s.forget pkg
  else if profileUsesOrBot && pkg == ORBOT_PACKAGE_NAME then s
  else if packages.installed pkg then { s with allowed := s.allowed ++ [pkg], atLeastOneAllowedApp := true }
  else s.forget pkg

def usesOrBot (profile : Profile) : Bool := profile.mConnections.any (·.mProxyType == .ORBOT)

def addOrbot (profileUsesOrBot : Bool) (s : State) : State :=
  let s := if profileUsesOrBot then s.log .profileUsesOrbot else s
  if s.profile.mAllowedAppsVpnAreDisallowed && profileUsesOrBot then
    if packages.installed ORBOT_PACKAGE_NAME then { s with disallowed := s.disallowed ++ [ORBOT_PACKAGE_NAME] }
    else s.log .orbotNotInstalled
  else s

def addOwn (s : State) : State :=
  let s :=
    if !s.profile.mAllowedAppsVpnAreDisallowed && !s.atLeastOneAllowedApp then
      let s := s.log (.no_allowed_app packages.packageName)
      if packages.installed packages.packageName then { s with allowed := s.allowed ++ [packages.packageName] }
      else s.log .shouldNotHappen
    else s
  let apps := ", ".toList.intercalate s.profile.mAllowedAppsVpn.elements
  s.log (if s.profile.mAllowedAppsVpnAreDisallowed then .disallowed_vpn_apps_info apps else .allowed_vpn_apps_info apps)

/-- None where the iterator throws `ConcurrentModificationException`. -/
def setAllowedVpnPackages (profile : Profile) : Option State := do
  let profileUsesOrBot := usesOrBot profile
  let s := addOrbot packages profileUsesOrBot { profile }
  let s ← traverse (·.profile.mAllowedAppsVpn.changes) (addPackage packages profileUsesOrBot)
    s.profile.mAllowedAppsVpn.changes s.profile.mAllowedAppsVpn.elements s
  return addOwn packages s

end RRoadVpn.AllowedApps
