import RRoadVpn.ConvertProfile
import RRoadVpn.Uuid

/-! Profiles that a device owner provides: `AppRestrictions` over the profiles of
`ProfileManager`, which are kept in a map and in files. -/

namespace RRoadVpn
open JavaText (Text)
open ConfigParser (HashMap EntrySet ImportError importConfig)

/-- A profile with what identifies it and tells where it is from. -/
structure Profile extends VpnProfile where
  mUuid : UUID
  mVersion : BitVec 32 := 0
  mProfileCreator : Option Text := none
  mUserEditable : Bool := true
  importedProfileHash : Option Text := none

namespace Profile

def getUUIDString (p : Profile) : Text := UUID.toLowerCase p.mUuid.toText

end Profile

/-- The profiles in memory, and the saved ones: the names in the list, and the files. -/
structure ProfileManager where
  profiles : HashMap Profile := ∅
  tmpprofile : Option Profile := none
  vpnlist : List Text := []
  files : HashMap Profile := ∅

namespace ProfileManager

def TEMPORARY_PROFILE_FILENAME : Text := "temporary-vpn-profile".toList

def find (pm : ProfileManager) (key : Text) : Option Profile :=
  match pm.tmpprofile with
  | some tmp => if tmp.getUUIDString = key then some tmp else pm.profiles.lookup key
  | none => pm.profiles.lookup key

/-- One turn of the loop over the names; a file that cannot be read is passed over. -/
def loadProfile (pm : ProfileManager) (vpnentry : Text) : ProfileManager :=
  match pm.files.lookup vpnentry with
  | none => pm
  | some vp =>
    if vpnentry = TEMPORARY_PROFILE_FILENAME then { pm with tmpprofile := some vp }
    else { pm with profiles := pm.profiles.insert vp.mUuid.toText vp }

def loadVPNList (pm : ProfileManager) : ProfileManager :=
  (pm.vpnlist ++ [TEMPORARY_PROFILE_FILENAME]).foldl loadProfile { pm with profiles := ∅ }

/-- The loop of `get`: a profile that is not there, or whose version is too low, is looked for again in the files. -/
def getLoop (profileUUID : Text) (version : Int) : Nat → ProfileManager → Option Profile × ProfileManager
  | 0, pm => (pm.find profileUUID, pm)
  | tries + 1, pm =>
    if (pm.find profileUUID).all (fun profile => profile.mVersion.toInt < version) then
      getLoop profileUUID version tries pm.loadVPNList
    else (pm.find profileUUID, pm)

def get (pm : ProfileManager) (profileUUID : Text) : Option Profile × ProfileManager := pm.getLoop profileUUID 0 10

def addProfile (pm : ProfileManager) (profile : Profile) : ProfileManager :=
  { pm with profiles := pm.profiles.insert profile.mUuid.toText profile }

/-- `saveProfile` with a new version, which the profile in memory gets too. -/
def saveProfile (pm : ProfileManager) (profile : Profile) : ProfileManager :=
  let profile := { profile with mVersion := profile.mVersion + 1 }
  { pm with
    profiles := pm.profiles.insert profile.mUuid.toText profile
    files := pm.files.insert profile.mUuid.toText profile }

def saveProfileList (pm : ProfileManager) : ProfileManager := { pm with vpnlist := pm.profiles.keys }

/-- `setTemporaryProfile`, which saves the profile under a name of its own. -/
def setTemporaryProfile (pm : ProfileManager) (tmp : Profile) : ProfileManager :=
  let tmp := { tmp with mVersion := tmp.mVersion + 1 }
  { pm with tmpprofile := some tmp, files := pm.files.insert TEMPORARY_PROFILE_FILENAME tmp }

def removeProfile (pm : ProfileManager) (profile : Profile) : ProfileManager :=
  let vpnentry := profile.mUuid.toText
  let pm := saveProfileList { pm with profiles := pm.profiles.erase vpnentry }
  { pm with files := pm.files.erase vpnentry }

end ProfileManager

namespace AppRestrictions

def PROFILE_CREATOR : Text := "AppRestrictions".toList

def CONFIG_VERSION : Int := 1

/-- A profile in the list of the restrictions. -/
structure Bundle where
  uuid : Option Text
  ovpn : Option Text
  name : Option Text
  deriving DecidableEq, Repr

structure Entry where
  uuid : Text
  ovpn : Text
  name : Text
  deriving DecidableEq, Repr

def Bundle.entry (p : Bundle) : Option Entry :=
  match p.uuid, p.ovpn, p.name with
  | some uuid, some ovpn, some name => some { uuid, ovpn, name }
  | _, _, _ => none

structure Restrictions where
  version : Text := "(not set)".toList
  vpn_configuration_list : Option (List Bundle) := none
  deriving DecidableEq, Repr

section Apply

variable (entrySet : EntrySet) (hashConfig : Text → Text)

/-- What `addProfile` catches: its own errors, and those of a number's or a UUID's text. -/
def caught : ImportError → Bool
  | .configParseError _ | .runtime (.NumberFormat _) => true
  | _ => false

/-- The imported profile as a managed one, in place of another. -/
def managed (vp : VpnProfile) (uuid : UUID) (e : Entry) (vpnProfile : Option Profile) : Profile :=
  { vp with
    mName := e.name
    mAlias := vpnProfile.elim vp.mAlias fun old => old.mAlias
    mUuid := uuid
    mVersion := vpnProfile.elim 0 fun old => old.mVersion + 1
    mProfileCreator := some PROFILE_CREATOR
    mUserEditable := false
    importedProfileHash := some (hashConfig e.ovpn) }

def addProfile (pm : ProfileManager) (e : Entry) (vpnProfile : Option Profile) : Except ImportError ProfileManager :=
  match importConfig entrySet e.name e.ovpn with
  | .error error => if caught error then .ok pm else .error error
  | .ok vp =>
    match UUID.fromString e.uuid with
    | none => .ok pm
    | some uuid =>
      let vp := managed hashConfig vp uuid e vpnProfile
      .ok ((pm.addProfile vp).saveProfile vp).saveProfileList

def applyEntry (pm : ProfileManager) (e : Entry) : Except ImportError ProfileManager :=
  let (vpnProfile, pm) := pm.get e.uuid
  if vpnProfile.any (fun profile => some (hashConfig e.ovpn) = profile.importedProfileHash) then .ok pm
  else addProfile entrySet hashConfig pm e vpnProfile

def isManaged (vp : Profile) : Bool := vp.mProfileCreator = some PROFILE_CREATOR

/-- Removes the managed profiles that are not in the list. -/
def removeOthers (provisionedUuids : List Text) (pm : ProfileManager) : ProfileManager :=
  let profilesToRemove := (pm.profiles.entries.map Sigma.snd).filter fun vp =>
    isManaged vp && !provisionedUuids.contains vp.getUUIDString
  profilesToRemove.foldl ProfileManager.removeProfile pm

def applyRestrictions (restrictions : Restrictions) (pm : ProfileManager) : Except ImportError ProfileManager :=
  if JavaText.parseInt restrictions.version ≠ some CONFIG_VERSION then .ok pm
  else
    match restrictions.vpn_configuration_list with
    | none => .ok pm
    | some profileList => do
      let entries := profileList.filterMap Bundle.entry
      let pm ← entries.foldlM (applyEntry entrySet hashConfig) pm
      return removeOthers (entries.map fun e => UUID.toLowerCase e.uuid) pm

end Apply

end AppRestrictions

end RRoadVpn
