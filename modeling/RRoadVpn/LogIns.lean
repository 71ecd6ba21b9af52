import RRoadVpn.UsersAPIService

/-! Log-ins and log-outs. Each is an `AsyncTask`, and so is the start of `MainActivity`:
the default executor runs them one after another, so that none sees another half done. -/

namespace RRoadVpn.LogIns
open UsersAPIService

structure State where
  preferencesService : PreferencesService := {}
  user : User := ⟨"", ""⟩

def checkPinCode (answer : Option RESTResponse) (s : State) : Except Exception Unit × State :=
  match getUserByPinCode answer s.preferencesService with
  | (.ok user, p) => (.ok (), ⟨p, user⟩)
  | (.error e, p) => (.error e, ⟨p, s.user⟩)

/-- `deviceId` is a random number. -/
def createUserDevice (deviceId : Nat) (answer : Option RESTResponse) (s : State) : Except Exception Unit × State :=
  let (result, p) := UsersAPIService.createUserDevice answer (s.preferencesService.save .DEVICE_ID (toString deviceId))
  (result, { s with preferencesService := p })

/-- `ProcessUserPincodeTask` stops at the first call that throws. -/
def processUserPincode (deviceId : Nat) (pinAnswer deviceAnswer : Option RESTResponse) (s : State) :
    Except Exception Unit × State :=
  match checkPinCode pinAnswer s with
  | (.ok _, s) => createUserDevice deviceId deviceAnswer s
  | (.error e, s) => (.error e, s)

/-- The preferences are cleared whether or not the call succeeds. -/
def deleteUserSettings (answer : Option RESTResponse) (s : State) : Except Exception Unit × State :=
  (deleteUserDevice answer, { s with preferencesService := s.preferencesService.clear })

/-- What `MainActivity` looks at before it opens the VPN screen. -/
def opensVPN (p : PreferencesService) : Bool := p.getString .DEVICE_TOKEN != ""

inductive Event where
  | logIn (deviceId : Nat) (pinAnswer deviceAnswer : Option RESTResponse)
  | logOut (answer : Option RESTResponse)
  deriving DecidableEq, Repr

/-- The log-ins are counted from 1. -/
def step (s : State) : Event → Option State
  | .logIn deviceId pinAnswer deviceAnswer =>
    let counted := { s.preferencesService with logIn := s.preferencesService.logIn + 1 }
    some (processUserPincode deviceId pinAnswer deviceAnswer { s with preferencesService := counted }).2
  | .logOut answer => some (deleteUserSettings answer s).2

end RRoadVpn.LogIns
