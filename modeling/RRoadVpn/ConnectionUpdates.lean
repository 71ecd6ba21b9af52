import RRoadVpn.JavaText
import RRoadVpn.UsersAPIService

/-! The requests that name the server's record of a connection, with API calls that may
fail: the record is created when the tunnel comes up, updated as traffic flows and closed
by an `AfterDisconnectVPNTask`, which is through before the tunnel comes up again. The
callbacks hold the monitor of `VpnStatus`; the task does not. -/

namespace RRoadVpn.ConnectionUpdates
open UsersAPIService
open JavaText (Text)

/-- How far the AfterDisconnectVPNTask is in `UserVPNPolicy.afterDisconnectVPN`. -/
inductive AfterDisconnectVPNTask where
  | executed
  | read (connectionUuid : String)
  | updated
  deriving DecidableEq, Repr

/-- What every connection got from `createConnection`, if it called it, and the id and the flag that
every `updateConnection` has sent, in this order. -/
inductive Call where
  | created (connectionUuid : String)
  | notCreated
  | updateConnection (connectionUuid : String) (isConnected : Option Bool) (succeeded : Bool)
  deriving DecidableEq, Repr

/-- `updating` is the id that a traffic update under way has read. -/
structure State where
  WAS_CONNECTED : Bool := false
  preferencesService : PreferencesService := {}
  task : Option AfterDisconnectVPNTask := none
  updating : Option String := none
  calls : List Call := []

namespace State

def connectionUuid (s : State) : String := s.preferencesService.getString .CONNECTION_UUID

/-- `createConnection` has saved the id, and `afterConnectedToVPN` saves it again. -/
def afterConnectedToVPN (answer : Option RESTResponse) (s : State) : State :=
  match createConnection answer s.preferencesService with
  | (.ok connectionUuid, p) =>
    { s with preferencesService := p.save .CONNECTION_UUID connectionUuid, calls := s.calls ++ [.created connectionUuid] }
  | (.error _, p) => { s with preferencesService := p, calls := s.calls ++ [.notCreated] }

/-- Without a second part in the status the listener throws. What is thrown behind that is logged, and
`WAS_CONNECTED` is set all the same. -/
def onConnect (status : Text) (answer : Option RESTResponse) (s : State) : State :=
  if s.WAS_CONNECTED then s
  else
    match (JavaText.split ',' status)[1]? with
    | none => { s with calls := s.calls ++ [.notCreated] }
    | some _ => { s.afterConnectedToVPN answer with WAS_CONNECTED := true }

def onDisconnect (s : State) : State :=
  let s := if s.WAS_CONNECTED then { s with task := some .executed } else s
  { s with WAS_CONNECTED := false }

/-- The next step of `afterDisconnectVPN`; it ends where the call throws. -/
def afterDisconnectVPN (answer : Option RESTResponse) (s : State) : AfterDisconnectVPNTask → State
  | .executed => { s with task := some (.read s.connectionUuid) }
  | .read connectionUuid =>
    match updateConnection answer with
    | .ok _ => { s with task := some .updated, calls := s.calls ++ [.updateConnection connectionUuid (some false) true] }
    | .error _ => { s with task := none, calls := s.calls ++ [.updateConnection connectionUuid (some false) false] }
  | .updated => { s with task := none, preferencesService := s.preferencesService.save .CONNECTION_UUID "" }

/-- The ids are read once a megabyte; where one is missing nothing is sent. -/
def updateByteCount (diffIn diffOut : Int) (s : State) : State :=
  if diffIn ≥ 1000000 ∨ diffOut ≥ 1000000 then
    if s.connectionUuid = "" ∨ s.preferencesService.getString .USER_UUID = "" ∨
        s.preferencesService.getString .SERVER_UUID = "" ∨ s.preferencesService.getString .USER_DEVICE_UUID = "" then s
    else { s with updating := some s.connectionUuid }
  else s

def updateTraffic (answer : Option RESTResponse) (connectionUuid : String) (s : State) : State :=
  let succeeded := match updateConnection answer with | .ok _ => true | .error _ => false
  { s with updating := none, calls := s.calls ++ [.updateConnection connectionUuid none succeeded] }

end State

inductive Event where
  | onConnect (status : Text) (answer : Option RESTResponse)
  | onDisconnect
  | task (answer : Option RESTResponse)
  | updateByteCount (diffIn diffOut : Int)
  | updateTraffic (answer : Option RESTResponse)
  | save (prefLabel : VPNAppPreferences) (value : String)
  deriving DecidableEq, Repr

def step (s : State) : Event → Option State
  | .onConnect status answer =>
    if s.task = none ∧ s.updating = none then some (s.onConnect status answer) else none
  | .onDisconnect => if s.updating = none then some s.onDisconnect else none
  | .task answer => s.task.map (s.afterDisconnectVPN answer)
  | .updateByteCount diffIn diffOut => if s.updating = none then some (s.updateByteCount diffIn diffOut) else none
  | .updateTraffic answer => s.updating.map fun connectionUuid => s.updateTraffic answer connectionUuid
  | .save prefLabel value =>
    if prefLabel ≠ .CONNECTION_UUID then some { s with preferencesService := s.preferencesService.save prefLabel value }
    else none

end RRoadVpn.ConnectionUpdates
