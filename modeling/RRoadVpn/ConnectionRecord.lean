import Mathlib.Data.List.Basic

/-! The server's record of a connection. `VPNActivity` creates it when the tunnel
comes up and closes it from an `AfterDisconnectVPNTask`; in between its id is in
the preferences. Every API call succeeds, and the ids come from the server. -/

namespace RRoadVpn.ConnectionRecord

/-- How far a pending AfterDisconnectVPNTask is in `UserVPNPolicy.afterDisconnectVPN`. -/
inductive AfterDisconnectVPNTask where
  | executed
  | read (connectionUuid : String)
  | updated
  deriving DecidableEq, Repr

/-- `created` and `closed` are the server's: the records in their order and the ids
of the requests that set `is_connected` to false. -/
structure State where
  WAS_CONNECTED : Bool := false
  CONNECTION_UUID : String := ""
  tasks : List AfterDisconnectVPNTask := []
  created : List String := []
  closed : List String := []
  deriving DecidableEq, Repr

/-- `onConnect`, with the id the server gives to a new record. -/
def onConnect (connectionUuid : String) (s : State) : State :=
  let s :=
    if s.WAS_CONNECTED then s
    else { s with created := s.created ++ [connectionUuid], CONNECTION_UUID := connectionUuid }
  { s with WAS_CONNECTED := true }

def onDisconnect (s : State) : State :=
  let s := if s.WAS_CONNECTED then { s with tasks := s.tasks ++ [.executed] } else s
  { s with WAS_CONNECTED := false }

/-- The next step of `afterDisconnectVPN`: it reads the preference, sends the request
and empties the preference, which ends the task. -/
def afterDisconnectVPN (i : Nat) (s : State) : AfterDisconnectVPNTask → State
  | .executed => { s with tasks := s.tasks.set i (.read s.CONNECTION_UUID) }
  | .read connectionUuid => { s with tasks := s.tasks.set i .updated, closed := s.closed ++ [connectionUuid] }
  | .updated => { s with tasks := s.tasks.eraseIdx i, CONNECTION_UUID := "" }

inductive Event where
  | onConnect (connectionUuid : String)
  | onDisconnect
  | task (i : Nat)
  deriving DecidableEq, Repr

/-- A new record has an id of its own; a task steps while it is pending. -/
def step (s : State) : Event → Option State
  | .onConnect connectionUuid =>
    if connectionUuid = "" ∨ connectionUuid ∈ s.created then none else some (onConnect connectionUuid s)
  | .onDisconnect => some (onDisconnect s)
  | .task i => s.tasks[i]?.map (afterDisconnectVPN i s)

end RRoadVpn.ConnectionRecord
