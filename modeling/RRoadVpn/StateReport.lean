import RRoadVpn.ConnectionConfig
import RRoadVpn.JavaText
import RRoadVpn.StatusService

/-! The states that the management interface reports: what `VpnStatus` keeps of them, and
what `VPNActivity` does at a change. The counter of retries and the views are left out. -/

namespace RRoadVpn.StateReport
open StatusService (ConnectionStatus)
open JavaText (Text)

inductive StateString where
  | state_connecting
  | state_wait
  | state_auth
  | state_get_config
  | state_assign_ip
  | state_add_routes
  | state_connected
  | state_disconnected
  | state_reconnecting
  | state_exiting
  | state_resolve
  | state_tcp_connect
  | state_auth_pending
  | state_waitconnectretry
  | state_noprocess
  | unknown_state
  deriving DecidableEq, Repr

/-- The texts in the user's language; the one for a retry has an argument. -/
structure Context where
  getString : StateString → Text
  waitconnectretry : Text → Text

/-- The last state, and what the activity knows; the calls of `afterConnectedToVPN` with their addresses. -/
structure State where
  mLaststate : Text := "NOPROCESS".toList
  mLaststatemsg : Text := []
  mLastStateresid : StateString := .state_noprocess
  mLastLevel : ConnectionStatus := .LEVEL_NOTCONNECTED
  WAS_CONNECTED : Bool := false
  afterConnectedToVPN : List Text := []
  deriving DecidableEq, Repr

def getLocalizedState (state : Text) : StateString :=
  match String.ofList state with
  | "CONNECTING" => .state_connecting
  | "WAIT" => .state_wait
  | "AUTH" => .state_auth
  | "GET_CONFIG" => .state_get_config
  | "ASSIGN_IP" => .state_assign_ip
  | "ADD_ROUTES" => .state_add_routes
  | "CONNECTED" => .state_connected
  | "DISCONNECTED" => .state_disconnected
  | "RECONNECTING" => .state_reconnecting
  | "EXITING" => .state_exiting
  | "RESOLVE" => .state_resolve
  | "TCP_CONNECT" => .state_tcp_connect
  | "AUTH_PENDING" => .state_auth_pending
  | _ => .unknown_state

def getLevel (state : Text) : ConnectionStatus :=
  if ["CONNECTING", "WAIT", "RECONNECTING", "RESOLVE", "TCP_CONNECT"].contains (String.ofList state) then
    .LEVEL_CONNECTING_NO_SERVER_REPLY_YET
  else if ["AUTH", "GET_CONFIG", "ASSIGN_IP", "ADD_ROUTES", "AUTH_PENDING"].contains (String.ofList state) then
    .LEVEL_CONNECTING_SERVER_REPLIED
  else if ["CONNECTED"].contains (String.ofList state) then .LEVEL_CONNECTED
  else if ["DISCONNECTED", "EXITING"].contains (String.ofList state) then .LEVEL_NOTCONNECTED
  else .UNKNOWN_LEVEL

variable (c : Context)

def getLastCleanLogMessage (s : State) : Text :=
  let parts := JavaText.split ',' s.mLaststatemsg
  let message :=
    if s.mLastLevel = .LEVEL_CONNECTED ∧ 7 ≤ parts.length then parts[1]?.getD [] ++ ' ' :: parts[6]?.getD []
    else s.mLaststatemsg
  let message := message.rdropWhile (· == ',')
  if s.mLaststate = "NOPROCESS".toList then message
  else if s.mLastStateresid = .state_waitconnectretry then c.waitconnectretry s.mLaststatemsg
  else
    let statePrefix := c.getString s.mLastStateresid
    let message := if s.mLastStateresid = .unknown_state then s.mLaststate ++ message else message
    (if message = [] then statePrefix else statePrefix ++ ": ".toList) ++ message

/-- None where there is no second part. -/
def onConnect (s : State) : Option State := do
  if s.WAS_CONNECTED then return s
  let virtualIP ← (JavaText.split ',' (getLastCleanLogMessage c s))[1]?
  return { s with WAS_CONNECTED := true, afterConnectedToVPN := s.afterConnectedToVPN ++ [virtualIP] }

def onDisconnect (s : State) : State := { s with WAS_CONNECTED := false }

def updateStateString (state msg : Text) (resid : StateString) (level : ConnectionStatus)
    (s : State) : Option State :=
  if s.mLastLevel = .LEVEL_CONNECTED ∧ (state = "WAIT".toList ∨ state = "AUTH".toList) then some s
  else
    let s := { s with mLaststate := state, mLaststatemsg := msg, mLastStateresid := resid, mLastLevel := level }
    match level with
    | .LEVEL_CONNECTED => onConnect c s
    | .LEVEL_NOTCONNECTED => some (onDisconnect s)
    | _ => some s

/-- None where a part is missing, or the listener throws. -/
def processState (argument : Text) (s : State) : Option State := do
  let args := ProxyQuery.split 3 argument
  let currentstate ← args[1]?
  let msg ← args[2]?
  let msg := if msg = ",,".toList then [] else msg
  updateStateString c currentstate msg (getLocalizedState currentstate) (getLevel currentstate) s

end RRoadVpn.StateReport
