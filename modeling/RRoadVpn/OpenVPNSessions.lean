import Mathlib.Logic.Function.Basic

/-! The sessions of one `OpenVPNService`: start commands with a thread each for
`startOpenVPN`, the `OpenVPNThread` each of them makes, and revocations, in any order of
their steps. A session has the number of its start command, and a field holds the number
of the session whose object it refers to. Everything is for OpenVPN 2, which runs as a
process of its own; what a step does beside these fields is left out. -/

namespace RRoadVpn.OpenVPNSessions

/-- What a call of `endVpnService` does next. -/
inductive Ending where
  | clearProcessThread
  | unregisterDeviceStateReceiver
  | setConntectedVpnProfileDisconnected
  | clearOpenVPNThread
  | stopForeground
  deriving DecidableEq, Repr

def Ending.next : Ending → Option Ending
  | .clearProcessThread => some .unregisterDeviceStateReceiver
  | .unregisterDeviceStateReceiver => some .setConntectedVpnProfileDisconnected
  | .setConntectedVpnProfileDisconnected => some .clearOpenVPNThread
  | .clearOpenVPNThread => some .stopForeground
  | .stopForeground => none

inductive Starting where
  | idle
  | writeConfigFile
  | setStarting
  | stopOldOpenVPNProcess
  | setReplaceConnection
  | clearStarting
  | openManagementInterface
  | newOpenVPNThread
  | startProcessThread
  | post
  | ending (e : Ending)
  | done
  deriving DecidableEq, Repr

/-- What the `run` of an `OpenVPNThread` does next: first it waits for its process. -/
inductive Running where
  | idle
  | waitFor
  | checkNoProcess
  | updateStateString
  | checkStopped
  | ending (e : Ending)
  | exited
  deriving DecidableEq, Repr

/-- `outer` counts the calls of `run` around the present one, which runs the program again without PIE. -/
structure OpenVPNThread where
  mNoProcessExitStatus : Bool := false
  outer : Nat := 0
  running : Running := .idle
  deriving DecidableEq, Repr

/-- The call of `run` returns, to the one around it or for good. -/
def OpenVPNThread.leave (t : OpenVPNThread) : OpenVPNThread :=
  match t.outer with
  | 0 => { t with running := .exited }
  | outer + 1 => { t with outer, running := .checkNoProcess }

/-- `commands` counts the start commands, `connecting` is the one the main thread is in. `posted` are
the registrations that wait for the main thread, `started` the sessions whose process
thread was started and `noprocess` those that reported NOPROCESS, both in their order. -/
structure State where
  mStarting : Bool := false
  mManagement : Option Nat := none
  mOpenVPNThread : Option Nat := none
  mProcessThread : Option Nat := none
  mDeviceStateReceiver : Option Nat := none
  lastConnectedProfile : Option Nat := none
  foreground : Bool := false
  commands : Nat := 0
  connecting : Option Nat := none
  starts : Nat → Starting := fun _ => .idle
  threads : Nat → OpenVPNThread := fun _ => {}
  posted : List Nat := []
  revocations : List Ending := []
  started : List Nat := []
  noprocess : List Nat := []

namespace State

def setStart (s : State) (i : Nat) (next : Starting) : State := { s with starts := Function.update s.starts i next }

def setThread (s : State) (i : Nat) (t : OpenVPNThread) : State := { s with threads := Function.update s.threads i t }

def endVpnService (s : State) : Ending → State
  | .clearProcessThread => { s with mProcessThread := none }
  | .unregisterDeviceStateReceiver => { s with mDeviceStateReceiver := none }
  | .setConntectedVpnProfileDisconnected => { s with lastConnectedProfile := none }
  | .clearOpenVPNThread => { s with mOpenVPNThread := none }
  | .stopForeground => if s.mStarting then s else { s with foreground := false }

/-- One step of the thread of a start command; writing the config or opening the management interface may fail. -/
def startOpenVPN (s : State) (i : Nat) (fails : Bool) : Option State :=
  match s.starts i with
  | .idle | .done => none
  | .writeConfigFile => some (s.setStart i (if fails then .ending .clearProcessThread else .setStarting))
  | .setStarting => some ({ s with mStarting := true }.setStart i .stopOldOpenVPNProcess)
  | .stopOldOpenVPNProcess =>
    some (s.setStart i (if s.mManagement.isSome && s.mOpenVPNThread.isSome then .setReplaceConnection else .clearStarting))
  | .setReplaceConnection =>
    match s.mOpenVPNThread with
    -- the field was cleared after it was looked at
    | none => some (s.setStart i .done)
    | some old => some ((s.setThread old { s.threads old with mNoProcessExitStatus := true }).setStart i .clearStarting)
  | .clearStarting => some ({ s with mStarting := false }.setStart i .openManagementInterface)
  | .openManagementInterface =>
    if fails then some (s.setStart i (.ending .clearProcessThread))
    else some ({ s with mManagement := some i }.setStart i .newOpenVPNThread)
  | .newOpenVPNThread => some ({ s with mOpenVPNThread := some i }.setStart i .startProcessThread)
  | .startProcessThread =>
    some (({ s with mProcessThread := some i, started := s.started ++ [i] }.setThread i
      { s.threads i with running := .waitFor }).setStart i .post)
  | .post => some ({ s with posted := s.posted ++ [i] }.setStart i .done)
  | .ending e => some ((s.endVpnService e).setStart i (e.next.elim .done .ending))

/-- One step of an `OpenVPNThread`; when its process has ended it may run the program again. -/
def run (s : State) (i : Nat) (again : Bool) : Option State :=
  let t := s.threads i
  match t.running with
  | .idle | .exited => none
  | .waitFor => some (s.setThread i (if again then { t with outer := t.outer + 1 } else { t with running := .checkNoProcess }))
  | .checkNoProcess =>
    some (s.setThread i { t with running := if t.mNoProcessExitStatus then .checkStopped else .updateStateString })
  | .updateStateString => some ({ s with noprocess := s.noprocess ++ [i] }.setThread i { t with running := .checkStopped })
  | .checkStopped =>
    some (s.setThread i (if t.mNoProcessExitStatus then t.leave else { t with running := .ending .clearProcessThread }))
  | .ending e => some ((s.endVpnService e).setThread i (e.next.elim t.leave fun e => { t with running := .ending e }))

end State

inductive Event where
  | onStartCommand
  | setConnectedVpnProfile
  | startOpenVPN (i : Nat) (fails : Bool)
  | registerDeviceStateReceiver
  | stopVPN
  | onRevoke
  | endVpnService (k : Nat)
  | run (i : Nat) (again : Bool)
  deriving DecidableEq, Repr

/-- A stop request asks the processes to exit, which they may do at any time. A revocation needs a management interface. -/
def step (s : State) : Event → Option State
  | .onStartCommand =>
    if s.connecting = none then
      some ({ s with foreground := true, commands := s.commands + 1, connecting := some s.commands }.setStart s.commands .writeConfigFile)
    else none
  | .setConnectedVpnProfile => s.connecting.map fun i => { s with lastConnectedProfile := some i, connecting := none }
  | .startOpenVPN i fails => s.startOpenVPN i fails
  | .registerDeviceStateReceiver =>
    match s.posted with
    | [] => none
    | _ :: posted => if s.connecting = none then some { s with mDeviceStateReceiver := s.mManagement, posted } else none
  | .stopVPN => some s
  | .onRevoke => if s.mManagement.isSome then some { s with revocations := s.revocations ++ [.clearProcessThread] } else none
  | .endVpnService k => s.revocations[k]?.map fun e =>
    { s.endVpnService e with revocations := (s.revocations.take k) ++ e.next.toList ++ s.revocations.drop (k + 1) }
  | .run i again => s.run i again

end RRoadVpn.OpenVPNSessions
