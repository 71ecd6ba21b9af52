import Mathlib.Logic.Function.Basic

/-! The management threads of a process and the static list `active` that
`stopOpenVPN` goes through. A thread has the number of its object; other threads
step between the iterations of `stopOpenVPN`, which holds the monitor of `active`. -/

namespace RRoadVpn.ManagementThreads

/-- What `run` does next; `version` is the first command it sends. -/
inductive Running where
  | idle
  | accept
  | version
  | read
  | remove
  | ended
  deriving DecidableEq, Repr

/-- Both ends of a management connection and what has reached the client. -/
structure LocalSocket where
  closed : Bool := false
  client : Bool := true
  received : List String := []
  deriving DecidableEq, Repr

structure OpenVpnManagementThread where
  running : Running := .idle
  mSocket : Option LocalSocket := none
  mShuttingDown : Bool := false
  deriving DecidableEq, Repr

namespace OpenVpnManagementThread

/-- A write succeeds while both ends are there, unless it `fails` with an I/O error. -/
def managmentCommand (cmd : String) (fails : Bool) (t : OpenVpnManagementThread) : Bool × OpenVpnManagementThread :=
  match t.mSocket with
  | none => (false, t)
  | some socket =>
    if socket.closed || !socket.client || fails then (false, t)
    else (true, { t with mSocket := some { socket with received := socket.received ++ [cmd] } })

/-- `mSocket.close()` where there is a socket; it may fail too. -/
def close (fails : Bool) (t : OpenVpnManagementThread) : OpenVpnManagementThread :=
  { t with mSocket := t.mSocket.map fun socket => { socket with closed := socket.closed || !fails } }

def clientCloses (t : OpenVpnManagementThread) : OpenVpnManagementThread :=
  { t with mSocket := t.mSocket.map fun socket => { socket with client := false } }

end OpenVpnManagementThread

/-- A call of `stopVPN` that is in `stopOpenVPN`: the thread it was made on, the threads still to
come and those whose client this call has sent SIGINT. -/
structure StopOpenVPN where
  caller : Nat
  pending : List Nat
  sendCMD : Bool := false
  signalled : List Nat := []
  deriving DecidableEq, Repr

structure Stopped where
  stopSucceed : Bool
  signalled : List Nat
  deriving DecidableEq, Repr

structure State where
  active : List Nat := []
  threads : Nat → OpenVpnManagementThread := fun _ => {}
  stopping : Option StopOpenVPN := none
  stopped : List Stopped := []

namespace State

def setThread (s : State) (i : Nat) (t : OpenVpnManagementThread) : State :=
  { s with threads := Function.update s.threads i t }

def setRunning (s : State) (i : Nat) (running : Running) : State := s.setThread i { s.threads i with running }

def returnStop (s : State) (stop : StopOpenVPN) : State :=
  let s := { s with stopping := none, stopped := s.stopped ++ [⟨stop.sendCMD, stop.signalled⟩] }
  if stop.sendCMD then s.setThread stop.caller { s.threads stop.caller with mShuttingDown := true } else s

/-- The loop of `stopOpenVPN` goes on, or is at its end. -/
def loopStop (s : State) (stop : StopOpenVPN) : State :=
  if stop.pending = [] then s.returnStop stop else { s with stopping := some stop }

def signal (s : State) (stop : StopOpenVPN) (mt : Nat) (pending : List Nat) (fails closeFails : Bool) : State :=
  let (sendCMD, t) := (s.threads mt).managmentCommand "signal SIGINT\n" fails
  (s.setThread mt (t.close closeFails)).loopStop
    { stop with pending, sendCMD, signalled := if sendCMD then stop.signalled ++ [mt] else stop.signalled }

end State

inductive Event where
  | start (i : Nat)
  | accept (i : Nat)
  | version (i : Nat) (fails : Bool)
  | managmentCommand (i : Nat) (cmd : String) (fails : Bool)
  | clientCloses (i : Nat)
  | endOfStream (i : Nat)
  | ioException (i : Nat) (message : Option String)
  | remove (i : Nat)
  | stopVPN (i : Nat)
  | signal (fails closeFails : Bool)
  deriving DecidableEq, Repr

/-- A step that takes the monitor of `active` waits for the call that holds it. -/
def step (s : State) : Event → Option State
  | .start i =>
    if (s.threads i).running = .idle ∧ s.stopping = none then
      some ({ s with active := s.active ++ [i] }.setRunning i .accept)
    else none
  | .accept i =>
    if (s.threads i).running = .accept then
      some (s.setThread i { s.threads i with running := .version, mSocket := some {} })
    else none
  | .version i fails =>
    if (s.threads i).running = .version then
      some (s.setThread i { ((s.threads i).managmentCommand "version 2\n" fails).2 with running := .read })
    else none
  | .managmentCommand i cmd fails => some (s.setThread i ((s.threads i).managmentCommand cmd fails).2)
  | .clientCloses i => some (s.setThread i (s.threads i).clientCloses)
  | .endOfStream i =>
    if (s.threads i).running = .read ∧ (s.threads i).mSocket.any (fun socket => !socket.client) then
      some (s.setRunning i .ended)
    else none
  | .ioException i message =>
    if (s.threads i).running ∈ [.accept, .version, .read] then
      -- without a message the comparison in the handler throws, which ends the thread
      some (s.setRunning i (if message.isSome then .remove else .ended))
    else none
  | .remove i =>
    if (s.threads i).running = .remove ∧ s.stopping = none then
      some ({ s with active := s.active.erase i }.setRunning i .ended)
    else none
  | .stopVPN i => if s.stopping = none then some (s.loopStop ⟨i, s.active, false, []⟩) else none
  | .signal fails closeFails =>
    match s.stopping with
    | some stop =>
      match stop.pending with
      | [] => none
      | mt :: pending => some (s.signal stop mt pending fails closeFails)
    | none => none

end RRoadVpn.ManagementThreads
