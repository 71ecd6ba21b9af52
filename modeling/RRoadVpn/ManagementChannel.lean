import RRoadVpn.LogItem
import RRoadVpn.ManageQueries
import RRoadVpn.ManagementReplies

/-! The management channel: the OpenVPN process, the thread of the app that serves it, and
the stream between them, which the process reads in chunks of any size. -/

namespace RRoadVpn.ManagementChannel
open JavaText (Text)
open ManageQueries (Process Query)
open ManagementReplies (Thread Surroundings)

def getBytes (cmd : Text) : List UInt8 := Library.Utf8.encode cmd

def decoded (line : Text) : Text := (LogItem.newString (line.map fun c => UInt8.ofNat c.toNat)).toList

structure Channel where
  openvpn : Process := {}
  thread : Thread
  /-- What was written and not yet read. -/
  socket : List UInt8 := []
  /-- The commands that were written. -/
  wrote : List Text := []
  /-- How many of OpenVPN's messages the thread has read. -/
  seen : Nat := 0

def put (cmd : Text) (s : Channel) : Channel :=
  { s with socket := s.socket ++ getBytes cmd, wrote := s.wrote ++ [cmd] }

inductive Event where
  | query (q : Query)
  | hold (holdtime : Int)
  | pkSig (b64Data : Text)
  | proxy (current : Nat) (udp : Bool) (remote : String)
  | signal (sig : Manage.Signal)
  | restart
  /-- OpenVPN reads so many bytes. -/
  | read (n : Nat)
  /-- OpenVPN finds the stream closed. -/
  | endOfStream
  /-- The thread handles the next line. -/
  | processCommand (env : Surroundings)
  /-- The thread writes its next command. -/
  | write
  /-- The thread of the user interface writes its next command. -/
  | uiWrite
  | releaseHold
  | resumeHold (shouldBeRunning : Bool)
  | networkChange (samenetwork : Bool)
  | signalusr1
  | onOrbotReady (socksHost : String) (socksPort : Int)
  | orbotTimeOut
  | stopVPN
  | setCachedPassword (uuid : Text) (type : Int) (password : Option Text)

variable (callbacks : Manage.Callbacks)

def process (e : ManageQueries.Event) (s : Channel) : Option Channel :=
  (ManageQueries.step callbacks s.openvpn e).map fun openvpn => { s with openvpn }

/-- What another thread has the management thread write, when it has written what came before. -/
def ui (f : Thread → Thread) (s : Channel) : Option Channel :=
  if s.thread.uiOutbox = [] then some { s with thread := f s.thread } else none

def step (s : Channel) : Event → Option Channel
  | .query q => process callbacks (.query q) s
  | .hold holdtime => process callbacks (.hold holdtime) s
  | .pkSig b64Data => process callbacks (.pkSig b64Data) s
  | .proxy current udp remote => process callbacks (.proxy current udp remote) s
  | .signal sig => process callbacks (.signal sig) s
  | .restart => process callbacks .restart s
  | .read n =>
    if 0 < n ∧ n ≤ s.socket.length then
      (process callbacks (.read (s.socket.take n)) s).map fun s => { s with socket := s.socket.drop n }
    else none
  | .endOfStream =>
    if ¬ s.thread.running ∧ s.thread.outbox = [] ∧ s.thread.uiOutbox = [] ∧
      s.socket = [] then process callbacks (.read []) s
    else none
  | .processCommand env =>
    match Manage.nextLine (s.openvpn.man.out.drop s.seen) with
    | some (line, n) =>
      if s.thread.running ∧ s.thread.outbox = [] then
        some { s with seen := s.seen + n, thread := ManagementReplies.processCommand env (decoded line) s.thread }
      else none
    | none => none
  | .write =>
    match s.thread.outbox with
    | cmd :: outbox => some (put cmd { s with thread := { s.thread with outbox } })
    | [] => none
  | .uiWrite =>
    match s.thread.uiOutbox with
    | cmd :: uiOutbox => some (put cmd { s with thread := { s.thread with uiOutbox } })
    | [] => none
  | .releaseHold => ui ManagementReplies.releaseHold s
  | .resumeHold shouldBeRunning => ui (ManagementReplies.mResumeHoldRunnable shouldBeRunning) s
  | .networkChange samenetwork => ui (ManagementReplies.networkChange samenetwork) s
  | .signalusr1 => ui ManagementReplies.signalusr1 s
  | .onOrbotReady socksHost socksPort => ui (ManagementReplies.onOrbotReady socksHost socksPort) s
  | .orbotTimeOut => ui ManagementReplies.orbotStatusTimeOutRunnable s
  | .stopVPN => ui ManagementReplies.stopOpenVPN s
  | .setCachedPassword uuid type password =>
    (PasswordCache.setCachedPassword uuid type password s.thread.mInstance).map fun mInstance =>
      { s with thread := { s.thread with mInstance := some mInstance } }

end RRoadVpn.ManagementChannel
