import RRoadVpn.ConnectionConfig
import RRoadVpn.Manage
import RRoadVpn.Library.Runs

/-! The loops of manage.c in which OpenVPN waits for its client, as steps of the process:
a query for credentials or a confirmation, the hold, a signature, and a proxy. Between two
of them the main loop reads the channel too. -/

namespace RRoadVpn.ManageQueries
open JavaText ManRead Manage

/-- The arguments of `management_query_user_pass`. -/
structure Query where
  type : Text
  /-- The mode that the flags choose. -/
  mode : QueryMode
  /-- `up->username`, the text of a NEED-OK or NEED-STR query. -/
  message : Text := []
  /-- `static_challenge`, with the flag for its echo. -/
  challenge : Option (Bool × Text) := none
  deriving DecidableEq, Repr

def alertSize : Nat := 128

def Query.alertPrefix (q : Query) : Text :=
  match q.mode with
  | .needOk => "NEED-OK".toList
  | .needStr => "NEED-STR".toList
  | _ => "PASSWORD".toList

def Query.alertType (q : Query) : Text :=
  match q.mode with
  | .needOk => "confirmation".toList
  | .needStr => "string".toList
  | .pass => "password".toList
  | _ => "username/password".toList

def Query.alertTail (q : Query) : Text :=
  match q.mode, q.challenge with
  | .needOk, _ | .needStr, _ => " MSG:".toList ++ q.message
  | .pass, _ => []
  | _, some (echo, sc) => " SC:".toList ++ (if echo then ['1'] else ['0']) ++ ',' :: sc
  | _, none => []

/-- `alert_msg`; what finds no room in the buffer is cut off. -/
def Query.alert (q : Query) : Text :=
  ('>' :: q.alertPrefix ++ ":Need '".toList ++ q.type ++ "' ".toList ++ q.alertType ++ q.alertTail).take
    (alertSize - 1)

inductive Wait where
  | main
  | query (q : Query)
  | hold
  | sign
  | proxy
  deriving DecidableEq, Repr

/-- What a loop returned to its caller. -/
inductive Result where
  /-- `none` for false. -/
  | userPass (q : Query) (up : Option UserPass)
  | holdEnded
  /-- `none` for a null pointer. -/
  | signature (b64 : Option Text)
  | proxy (ret : Bool)
  deriving DecidableEq, Repr

structure Process where
  man : Management := {}
  in_ : CommandLine bufLen := {}
  /-- False when the client is gone. -/
  connected : Bool := true
  wait : Wait := .main
  results : List Result := []

/-- `management_query_user_pass` up to its loop. -/
def queryUserPass (q : Query) (s : Process) : Process :=
  let man := { s.man with
    upQuery := {}, specialStateMsg := some q.alert, upQueryMode := q.mode, upQueryType := some q.type }
  { s with man := { man with out := man.out ++ [q.alert] }, wait := .query q }

/-- `management_query_user_pass` behind its loop. -/
def endQuery (q : Query) (ret : Bool) (s : Process) : Process :=
  let up := s.man.upQuery
  let up := if up.password = blankUp then { up with password := [] } else up
  { s with
    man := { s.man with upQueryMode := .disabled, upQueryType := none, specialStateMsg := none, upQuery := {} }
    wait := .main
    results := s.results ++ [.userPass q (if ret then some up else none)] }

def wouldHold (man : Management) : Bool := man.hold && !man.holdRelease

def holdAlert (holdtime : Int) : Text := ">HOLD:Waiting for hold release:".toList ++ (toString holdtime).toList

def managementHold (holdtime : Int) (s : Process) : Process :=
  if wouldHold s.man then
    let man := { s.man with ignoreUsr1Hup := true, specialStateMsg := some (holdAlert holdtime) }
    { s with man := { man with out := man.out ++ [holdAlert holdtime] }, wait := .hold }
  else s

def endHold (s : Process) : Process :=
  { s with
    man := { s.man with ignoreUsr1Hup := false, specialStateMsg := none }
    wait := .main
    results := s.results ++ [.holdEnded] }

def signPrompt (man : Management) : Text := if man.clientVersion ≤ 1 then "RSA_SIGN".toList else "PK_SIGN".toList

def signCmd (man : Management) : Text := if man.clientVersion ≤ 1 then "rsa-sign".toList else "pk-sign".toList

/-- `management_query_pk_sig` up to its loop. -/
def queryPkSig (b64Data : Text) (s : Process) : Process :=
  let alert := '>' :: signPrompt s.man ++ ':' :: b64Data
  let man := { s.man with extKeyState := .solicit, specialStateMsg := some alert }
  { s with man := { man with out := man.out ++ [alert] }, wait := .sign }

/-- How many buffers `buffer_list_aggregate` joins. -/
def aggregateCount (max : Nat) : Nat → List Text → Nat
  | _, [] => 0
  | size, more :: rest => if size + more.length > max then 0 else aggregateCount max (size + more.length) rest + 1

/-- The first buffer behind `buffer_list_aggregate`. -/
def aggregated (max : Nat) (lines : List Text) : Option Text :=
  let count := aggregateCount max 0 lines
  if count ≥ 2 then some (lines.take count).flatten else lines.head?

/-- `management_query_multiline_flatten` behind the loop. -/
def flatten (input : Option (List Text)) : Option Text :=
  match input with
  | some lines => (aggregated 2048 lines).filter (· ≠ [])
  | none => none

def endSign (ret : Bool) (s : Process) : Process :=
  let ready := s.man.extKeyState = .ready
  let man :=
    if ready && ret then msg ("SUCCESS: ".toList ++ signCmd s.man ++ " command succeeded".toList) s.man
    else if ready || s.man.extKeyState = .input then
      msg ("ERROR: ".toList ++ signCmd s.man ++ " command failed".toList) s.man
    else s.man
  { s with
    man := { inExtraReset man with specialStateMsg := none, extKeyState := .undef, extKeyInput := none }
    wait := .main
    results := s.results ++ [.signature (if ret then flatten man.extKeyInput else none)] }

/-- The remote's characters are its bytes. -/
def proxyAlert (current : Nat) (udp : Bool) (remote : String) : Text :=
  ">PROXY:".toList ++ ProxyQuery.ce_management_query_proxy current udp remote

/-- `ce_management_query_proxy` up to its loop. -/
def queryProxy (current : Nat) (udp : Bool) (remote : String) (s : Process) : Process :=
  let man := msg (proxyAlert current udp remote) s.man
  { s with man := { man with ce := { man.ce with tcp := !udp, manQueryProxy := true } }, wait := .proxy }

def endProxy (ret : Bool) (s : Process) : Process :=
  { s with wait := .main, results := s.results ++ [.proxy ret] }

/-- The end of a turn of the loop the process is in. -/
def turn (s : Process) : Process :=
  let signalled := s.man.signalReceived.isSome
  match s.wait with
  | .main => s
  | .query q => if signalled then endQuery q false s else if s.man.upQuery.defined then endQuery q true s else s
  | .hold => if signalled || s.man.holdRelease then endHold s else s
  | .sign => if signalled then endSign false s else if s.man.extKeyState = .ready then endSign true s else s
  | .proxy => if signalled then endProxy false s else if s.man.ce.manQueryProxy then s else endProxy true s

inductive Event where
  | query (q : Query)
  | hold (holdtime : Int)
  | pkSig (b64Data : Text)
  | proxy (current : Nat) (udp : Bool) (remote : String)
  | read (bytes : List UInt8)
  /-- A signal that does not come from the channel. -/
  | signal (s : Signal)
  /-- The main loop acts on the signal; a restart clears the callbacks and with them the release. -/
  | restart
  deriving DecidableEq, Repr

variable (callbacks : Callbacks)

/-- `man_reset_client_socket`; the process serves no other client and ends itself. -/
def resetClientSocket (s : Process) : Process :=
  { s with man := { inExtraReset s.man with signalReceived := some .sigterm }, in_ := {}, connected := false }

/-- `man_read` and the rest of the turn; an empty read is the end of the stream. -/
def read (bytes : List UInt8) (s : Process) : Process :=
  if bytes = [] then turn (resetClientSocket s)
  else
    let c := manRead (processLine callbacks) Management.halt { man := s.man, in_ := s.in_ } bytes
    let s := { s with man := c.man, in_ := c.in_ }
    turn (if c.man.halt then resetClientSocket s else s)

/-- The steps of the process. A loop looks for a signal before it reads. -/
def step (s : Process) : Event → Option Process
  | .query q => if s.connected ∧ s.wait = .main ∧ q.mode ≠ .disabled then some (turn (queryUserPass q s)) else none
  | .hold holdtime => if s.connected ∧ s.wait = .main then some (turn (managementHold holdtime s)) else none
  | .pkSig b64Data => if s.connected ∧ s.wait = .main then some (turn (queryPkSig b64Data s)) else none
  | .proxy current udp remote =>
    if s.connected ∧ s.wait = .main then some (turn (queryProxy current udp remote s)) else none
  | .read bytes => if s.connected ∧ bytes.length ≤ readSize then some (read callbacks bytes s) else none
  | .signal sig => some (turn { s with man := { s.man with signalReceived := some sig } })
  | .restart =>
    if s.wait = .main ∧ (s.man.signalReceived = some .sighup ∨ s.man.signalReceived = some .sigusr1) then
      some { s with man := { s.man with signalReceived := none, holdRelease := false } }
    else none

end RRoadVpn.ManageQueries
