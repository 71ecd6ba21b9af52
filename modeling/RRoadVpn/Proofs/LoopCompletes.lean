import RRoadVpn.Proofs.ChannelSafety

/-! A loop of the process that the thread answers comes to its end, in whatever order the
thread writes and OpenVPN reads, and the channel is idle behind it. -/

namespace RRoadVpn.Proofs.LoopCompletes
open Library Manage ManageQueries ManagementChannel ReplyTexts CommandFraming
open JavaText (Text)
open ManRead (kept chars bufLen readSize)
open ManagementReplies (Thread Surroundings)

variable (callbacks : Callbacks)

/-! ### Loops -/

/-- One of the loops of the process: when it ends, what it leaves and what it returns. -/
structure Loop where
  wait : Wait
  ends : Management → Bool
  leave : Management → Management
  result : Management → Result

def Loop.finish (l : Loop) (s : Process) : Process :=
  { s with man := l.leave s.man, wait := .main, results := s.results ++ [l.result s.man] }

/-- The loop is the one of the process. -/
structure Loop.Lawful (l : Loop) : Prop where
  waits : l.wait ≠ .main
  turn : ∀ (s : Process) man in_, s.wait = l.wait → man.signalReceived = none →
    turn { s with man, in_ } = if l.ends man then l.finish { s with man, in_ } else { s with man, in_ }
  halt : ∀ man, (l.leave man).halt = man.halt
  signalReceived : ∀ man, (l.leave man).signalReceived = man.signalReceived
  clientVersion : ∀ man, (l.leave man).clientVersion = man.clientVersion

/-- A message that is a line of its own, which the thread ignores. -/
structure Ignored (line : Text) : Prop where
  fits : line.length + 2 < errBufSize
  same : ∀ env t, ManagementReplies.processCommand env (decoded line) t = t

private theorem nextLine_drop {out : List Text} {seen : Nat}
    (fits : ∀ text ∈ out.drop seen, text.length + 2 < errBufSize) :
    nextLine (out.drop seen) = out[seen]?.map (·, 1) := by
  have head : out[seen]? = (out.drop seen)[0]? := by rw [List.getElem?_drop, Nat.add_zero]
  rw [head]
  cases there : out.drop seen with
  | nil => rfl
  | cons text texts =>
    have short : text.length + 2 < errBufSize := fits text (there ▸ List.mem_cons_self)
    simp [nextLine, short]

theorem step_processCommand {s : Channel}
    (fits : ∀ text ∈ s.openvpn.man.out.drop s.seen, text.length + 2 < errBufSize) (env : Surroundings) :
    ManagementChannel.step callbacks s (.processCommand env) =
      match s.openvpn.man.out[s.seen]? with
      | some line =>
        if s.thread.running ∧ s.thread.outbox = [] then
          some { s with
            seen := s.seen + 1, thread := ManagementReplies.processCommand env (decoded line) s.thread }
        else none
      | none => none := by
  simp only [ManagementChannel.step, nextLine_drop fits]
  cases s.openvpn.man.out[s.seen]? <;> rfl

/-- The thread has announced itself and nothing is under way in the channel: what the thread
has yet to read asks for nothing. -/
structure Idle (s : Channel) : Prop where
  connected : s.openvpn.connected = true
  main : s.openvpn.wait = .main
  version : 1 < s.openvpn.man.clientVersion
  halt : s.openvpn.man.halt = false
  unsignalled : s.openvpn.man.signalReceived = none
  extra : s.openvpn.man.inExtra = none
  ready : Ready s.openvpn.in_
  content : s.openvpn.in_.buf.content = []
  socket : s.socket = []
  seen : s.seen ≤ s.openvpn.man.out.length
  unread : ∀ line ∈ s.openvpn.man.out.drop s.seen, Ignored line
  running : s.thread.running = true
  outbox : s.thread.outbox = []

/-- The steps of a thread and an OpenVPN that are left alone, the thread in such surroundings. -/
def Serving (admits : Surroundings → Prop) : ManagementChannel.Event → Prop
  | .write | .read _ => True
  | .processCommand env => admits env
  | _ => False

/-- A state of the loop before it ends. -/
structure Open (l : Loop) (man : Management) : Prop where
  halt : man.halt = false
  unsignalled : man.signalReceived = none
  goes : l.ends man = false

/-- The lines of the answers in a loop, and what they do. -/
structure Exchange (l : Loop) (man : Management) (commands : List Text) (lines : List (List UInt8)) : Prop where
  bytes : getBytes commands.flatten = unlines 10 lines
  written : ∀ cmd ∈ commands, cmd ≠ []
  kept : ∀ b ∈ getBytes commands.flatten, kept b = true
  nonempty : lines ≠ []
  clean : ∀ line ∈ lines, 10 ∉ line
  short : ∀ line ∈ lines, line.length ≤ bufLen - readSize
  before : ∀ earlier later, lines = earlier ++ later → later ≠ [] →
    Open l (serve (processLine callbacks) Management.halt man (earlier.map chars))
  halt : (serve (processLine callbacks) Management.halt man (lines.map chars)).halt = false
  unsignalled : (serve (processLine callbacks) Management.halt man (lines.map chars)).signalReceived = none
  version : 1 < (serve (processLine callbacks) Management.halt man (lines.map chars)).clientVersion
  ends : l.ends (serve (processLine callbacks) Management.halt man (lines.map chars)) = true
  extra : (l.leave (serve (processLine callbacks) Management.halt man (lines.map chars))).inExtra = none
  ignored : ∀ earlier now later, lines = earlier ++ now ++ later → ∃ added,
    (serve (processLine callbacks) Management.halt man ((earlier ++ now).map chars)).out =
      (serve (processLine callbacks) Management.halt man (earlier.map chars)).out ++ added ∧ ∀ line ∈ added,
        Ignored line
  closing : ∃ added, (l.leave (serve (processLine callbacks) Management.halt man (lines.map chars))).out =
    (serve (processLine callbacks) Management.halt man (lines.map chars)).out ++ added ∧ ∀ line ∈ added, Ignored line

variable {callbacks} {l : Loop}

/-- One read of the answers: the lines it completes, and the loop's end with the last. -/
theorem read_answers {man : Management} {commands : List Text} {lines : List (List UInt8)}
    (lawful : l.Lawful) (exchange : Exchange callbacks l man commands lines) {s : Process}
    {earlier later : List (List UInt8)} (split : lines = earlier ++ later) (some_ : later ≠ [])
    (here : s.man = serve (processLine callbacks) Management.halt man (earlier.map chars)) (waits : s.wait = l.wait)
    (ready : Ready s.in_) (open_ : 10 ∉ s.in_.buf.content) {bytes more : List UInt8}
    (stream : s.in_.buf.content ++ bytes ++ more = unlines 10 later) (keeps : ∀ b ∈ bytes, kept b = true)
    (full : bytes ≠ []) (size : bytes.length ≤ readSize) :
    ∃ now rest in_, later = now ++ rest ∧ Ready in_ ∧ 10 ∉ in_.buf.content ∧
      in_.buf.content ++ more = unlines 10 rest ∧
      let man := serve (processLine callbacks) Management.halt man ((earlier ++ now).map chars)
      read callbacks bytes s = if rest = [] then l.finish { s with man, in_ } else { s with man, in_ } := by
  have filtered : bytes.filter kept = bytes := List.filter_eq_self.mpr keeps
  have alive := (exchange.before earlier later split some_).halt
  rw [← here] at alive
  -- The unfinished line is a part of the next one.
  have room : s.in_.buf.content.length + (bytes.filter kept).length ≤ bufLen := by
    obtain ⟨line, others, rfl⟩ := List.exists_cons_of_ne_nil some_
    have begins : s.in_.buf.content <+: line ++ 10 :: unlines 10 others :=
      ⟨bytes ++ more, by rw [← List.append_assoc, stream, unlines_cons]⟩
    have part : s.in_.buf.content.length ≤ line.length := by
      by_contra longer
      have inside : line ++ [10] <+: s.in_.buf.content :=
        List.prefix_of_prefix_length_le ⟨unlines 10 others, by simp⟩ begins (by simp; omega)
      exact open_ (inside.mem (by simp))
    have short := exchange.short line (by rw [split]; simp)
    rw [filtered]
    simp only [bufLen, readSize] at short size ⊢
    omega
  have filled := add_fits s.in_.buf bytes room
  rw [filtered] at filled
  obtain ⟨now, left, content, whole, open'⟩ := exists_unlines 10 (s.in_.buf.content ++ bytes)
  obtain ⟨man', in_⟩ :=
    manRead_eq (processLine callbacks) Management.halt (c := { man := s.man, in_ := s.in_ }) ready alive
    (filled.trans content) whole open'
  rw [content] at stream
  have clean : ∀ line ∈ later, 10 ∉ line := fun line member =>
      exchange.clean line (split ▸ List.mem_append_right _ member)
  obtain ⟨rest, same, behind⟩ := @unlines_aligned UInt8 10 now later left [] more whole clean List.not_mem_nil
    (by rw [stream, List.append_nil])
  rw [List.append_nil] at behind
  have served : serve (processLine callbacks) Management.halt s.man (now.map chars) =
      serve (processLine callbacks) Management.halt man ((earlier ++ now).map chars) := by
    rw [List.map_append, serve_append, ← here]
  rw [served] at man'
  have halts : (serve (processLine callbacks) Management.halt man ((earlier ++ now).map chars)).halt = false := by
    by_cases last : rest = []
    · rw [← List.append_nil now, ← last, ← same, ← split]
      exact exchange.halt
    · exact (exchange.before (earlier ++ now) rest (by rw [split, same, List.append_assoc]) last).halt
  have goes := in_ (by rw [man', halts])
  refine ⟨now, rest, _, same, goes.1, by rw [goes.2]; exact open', by rw [goes.2]; exact behind, ?_⟩
  dsimp only
  rw [← man'] at halts ⊢
  have step : read callbacks bytes s = turn { s with
      man := (ManRead.manRead (processLine callbacks) Management.halt { man := s.man, in_ := s.in_ } bytes).man
      in_ := (ManRead.manRead
        (processLine callbacks) Management.halt { man := s.man, in_ := s.in_ } bytes).in_ } := by
    simp only [ManageQueries.read, if_neg full, halts, Bool.false_eq_true, if_false]
  rw [step]
  by_cases last : rest = []
  · have all : lines = earlier ++ now := by rw [split, same, last, List.append_nil]
    have unsignalled := exchange.unsignalled
    have ends := exchange.ends
    rw [all, ← man'] at unsignalled ends
    rw [if_pos last, lawful.turn s _ _ waits unsignalled, if_pos ends]
  · have still := exchange.before (earlier ++ now) rest (by rw [split, same, List.append_assoc]) last
    rw [← man'] at still
    rw [if_neg last, lawful.turn s _ _ waits still.unsignalled, still.goes, if_neg (by simp)]

/-! ### Runs -/

section Runs

variable (callbacks) (l) (asked : Process) (thread : Thread) (commands : List Text) (lines : List (List UInt8))

def reached (earlier later : List (List UInt8)) (in_ : ManRead.CommandLine bufLen) : Process :=
  let there := { asked with man := serve (processLine callbacks) Management.halt asked.man (earlier.map chars), in_ }
  if later = [] then l.finish there else there

/-- The thread has seen the alert: so far are its writes and OpenVPN's reads. -/
structure Answering (state : Channel) (rest : List Text) (earlier later : List (List UInt8))
    (in_ : ManRead.CommandLine bufLen) : Prop where
  part : rest <:+ commands
  lines : lines = earlier ++ later
  ready : Ready in_
  open_ : 10 ∉ in_.buf.content
  stream : in_.buf.content ++ state.socket ++ getBytes rest.flatten = unlines 10 later
  thread : state.thread = { thread with outbox := rest }
  openvpn : state.openvpn = reached callbacks l asked earlier later in_
  low : asked.man.out.length ≤ state.seen
  high : state.seen ≤ state.openvpn.man.out.length

/-- The lines that OpenVPN says until the loop has ended. -/
def allSaid : Nat := (l.leave (serve (processLine callbacks) Management.halt asked.man (lines.map chars))).out.length

end Runs

/-- What the threads have yet to do, where OpenVPN says so many lines in all. -/
def remaining (said : Nat) (state : Channel) : Nat :=
  state.thread.outbox.length + (state.socket.length + (getBytes state.thread.outbox.flatten).length) +
    (said - state.seen)

variable {asked : Process} {thread : Thread} {commands : List Text} {lines : List (List UInt8)}

private theorem reached_connected (earlier later : List (List UInt8)) (in_ : ManRead.CommandLine bufLen) :
    (reached callbacks l asked earlier later in_).connected = asked.connected := by
  unfold reached
  dsimp only
  split <;> rfl

/-- What the process has said: the lines for the answers and, at the end, those of the loop. -/
theorem reached_said (exchange : Exchange callbacks l asked.man commands lines) {earlier later : List (List UInt8)}
    (split : lines = earlier ++ later) (in_ : ManRead.CommandLine bufLen) :
    (∃ added, (reached callbacks l asked earlier later in_).man.out =
      (serve (processLine callbacks) Management.halt asked.man (earlier.map chars)).out ++ added ∧ ∀ line ∈ added,
        Ignored line) ∧
    (reached callbacks l asked earlier later in_).man.out.length ≤ allSaid callbacks l asked lines := by
  obtain ⟨closing, closed, ignored⟩ := exchange.closing
  by_cases last : later = []
  · subst last
    rw [List.append_nil] at split
    subst split
    refine ⟨⟨closing, ?_, ignored⟩, ?_⟩
    · rw [reached, if_pos rfl]
      exact closed
    · rw [reached, if_pos rfl]
      exact le_rfl
  · refine ⟨⟨[], ?_, by simp⟩, ?_⟩
    · rw [reached, if_neg last, List.append_nil]
    · obtain ⟨others, whole, -⟩ := exchange.ignored earlier later [] (by rw [List.append_nil]; exact split)
      rw [reached, if_neg last, allSaid, closed, split, whole]
      simp only [List.length_append]
      omega

/-- What the process has said since the alert is ignored. -/
theorem answering_said (exchange : Exchange callbacks l asked.man commands lines) {state : Channel} {rest : List Text}
    {earlier later : List (List UInt8)} {in_ : ManRead.CommandLine bufLen}
    (way : Answering callbacks l asked thread commands lines state rest earlier later in_) :
    ∃ added, state.openvpn.man.out = asked.man.out ++ added ∧ ∀ line ∈ added, Ignored line := by
  obtain ⟨⟨closing, ended, closed⟩, -⟩ := reached_said exchange way.lines in_
  obtain ⟨added, out, ignored⟩ := exchange.ignored [] earlier later way.lines
  refine ⟨added ++ closing, ?_, List.forall_mem_append.mpr ⟨ignored, closed⟩⟩
  rw [way.openvpn, ended, ← List.append_assoc]
  exact congrArg (· ++ closing) out

/-- A step on the way: it leads on, and less is left to do. -/
def Advances (callbacks : Callbacks) (l : Loop) (asked : Process) (thread : Thread) (commands : List Text)
    (lines : List (List UInt8)) (state after : Channel) : Prop :=
  (∃ rest earlier later in_, Answering callbacks l asked thread commands lines after rest earlier later in_) ∧
    remaining (allSaid callbacks l asked lines) after < remaining (allSaid callbacks l asked lines) state

section Steps

variable {state after : Channel} {rest : List Text} {earlier later : List (List UInt8)}
  {in_ : ManRead.CommandLine bufLen}

private theorem answering_processCommand (exchange : Exchange callbacks l asked.man commands lines)
    (way : Answering callbacks l asked thread commands lines state rest earlier later in_) {env : Surroundings}
    (taken : ManagementChannel.step callbacks state (.processCommand env) = some after) :
    Advances callbacks l asked thread commands lines state after := by
  obtain ⟨added, said, ignored⟩ := answering_said exchange way
  obtain ⟨part, split, ready, open_, stream, same, openvpn, low, high⟩ := way
  have most := (reached_said exchange split in_).2
  rw [← openvpn] at most
  have unread : ∀ text ∈ state.openvpn.man.out.drop state.seen, text.length + 2 < errBufSize := by
    intro text member
    rw [said, List.drop_append, List.drop_eq_nil_of_le low, List.nil_append] at member
    exact (ignored text (List.mem_of_mem_drop member)).fits
  rw [step_processCommand _ unread] at taken
  split at taken
  next line there =>
    simp only [Option.ite_none_right_eq_some, Option.some.injEq] at taken
    obtain ⟨-, rfl⟩ := taken
    have inside := (List.getElem?_eq_some_iff.mp there).1
    have member : line ∈ added := by
      rw [said, List.getElem?_append_right low] at there
      exact List.mem_of_getElem? there
    have kept := (ignored line member).same env state.thread
    refine ⟨⟨rest, earlier, later, in_, part, split, ready, open_, stream, kept.trans same, openvpn,
      Nat.le_succ_of_le low, inside⟩, ?_⟩
    simp only [remaining, kept]
    omega
  · cases taken

private theorem answering_write (way : Answering callbacks l asked thread commands lines state rest earlier later in_)
    (taken : ManagementChannel.step callbacks state .write = some after) :
    Advances callbacks l asked thread commands lines state after := by
  obtain ⟨part, split, ready, open_, stream, same, openvpn, low, high⟩ := way
  simp only [ManagementChannel.step, same] at taken
  split at taken
  next cmd outbox =>
    cases taken
    have shorter : outbox <:+ commands := (List.suffix_cons cmd outbox).trans part
    refine ⟨⟨outbox, earlier, later, in_, shorter, split, ready, open_, ?_, rfl, openvpn, low, high⟩, ?_⟩
    · rw [← stream, List.flatten_cons]
      simp [ManagementChannel.put, getBytes]
    · simp only [remaining, ManagementChannel.put, same, List.length_cons, List.flatten_cons, getBytes,
        Utf8.encode_append, List.length_append]
      omega
  · cases taken

private theorem answering_read (lawful : l.Lawful) (waits : asked.wait = l.wait)
    (exchange : Exchange callbacks l asked.man commands lines)
    (way : Answering callbacks l asked thread commands lines state rest earlier later in_) {n : Nat}
    (taken : ManagementChannel.step callbacks state (.read n) = some after) :
    Advances callbacks l asked thread commands lines state after := by
  obtain ⟨part, split, ready, open_, stream, same, openvpn, low, high⟩ := way
  simp only [ManagementChannel.step, Option.ite_none_right_eq_some] at taken
  obtain ⟨⟨positive, enough⟩, taken⟩ := taken
  obtain ⟨middle, there, rfl⟩ := Option.map_eq_some_iff.mp taken
  obtain ⟨process, reads, rfl⟩ := Option.map_eq_some_iff.mp there
  simp only [ManageQueries.step, Option.ite_none_right_eq_some, Option.some.injEq] at reads
  obtain ⟨⟨-, size⟩, rfl⟩ := reads
  have full : state.socket.take n ≠ [] := by
    rw [ne_eq, ← List.length_eq_zero_iff, List.length_take]
    omega
  have some_ : later ≠ [] := by
    rintro rfl
    have none : state.socket = [] := by
      simp only [unlines_nil, List.append_eq_nil_iff] at stream
      exact stream.1.2
    rw [none] at full
    exact full List.take_nil
  have parts : in_.buf.content ++ state.socket.take n ++ (state.socket.drop n ++ getBytes rest.flatten) =
      unlines 10 later := by
    rw [← stream, List.append_assoc, ← List.append_assoc (state.socket.take n), List.take_append_drop,
      List.append_assoc]
  have keeps : ∀ b ∈ state.socket.take n, kept b = true := by
    intro b member
    refine exchange.kept b ?_
    rw [exchange.bytes, split, unlines_append, ← parts]
    simp only [List.mem_append]
    exact .inr (.inl (.inr member))
  obtain ⟨now, left, in', same', ready', open', stream', step⟩ := read_answers lawful exchange split some_
    (s := { asked with man := serve (processLine callbacks) Management.halt asked.man (earlier.map chars), in_ })
    rfl waits ready open_ parts keeps full size
  have whole : lines = earlier ++ now ++ left := by rw [split, same', List.append_assoc]
  have here : ManageQueries.read callbacks (state.socket.take n) state.openvpn =
      reached callbacks l asked (earlier ++ now) left in' := by
    rw [openvpn, reached, if_neg some_, step]
    rfl
  refine ⟨⟨rest, earlier ++ now, left, in', part, whole, ready', open', ?_, same, here, low, ?_⟩, ?_⟩
  · rw [List.append_assoc]
    exact stream'
  · obtain ⟨added, out, -⟩ := exchange.ignored earlier now left whole
    obtain ⟨⟨closing', ended', -⟩, -⟩ := reached_said exchange whole in'
    have before : state.openvpn.man.out =
        (serve (processLine callbacks) Management.halt asked.man (earlier.map chars)).out := by
      rw [openvpn, reached, if_neg some_]
    change state.seen ≤ (ManageQueries.read callbacks (state.socket.take n) state.openvpn).man.out.length
    rw [here, ended', out, ← before]
    simp only [List.length_append]
    omega
  · simp only [remaining, List.length_drop]
    omega

/-- Serving steps keep on the way to the answer, and each is one of finitely many. -/
theorem answering_step (lawful : l.Lawful) (waits : asked.wait = l.wait)
    (exchange : Exchange callbacks l asked.man commands lines) {admits : Surroundings → Prop}
    {e : ManagementChannel.Event} (serving : Serving admits e)
    (taken : ManagementChannel.step callbacks state e = some after)
    (way : Answering callbacks l asked thread commands lines state rest earlier later in_) :
    Advances callbacks l asked thread commands lines state after := by
  cases e with
  | processCommand env => exact answering_processCommand exchange way taken
  | write => exact answering_write way taken
  | read n => exact answering_read lawful waits exchange way taken
  | _ => exact serving.elim

end Steps

theorem answering_over (lawful : l.Lawful) (connected : asked.connected = true) (running : thread.running = true)
    (exchange : Exchange callbacks l asked.man commands lines) {state : Channel} {rest : List Text}
    {earlier : List (List UInt8)} {in_ : ManRead.CommandLine bufLen}
    (way : Answering callbacks l asked thread commands lines state rest earlier [] in_) :
    Idle state ∧ state.thread = { thread with outbox := [] } ∧ state.openvpn.results =
      asked.results ++ [l.result (serve (processLine callbacks) Management.halt asked.man (lines.map chars))] := by
  have stream := way.stream
  rw [unlines_nil, List.append_eq_nil_iff, List.append_eq_nil_iff] at stream
  obtain ⟨⟨content, socket⟩, pending⟩ := stream
  have written : rest = [] := by
    cases rest with
    | nil => rfl
    | cons cmd rest =>
      have empty : cmd ++ rest.flatten = [] := bytesOf_eq_nil.mp (congrArg chars pending)
      exact absurd (List.append_eq_nil_iff.mp empty).1 (exchange.written cmd (way.part.mem List.mem_cons_self))
  subst written
  have all : lines = earlier := by rw [way.lines, List.append_nil]
  obtain ⟨added, said, ignored⟩ := answering_said exchange way
  subst all
  have openvpn : state.openvpn = l.finish { asked with
      man := serve (processLine callbacks) Management.halt asked.man (lines.map chars), in_ } := way.openvpn
  refine ⟨⟨?_, ?_, ?_, ?_, ?_, ?_, ?_, ?_, socket, way.high, fun line member => ?_, ?_, ?_⟩, way.thread, ?_⟩
  · rw [openvpn]
    exact connected
  · rw [openvpn]
    rfl
  · rw [openvpn]
    exact (lawful.clientVersion _).symm ▸ exchange.version
  · rw [openvpn]
    exact (lawful.halt _).trans exchange.halt
  · rw [openvpn]
    exact (lawful.signalReceived _).trans exchange.unsignalled
  · rw [openvpn]
    exact exchange.extra
  · rw [openvpn]
    exact way.ready
  · rw [openvpn]
    exact content
  · rw [said, List.drop_append, List.drop_eq_nil_of_le way.low, List.nil_append] at member
    exact ignored line (List.mem_of_mem_drop member)
  · rw [way.thread]
    exact running
  · rw [way.thread]
  · rw [openvpn]
    rfl

theorem answering_stuck (connected : asked.connected = true) {admits : Surroundings → Prop} {state : Channel}
    (stuck : ∀ e, Serving admits e → ManagementChannel.step callbacks state e = none) {rest : List Text}
    {earlier later : List (List UInt8)} {in_ : ManRead.CommandLine bufLen}
    (way : Answering callbacks l asked thread commands lines state rest earlier later in_) : later = [] := by
  have written : rest = [] := by
    cases rest with
    | nil => rfl
    | cons cmd rest =>
      have blocked := stuck .write trivial
      simp only [ManagementChannel.step, way.thread] at blocked
      cases blocked
  subst written
  have drained : state.socket = [] := by
    by_contra full
    have positive := List.length_pos_iff.mpr full
    have blocked := stuck (.read 1) trivial
    have alive : state.openvpn.connected = true := by
      rw [way.openvpn, reached_connected]
      exact connected
    have size : (state.socket.take 1).length ≤ readSize := (List.length_take_le ..).trans (by decide)
    have guard : 0 < 1 ∧ 1 ≤ state.socket.length := ⟨Nat.one_pos, positive⟩
    have guard' : state.openvpn.connected = true ∧ (state.socket.take 1).length ≤ readSize := ⟨alive, size⟩
    simp only [ManagementChannel.step, ManagementChannel.process, ManageQueries.step, if_pos guard, if_pos guard',
      Option.map_some] at blocked
    cases blocked
  have stream := way.stream
  have none : getBytes ([] : List Text).flatten = [] := rfl
  rw [drained, none, List.append_nil, List.append_nil] at stream
  cases later with
  | nil => rfl
  | cons line later =>
    refine absurd ?_ way.open_
    rw [stream, unlines_cons]
    simp

/-- An event by which the process begins a loop, with what it says. -/
structure Begins (callbacks : Callbacks) (l : Loop) (s : Channel) (e : ManagementChannel.Event) (asked : Process)
    (alert : Text) : Prop where
  step : ManagementChannel.step callbacks s e = some { s with openvpn := asked }
  wait : asked.wait = l.wait
  connected : asked.connected = s.openvpn.connected
  in_ : asked.in_ = s.openvpn.in_
  out : asked.man.out = s.openvpn.man.out ++ [alert]
  fits : alert.length + 2 < errBufSize
  results : asked.results = s.openvpn.results

/-- Behind the event every run of serving steps is bounded. It is on the way, with nothing
returned, or it has returned the result and the channel is idle again; it stops nowhere else. -/
def Completes (callbacks : Callbacks) (admits : Surroundings → Prop) (s : Channel) (e : ManagementChannel.Event)
    (thread : Thread) (result : Result) : Prop :=
  ∃ begun, ManagementChannel.step callbacks s e = some begun ∧ ∃ bound, ∀ events final,
    Run (ManagementChannel.step callbacks) (fun _ => Serving admits) begun events final → events.length ≤ bound ∧
      (final.openvpn.wait ≠ .main ∧ final.openvpn.results = s.openvpn.results ∧
          (∃ e, Serving admits e ∧ (ManagementChannel.step callbacks final e).isSome) ∨
        Idle final ∧ final.thread = thread ∧ final.openvpn.results = s.openvpn.results ++ [result])

section Completing

variable {s : Channel} {e : ManagementChannel.Event} {alert : Text} {admits : Surroundings → Prop}

/-- The channel before the thread has read the alert: it has read so many of the lines before it. -/
abbrev unread (s : Channel) (asked : Process) (k : Nat) : Channel := { s with openvpn := asked, seen := s.seen + k }

private theorem Begins.unread_fits (begins : Begins callbacks l s e asked alert) (idle : Idle s) (k : Nat) :
    ∀ text ∈ asked.man.out.drop (s.seen + k), text.length + 2 < errBufSize := by
  intro text member
  have later : text ∈ asked.man.out.drop s.seen := by
    rw [← List.drop_drop] at member
    exact List.mem_of_mem_drop member
  rw [begins.out, List.drop_append, List.mem_append] at later
  rcases later with old | new
  · exact (idle.unread text old).fits
  · rw [List.mem_singleton.mp (List.mem_of_mem_drop new)]
    exact begins.fits

/-- The answer is on its way when the thread has read the alert. -/
theorem alert_answering (idle : Idle s) (begins : Begins callbacks l s e asked alert)
    (exchange : Exchange callbacks l asked.man commands lines) {k : Nat}
    (last : s.seen + k = s.openvpn.man.out.length) {after : Channel} (seen : after.seen = s.seen + k + 1)
    (socket : after.socket = s.socket) (openvpn : after.openvpn = asked)
    (asks : after.thread = { thread with outbox := commands }) :
    Answering callbacks l asked thread commands lines after commands [] lines s.openvpn.in_ := by
  have size : asked.man.out.length = s.openvpn.man.out.length + 1 := by
    rw [begins.out, List.length_append, List.length_singleton]
  refine ⟨List.suffix_rfl, rfl, idle.ready, ?_, ?_, asks, ?_, ?_, ?_⟩
  · rw [idle.content]
    exact List.not_mem_nil
  · rw [idle.content, socket, idle.socket]
    exact exchange.bytes
  · rw [openvpn, reached, if_neg exchange.nonempty, ← begins.in_]
    rfl
  · omega
  · rw [openvpn]
    omega

/-- Until the thread reads the alert nothing else can be done. -/
theorem unread_step (idle : Idle s) (begins : Begins callbacks l s e asked alert)
    (exchange : Exchange callbacks l asked.man commands lines)
    (asks : ∀ env, admits env →
      ManagementReplies.processCommand env (decoded alert) s.thread = { thread with outbox := commands })
    {k : Nat} (before : s.seen + k ≤ s.openvpn.man.out.length) {e' : ManagementChannel.Event}
    (serving : Serving admits e')
    {after : Channel} (taken : ManagementChannel.step callbacks (unread s asked k) e' = some after) :
    (s.seen + (k + 1) ≤ s.openvpn.man.out.length ∧ after = unread s asked (k + 1)) ∨
      (∃ rest earlier later in_, Answering callbacks l asked thread commands lines after rest earlier later in_) ∧
        k + 1 + remaining (allSaid callbacks l asked lines) after ≤
          remaining (allSaid callbacks l asked lines)
            { s with openvpn := asked, thread := { thread with outbox := commands } } := by
  have guard : s.thread.running = true ∧ s.thread.outbox = [] := ⟨idle.running, idle.outbox⟩
  cases e' with
  | processCommand env =>
    rw [step_processCommand _ (begins.unread_fits idle k)] at taken
    rcases Nat.lt_or_eq_of_le before with earlier | last
    · have there : asked.man.out[s.seen + k]? = some s.openvpn.man.out[s.seen + k] := by
        rw [begins.out, List.getElem?_append_left earlier, List.getElem?_eq_getElem earlier]
      have member : s.openvpn.man.out[s.seen + k] ∈ s.openvpn.man.out.drop s.seen :=
        List.mem_drop_iff_getElem.mpr ⟨k, by omega, by simp only⟩
      simp only [there, if_pos guard, Option.some.injEq] at taken
      subst taken
      refine .inl ⟨by omega, ?_⟩
      rw [(idle.unread _ member).same env s.thread, unread, Nat.add_assoc]
    · have there : asked.man.out[s.seen + k]? = some alert := by
        rw [begins.out, last]
        exact List.getElem?_concat_length
      simp only [there, if_pos guard, Option.some.injEq] at taken
      subst taken
      refine .inr ⟨⟨commands, [], lines, s.openvpn.in_,
        alert_answering idle begins exchange last rfl rfl rfl (asks env serving)⟩, ?_⟩
      have most := (reached_said exchange (List.nil_append lines).symm asked.in_).2
      rw [reached, if_neg exchange.nonempty] at most
      have enough : asked.man.out.length ≤ allSaid callbacks l asked lines := most
      rw [begins.out, List.length_append, List.length_singleton] at enough
      simp only [remaining, asks env serving]
      omega
  | write =>
    simp only [ManagementChannel.step, idle.outbox] at taken
    cases taken
  | read n =>
    simp only [ManagementChannel.step, idle.socket, List.length_nil, Option.ite_none_right_eq_some] at taken
    omega
  | _ => exact serving.elim

theorem serving_run (idle : Idle s) (lawful : l.Lawful) (begins : Begins callbacks l s e asked alert)
    (exchange : Exchange callbacks l asked.man commands lines)
    (asks : ∀ env, admits env →
      ManagementReplies.processCommand env (decoded alert) s.thread = { thread with outbox := commands })
    {events : List ManagementChannel.Event} {final : Channel}
    (run : Run (ManagementChannel.step callbacks) (fun _ => Serving admits) { s with openvpn := asked } events
      final) :
    (s.seen + events.length ≤ s.openvpn.man.out.length ∧ final = unread s asked events.length) ∨
      (∃ rest earlier later in_, Answering callbacks l asked thread commands lines final rest earlier later in_) ∧
        events.length + remaining (allSaid callbacks l asked lines) final ≤
          remaining (allSaid callbacks l asked lines)
            { s with openvpn := asked, thread := { thread with outbox := commands } } := by
  induction run with
  | nil => exact .inl ⟨idle.seen, rfl⟩
  | @snoc events middle e final before serving taken ih =>
    rw [List.length_append, List.length_singleton]
    rcases ih with ⟨some_, rfl⟩ | ⟨⟨rest, earlier, later, in_, way⟩, bound⟩
    · exact unread_step idle begins exchange asks some_ serving taken
    · obtain ⟨further, less⟩ := answering_step lawful begins.wait exchange serving taken way
      exact .inr ⟨further, by omega⟩

/-- A loop in an idle channel, left alone, is answered. -/
theorem loop_completes (thread : Thread) (idle : Idle s) (lawful : l.Lawful)
    (begins : Begins callbacks l s e asked alert) (running : thread.running = true)
    (exchange : Exchange callbacks l asked.man commands lines) (possible : ∃ env, admits env)
    (asks : ∀ env, admits env →
      ManagementReplies.processCommand env (decoded alert) s.thread = { thread with outbox := commands })
    {result : Result}
    (returns : l.result (serve (processLine callbacks) Management.halt asked.man (lines.map chars)) =
      result) : Completes callbacks admits s e { thread with outbox := [] } result := by
  subst returns
  obtain ⟨env, admitted⟩ := possible
  refine ⟨_, begins.step, remaining (allSaid callbacks l asked lines)
    { s with openvpn := asked, thread := { thread with outbox := commands } }, fun events final run => ?_⟩
  rcases serving_run idle lawful begins exchange asks run with ⟨some_, rfl⟩ |
    ⟨⟨rest, earlier, later, in_, way⟩, bound⟩
  · have inside : s.seen + events.length < asked.man.out.length := by
      rw [begins.out, List.length_append, List.length_singleton]
      omega
    have guard : s.thread.running = true ∧ s.thread.outbox = [] := ⟨idle.running, idle.outbox⟩
    have most := (reached_said exchange (List.nil_append lines).symm asked.in_).2
    rw [reached, if_neg exchange.nonempty] at most
    have enough : asked.man.out.length ≤ allSaid callbacks l asked lines := most
    refine ⟨by simp only [remaining]; omega, .inl ⟨?_, begins.results, .processCommand env, admitted, ?_⟩⟩
    · exact begins.wait ▸ lawful.waits
    · rw [step_processCommand _ (begins.unread_fits idle events.length)]
      simp only [List.getElem?_eq_getElem inside, if_pos guard, Option.isSome_some]
  · refine ⟨(Nat.le_add_right _ _).trans bound, ?_⟩
    have connected : asked.connected = true := begins.connected.trans idle.connected
    by_cases last : later = []
    · subst last
      rw [← begins.results]
      exact .inr (answering_over lawful connected running exchange way)
    · have openvpn := way.openvpn
      rw [reached, if_neg last] at openvpn
      refine .inl ⟨?_, ?_, ?_⟩
      · rw [openvpn]
        exact begins.wait ▸ lawful.waits
      · rw [openvpn]
        exact begins.results
      · by_contra none
        have stuck : ∀ e, Serving admits e → ManagementChannel.step callbacks final e = Option.none :=
          fun e serving => Option.not_isSome_iff_eq_none.mp fun enabled => none ⟨e, serving, enabled⟩
        exact last (answering_stuck connected stuck way)

end Completing

/-! ### Answers of several commands -/

/-- A command that is taken whole and answered with a line that the thread ignores. -/
structure Taken (callbacks : Callbacks) (l : Loop) (man : Management) (body : Text) (after : Management) : Prop where
  clean : ∀ c ∈ body, printable c
  short : (getBytes body).length ≤ bufLen - readSize
  open_ : Open l man
  same : processLine callbacks man (received body) = after
  said : ∃ added, after.out = man.out ++ added ∧ ∀ line ∈ added, Ignored line

inductive Chain (callbacks : Callbacks) (l : Loop) : Management → List Text → Management → Prop where
  | nil (man) : Chain callbacks l man [] man
  | cons {man body middle bodies final} (taken : Taken callbacks l man body middle)
      (rest : Chain callbacks l middle bodies final) : Chain callbacks l man (body :: bodies) final

theorem ignored_of_head {line : Text} (fits : line.length + 2 < errBufSize)
    (other : (decoded line).head? ≠ some '>') : Ignored line := by
  refine ⟨fits, fun env t => ?_⟩
  unfold ManagementReplies.processCommand
  split
  next begins _ => exact absurd (by rw [begins]; rfl) other
  · rfl

private theorem kept_getBytes {body : Text} (clean : ∀ c ∈ body, printable c) :
    ∀ b ∈ getBytes body, kept b = true := by
  have bytes := (forall_bytesOf printable_beyond body).mpr clean
  exact fun b member => (kept_iff b).mpr (.inl (bytes _ (List.mem_map_of_mem member)))

private theorem line_getBytes {body : Text} (clean : ∀ c ∈ body, printable c) : 10 ∉ getBytes body := by
  have bytes := (forall_bytesOf printable_beyond body).mpr clean
  intro member
  exact absurd (bytes (Char.ofNat (10 : UInt8).toNat) (List.mem_map_of_mem member)) (by decide)

private theorem getBytes_lines (bodies : List Text) :
    getBytes (bodies.map (· ++ ['\n'])).flatten = unlines 10 (bodies.map getBytes) := by
  have newline : getBytes ['\n'] = [10] := by decide +kernel
  induction bodies with
  | nil => rfl
  | cons body bodies ih =>
    rw [List.map_cons, List.map_cons, List.flatten_cons, unlines_cons, getBytes, Utf8.encode_append,
      Utf8.encode_append]
    change getBytes body ++ getBytes ['\n'] ++ getBytes _ = _
    rw [newline, ih, List.append_assoc, List.singleton_append]

namespace Chain

variable {man final : Management} {bodies : List Text}

private theorem clean (chain : Chain callbacks l man bodies final) :
    ∀ body ∈ bodies, (∀ c ∈ body, printable c) ∧ (getBytes body).length ≤ bufLen - readSize := by
  induction chain with
  | nil => simp
  | cons taken _ ih => exact List.forall_mem_cons.mpr ⟨⟨taken.clean, taken.short⟩, ih⟩

theorem texts {part : List Text} (chain : Chain callbacks l man bodies final) (inside : part ⊆ bodies) :
    (part.map getBytes).map chars = part.map received := by
  rw [List.map_map]
  exact List.map_congr_left fun body member => (received_printable (chain.clean body (inside member)).1).symm

theorem serve {earlier later : List Text} (chain : Chain callbacks l man bodies final)
    (split : bodies = earlier ++ later) :
    Chain callbacks l (CommandFraming.serve (processLine callbacks) Management.halt man
      (earlier.map received)) later final := by
  induction earlier generalizing man bodies with
  | nil =>
    subst split
    exact chain
  | cons body earlier ih =>
    cases chain with
    | nil => cases split
    | cons taken rest =>
      cases split
      rw [List.map_cons, serve_cons _ _ taken.open_.halt, taken.same]
      exact ih rest rfl

theorem reaches (chain : Chain callbacks l man bodies final) :
    CommandFraming.serve (processLine callbacks) Management.halt man (bodies.map received) = final := by
  have ended : Chain callbacks l (CommandFraming.serve (processLine callbacks) Management.halt man
      (bodies.map received))
      [] final := chain.serve (List.append_nil bodies).symm
  generalize CommandFraming.serve (processLine callbacks) Management.halt man (bodies.map received) =
    reached at ended ⊢
  cases ended
  rfl

private theorem said {now later : List Text} (chain : Chain callbacks l man bodies final)
    (split : bodies = now ++ later) :
    ∃ added, (CommandFraming.serve (processLine callbacks) Management.halt man (now.map received)).out =
      man.out ++ added ∧ ∀ line ∈ added, Ignored line := by
  induction now generalizing man bodies with
  | nil => exact ⟨[], (List.append_nil _).symm, by simp⟩
  | cons body now ih =>
    cases chain with
    | nil => cases split
    | cons taken rest =>
      cases split
      obtain ⟨added, out, ignored⟩ := ih rest rfl
      obtain ⟨here, said, other⟩ := taken.said
      rw [List.map_cons, serve_cons _ _ taken.open_.halt, taken.same, out, said, List.append_assoc]
      exact ⟨here ++ added, rfl, List.forall_mem_append.mpr ⟨other, ignored⟩⟩

theorem exchange (chain : Chain callbacks l man bodies final) (nonempty : bodies ≠ []) {commands : List Text}
    (flat : commands.flatten = (bodies.map (· ++ ['\n'])).flatten) (written : ∀ cmd ∈ commands, cmd ≠ [])
    (halt : final.halt = false) (unsignalled : final.signalReceived = none) (version : 1 < final.clientVersion)
    (ended : l.ends final = true) (extra : (l.leave final).inExtra = none)
    (closing : ∃ added, (l.leave final).out = final.out ++ added ∧ ∀ line ∈ added, Ignored line) :
    Exchange callbacks l man commands (bodies.map getBytes) := by
  have all : ∀ line ∈ bodies.map getBytes, ∃ body ∈ bodies, line = getBytes body := fun line member => by
    obtain ⟨body, inside, rfl⟩ := List.mem_map.mp member
    exact ⟨body, inside, rfl⟩
  have ends := chain.reaches
  rw [← chain.texts (List.Subset.refl _)] at ends
  refine ⟨by rw [flat, getBytes_lines], written, fun b member => ?_, by simpa using nonempty, fun line member => ?_,
    fun line member => ?_, fun first second split some_ => ?_, by rw [ends]; exact halt,
    by rw [ends]; exact unsignalled, by rw [ends]; exact version, by rw [ends]; exact ended,
      by rw [ends]; exact extra,
    fun first now second split => ?_, by rw [ends]; exact closing⟩
  · rw [flat, getBytes_lines] at member
    obtain ⟨line, inside, at_⟩ := List.mem_flatMap.mp member
    obtain ⟨body, known, rfl⟩ := all line inside
    rcases List.mem_append.mp at_ with part | newline
    · exact kept_getBytes (chain.clean body known).1 b part
    · rw [List.mem_singleton.mp newline]
      decide
  · obtain ⟨body, known, rfl⟩ := all line member
    exact line_getBytes (chain.clean body known).1
  · obtain ⟨body, known, rfl⟩ := all line member
    exact (chain.clean body known).2
  · obtain ⟨earlier, later, rfl, rfl, rfl⟩ := List.map_eq_append_iff.mp split
    have rest := chain.serve rfl
    rw [chain.texts (List.subset_append_left ..)]
    generalize CommandFraming.serve (processLine callbacks) Management.halt man (earlier.map received) =
      reached at rest ⊢
    cases rest with
    | nil => exact absurd rfl some_
    | cons taken _ => exact taken.open_
  · obtain ⟨both, later, rfl, two, rfl⟩ := List.map_eq_append_iff.mp split
    obtain ⟨earlier, middle, rfl, rfl, rfl⟩ := List.map_eq_append_iff.mp two
    have behind : Chain callbacks l _ (middle ++ later) final := chain.serve (List.append_assoc ..)
    obtain ⟨added, out, ignored⟩ := behind.said rfl
    refine ⟨added, ?_, ignored⟩
    rw [← two, chain.texts (List.subset_append_left ..), List.map_append, serve_append, out,
      chain.texts fun body member => List.mem_append_left _ (List.mem_append_left _ member)]

end Chain

end RRoadVpn.Proofs.LoopCompletes
