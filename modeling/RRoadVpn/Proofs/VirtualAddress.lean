import RRoadVpn.Library.Split
import RRoadVpn.Proofs.ProxyQueries
import RRoadVpn.StateReport

/-! The virtual address that is reported for a connection. It is looked for at a comma of a
text that was made for the reader, which has none where the server assigned an address of
each kind. -/

namespace RRoadVpn.Proofs.VirtualAddress
open Library StateReport
open JavaText (Text)

/-! ### The line -/

/-- The fields of the line for an established connection. -/
structure Line where
  time : Text
  ip4 : Text
  remote : Text
  port : Text
  localAddress : Text
  localPort : Text
  ip6 : Option Text
  plain : ∀ field ∈ [time, ip4, remote, port, localAddress, localPort] ++ ip6.toList, ',' ∉ field

namespace Line

variable (line : Line)

def trailing : List Text := [line.ip4, line.remote, line.port, line.localAddress, line.localPort] ++ line.ip6.toList

def msg : Text := [','].intercalate ("SUCCESS".toList :: line.trailing)

def argument : Text := line.time ++ ',' :: ("CONNECTED".toList ++ ',' :: line.msg)

end Line

variable (line : Line)

private theorem trailing_plain : ∀ field ∈ line.trailing, ',' ∉ field := by
  intro field member
  refine line.plain field ?_
  rw [Line.trailing] at member
  simp only [List.cons_append, List.mem_cons, List.nil_append] at member ⊢
  exact Or.inr member

private theorem split_argument : ProxyQuery.split 3 line.argument = [line.time, "CONNECTED".toList, line.msg] := by
  have time : ',' ∉ line.time := line.plain line.time (by simp)
  rw [Line.argument, ProxyQueries.split_comma 1 time, ProxyQueries.split_comma 0 (by decide)]
  rfl

/-! ### Splitting -/

private theorem split_nonempty {text : Text} (nonempty : text ≠ []) :
    JavaText.split ',' text = (text.splitOn ',').rdropWhile (· == []) := by
  rw [JavaText.split]
  split
  next => rfl
  next absent => rw [List.splitOn_eq_singleton absent, List.rdropWhile_singleton, if_neg (by simpa using nonempty)]

theorem stripped_nonempty {text : Text} {c : Char} (member : c ∈ text) (other : c ≠ ',') :
    text.rdropWhile (· == ',') ≠ [] := by
  intro empty
  exact other (by simpa using List.rdropWhile_eq_nil_iff.mp empty c member)

/-- The second part of a text with a first one that is not empty, after the commas at its end are dropped. -/
theorem second_part {first : Text} {fields : List Text} (nonempty : first ≠ []) (plain : ',' ∉ first)
    (clean : ∀ field ∈ fields, ',' ∉ field) :
    (JavaText.split ',' (([','].intercalate (first :: fields)).rdropWhile (· == ',')))[1]? =
      (fields.rdropWhile (· == []))[0]? := by
  have parts : ([','].intercalate (first :: fields)).splitOn ',' = first :: fields := by
    refine List.splitOn_intercalate _ ?_ (List.cons_ne_nil _ _)
    exact List.forall_mem_cons.mpr ⟨plain, clean⟩
  obtain ⟨c, inside⟩ := List.exists_mem_of_ne_nil first nonempty
  have other : c ≠ ',' := fun same => plain (same ▸ inside)
  have member : c ∈ [','].intercalate (first :: fields) := by
    cases fields with
    | nil => rwa [List.intercalate_singleton]
    | cons next fields => simp [List.intercalate_cons_cons, inside]
  rw [split_nonempty (stripped_nonempty member other), splitOn_rdropWhile, parts,
    rdropWhile_cons (by simpa using nonempty),
    List.getElem?_cons_succ]

/-! ### The state -/

variable {c : Context}

private theorem message_parts (line : Line) :
    JavaText.split ',' line.msg = "SUCCESS".toList :: line.trailing.rdropWhile
    (· == []) := by
  have parts : line.msg.splitOn ',' = "SUCCESS".toList :: line.trailing := by
    refine List.splitOn_intercalate _ ?_ (List.cons_ne_nil _ _)
    exact List.forall_mem_cons.mpr ⟨by decide, trailing_plain line⟩
  have nonempty : line.msg ≠ [] := by
    simp [Line.msg, Line.trailing, List.intercalate_cons_cons]
  rw [split_nonempty nonempty, parts, rdropWhile_cons (by decide)]

theorem parts_seven (line : Line) : 7 ≤ (JavaText.split ',' line.msg).length ↔ line.ip6.getD [] ≠ [] := by
  rw [message_parts, List.length_cons, Line.trailing]
  have short (l : List Text) (five : l.length = 5) : ¬ 7 ≤ (l.rdropWhile (· == [])).length + 1 := by
    have few := (List.rdropWhile_prefix (p := (· == [])) (l := l)).length_le
    omega
  cases line.ip6 with
  | none =>
    rw [Option.toList_none, List.append_nil]
    exact iff_of_false (short _ rfl) (not_not_intro rfl)
  | some ip6 =>
    rw [Option.toList_some, Option.getD_some]
    by_cases empty : ip6 = []
    · rw [List.rdropWhile_concat_pos _ _ _ (by simp [empty])]
      exact iff_of_false (short _ rfl) (not_not_intro empty)
    · rw [List.rdropWhile_concat_neg _ _ _ (by simpa using empty)]
      exact iff_of_true (Nat.le_refl 7) empty

/-- The state after the line, before the listener is called. -/
def connected (line : Line) (s : State) : State :=
  { s with mLaststate := "CONNECTED".toList, mLaststatemsg := line.msg, mLastStateresid := .state_connected,
           mLastLevel := .LEVEL_CONNECTED }

private theorem processState_argument (line : Line) (s : State) :
    processState c line.argument s = onConnect c (connected line s) := by
  have other : line.msg ≠ ",,".toList := by
    simp [Line.msg, Line.trailing, List.intercalate_cons_cons]
  simp only [processState, split_argument, List.getElem?_cons_succ, List.getElem?_cons_zero, Option.bind_eq_bind,
    Option.bind_some,
    if_neg other]
  have resid : getLocalizedState "CONNECTED".toList = .state_connected := by decide +kernel
  have level : getLevel "CONNECTED".toList = .LEVEL_CONNECTED := by decide +kernel
  have waits : ¬ (s.mLastLevel = .LEVEL_CONNECTED ∧
      ("CONNECTED".toList = "WAIT".toList ∨ "CONNECTED".toList = "AUTH".toList)) :=
    fun guard => absurd guard.2 (by decide)
  rw [resid, level, updateStateString, if_neg waits]
  rfl

/-- The message is made of the text in the user's language and a part of what was reported. -/
theorem getLastCleanLogMessage_connected {s : State} {msg message : Text} (level : s.mLastLevel = .LEVEL_CONNECTED)
    (resid : s.mLastStateresid = .state_connected) (running : s.mLaststate ≠ "NOPROCESS".toList)
    (told : s.mLaststatemsg = msg) (made : (if 7 ≤ (JavaText.split ',' msg).length then
        (JavaText.split ',' msg)[1]?.getD [] ++ ' ' :: (JavaText.split ',' msg)[6]?.getD []
      else msg).rdropWhile (· == ',') = message) (nonempty : message ≠ []) :
    getLastCleanLogMessage c s = c.getString .state_connected ++ ": ".toList ++ message := by
  simp only [getLastCleanLogMessage, level, resid, if_neg running, told, true_and, made, reduceCtorEq, if_false,
    if_neg nonempty]

private theorem connected_running (line : Line) (s : State) : (connected line s).mLaststate ≠ "NOPROCESS".toList := by
  have apart : "CONNECTED".toList ≠ "NOPROCESS".toList := by decide +kernel
  exact apart

private theorem message_both (line : Line) (s : State) (both : line.ip6.getD [] ≠ []) :
    getLastCleanLogMessage c (connected line s) =
    c.getString .state_connected ++ ": ".toList ++ (line.ip4 ++ ' ' :: line.ip6.getD []) := by
  have told : (connected line s).mLaststatemsg = line.msg := rfl
  refine getLastCleanLogMessage_connected rfl rfl (connected_running line s) told ?_ (by simp)
  rw [if_pos ((parts_seven line).mpr both), message_parts, Line.trailing]
  cases six : line.ip6 with
  | none => exact absurd (by rw [six]; rfl) both
  | some ip6 =>
    rw [six, Option.getD_some] at both
    have plain : ',' ∉ ip6 := line.plain ip6 (by simp [six])
    obtain ⟨init, last, rfl⟩ := (List.eq_nil_or_concat' ip6).resolve_left both
    have other : last ≠ ',' := by
      rintro rfl
      exact plain (by simp)
    rw [Option.toList_some, List.rdropWhile_concat_neg _ _ _ (by simp), Option.getD_some]
    simp only [List.cons_append, List.nil_append, List.getElem?_cons_succ, List.getElem?_cons_zero, Option.getD_some]
    rw [← List.cons_append, ← List.append_assoc, List.rdropWhile_concat_neg _ _ _ (by simpa using other)]

private theorem message_one (line : Line) (s : State) (one : line.ip6.getD [] = []) :
    getLastCleanLogMessage c (connected line s) =
    c.getString .state_connected ++ ": ".toList ++ line.msg.rdropWhile (· == ',') := by
  have inside : 'S' ∈ line.msg := by
    simp [Line.msg, Line.trailing, List.intercalate_cons_cons]
  have told : (connected line s).mLaststatemsg = line.msg := rfl
  refine getLastCleanLogMessage_connected rfl rfl (connected_running line s) told ?_
    (stripped_nonempty inside (by decide))
  rw [if_neg fun seven => (parts_seven line).mp seven one]

private theorem onConnect_again {s : State} (was : s.WAS_CONNECTED = true) : onConnect c s = some s := by
  simp only [onConnect, was, if_true, pure]

private theorem onConnect_new {s : State} (was : s.WAS_CONNECTED = false) : onConnect c s =
    (JavaText.split ',' (getLastCleanLogMessage c s))[1]?.map fun virtualIP =>
      { s with WAS_CONNECTED := true, afterConnectedToVPN := s.afterConnectedToVPN ++ [virtualIP] } := by
  simp only [onConnect, was, Bool.false_eq_true, if_false, Option.bind_eq_bind, Option.pure_def]
  exact Option.map_eq_bind.symm

private theorem trailing_one (line : Line) (one : line.ip6.getD [] = []) : line.trailing.rdropWhile (· == []) =
    [line.ip4, line.remote, line.port, line.localAddress, line.localPort].rdropWhile (· == []) := by
  rw [Line.trailing]
  cases six : line.ip6 with
  | none => rw [Option.toList_none, List.append_nil]
  | some ip6 =>
    rw [six, Option.getD_some] at one
    rw [Option.toList_some, List.rdropWhile_concat_pos _ _ _ (by simp [one])]

section Second

variable (label : ',' ∉ c.getString .state_connected) (line : Line) (s : State)
include label

theorem second_one (one : line.ip6.getD [] = []) :
    (JavaText.split ',' (getLastCleanLogMessage c (connected line s)))[1]? =
    if ∀ field ∈ [line.ip4, line.remote, line.port, line.localAddress, line.localPort], field = [] then none
    else some line.ip4 := by
  have inside : 'S' ∈ line.msg := by
    simp [Line.msg, Line.trailing, List.intercalate_cons_cons]
  have whole : c.getString .state_connected ++ ": ".toList ++ line.msg =
      [','].intercalate ((c.getString .state_connected ++ ": SUCCESS".toList) :: line.trailing) := by
    simp [Line.msg, Line.trailing, List.intercalate_cons_cons]
  rw [message_one line s one, ← rdropWhile_append _ (stripped_nonempty inside (by decide)), whole,
    second_part (by simp) (by simpa using label) (trailing_plain line), trailing_one line one, rdropWhile_head]
  simp only [beq_iff_eq]

theorem second_both (both : line.ip6.getD [] ≠ []) :
    (JavaText.split ',' (getLastCleanLogMessage c (connected line s)))[1]? = none := by
  have first : ',' ∉ line.ip4 := line.plain line.ip4 (by simp)
  have other : ',' ∉ line.ip6.getD [] := by
    cases six : line.ip6 with
    | none => simp
    | some ip6 => exact line.plain ip6 (by simp [six])
  rw [message_both line s both, JavaText.split, if_neg (by simpa using ⟨label, first, other⟩)]
  rfl

end Second

/-! ### Main result -/

/-- The address is reported, and nothing is thrown. -/
def Reports (c : Context) (line : Line) (s : State) : Prop :=
  ∃ s', processState c line.argument s = some s' ∧ s'.afterConnectedToVPN = s.afterConnectedToVPN ++ [line.ip4]

/-- For a new connection it depends on the second part of the message. -/
theorem reports_second (line : Line) {s : State} (was : s.WAS_CONNECTED = false) : Reports c line s ↔
    (JavaText.split ',' (getLastCleanLogMessage c (connected line s)))[1]? = some line.ip4 := by
  have new : onConnect c (connected line s) = _ := onConnect_new was
  rw [Reports, processState_argument, new]
  cases (JavaText.split ',' (getLastCleanLogMessage c (connected line s)))[1]? with
  | none => simp
  | some virtualIP =>
    have kept : (connected line s).afterConnectedToVPN = s.afterConnectedToVPN := rfl
    simp only [Option.map_some, Option.some.injEq, exists_eq_left', kept, List.append_cancel_left_eq,
      List.cons.injEq, and_true]

theorem not_reports_again (line : Line) {s : State} (was : s.WAS_CONNECTED = true) : ¬ Reports c line s := by
  have again : onConnect c (connected line s) = _ := onConnect_again was
  rintro ⟨s', after, reported⟩
  rw [processState_argument, again] at after
  rw [← Option.some.inj after] at reported
  have none_ := List.append_cancel_left ((List.append_nil _).trans reported)
  cases none_

/-- The address of a new connection is reported exactly when the server assigned none of the
other kind, and not all of the other fields are empty. -/
theorem reports_exact (line : Line) (s : State) (label : ',' ∉ c.getString .state_connected) :
    Reports c line s ↔ s.WAS_CONNECTED = false ∧ line.ip6.getD [] = [] ∧
      ∃ field ∈ [line.ip4, line.remote, line.port, line.localAddress, line.localPort], field ≠ [] := by
  cases was : s.WAS_CONNECTED with
  | true => simp [not_reports_again line was]
  | false =>
    rw [reports_second line was]
    by_cases one : line.ip6.getD [] = []
    · have some_ : (∃ field ∈ [line.ip4, line.remote, line.port, line.localAddress, line.localPort], field ≠ []) ↔
          ¬ ∀ field ∈ [line.ip4, line.remote, line.port, line.localAddress, line.localPort], field = [] := by
        simp only [not_forall, exists_prop]
      rw [second_one label line s one, some_]
      split
      next all => exact iff_of_false (by simp) fun conditions => conditions.2.2 all
      next other => exact iff_of_true rfl ⟨rfl, one, other⟩
    · rw [second_both label line s one]
      simp [one]

def assigned : Line where
  time := ['1']
  ip4 := "10.8.0.6".toList
  remote := "192.0.2.1".toList
  port := []
  localAddress := []
  localPort := []
  ip6 := none
  plain := by simp

def english : Context := ⟨fun _ => "Connected".toList, fun _ => []⟩

theorem reports_exact_assigned : Reports english assigned {} :=
  (reports_exact assigned {} (by decide +kernel)).mpr ⟨rfl, rfl, assigned.ip4, List.mem_cons_self, by decide +kernel⟩

/-- The same with an address of the other kind, where the listener throws. -/
def assignedBoth : Line where
  time := ['1']
  ip4 := "10.8.0.6".toList
  remote := "192.0.2.1".toList
  port := []
  localAddress := []
  localPort := []
  ip6 := some "2001:db8::6".toList
  plain := by simp

theorem second_address_throws : (processState english assignedBoth.argument {}).isNone = true ∧
    ¬ Reports english assignedBoth {} := by
  have throws : (processState english assignedBoth.argument {}).isNone = true := by decide +kernel
  refine ⟨throws, ?_⟩
  rintro ⟨s', completes, -⟩
  rw [completes] at throws
  cases throws

end RRoadVpn.Proofs.VirtualAddress
