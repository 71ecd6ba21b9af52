import Mathlib.Data.List.Nodup
import RRoadVpn.StatusService
import RRoadVpn.Library.Runs

/-! What a client receives. An item reaches it through the pipe or through the
broadcasts, and which of them is decided when the callback is registered. -/

namespace RRoadVpn.Proofs.StatusClient
open RRoadVpn.Library RRoadVpn.StatusService

def queuedLogs (s : State) : List LogObject :=
  s.messages.filterMap fun
    | .SEND_NEW_LOGITEM obj => some obj
    | .SEND_NEW_STATE _ => none

def queuedStates (s : State) : List UpdateMessage :=
  s.messages.filterMap fun
    | .SEND_NEW_LOGITEM _ => none
    | .SEND_NEW_STATE obj => some obj

def piped (s : State) : List LogObject := s.taken.takeWhile crosses

/-- Every item of the snapshot or after it was received once, and the last state is the server's. -/
structure Complete (s : State) : Prop where
  items : ∀ obj ∈ s.taken ++ s.later, s.received.count obj = 1
  state : s.status = s.mLastUpdateMessage

/-- The queue, the pipe and a state update in progress are drained for a registered client. -/
structure Drained (s : State) : Prop where
  registered : s.registration = .registered
  messages : s.messages = []
  pushing : s.pushing = []
  sending : s.sending = none

/-- At the registration, the broadcasts still to come and the pipe share the items. -/
structure Shared (s : State) : Prop where
  taken : ∀ obj ∈ s.taken, obj ∈ queuedLogs s ↔ obj ∉ piped s
  later : ∀ obj ∈ s.later, obj ∈ queuedLogs s

def Informed (s : State) : Prop := s.status = s.mLastUpdateMessage ∨ s.sending ≠ none ∨ queuedStates s ≠ []

/-! ### Objects -/

/-- Objects below `n`, each once. -/
def Below (n : Nat) (objs : List LogObject) : Prop := objs.Nodup ∧ ∀ obj ∈ objs, obj.number < n

theorem Below.nil {n : Nat} : Below n [] := ⟨List.nodup_nil, by simp⟩

theorem Below.sublist {n : Nat} {some all : List LogObject} (below : Below n all) (part : some.Sublist all) :
    Below n some := ⟨below.1.sublist part, fun obj member => below.2 obj (part.subset member)⟩

theorem Below.not_mem {n : Nat} {objs : List LogObject} (below : Below n objs) {obj : LogObject}
    (above : n ≤ obj.number) : obj ∉ objs := by
  intro member
  have smaller := below.2 obj member
  omega

private theorem Below.succ {n : Nat} {objs : List LogObject} (below : Below n objs) : Below (n + 1) objs :=
  ⟨below.1, fun obj member => Nat.lt_succ_of_lt (below.2 obj member)⟩

theorem Below.cons {n : Nat} {objs : List LogObject} (below : Below n objs) (item : LogItem) :
    Below (n + 1) (⟨n, item⟩ :: objs) := by
  refine ⟨List.nodup_cons.mpr ⟨below.not_mem (Nat.le_refl n), below.1⟩, ?_⟩
  intro obj member
  rcases List.mem_cons.mp member with rfl | member
  · exact Nat.lt_succ_self n
  · exact Nat.lt_succ_of_lt (below.2 obj member)

theorem Below.snoc {n : Nat} {objs : List LogObject} (below : Below n objs) (item : LogItem) :
    Below (n + 1) (objs ++ [⟨n, item⟩]) := by
  obtain ⟨nodup, smaller⟩ := below.cons item
  refine ⟨List.nodup_append_comm.mp nodup, ?_⟩
  intro obj member
  rcases List.mem_append.mp member with member | member
  · exact smaller obj (List.mem_cons_of_mem _ member)
  · exact smaller obj (List.mem_singleton.mp member ▸ List.mem_cons_self)

private theorem Below.trim {n : Nat} {objs : List LogObject} (below : Below n objs) : Below n (trim objs) := by
  unfold StatusService.trim
  split
  · exact below.sublist (List.drop_sublist _ _)
  · exact below

/-- Every list of objects has each once, and the items after the snapshot are not in it. -/
structure Numbered (s : State) : Prop where
  logbuffer : Below s.objects s.logbuffer
  taken : Below s.objects s.taken
  later : Below s.objects s.later
  queued : Below s.objects (queuedLogs s)
  apart : ∀ obj ∈ s.taken, obj ∉ s.later
  called : s.registration = .called → s.later = []
  unregistered : s.registration ≠ .registered → s.received = [] ∧ s.pushing = []

theorem numbered_start (logged : List LogItem) : Numbered (start logged) := by
  have numbers : (start logged).logbuffer.map LogObject.number = List.range logged.length := by
    simp [start, List.range_eq_range', List.mapIdx_eq_zipIdx_map, Function.comp_def]
  refine ⟨⟨?_, ?_⟩, .nil, .nil, .nil, by simp [start], fun _ => rfl, fun _ => ⟨rfl, rfl⟩⟩
  · apply List.Nodup.of_map LogObject.number
    rw [numbers]
    exact List.nodup_range
  · intro obj member
    have there := List.mem_map_of_mem (f := LogObject.number) member
    rw [numbers, List.mem_range] at there
    exact there

/-! ### What the steps do to the queue -/

theorem queuedLogs_newLogItem (item : LogItem) (cachedLine : Bool) (s : State) :
    queuedLogs (newLogItem item cachedLine s) = queuedLogs s ++ [⟨s.objects, item⟩] := by
  simp [queuedLogs, newLogItem]

theorem queuedStates_newLogItem (item : LogItem) (cachedLine : Bool) (s : State) :
    queuedStates (newLogItem item cachedLine s) = queuedStates s := by
  simp [queuedStates, newLogItem]

/-- The handler takes its first message, and a registered client receives it. -/
theorem broadcast_cases {before after : State} (taken : step before .broadcast = some after) :
    (∃ obj rest, before.messages = .SEND_NEW_LOGITEM obj :: rest ∧ after = { before with
      messages := rest,
      received := if before.registration = .registered then before.received ++ [obj] else before.received }) ∨
    ∃ obj rest, before.messages = .SEND_NEW_STATE obj :: rest ∧ after = { before with
      messages := rest, status := if before.registration = .registered then some obj else before.status } := by
  simp only [step] at taken
  split at taken
  · cases taken
  next message rest queue =>
    cases taken
    cases message with
    | SEND_NEW_LOGITEM obj =>
      refine Or.inl ⟨obj, rest, queue, ?_⟩
      simp only [handleMessage]
      split <;> rfl
    | SEND_NEW_STATE obj =>
      refine Or.inr ⟨obj, rest, queue, ?_⟩
      simp only [handleMessage]
      split <;> rfl

/-- The pushing thread writes its next item, or ends at one that does not cross. -/
theorem pushLog_cases {before after : State} (taken : step before .pushLog = some after) :
    ∃ obj rest, before.pushing = obj :: rest ∧
      (crosses obj = true ∧ after = { before with pushing := rest, received := before.received ++ [obj] } ∨
        crosses obj = false ∧ after = { before with pushing := [] }) := by
  simp only [step] at taken
  split at taken
  · cases taken
  next waiting =>
    cases taken
    cases pushing : before.pushing with
    | nil => exact absurd pushing waiting
    | cons obj rest =>
      refine ⟨obj, rest, rfl, ?_⟩
      cases ok : crosses obj with
      | true => exact Or.inl ⟨rfl, by simp [pushLog, pushing, ok]⟩
      | false => exact Or.inr ⟨rfl, by simp [pushLog, pushing, ok]⟩

namespace Numbered

variable {before after : State}

private theorem newLogItem {item : LogItem} {cachedLine : Bool} (numbered : Numbered before)
    (taken : StatusService.step before (.newLogItem item cachedLine) = some after) : Numbered after := by
  obtain ⟨logbuffer, snapshot, later, queued, apart, called, unregistered⟩ := numbered
  simp only [StatusService.step] at taken
  split at taken <;> cases taken
  have fresh : (⟨before.objects, item⟩ : LogObject) ∉ before.taken := snapshot.not_mem (Nat.le_refl _)
  refine ⟨?_, snapshot.succ, ?_, ?_, ?_, ?_, unregistered⟩
  · cases cachedLine with
    | true => exact (logbuffer.cons item).trim
    | false => exact (logbuffer.snoc item).trim
  · simp only [StatusService.newLogItem]
    split
    · exact later.succ
    · exact later.snoc item
  · rw [queuedLogs_newLogItem]
    exact queued.snoc item
  · intro obj member
    simp only [StatusService.newLogItem]
    split
    · exact apart obj member
    · intro there
      rcases List.mem_append.mp there with there | there
      · exact apart obj member there
      · exact fresh (List.mem_singleton.mp there ▸ member)
  · intro early
    simp only [StatusService.newLogItem, if_pos (show before.registration = .called from early)]
    exact called early

private theorem broadcast (numbered : Numbered before) (taken : StatusService.step before .broadcast = some after) :
    Numbered after := by
  obtain ⟨logbuffer, snapshot, later, queued, apart, called, unregistered⟩ := numbered
  rcases broadcast_cases taken with ⟨obj, rest, queue, rfl⟩ | ⟨obj, rest, queue, rfl⟩
  · have shorter : Below before.objects (queuedLogs { before with messages := rest }) := by
      apply queued.sublist
      simp [queuedLogs, queue]
    refine ⟨logbuffer, snapshot, later, shorter, apart, called, ?_⟩
    intro outside
    rw [if_neg outside]
    exact unregistered outside
  · have shorter : Below before.objects (queuedLogs { before with messages := rest }) := by
      apply queued.sublist
      simp [queuedLogs, queue]
    exact ⟨logbuffer, snapshot, later, shorter, apart, called, unregistered⟩

private theorem pushLog (numbered : Numbered before) (taken : StatusService.step before .pushLog = some after) :
    Numbered after := by
  obtain ⟨logbuffer, snapshot, later, queued, apart, called, unregistered⟩ := numbered
  obtain ⟨obj, rest, pushing, outcome⟩ := pushLog_cases taken
  have registered : before.registration = .registered := by
    apply Classical.byContradiction
    intro outside
    simp [(unregistered outside).2] at pushing
  rcases outcome with ⟨-, rfl⟩ | ⟨-, rfl⟩
  · exact ⟨logbuffer, snapshot, later, queued, apart, called, fun outside => absurd registered outside⟩
  · exact ⟨logbuffer, snapshot, later, queued, apart, called, fun outside => absurd registered outside⟩

theorem step {event : Event} (numbered : Numbered before) (taken : StatusService.step before event = some after) :
    Numbered after := by
  cases event with
  | newLogItem item cachedLine => exact numbered.newLogItem taken
  | broadcast => exact numbered.broadcast taken
  | pushLog => exact numbered.pushLog taken
  | clearBuffer =>
    simp only [StatusService.step] at taken
    split at taken <;> cases taken
    exact { numbered with logbuffer := .nil }
  | updateState message =>
    simp only [StatusService.step] at taken
    split at taken <;> cases taken
    exact { numbered with }
  | sendState =>
    obtain ⟨message, -, rfl⟩ := Option.map_eq_some_iff.mp taken
    exact { numbered with queued := by simpa [queuedLogs] using numbered.queued }
  | getlogbuffer =>
    simp only [StatusService.step] at taken
    split at taken
    next early =>
      cases taken
      have none := numbered.called early.2
      refine { numbered with taken := numbered.logbuffer, apart := ?_, called := fun _ => none, unregistered := ?_ }
      · intro obj _
        simp [none]
      · intro _
        exact numbered.unregistered (by simp [early.2])
    · cases taken
  | checkState =>
    simp only [StatusService.step] at taken
    split at taken
    next at_snapshot =>
      cases taken
      exact { numbered with called := nofun, unregistered := fun _ => numbered.unregistered (by simp [at_snapshot]) }
    · cases taken
  | sendUpdate =>
    simp only [StatusService.step] at taken
    split at taken
    next checked =>
      cases taken
      exact { numbered with called := nofun, unregistered := fun _ => numbered.unregistered (by simp [checked]) }
    next checked =>
      cases taken
      exact { numbered with called := nofun, unregistered := fun _ => numbered.unregistered (by simp [checked]) }
    · cases taken
  | register =>
    simp only [StatusService.step] at taken
    split at taken <;> cases taken
    exact { numbered with called := nofun, unregistered := fun outside => absurd rfl outside }

end Numbered

end RRoadVpn.Proofs.StatusClient
