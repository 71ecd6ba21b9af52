import Mathlib.Data.List.Nodup
import RRoadVpn.ConnectionRecord
import RRoadVpn.Library.Runs

/-! Which runs close every record exactly once. A record is lost when the tunnel
comes up again while the task of the last disconnect still has the preference. -/

namespace RRoadVpn.Proofs.ConnectionClosed
open RRoadVpn.Library RRoadVpn.ConnectionRecord

def ClosedOnce (s : State) : Prop := ∀ connectionUuid ∈ s.created, s.closed.count connectionUuid = 1

/-- A record is created while a task of an earlier disconnect is pending. -/
def Overlaps (s : State) : Event → Prop
  | .onConnect _ => s.WAS_CONNECTED = false ∧ s.tasks ≠ []
  | _ => False

abbrev Apart (s : State) (event : Event) : Prop := ¬ Overlaps s event

/-- Tasks step one at a time, in the order they were executed. -/
def Serial (events : List Event) : Prop := ∀ i, .task i ∈ events → i = 0

/-! ### What the callbacks do -/

private theorem onConnect_connected {s : State} (on : s.WAS_CONNECTED = true) (connectionUuid : String) :
    onConnect connectionUuid s = s := by
  obtain ⟨was, uuid, tasks, created, closed⟩ := s
  cases on
  rfl

private theorem onConnect_creates {s : State} (off : s.WAS_CONNECTED = false) (connectionUuid : String) :
    onConnect connectionUuid s =
      ⟨true, connectionUuid, s.tasks, s.created ++ [connectionUuid], s.closed⟩ := by
  rw [onConnect, off]
  rfl

private theorem onDisconnect_executes {s : State} (on : s.WAS_CONNECTED = true) :
    onDisconnect s = ⟨false, s.CONNECTION_UUID, s.tasks ++ [.executed], s.created, s.closed⟩ := by
  rw [onDisconnect, on]
  rfl

private theorem onDisconnect_disconnected {s : State} (off : s.WAS_CONNECTED = false) : onDisconnect s = s := by
  obtain ⟨was, uuid, tasks, created, closed⟩ := s
  cases off
  rfl

/-! ### Runs without overlaps -/

/-- Where a run without overlaps is between two records. -/
inductive Phase (s : State) : Prop
  | idle (off : s.WAS_CONNECTED = false) (tasks : s.tasks = []) (all : s.created = s.closed)
  | connected (on : s.WAS_CONNECTED = true) (tasks : s.tasks = [])
      (all : s.created = s.closed ++ [s.CONNECTION_UUID])
  | executed (off : s.WAS_CONNECTED = false) (tasks : s.tasks = [.executed])
      (all : s.created = s.closed ++ [s.CONNECTION_UUID])
  | read (connectionUuid : String) (off : s.WAS_CONNECTED = false) (tasks : s.tasks = [.read connectionUuid])
      (all : s.created = s.closed ++ [connectionUuid])
  | updated (off : s.WAS_CONNECTED = false) (tasks : s.tasks = [.updated]) (all : s.created = s.closed)

/-- The ids are those the server gave, each once. -/
structure Distinct (s : State) : Prop where
  nodup : s.created.Nodup
  named : "" ∉ s.created

private theorem Distinct.step {before after : State} {event : Event} (distinct : Distinct before)
    (taken : step before event = some after) : Distinct after := by
  obtain ⟨nodup, named⟩ := distinct
  cases event with
  | onConnect connectionUuid =>
    simp only [ConnectionRecord.step] at taken
    split at taken
    · cases taken
    next fresh =>
      cases taken
      obtain ⟨nonempty, new⟩ := not_or.mp fresh
      cases on : before.WAS_CONNECTED with
      | true =>
        rw [onConnect_connected on]
        exact ⟨nodup, named⟩
      | false =>
        rw [onConnect_creates on]
        refine ⟨?_, ?_⟩
        · exact List.nodup_append_comm.mp (List.nodup_cons.mpr ⟨new, nodup⟩)
        · simpa [Ne.symm nonempty] using named
  | onDisconnect =>
    cases taken
    cases on : before.WAS_CONNECTED with
    | true =>
      rw [onDisconnect_executes on]
      exact ⟨nodup, named⟩
    | false =>
      rw [onDisconnect_disconnected on]
      exact ⟨nodup, named⟩
  | task i =>
    obtain ⟨task, _, rfl⟩ := Option.map_eq_some_iff.mp taken
    cases task <;> exact ⟨nodup, named⟩

/-- Without overlaps there is one record at a time. -/
theorem Phase.step {before after : State} {event : Event} (phase : Phase before) (apart : Apart before event)
    (taken : step before event = some after) : Phase after := by
  cases event with
  | onConnect connectionUuid =>
    simp only [ConnectionRecord.step] at taken
    split at taken <;> cases taken
    cases on : before.WAS_CONNECTED with
    | true =>
      rwa [onConnect_connected on]
    | false =>
      have none : before.tasks = [] := by
        apply Classical.byContradiction
        intro pending
        exact apart ⟨on, pending⟩
      have all : before.created = before.closed := by
        cases phase with
        | idle off tasks all => exact all
        | connected on' tasks all => simp [on] at on'
        | executed off tasks all => simp [none] at tasks
        | read uuid off tasks all => simp [none] at tasks
        | updated off tasks all => simp [none] at tasks
      rw [onConnect_creates on]
      exact .connected rfl none (congrArg (· ++ [connectionUuid]) all)
  | onDisconnect =>
    cases taken
    cases on : before.WAS_CONNECTED with
    | true =>
      cases phase with
      | idle off tasks all => simp [on] at off
      | connected on' tasks all =>
        rw [onDisconnect_executes on]
        exact .executed rfl (congrArg (· ++ [.executed]) tasks) all
      | executed off tasks all => simp [on] at off
      | read uuid off tasks all => simp [on] at off
      | updated off tasks all => simp [on] at off
    | false =>
      rwa [onDisconnect_disconnected on]
  | task i =>
    obtain ⟨task, found, rfl⟩ := Option.map_eq_some_iff.mp taken
    cases phase with
    | idle off tasks all => simp [tasks] at found
    | connected on tasks all => simp [tasks] at found
    | executed off tasks all =>
      rw [tasks, List.getElem?_singleton] at found
      split at found <;> cases found
      next first =>
        subst first
        exact .read before.CONNECTION_UUID off (by simp [afterDisconnectVPN, tasks]) all
    | read uuid off tasks all =>
      rw [tasks, List.getElem?_singleton] at found
      split at found <;> cases found
      next first =>
        subst first
        exact .updated off (by simp [afterDisconnectVPN, tasks]) all
    | updated off tasks all =>
      rw [tasks, List.getElem?_singleton] at found
      split at found <;> cases found
      next first =>
        subst first
        exact .idle off (by simp [afterDisconnectVPN, tasks]) all

/-! ### Lost records -/

/-- A record that no request will close: no task has its id, and the preference does
not have it or loses it before it is read again. -/
structure Lost (connectionUuid : String) (s : State) : Prop where
  created : connectionUuid ∈ s.created
  unclosed : connectionUuid ∉ s.closed
  unread : .read connectionUuid ∉ s.tasks
  erased : s.CONNECTION_UUID ≠ connectionUuid ∨ ∃ task rest, s.tasks = task :: rest ∧ task ≠ .executed

private theorem Lost.step {connectionUuid : String} {before after : State} {event : Event}
    (lost : Lost connectionUuid before)
    (distinct : Distinct before) (serial : ∀ i, event = .task i → i = 0) (taken : step before event = some after) :
    Lost connectionUuid after := by
  obtain ⟨created, unclosed, unread, erased⟩ := lost
  cases event with
  | onConnect uuid =>
    simp only [ConnectionRecord.step] at taken
    split at taken
    · cases taken
    next fresh =>
      cases taken
      cases on : before.WAS_CONNECTED with
      | true =>
        rw [onConnect_connected on]
        exact ⟨created, unclosed, unread, erased⟩
      | false =>
        rw [onConnect_creates on]
        refine ⟨List.mem_append_left _ created, unclosed, unread, Or.inl ?_⟩
        rintro rfl
        exact fresh (Or.inr created)
  | onDisconnect =>
    cases taken
    cases on : before.WAS_CONNECTED with
    | true =>
      rw [onDisconnect_executes on]
      refine ⟨created, unclosed, ?_, ?_⟩
      · simpa using unread
      · apply erased.imp id
        rintro ⟨task, rest, tasks, begun⟩
        exact ⟨task, rest ++ [.executed], by simp [tasks], begun⟩
    | false =>
      rw [onDisconnect_disconnected on]
      exact ⟨created, unclosed, unread, erased⟩
  | task i =>
    have first := serial i rfl
    subst first
    obtain ⟨task, found, rfl⟩ := Option.map_eq_some_iff.mp taken
    obtain ⟨rest, tasks⟩ : ∃ rest, before.tasks = task :: rest := by
      cases pending : before.tasks with
      | nil => simp [pending] at found
      | cons head rest =>
        rw [pending] at found
        cases found
        exact ⟨rest, rfl⟩
    rw [tasks] at unread
    cases task with
    | executed =>
      have kept : before.CONNECTION_UUID ≠ connectionUuid := by
        rcases erased with kept | ⟨task, rest, other, begun⟩
        · exact kept
        · rw [tasks] at other
          cases other
          exact absurd rfl begun
      refine ⟨created, unclosed, ?_, Or.inl kept⟩
      simpa [afterDisconnectVPN, tasks, Ne.symm kept] using unread
    | read uuid =>
      have other : connectionUuid ≠ uuid := by
        rintro rfl
        exact unread List.mem_cons_self
      refine ⟨created, ?_, ?_, Or.inr ⟨.updated, rest, by simp [afterDisconnectVPN, tasks], by simp⟩⟩
      · simpa [afterDisconnectVPN, other] using unclosed
      · simpa [afterDisconnectVPN, tasks, other] using unread
    | updated =>
      refine ⟨created, unclosed, ?_, Or.inl ?_⟩
      · simpa [afterDisconnectVPN, tasks] using unread
      · rintro rfl
        exact distinct.named created

/-- The first overlap loses a record. -/
theorem Phase.overlap {before after : State} {event : Event} (phase : Phase before) (distinct : Distinct before)
    (overlaps : Overlaps before event) (taken : ConnectionRecord.step before event = some after) :
    ∃ connectionUuid, Lost connectionUuid after := by
  cases event with
  | onConnect uuid =>
    obtain ⟨off, pending⟩ := overlaps
    simp only [ConnectionRecord.step] at taken
    split at taken
    · cases taken
    next fresh =>
      cases taken
      obtain ⟨-, new⟩ := not_or.mp fresh
      have nodup := distinct.nodup
      have last : uuid ∈ before.created ++ [uuid] := List.mem_append_right _ (List.mem_singleton.mpr rfl)
      rw [onConnect_creates off]
      cases phase with
      | idle off tasks all => exact absurd tasks pending
      | connected on tasks all => exact absurd tasks pending
      | executed off tasks all =>
        -- The task will read the new id, so the old one is never closed.
        rw [all] at nodup new
        refine ⟨before.CONNECTION_UUID, ?_, ?_, ?_, Or.inl ?_⟩
        · simp [all]
        · exact (List.nodup_cons.mp (List.nodup_append_comm.mp nodup)).1
        · simp [tasks]
        · rintro rfl
          exact new (List.mem_append_right _ (List.mem_singleton.mpr rfl))
      | read uuid' off tasks all =>
        rw [all] at new
        refine ⟨uuid, last, fun member => new (List.mem_append_left _ member), ?_, Or.inr ⟨.read uuid', [], tasks, ?_⟩⟩
        · simp only [tasks, List.mem_singleton]
          rintro same
          cases same
          exact new (List.mem_append_right _ (List.mem_singleton.mpr rfl))
        · simp
      | updated off tasks all =>
        rw [all] at new
        exact ⟨uuid, last, new, by simp [tasks], Or.inr ⟨.updated, [], tasks, by simp⟩⟩
  | onDisconnect => cases overlaps
  | task i => cases overlaps

private theorem Lost.not_closedOnce {connectionUuid : String} {s : State} (lost : Lost connectionUuid s) :
    ¬ ClosedOnce s := by
  intro once
  have counted := once connectionUuid lost.created
  rw [List.count_eq_zero_of_not_mem lost.unclosed] at counted
  cases counted

/-! ### Runs -/

def Orderly (s : State) : Prop := Phase s ∧ Distinct s

private theorem initial : Orderly {} := ⟨.idle rfl rfl rfl, List.nodup_nil, List.not_mem_nil⟩

private theorem orderly_run {events : List Event} {final : State} (run : Run step Apart {} events final) :
    Orderly final := by
  have kept (before : State) (event : Event) (after : State) (held : Orderly before) (apart : Apart before event)
      (taken : step before event = some after) : Orderly after := ⟨held.1.step apart taken, held.2.step taken⟩
  exact run.invariant initial kept

/-- A serial run either has no overlap or has lost a record. -/
theorem apart_or_lost {events : List Event} {final : State} (run : Run step Free {} events final)
    (serial : Serial events) :
    Run step Apart {} events final ∨ (Distinct final ∧ ∃ connectionUuid, Lost connectionUuid final) := by
  induction run with
  | nil => exact Or.inl .nil
  | @snoc events middle event final before _ taken ih =>
    rcases ih fun i member => serial i (List.mem_append_left _ member) with apart | ⟨distinct, uuid, lost⟩
    · obtain ⟨phase, distinct⟩ := orderly_run apart
      by_cases overlaps : Overlaps middle event
      · exact Or.inr ⟨distinct.step taken, phase.overlap distinct overlaps taken⟩
      · exact Or.inl (.snoc apart overlaps taken)
    · refine Or.inr ⟨distinct.step taken, uuid, lost.step distinct ?_ taken⟩
      rintro i rfl
      exact serial i (List.mem_append_right _ (List.mem_singleton.mpr rfl))

/-- At rest after a run without overlaps every record is closed once, whatever the
tasks' steps; with tasks that run one at a time every overlap leaves one open. -/
theorem closed_once_iff {events : List Event} {final : State} (run : Run step Free {} events final)
    (finished : final.tasks = []) (disconnected : final.WAS_CONNECTED = false) :
    (Run step Apart {} events final → ClosedOnce final) ∧
      (Serial events → ClosedOnce final → Run step Apart {} events final) := by
  refine ⟨?_, ?_⟩
  · intro apart
    obtain ⟨phase, distinct⟩ := orderly_run apart
    have all : final.created = final.closed := by
      cases phase with
      | idle off tasks all => exact all
      | connected on tasks all => simp [disconnected] at on
      | executed off tasks all => simp [finished] at tasks
      | read uuid off tasks all => simp [finished] at tasks
      | updated off tasks all => simp [finished] at tasks
    intro uuid member
    rw [← all]
    rw [distinct.nodup.count, if_pos member]
  · intro serial once
    rcases apart_or_lost run serial with apart | ⟨_, _, lost⟩
    · exact apart
    · exact absurd once lost.not_closedOnce

private def twoConnections : List Event :=
  [.onConnect "a", .onDisconnect, .task 0, .task 0, .task 0, .onConnect "b", .onDisconnect, .task 0, .task 0, .task 0]

theorem closed_once_iff_two_connections :
    ∃ final, Run step Free {} twoConnections final ∧
      (Run step Apart {} twoConnections final → ClosedOnce final) ∧
        (Serial twoConnections → ClosedOnce final → Run step Apart {} twoConnections final) :=
  ⟨_, Run.of_exec rfl, closed_once_iff (Run.of_exec rfl) rfl rfl⟩

/-- A reconnect between the close request and the end of its task. -/
theorem reconnect_leaves_record_open :
    ∃ final, Run step Free {} [.onConnect "a", .onDisconnect, .task 0, .task 0, .onConnect "b", .task 0,
        .onDisconnect, .task 0, .task 0, .task 0] final ∧
      final.tasks = [] ∧ final.WAS_CONNECTED = false ∧ ¬ ClosedOnce final := by
  refine ⟨_, Run.of_exec rfl, rfl, rfl, ?_⟩
  intro once
  exact absurd (once "b" (by decide)) (by decide)

end RRoadVpn.Proofs.ConnectionClosed
