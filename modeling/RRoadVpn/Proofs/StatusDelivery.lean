import RRoadVpn.Proofs.StatusClient

/-! When a registered client misses nothing and sees nothing twice. After the
registration nothing is lost any more, so the state at that point decides. -/

namespace RRoadVpn.Proofs.StatusDelivery
open RRoadVpn.Library RRoadVpn.StatusService RRoadVpn.Proofs.StatusClient

/-! ### Items after the registration -/

/-- From the registration on, what is received, piped and queued is what was piped and
queued then, with the items logged since. -/
structure Since (r s : State) (fresh : List LogObject) : Prop where
  registered : s.registration = .registered
  taken : s.taken = r.taken
  later : s.later = r.later ++ fresh
  objects : r.objects ≤ s.objects
  above : ∀ obj ∈ fresh, r.objects ≤ obj.number
  balance : ∀ obj, s.received.count obj + (s.pushing.takeWhile crosses).count obj + (queuedLogs s).count obj =
    (piped r).count obj + (queuedLogs r).count obj + fresh.count obj

private theorem since_register {r after : State} (numbered : Numbered r) (taken : step r .register = some after) :
    Since r after [] := by
  simp only [step] at taken
  split at taken
  next updated =>
    cases taken
    obtain ⟨received, -⟩ := numbered.unregistered (by simp [updated])
    exact ⟨rfl, rfl, by simp, Nat.le_refl _, by simp, by simp [received, piped, queuedLogs]⟩
  · cases taken

private theorem Since.step {r before after : State} {event : Event} {fresh : List LogObject}
    (since : Since r before fresh)
    (taken : step before event = some after) : ∃ fresh, Since r after fresh := by
  obtain ⟨registered, same, later, objects, above, balance⟩ := since
  cases event with
  | newLogItem item cachedLine =>
    simp only [StatusService.step] at taken
    split at taken <;> cases taken
    refine ⟨fresh ++ [⟨before.objects, item⟩], registered, same, ?_, Nat.le_succ_of_le objects, ?_, ?_⟩
    · simp [newLogItem, registered, later]
    · intro obj member
      rcases List.mem_append.mp member with member | member
      · exact above obj member
      · rw [List.mem_singleton.mp member]
        exact objects
    · intro obj
      have counted := balance obj
      rw [queuedLogs_newLogItem]
      simp only [newLogItem, List.count_append]
      omega
  | clearBuffer =>
    simp only [StatusService.step] at taken
    split at taken <;> cases taken
    exact ⟨fresh, registered, same, later, objects, above, balance⟩
  | updateState message =>
    simp only [StatusService.step] at taken
    split at taken <;> cases taken
    exact ⟨fresh, registered, same, later, objects, above, balance⟩
  | sendState =>
    obtain ⟨message, -, rfl⟩ := Option.map_eq_some_iff.mp taken
    refine ⟨fresh, registered, same, later, objects, above, ?_⟩
    simpa [queuedLogs] using balance
  | broadcast =>
    rcases broadcast_cases taken with ⟨obj, rest, queue, outcome⟩ | ⟨obj, rest, queue, outcome⟩
    · have first : queuedLogs before = obj :: queuedLogs after := by simp [queuedLogs, queue, outcome]
      subst outcome
      refine ⟨fresh, registered, same, later, objects, above, ?_⟩
      intro other
      have counted := balance other
      rw [first] at counted
      simp only [if_pos registered, List.count_append, List.count_cons, List.count_nil] at counted ⊢
      omega
    · subst outcome
      refine ⟨fresh, registered, same, later, objects, above, ?_⟩
      simpa [queuedLogs, queue] using balance
  | getlogbuffer => simp [StatusService.step, registered] at taken
  | checkState => simp [StatusService.step, registered] at taken
  | sendUpdate => simp [StatusService.step, registered] at taken
  | register => simp [StatusService.step, registered] at taken
  | pushLog =>
    obtain ⟨obj, rest, pushing, outcome⟩ := pushLog_cases taken
    have queue : queuedLogs after = queuedLogs before := by
      rcases outcome with ⟨-, rfl⟩ | ⟨-, rfl⟩ <;> rfl
    rcases outcome with ⟨through, rfl⟩ | ⟨stuck, rfl⟩
    · refine ⟨fresh, registered, same, later, objects, above, ?_⟩
      intro other
      have counted := balance other
      rw [queue]
      simp only [pushing, List.takeWhile_cons_of_pos through, List.count_append, List.count_cons, List.count_nil]
        at counted ⊢
      omega
    · refine ⟨fresh, registered, same, later, objects, above, ?_⟩
      intro other
      have counted := balance other
      rw [queue]
      simpa [pushing, stuck] using counted

/-- The items are received once exactly if they were shared at the registration. -/
theorem Since.items_iff {r final : State} {fresh : List LogObject} (since : Since r final fresh) (before : Numbered r)
    (numbered : Numbered final) (drained : Drained final) :
    (∀ obj ∈ final.taken ++ final.later, final.received.count obj = 1) ↔ Shared r := by
  have received (obj : LogObject) :
      final.received.count obj = (piped r).count obj + (queuedLogs r).count obj + fresh.count obj := by
    have balance := since.balance obj
    simpa [drained.pushing, drained.messages, queuedLogs] using balance
  have inside : (piped r).Sublist r.taken := List.takeWhile_sublist _
  have pipedOnce := before.taken.1.sublist inside
  have old {obj : LogObject} (there : obj ∈ r.taken ∨ obj ∈ r.later) : obj ∉ fresh := by
    intro member
    have above := since.above obj member
    rcases there with there | there
    · exact before.taken.not_mem above there
    · exact before.later.not_mem above there
  rw [since.taken, since.later]
  constructor
  · intro once
    refine ⟨?_, ?_⟩
    · intro obj member
      have counted := once obj (List.mem_append_left _ member)
      rw [received obj, pipedOnce.count, before.queued.1.count, List.count_eq_zero_of_not_mem (old (Or.inl member))]
        at counted
      by_cases queue : obj ∈ queuedLogs r <;> by_cases pipe : obj ∈ piped r <;> simp_all
    · intro obj member
      have counted := once obj (List.mem_append_right _ (List.mem_append_left _ member))
      have outside : obj ∉ piped r := fun pipe => before.apart obj (inside.subset pipe) member
      rw [received obj, List.count_eq_zero_of_not_mem outside, List.count_eq_zero_of_not_mem (old (Or.inr member))]
        at counted
      exact List.count_pos_iff.mp (by omega)
  · intro shared obj member
    rw [received obj, pipedOnce.count, before.queued.1.count]
    rcases List.mem_append.mp member with member | member
    · have exactlyOne := shared.taken obj member
      rw [List.count_eq_zero_of_not_mem (old (Or.inl member))]
      by_cases queue : obj ∈ queuedLogs r <;> by_cases pipe : obj ∈ piped r <;> simp_all
    rcases List.mem_append.mp member with member | member
    · have outside : obj ∉ piped r := fun pipe => before.apart obj (inside.subset pipe) member
      rw [if_neg outside, if_pos (shared.later obj member), List.count_eq_zero_of_not_mem (old (Or.inr member))]
    · have above := since.above obj member
      have outside : obj ∉ piped r := fun pipe => before.taken.not_mem above (inside.subset pipe)
      have freshOnce : fresh.Nodup := (since.later ▸ numbered.later.1).of_append_right
      rw [if_neg outside, if_neg (before.queued.not_mem above), freshOnce.count, if_pos member]

/-! ### States after the registration -/

/-- The state update in progress, or else the last one in the queue, is the server's. -/
structure Tracked (s : State) : Prop where
  sending : ∀ message, s.sending = some message → s.mLastUpdateMessage = some message
  queued : s.sending = none → ∀ message, (queuedStates s).getLast? = some message → s.mLastUpdateMessage = some message

private theorem tracked_start (logged : List LogItem) : Tracked (start logged) :=
  ⟨by simp [start], by simp [start, queuedStates]⟩

private theorem Tracked.step {before after : State} {event : Event} (tracked : Tracked before)
    (taken : step before event = some after) : Tracked after := by
  obtain ⟨sending, queued⟩ := tracked
  cases event with
  | newLogItem item cachedLine =>
    simp only [StatusService.step] at taken
    split at taken <;> cases taken
    refine ⟨sending, ?_⟩
    rw [queuedStates_newLogItem]
    exact queued
  | clearBuffer =>
    simp only [StatusService.step] at taken
    split at taken <;> cases taken
    exact ⟨sending, queued⟩
  | updateState message =>
    simp only [StatusService.step] at taken
    split at taken <;> cases taken
    exact ⟨fun _ same => same, (fun busy => by cases busy)⟩
  | sendState =>
    obtain ⟨message, current, rfl⟩ := Option.map_eq_some_iff.mp taken
    refine ⟨(fun _ other => by cases other), ?_⟩
    intro _ last found
    have same : message = last := by simpa [queuedStates] using found
    subst same
    exact sending message current
  | broadcast =>
    rcases broadcast_cases taken with ⟨obj, rest, queue, outcome⟩ | ⟨obj, rest, queue, outcome⟩
    · have kept : queuedStates before = queuedStates after := by simp [queuedStates, queue, outcome]
      subst outcome
      refine ⟨sending, ?_⟩
      rw [← kept]
      exact queued
    · have first : queuedStates before = obj :: queuedStates after := by simp [queuedStates, queue, outcome]
      subst outcome
      refine ⟨sending, ?_⟩
      intro idle message found
      apply queued idle message
      rw [first, List.getLast?_cons, found]
      rfl
  | getlogbuffer =>
    simp only [StatusService.step] at taken
    split at taken <;> cases taken
    exact ⟨sending, queued⟩
  | checkState =>
    simp only [StatusService.step] at taken
    split at taken <;> cases taken
    exact ⟨sending, queued⟩
  | sendUpdate =>
    simp only [StatusService.step] at taken
    split at taken <;> cases taken
    · exact ⟨sending, queued⟩
    · exact ⟨sending, queued⟩
  | register =>
    simp only [StatusService.step] at taken
    split at taken <;> cases taken
    exact ⟨sending, queued⟩
  | pushLog =>
    obtain ⟨obj, rest, -, ⟨-, rfl⟩ | ⟨-, rfl⟩⟩ := pushLog_cases taken
    · exact ⟨sending, queued⟩
    · exact ⟨sending, queued⟩

theorem informed_step {before after : State} {event : Event} (registered : before.registration = .registered)
    (tracked : Tracked before) (taken : step before event = some after) :
    Informed after ↔ Informed before ∨ ∃ message, event = .updateState message := by
  have quiet (other : ∀ message, event ≠ .updateState message) (status : after.status = before.status)
      (last : after.mLastUpdateMessage = before.mLastUpdateMessage) (sending : after.sending = before.sending)
      (queue : queuedStates after = queuedStates before) :
      Informed after ↔ Informed before ∨ ∃ message, event = .updateState message := by
    have none : ¬ ∃ message, event = .updateState message := fun found => found.elim other
    simp only [Informed, status, last, sending, queue, none, or_false]
  cases event with
  | newLogItem item cachedLine =>
    simp only [step] at taken
    split at taken <;> cases taken
    exact quiet (fun _ same => by cases same) rfl rfl rfl (queuedStates_newLogItem item cachedLine before)
  | clearBuffer =>
    simp only [step] at taken
    split at taken <;> cases taken
    exact quiet (fun _ same => by cases same) rfl rfl rfl rfl
  | updateState message =>
    simp only [step] at taken
    split at taken <;> cases taken
    simp [Informed]
  | sendState =>
    obtain ⟨message, current, rfl⟩ := Option.map_eq_some_iff.mp taken
    simp [Informed, queuedStates, current]
  | broadcast =>
    rcases broadcast_cases taken with ⟨obj, rest, queue, outcome⟩ | ⟨obj, rest, queue, outcome⟩
    · have kept : queuedStates after = queuedStates before := by simp [queuedStates, queue, outcome]
      subst outcome
      exact quiet (fun _ same => by cases same) rfl rfl rfl kept
    · have first : queuedStates before = obj :: queuedStates after := by simp [queuedStates, queue, outcome]
      have informed : Informed before := Or.inr (Or.inr (by simp [first]))
      refine iff_of_true ?_ (Or.inl informed)
      by_cases sending : before.sending = none
      · cases waiting : queuedStates after with
        | nil =>
          rw [waiting] at first
          have last := tracked.queued sending obj (by rw [first]; rfl)
          subst outcome
          exact Or.inl (by simp [registered, last])
        | cons => exact Or.inr (Or.inr (by simp [waiting]))
      · subst outcome
        exact Or.inr (Or.inl sending)
  | getlogbuffer => simp [step, registered] at taken
  | checkState => simp [step, registered] at taken
  | sendUpdate => simp [step, registered] at taken
  | register => simp [step, registered] at taken
  | pushLog =>
    obtain ⟨obj, rest, -, ⟨-, rfl⟩ | ⟨-, rfl⟩⟩ := pushLog_cases taken
    · exact quiet (fun _ same => by cases same) rfl rfl rfl rfl
    · exact quiet (fun _ same => by cases same) rfl rfl rfl rfl

/-! ### Runs -/

private theorem numbered_run {logged : List LogItem} {events : List Event} {final : State}
    (run : Run step Free (start logged) events final) : Numbered final :=
  run.invariant (numbered_start logged) fun _ _ _ numbered _ taken => numbered.step taken

private theorem tracked_run {logged : List LogItem} {events : List Event} {final : State}
    (run : Run step Free (start logged) events final) : Tracked final :=
  run.invariant (tracked_start logged) fun _ _ _ tracked _ taken => tracked.step taken

theorem since_run {r s final : State} {fresh : List LogObject} {events : List Event} (since : Since r s fresh)
    (tracked : Tracked s) (run : Run step Free s events final) :
    (∃ fresh, Since r final fresh) ∧ Tracked final ∧
      (Informed final ↔ Informed s ∨ ∃ message, .updateState message ∈ events) := by
  induction run with
  | nil => exact ⟨⟨fresh, since⟩, tracked, by simp⟩
  | snoc _ _ taken ih =>
    obtain ⟨⟨fresh, since⟩, tracked, informed⟩ := ih
    refine ⟨since.step taken, tracked.step taken, ?_⟩
    rw [informed_step since.registered tracked taken, informed, or_assoc, ← exists_or]
    simp only [List.mem_append, List.mem_singleton, eq_comm]

private theorem registers {logged : List LogItem} {events : List Event} {final : State}
    (run : Run step Free (start logged) events final) (registered : final.registration = .registered) :
    ∃ before after, events = before ++ .register :: after := by
  induction run with
  | nil => cases registered
  | @snoc events middle event final _ _ taken ih =>
    by_cases earlier : middle.registration = .registered
    · obtain ⟨before, after, rfl⟩ := ih earlier
      exact ⟨before, after ++ [event], by simp⟩
    · refine ⟨events, [], ?_⟩
      cases event with
      | register => rfl
      | newLogItem | clearBuffer | updateState | getlogbuffer | checkState | sendUpdate =>
        simp only [step] at taken
        split at taken <;> cases taken
        all_goals first | exact absurd registered earlier | cases registered
      | sendState =>
        obtain ⟨_, -, rfl⟩ := Option.map_eq_some_iff.mp taken
        exact absurd registered earlier
      | broadcast =>
        rcases broadcast_cases taken with ⟨_, _, _, rfl⟩ | ⟨_, _, _, rfl⟩
        all_goals exact absurd registered earlier
      | pushLog =>
        obtain ⟨_, _, -, ⟨-, rfl⟩ | ⟨-, rfl⟩⟩ := pushLog_cases taken
        all_goals exact absurd registered earlier

/-- A drained client has everything exactly if the registration left the items shared
and the client had the current state, was being sent it or is sent a later one. -/
theorem complete_iff {logged : List LogItem} {events : List Event} {final : State}
    (run : Run step Free (start logged) events final) (drained : Drained final) :
    Complete final ↔ ∀ before after r, events = before ++ .register :: after →
      Run step Free (start logged) before r →
        Shared r ∧ (Informed r ∨ ∃ message, .updateState message ∈ after) := by
  have decided {before after : List Event} {r : State} (split : events = before ++ .register :: after)
      (reached : Run step Free (start logged) before r) :
      Complete final ↔ Shared r ∧ (Informed r ∨ ∃ message, .updateState message ∈ after) := by
    subst split
    obtain ⟨middle, first, rest⟩ := run.split
    have same : middle = r := first.deterministic reached
    subst same
    obtain ⟨s, register, rest⟩ := rest.cons_inv
    have since := since_register (numbered_run reached) register
    have tracked := (tracked_run reached).step register
    have kept : Informed s ↔ Informed middle := by
      simp only [step] at register
      split at register <;> cases register
      exact Iff.rfl
    obtain ⟨⟨fresh, since⟩, -, informed⟩ := since_run since tracked rest
    have items := since.items_iff (numbered_run reached) (numbered_run run) drained
    have last : Informed final ↔ final.status = final.mLastUpdateMessage := by
      simp [Informed, drained.sending, drained.messages, queuedStates]
    rw [← items, ← kept, ← informed, last]
    exact ⟨fun complete => ⟨complete.items, complete.state⟩, fun both => ⟨both.1, both.2⟩⟩
  constructor
  · intro complete before after r split reached
    exact (decided split reached).mp complete
  · intro condition
    obtain ⟨before, after, split⟩ := registers run drained.registered
    obtain ⟨r, reached, _⟩ := Run.split (split ▸ run)
    exact (decided split reached).mpr (condition before after r split reached)

private def connected : UpdateMessage := ⟨"CONNECTED", "SUCCESS", 1, .LEVEL_CONNECTED⟩

private def opened : LogItem := { mMessage := some "Opening tun interface", logtime := 0 }

private def loggedLater : List Event :=
  [.getlogbuffer, .checkState, .sendUpdate, .register, .updateState connected, .sendState, .newLogItem opened false,
    .broadcast, .broadcast]

theorem complete_iff_logged_later :
    ∃ final, Run step Free (start []) loggedLater final ∧
      (Complete final ↔ ∀ before after r, loggedLater = before ++ .register :: after →
        Run step Free (start []) before r → Shared r ∧ (Informed r ∨ ∃ message, .updateState message ∈ after)) :=
  ⟨_, Run.of_exec rfl, complete_iff (Run.of_exec rfl) ⟨rfl, rfl, rfl, rfl⟩⟩

/-- An item logged between the snapshot and the registration is broadcast to nobody. -/
theorem item_lost_before_register :
    ∃ final, Run step Free (start []) [.getlogbuffer, .checkState, .newLogItem opened false, .broadcast, .sendUpdate,
      .register] final ∧ Drained final ∧ ¬ Complete final := by
  refine ⟨_, Run.of_exec rfl, ⟨rfl, rfl, rfl, rfl⟩, ?_⟩
  intro complete
  have once := complete.items ⟨0, opened⟩ (List.mem_singleton.mpr rfl)
  cases once

end RRoadVpn.Proofs.StatusDelivery
