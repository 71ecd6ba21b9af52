import RRoadVpn.Library.Runs
import RRoadVpn.OpenVPNSessions

/-! Whether the end of an old session leaves a newer one alone: it does when every older
thread that still runs has been marked as replaced by the time a process thread is started. -/

namespace RRoadVpn.Proofs.SessionEnds
open RRoadVpn.Library RRoadVpn.OpenVPNSessions

/-- Session `j` was started after session `i`. -/
def Newer (s : State) (i j : Nat) : Prop := ∃ earlier later, s.started = earlier ++ i :: later ∧ j ∈ later

/-- What session `j` has is left to it, and no end of a session is reported. -/
structure Unharmed (j : Nat) (s s' : State) : Prop where
  mProcessThread : s.mProcessThread = some j → s'.mProcessThread = some j
  mOpenVPNThread : s.mOpenVPNThread = some j → s'.mOpenVPNThread = some j
  mDeviceStateReceiver : s.mDeviceStateReceiver = some j → s'.mDeviceStateReceiver = some j
  lastConnectedProfile : s.lastConnectedProfile = some j → s'.lastConnectedProfile = some j
  noprocess : s'.noprocess = s.noprocess

/-- The thread is over, but for the notification, or is marked as replaced before the check it comes to. -/
def Replaced (t : OpenVPNThread) : Prop :=
  t.running = .exited ∨ (t.running = .ending .stopForeground ∧ (t.mNoProcessExitStatus ∨ t.outer = 0)) ∨
    (t.mNoProcessExitStatus ∧ t.running ∈ [.waitFor, .checkNoProcess, .checkStopped])

instance (t : OpenVPNThread) : Decidable (Replaced t) :=
  inferInstanceAs (Decidable (_ ∨ (_ ∧ _) ∨ (_ ∧ _)))

/-- A process thread is started only when all older ones have been replaced. -/
def Superseding (s : State) : Event → Prop
  | .startOpenVPN i _ => s.starts i = .startProcessThread → ∀ old ∈ s.started, Replaced (s.threads old)
  | _ => True

instance (s : State) : (e : Event) → Decidable (Superseding s e)
  | .startOpenVPN i _ =>
    inferInstanceAs (Decidable (s.starts i = .startProcessThread → ∀ old ∈ s.started, Replaced (s.threads old)))
  | .onStartCommand | .setConnectedVpnProfile | .registerDeviceStateReceiver | .stopVPN | .onRevoke |
    .endVpnService _ | .run _ _ =>
    isTrue trivial

/-! ### A replaced thread -/

private theorem Replaced.leave {t : OpenVPNThread} (marked : t.mNoProcessExitStatus ∨ t.outer = 0) :
    Replaced t.leave := by
  unfold OpenVPNThread.leave
  split
  next => exact Or.inl rfl
  next outer same =>
    rcases marked with marked | none
    · exact Or.inr (Or.inr ⟨marked, by simp⟩)
    · rw [none] at same
      cases same

private theorem Replaced.mark {t : OpenVPNThread} (replaced : Replaced t) :
    Replaced { t with mNoProcessExitStatus := true } := by
  rcases replaced with exited | ⟨last, -⟩ | ⟨-, early⟩
  · exact Or.inl exited
  · exact Or.inr (Or.inl ⟨last, Or.inl rfl⟩)
  · exact Or.inr (Or.inr ⟨rfl, early⟩)

/-- A replaced thread stays replaced, and does nothing but leave the notification. -/
theorem run_replaced {s s' : State} {i : Nat} {again : Bool} (replaced : Replaced (s.threads i))
    (taken : s.run i again = some s') :
    ∃ t foreground, Replaced t ∧ s' = { s with foreground }.setThread i t := by
  unfold State.run at taken
  rcases replaced with exited | ⟨last, ended⟩ | ⟨marked, early⟩
  · simp only [exited] at taken
    cases taken
  · simp only [last, Ending.next, Option.elim_none, State.endVpnService] at taken
    cases taken
    split
    · exact ⟨_, s.foreground, Replaced.leave ended, rfl⟩
    · exact ⟨_, false, Replaced.leave ended, rfl⟩
  · have flag : (s.threads i).mNoProcessExitStatus = true := marked
    simp only [List.mem_cons, List.not_mem_nil, or_false] at early
    rcases early with waits | checks | checks
    · simp only [waits] at taken
      cases taken
      refine ⟨_, s.foreground, ?_, rfl⟩
      split
      · exact Or.inr (Or.inr ⟨marked, by simp⟩)
      · exact Or.inr (Or.inr ⟨marked, by simp⟩)
    · simp only [checks, flag, if_true] at taken
      cases taken
      exact ⟨_, s.foreground, Or.inr (Or.inr ⟨rfl, by simp⟩), rfl⟩
    · simp only [checks, flag, if_true] at taken
      cases taken
      exact ⟨_, s.foreground, Replaced.leave (Or.inl marked), rfl⟩

/-! ### Orderly states -/

/-- Old sessions are past their start, and all but the last are replaced. -/
structure Orderly (s : State) : Prop where
  fresh : ∀ i, s.commands ≤ i → s.starts i = .idle
  settled : ∀ i ∈ s.started, s.starts i = .post ∨ s.starts i = .done
  replaced : ∀ i j, Newer s i j → Replaced (s.threads i)

namespace Orderly

variable {s : State}

private theorem initial : Orderly {} where
  fresh _ _ := rfl
  settled _ member := absurd member List.not_mem_nil
  replaced i j newer := by
    obtain ⟨earlier, later, split, -⟩ := newer
    simp at split

theorem like {s' : State} (orderly : Orderly s) (commands : s'.commands = s.commands) (starts : s'.starts = s.starts)
    (threads : s'.threads = s.threads) (started : s'.started = s.started) : Orderly s' where
  fresh := by
    rw [commands, starts]
    exact orderly.fresh
  settled := by
    rw [started, starts]
    exact orderly.settled
  replaced i j newer := by
    obtain ⟨earlier, later, split, member⟩ := newer
    rw [threads]
    exact orderly.replaced i j ⟨earlier, later, started ▸ split, member⟩

private theorem setStart (orderly : Orderly s) {i : Nat} {next : Starting} (active : s.starts i ≠ .idle)
    (settled : s.starts i = .post ∨ s.starts i = .done → next = .done) : Orderly (s.setStart i next) where
  fresh k above := by
    have other : k ≠ i := by
      rintro rfl
      exact active (orderly.fresh k above)
    exact (Function.update_of_ne other _ _).trans (orderly.fresh k above)
  settled k member := by
    have before := orderly.settled k member
    change Function.update s.starts i next k = _ ∨ Function.update s.starts i next k = _
    by_cases here : k = i
    · subst here
      rw [Function.update_self]
      exact Or.inr (settled before)
    · rw [Function.update_of_ne here]
      exact before
  replaced := orderly.replaced

private theorem setThread (orderly : Orderly s) {i : Nat} {t : OpenVPNThread}
    (kept : Replaced (s.threads i) → Replaced t) :
    Orderly (s.setThread i t) where
  fresh := orderly.fresh
  settled := orderly.settled
  replaced k j newer := by
    have before := orderly.replaced k j newer
    change Replaced (Function.update s.threads i t k)
    by_cases here : k = i
    · subst here
      rw [Function.update_self]
      exact kept before
    · rw [Function.update_of_ne here]
      exact before

private theorem endVpnService (orderly : Orderly s) (e : Ending) : Orderly (s.endVpnService e) := by
  cases e with
  | stopForeground =>
    unfold State.endVpnService
    simp only
    split
    · exact orderly
    · exact orderly.like rfl rfl rfl rfl
  | _ => exact orderly.like rfl rfl rfl rfl

theorem start (orderly : Orderly s) {i : Nat} (starting : s.starts i = .startProcessThread)
    (superseding : ∀ old ∈ s.started, Replaced (s.threads old)) (t : OpenVPNThread) :
    Orderly (({ s with mProcessThread := some i, started := s.started ++ [i] }.setThread i t).setStart i .post) := by
  have absent : i ∉ s.started := by
    intro member
    rcases orderly.settled i member with same | same <;> exact absurd (starting.symm.trans same) (by decide)
  refine ⟨fun k above => ?_, fun k member => ?_, fun k j newer => ?_⟩
  · have other : k ≠ i := by
      rintro rfl
      exact absurd (starting.symm.trans (orderly.fresh k above)) (by decide)
    exact (Function.update_of_ne other _ _).trans (orderly.fresh k above)
  · change Function.update s.starts i .post k = _ ∨ Function.update s.starts i .post k = _
    rcases List.mem_append.mp member with before | here
    · have other : k ≠ i := fun same => absent (same ▸ before)
      rw [Function.update_of_ne other]
      exact orderly.settled k before
    · rw [List.mem_singleton.mp here, Function.update_self]
      exact Or.inl rfl
  · obtain ⟨earlier, later, split, member⟩ := newer
    change s.started ++ [i] = earlier ++ k :: later at split
    have old : k ∈ s.started := by
      rcases List.eq_nil_or_concat later with rfl | ⟨later, last, rfl⟩
      · cases member
      · rw [List.concat_eq_append, ← List.cons_append, ← List.append_assoc] at split
        rw [(List.append_inj' split rfl).1]
        simp
    have other : k ≠ i := fun same => absent (same ▸ old)
    change Replaced (Function.update s.threads i t k)
    rw [Function.update_of_ne other]
    exact superseding k old

end Orderly

private theorem endVpnService_starts (s : State) (e : Ending) : (s.endVpnService e).starts = s.starts := by
  cases e with
  | stopForeground =>
    unfold State.endVpnService
    simp only
    split <;> rfl
  | _ => rfl

private theorem endVpnService_threads (s : State) (e : Ending) : (s.endVpnService e).threads = s.threads := by
  cases e with
  | stopForeground =>
    unfold State.endVpnService
    simp only
    split <;> rfl
  | _ => rfl

theorem run_orderly {s s' : State} {i : Nat} {again : Bool} (orderly : Orderly s) (taken : s.run i again = some s') :
    Orderly s' := by
  by_cases replaced : Replaced (s.threads i)
  · obtain ⟨t, foreground, kept, rfl⟩ := run_replaced replaced taken
    refine Orderly.setThread ?_ fun _ => kept
    exact orderly.like rfl rfl rfl rfl
  · have any {t : OpenVPNThread} (before : Replaced (s.threads i)) : Replaced t := absurd before replaced
    unfold State.run at taken
    simp only at taken
    split at taken <;> cases taken
    · exact orderly.setThread any
    · exact orderly.setThread any
    · refine Orderly.setThread ?_ any
      exact orderly.like rfl rfl rfl rfl
    · exact orderly.setThread any
    next e _ =>
      refine (orderly.endVpnService e).setThread ?_
      rw [endVpnService_threads]
      exact any

private theorem startOpenVPN_orderly {s s' : State} {i : Nat} {fails : Bool} (orderly : Orderly s)
    (superseding : Superseding s (.startOpenVPN i fails)) (taken : s.startOpenVPN i fails = some s') :
    Orderly s' := by
  unfold State.startOpenVPN at taken
  have active {phase : Starting} (here : s.starts i = phase) (busy : phase ≠ .idle) : s.starts i ≠ .idle :=
    here ▸ busy
  have early {phase next : Starting} (here : s.starts i = phase) (busy : phase ≠ .post ∧ phase ≠ .done)
      (settled : s.starts i = .post ∨ s.starts i = .done) : next = .done := by
    rcases settled with same | same
    · exact absurd (here.symm.trans same) busy.1
    · exact absurd (here.symm.trans same) busy.2
  split at taken
  next => cases taken
  next => cases taken
  next here =>
    cases taken
    exact orderly.setStart (active here (by decide)) (early here (by decide))
  next here =>
    cases taken
    refine Orderly.setStart ?_ (active here (by decide)) (early here (by decide))
    exact orderly.like rfl rfl rfl rfl
  next here =>
    cases taken
    exact orderly.setStart (active here (by decide)) (early here (by decide))
  next here =>
    split at taken <;> cases taken
    · exact orderly.setStart (active here (by decide)) (early here (by decide))
    · exact (orderly.setThread Replaced.mark).setStart (active here (by decide)) (early here (by decide))
  next here =>
    cases taken
    refine Orderly.setStart ?_ (active here (by decide)) (early here (by decide))
    exact orderly.like rfl rfl rfl rfl
  next here =>
    split at taken <;> cases taken
    · exact orderly.setStart (active here (by decide)) (early here (by decide))
    · refine Orderly.setStart ?_ (active here (by decide)) (early here (by decide))
      exact orderly.like rfl rfl rfl rfl
  next here =>
    cases taken
    refine Orderly.setStart ?_ (active here (by decide)) (early here (by decide))
    exact orderly.like rfl rfl rfl rfl
  next here =>
    cases taken
    exact orderly.start here (superseding here) _
  next here =>
    cases taken
    refine Orderly.setStart ?_ (active here (by decide)) fun _ => rfl
    exact orderly.like rfl rfl rfl rfl
  next e here =>
    cases taken
    have same : (s.endVpnService e).starts i = .ending e := by
      rw [endVpnService_starts]
      exact here
    refine (orderly.endVpnService e).setStart (by simp [same]) ?_
    simp [same]

private theorem step_orderly {s s' : State} {e : Event} (orderly : Orderly s) (superseding : Superseding s e)
    (taken : step s e = some s') :
    Orderly s' := by
  cases e with
  | onStartCommand =>
    simp only [step] at taken
    split at taken <;> cases taken
    have idle := orderly.fresh s.commands (Nat.le_refl _)
    refine ⟨fun k above => ?_, fun k member => ?_, orderly.replaced⟩
    · have other : k ≠ s.commands := Nat.ne_of_gt above
      exact (Function.update_of_ne other _ _).trans (orderly.fresh k (Nat.le_of_succ_le above))
    · have other : k ≠ s.commands := by
        rintro rfl
        rcases orderly.settled s.commands member with same | same <;> exact absurd (idle.symm.trans same) (by decide)
      change Function.update s.starts s.commands _ k = _ ∨ Function.update s.starts s.commands _ k = _
      rw [Function.update_of_ne other]
      exact orderly.settled k member
  | setConnectedVpnProfile =>
    obtain ⟨i, -, rfl⟩ := Option.map_eq_some_iff.mp taken
    exact orderly.like rfl rfl rfl rfl
  | startOpenVPN i fails => exact startOpenVPN_orderly orderly superseding taken
  | registerDeviceStateReceiver =>
    simp only [step] at taken
    split at taken
    · cases taken
    · split at taken <;> cases taken
      exact orderly.like rfl rfl rfl rfl
  | stopVPN =>
    cases taken
    exact orderly
  | onRevoke =>
    simp only [step] at taken
    split at taken <;> cases taken
    exact orderly.like rfl rfl rfl rfl
  | endVpnService k =>
    obtain ⟨e, -, rfl⟩ := Option.map_eq_some_iff.mp taken
    exact (orderly.endVpnService e).like rfl rfl rfl rfl
  | run i again => exact run_orderly orderly taken

/-! ### Runs -/

/-- When all older threads have been replaced whenever a process thread was started, the end of
an old session does nothing to a newer one. -/
theorem end_unharmful {events : List Event} {s s' : State} {i : Nat} {again : Bool}
    (run : Run step Superseding {} events s)
    (taken : step s (.run i again) = some s') : ∀ j, Newer s i j → Unharmed j s s' := by
  intro j newer
  have orderly := run.invariant Orderly.initial fun _ _ _ orderly superseding taken =>
      step_orderly orderly superseding taken
  obtain ⟨t, foreground, -, rfl⟩ := run_replaced (orderly.replaced i j newer) taken
  exact ⟨fun same => same, fun same => same, fun same => same, fun same => same, rfl⟩

private theorem setThread_threads (s : State) (i : Nat) (t : OpenVPNThread) : (s.setThread i t).threads i = t := by
  simp [State.setThread]

/-- A thread that has not been marked reports the end of its process, whatever was started since. -/
theorem unmarked_reports {s : State} {i : Nat} (unmarked : (s.threads i).mNoProcessExitStatus = false)
    (waits : (s.threads i).running = .waitFor) :
    ∃ s', Run step Free s [.run i false, .run i false, .run i false] s' ∧ s'.noprocess = s.noprocess ++ [i] := by
  let ended : OpenVPNThread := { s.threads i with running := .checkNoProcess }
  let reporting : OpenVPNThread := { outer := (s.threads i).outer, running := .updateStateString }
  have first : step s (.run i false) = some (s.setThread i ended) := by
    simp only [step, State.run, waits]
    rfl
  have second : step (s.setThread i ended) (.run i false) = some ((s.setThread i ended).setThread i reporting) := by
    simp only [step, State.run, setThread_threads, ended, unmarked]
    rfl
  have third : step ((s.setThread i ended).setThread i reporting) (.run i false) =
      some ({ (s.setThread i ended).setThread i reporting with noprocess := s.noprocess ++ [i] }.setThread i
        { reporting with running := .checkStopped }) := by
    simp only [step, State.run, setThread_threads, reporting]
    rfl
  exact ⟨_, .snoc (.snoc (.snoc .nil trivial first) trivial second) trivial third, rfl⟩

/-- A session from its start command to its registration. -/
def startCommand (i steps : Nat) : List Event :=
  [.onStartCommand, .setConnectedVpnProfile] ++ List.replicate steps (.startOpenVPN i false) ++
    [.registerDeviceStateReceiver]

theorem replaced_end_unharmful : ∃ s s', Run step Superseding {} (startCommand 0 8 ++ startCommand 1 9) s ∧
    step s (.run 0 false) = some s' ∧ Unharmed 1 s s' := by
  have executed : ((startCommand 0 8 ++ startCommand 1 9).foldlM
      (fun s e => if Superseding s e then step s e else none) {}).bind
      (fun s => (step s (.run 0 false)).map fun _ => s.started) = some [0, 1] := by decide
  obtain ⟨s, ran, ended⟩ := Option.bind_eq_some_iff.mp executed
  obtain ⟨s', taken, started⟩ := Option.map_eq_some_iff.mp ended
  exact ⟨s, s', Run.of_checked ran, taken, end_unharmful (Run.of_checked ran) taken 1
    ⟨[], [1], started, List.mem_singleton_self 1⟩⟩

/-- A revocation, and the end of the session's process when the next has been started. -/
def revoked : List Event :=
  startCommand 0 8 ++ [.onRevoke] ++ List.replicate 5 (.endVpnService 0) ++ startCommand 1 8 ++
    List.replicate 4 (.run 0 false)

/-- After a revocation nothing points to the old thread when the next session comes to mark it. -/
theorem revoked_session_ends_newer : ¬ ∀ (events : List Event) (s s' : State) (i j : Nat) (again : Bool),
    Run step Free {} events s → step s (.run i again) = some s' → Newer s i j → Unharmed j s s' := by
  intro claimed
  have executed : (revoked.foldlM step {}).bind (fun s => (step s (.run 0 false)).map fun s' =>
      (s.started, s.mProcessThread, s'.mProcessThread)) = some ([0, 1], some 1, none) := by decide
  obtain ⟨s, ran, ended⟩ := Option.bind_eq_some_iff.mp executed
  obtain ⟨s', taken, seen⟩ := Option.map_eq_some_iff.mp ended
  simp only [Prod.mk.injEq] at seen
  obtain ⟨started, before, after⟩ := seen
  have unharmed :=
    claimed revoked s s' 0 1 false (Run.of_exec ran) taken ⟨[], [1], started, List.mem_singleton_self 1⟩
  exact absurd (after.symm.trans (unharmed.mProcessThread before)) (by decide)

end RRoadVpn.Proofs.SessionEnds
