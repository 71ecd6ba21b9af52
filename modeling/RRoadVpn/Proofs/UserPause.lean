import RRoadVpn.Proofs.Registration

/-! When the management thread releases a hold although the user has paused.
Every path to the release asks the receiver first, except the reconnection to
the same network within the disconnect delay. -/

namespace RRoadVpn.Proofs.UserPause
open RRoadVpn.Library RRoadVpn.DeviceState Registration

/-- No hold was released while the user pause was on. -/
def RespectsPause (s : Joint) : Prop :=
  ∀ sent ∈ s.sent, sent.output = .managmentCommand .holdRelease → sent.userpause ≠ .disconnected

/-- The same network comes back before the disconnect delay expires while a hold
waits under the user's pause. -/
def ReprotectsHeld (s : Joint) : Event → Prop
  | .networkBroadcast (some info) =>
    info.connected = true ∧ s.network = .pendingDisconnect ∧ sameNetwork s.lastConnectedNetwork info = true ∧
      s.mWaitingForRelease = true ∧ s.userpause = .disconnected
  | _ => False

private theorem initial : RespectsPause {} := by
  intro sent member
  cases member

private theorem congr {s t : Joint} (same : t.sent = s.sent) : RespectsPause t ↔ RespectsPause s := by
  simp only [RespectsPause, same]

private theorem emit_iff (output : Output) (s : Joint) :
    RespectsPause (emit output s) ↔
      RespectsPause s ∧ (output = .managmentCommand .holdRelease → s.userpause ≠ .disconnected) := by
  simp only [RespectsPause, emit, List.mem_append, List.mem_singleton, or_imp, forall_and, forall_eq]

private theorem emit_other {output : Output} (other : output ≠ .managmentCommand .holdRelease) (s : Joint) :
    RespectsPause (emit output s) ↔ RespectsPause s := by
  simp only [emit_iff, other, false_imp_iff, and_true]

private theorem releaseHoldCmd_iff (s : Joint) :
    RespectsPause (releaseHoldCmd s) ↔ RespectsPause s ∧ s.userpause ≠ .disconnected := by
  unfold releaseHoldCmd managmentCommand
  rw [emit_other (by simp), emit_other (by simp), emit_iff]
  exact and_congr (congr rfl) (forall_prop_of_true rfl)

private theorem releaseHold_iff (s : Joint) :
    RespectsPause (releaseHold s) ↔
      RespectsPause s ∧ (s.mWaitingForRelease = true → s.userpause ≠ .disconnected) := by
  unfold releaseHold
  split
  next waiting => simp only [releaseHoldCmd_iff, waiting, forall_const]
  next idle => exact (and_iff_left (fun waiting => absurd waiting idle)).symm

private theorem networkChange_iff (samenetwork : Bool) (s : Joint) :
    RespectsPause (networkChange samenetwork s) ↔
      RespectsPause s ∧ (s.mWaitingForRelease = true → s.userpause ≠ .disconnected) := by
  unfold networkChange
  split
  next waiting => exact releaseHold_iff s
  next idle =>
    rw [managmentCommand, emit_other (by simp)]
    exact (and_iff_left (fun waiting => absurd waiting idle)).symm

private theorem resume_iff (s : Joint) :
    RespectsPause (resume s) ↔
      RespectsPause s ∧ (s.mWaitingForRelease = true → s.userpause ≠ .disconnected) := by
  unfold resume
  exact (congr rfl).trans (releaseHold_iff s)

private theorem pauseNow_iff (s : Joint) : RespectsPause (pauseNow s) ↔ RespectsPause s := by
  simp only [pauseNow, pause, signalusr1]
  split
  · exact (emit_other (by simp) _).trans (congr rfl)
  · exact (emit_other (by simp) _).trans (congr rfl)

theorem not_paused {s : Joint} (connected : shouldBeConnected s = true) : s.userpause ≠ .disconnected := by
  simp only [shouldBeConnected, Bool.and_eq_true, beq_iff_eq] at connected
  simp [connected.1.2]

private theorem not_connected {s : Joint} (paused : s.userpause = .disconnected) : shouldBeConnected s = false :=
  Bool.eq_false_iff.mpr (fun connected => not_paused connected paused)

private theorem delayDisconnect_iff (s : Joint) : RespectsPause (mDelayDisconnectRunnable s) ↔ RespectsPause s := by
  unfold mDelayDisconnectRunnable
  split
  · rfl
  · exact (pauseNow_iff _).trans (congr rfl)

private theorem updateByteCount_iff (now diffIn diffOut : Int) (s : Joint) :
    RespectsPause (updateByteCount now diffIn diffOut s) ↔ RespectsPause s := by
  unfold updateByteCount
  split
  · rfl
  · split
    · exact congr rfl
    · split
      · exact (pauseNow_iff _).trans (congr rfl)
      · exact congr rfl

private theorem userPause_iff (shouldBePaused : Bool) (s : Joint) :
    RespectsPause (userPause shouldBePaused s) ↔ RespectsPause s := by
  simp only [userPause]
  split
  · exact (pauseNow_iff _).trans (congr rfl)
  · split
    · rw [resume_iff]
      exact (and_iff_left (fun _ => by simp)).trans (congr rfl)
    · exact (pauseNow_iff _).trans (congr rfl)

private theorem screenOff_iff (prefs : Preferences) (now : Int) (s : Joint) :
    RespectsPause (screenOff prefs now s) ↔ RespectsPause s := by
  simp only [screenOff, fillTrafficData]
  split <;> exact congr rfl

/-- Switching the screen on resumes only what the screen alone had stopped. -/
theorem screenOn_iff (s : Joint) : RespectsPause (screenOn s) ↔ RespectsPause s := by
  simp only [screenOn]
  split
  next changed =>
    rw [resume_iff]
    refine (and_iff_left (fun _ paused => ?_)).trans (congr rfl)
    rw [not_connected paused, not_connected (s := s) paused] at changed
    cases changed
  next =>
    split
    · exact (pauseNow_iff _).trans (congr rfl)
    · exact congr rfl

private theorem networkReplaced_iff (pendingDisconnect same : Bool) (s : Joint) :
    RespectsPause (networkReplaced pendingDisconnect same s) ↔ RespectsPause s := by
  simp only [networkReplaced]
  split
  next connected =>
    have free : s.userpause ≠ .disconnected := not_paused (s := disconnectPendingScreen s) connected
    split
    · rw [networkChange_iff]
      exact (and_iff_left (fun _ => free)).trans (congr rfl)
    · rw [resume_iff]
      exact (and_iff_left (fun _ => free)).trans (congr rfl)
  next => exact congr rfl

/-- The first broadcast branch releases whatever is held; the others do not
release under the user's pause. -/
theorem networkStateChange_iff (prefs : Preferences) (info : Option NetworkInfo) (s : Joint) :
    RespectsPause (networkStateChange prefs info s) ↔
      RespectsPause s ∧ ¬ ReprotectsHeld s (.networkBroadcast info) := by
  cases info with
  | none =>
    simp only [networkStateChange, ReprotectsHeld, not_false_eq_true, and_true]
    split
    · exact congr rfl
    · rfl
  | some info =>
    simp only [networkStateChange, ReprotectsHeld]
    split
    next connected =>
      split
      next same =>
        simp only [Bool.and_eq_true, beq_iff_eq] at same
        rw [networkChange_iff]
        simp only [connected, same, true_and, not_and, ne_eq]
        exact Iff.rfl
      next different =>
        simp only [Bool.and_eq_true, beq_iff_eq, not_and] at different
        refine (congr rfl).trans ((networkReplaced_iff ..).trans ((congr rfl).trans (and_iff_left ?_).symm))
        rintro ⟨_, pending, same, _⟩
        exact different pending same
    next offline => exact (and_iff_left (fun held => offline held.1)).symm

private theorem handleHold_iff (waittime : Int) (s : Joint) :
    RespectsPause (handleHold waittime s) ↔ RespectsPause s := by
  simp only [handleHold]
  split
  · refine (congr rfl).trans ?_
    split
    · exact (emit_other (by simp) _).trans (congr rfl)
    · exact congr rfl
  · exact (emit_other (by simp) _).trans (congr rfl)

private theorem resumeHold_iff (s : Joint) : RespectsPause (mResumeHoldRunnable s) ↔ RespectsPause s := by
  unfold mResumeHoldRunnable
  split
  next running =>
    rw [releaseHoldCmd_iff]
    refine and_iff_left (not_paused ?_)
    unfold shouldBeRunning at running
    split at running
    · exact running
    · cases running
  next => rfl

/-- One event of the joint machine releases a hold under the user's pause
exactly when it brings the same network back to a held connection. -/
theorem step_iff (prefs : Preferences) {before after : Joint} {event : Event}
    (unregistered : Unregistered before) (respected : RespectsPause before)
    (taken : step prefs before event = some after) :
    RespectsPause after ↔ ¬ ReprotectsHeld before event := by
  cases event with
  | registerDeviceStateReceiver info =>
    simp only [step] at taken
    split at taken
    · cases taken
    next fresh =>
      cases taken
      have offline := unregistered (by simpa using fresh)
      rw [networkStateChange_iff]
      have harmless : ¬ ReprotectsHeld { before with mPauseCallback := true } (.networkBroadcast info) := by
        cases info <;> simp [ReprotectsHeld, offline]
      exact iff_of_true ⟨(congr rfl).mpr respected, harmless⟩ (by simp [ReprotectsHeld])
  | networkBroadcast info =>
    simp only [step] at taken
    split at taken
    · cases taken
      rw [networkStateChange_iff]
      exact and_iff_right respected
    · cases taken
  | delayDisconnectExpired =>
    simp only [step] at taken
    split at taken
    · cases taken
    · cases taken
      exact iff_of_true ((delayDisconnect_iff _).mpr ((congr rfl).mpr respected)) (by simp [ReprotectsHeld])
  | screenOff now =>
    simp only [step] at taken
    split at taken <;> cases taken
    exact iff_of_true ((screenOff_iff ..).mpr respected) (by simp [ReprotectsHeld])
  | screenOn =>
    simp only [step] at taken
    split at taken <;> cases taken
    exact iff_of_true ((screenOn_iff _).mpr respected) (by simp [ReprotectsHeld])
  | trafficSample now diffIn diffOut =>
    simp only [step] at taken
    split at taken <;> cases taken
    exact iff_of_true ((updateByteCount_iff ..).mpr respected) (by simp [ReprotectsHeld])
  | userPause shouldBePaused =>
    simp only [step] at taken
    cases taken
    refine iff_of_true ?_ (by simp [ReprotectsHeld])
    split
    · exact (userPause_iff ..).mpr respected
    · exact respected
  | hold waittime =>
    cases taken
    exact iff_of_true ((handleHold_iff ..).mpr respected) (by simp [ReprotectsHeld])
  | resumeHold =>
    simp only [step] at taken
    split at taken
    · cases taken
    · cases taken
      exact iff_of_true ((resumeHold_iff _).mpr ((congr rfl).mpr respected)) (by simp [ReprotectsHeld])

/-- The hold is never released under the user's pause in exactly the runs that
never bring the same network back to a connection held under it. -/
theorem released_under_user_pause_iff (prefs : Preferences) {events final}
    (run : Run (step prefs) Free {} events final) :
    (∀ earlier later state, earlier ++ later = events → Run (step prefs) Free {} earlier state →
      RespectsPause state) ↔
    Run (step prefs) (fun before event => ¬ ReprotectsHeld before event) {} events final :=
  run.allowed_iff_always Registration.initial UserPause.initial
    (fun _ _ _ unregistered taken => preserved prefs unregistered taken)
    (fun _ _ _ unregistered respected taken => step_iff prefs unregistered respected taken)

private def wifi : NetworkInfo := ⟨true, 1, some "home"⟩

/-- The user pauses while the hold is waiting and the network drops for a moment. -/
private def briefLoss : List Event :=
  [.registerDeviceStateReceiver (some wifi), .hold 0, .resumeHold, .userPause true, .hold 0,
    .networkBroadcast none, .networkBroadcast (some wifi)]

theorem released_under_user_pause_iff_brief_loss :
    ∃ final, Run (step {}) Free {} briefLoss final ∧
      ((∀ earlier later state, earlier ++ later = briefLoss → Run (step {}) Free {} earlier state →
        RespectsPause state) ↔
      Run (step {}) (fun before event => ¬ ReprotectsHeld before event) {} briefLoss final) :=
  ⟨_, Run.of_exec rfl, released_under_user_pause_iff {} (Run.of_exec rfl)⟩

/-- A paused user's hold is released by the returning network. -/
theorem brief_loss_releases_paused_hold :
    ∃ final, Run (step {}) Free {} briefLoss final ∧ ¬ RespectsPause final := by
  refine ⟨_, Run.of_exec rfl, fun respected => ?_⟩
  exact respected ⟨.managmentCommand .holdRelease, .disconnected⟩ (by decide) rfl rfl

end RRoadVpn.Proofs.UserPause
