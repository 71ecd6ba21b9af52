import RRoadVpn.Proofs.Registration

/-! When a waiting hold is left with nothing that will release it. Each state
change that permits the connection also releases or keeps the posted release;
only a second resume request takes the posted release away. -/

namespace RRoadVpn.Proofs.StuckHold
open RRoadVpn.Library RRoadVpn.DeviceState Registration

/-- A hold that may be released is going to be. -/
def Progresses (s : Joint) : Prop :=
  s.mWaitingForRelease = true → shouldBeConnected s = true → 0 < s.resumeHoldPosts

/-- The user resumes although nothing is paused and a hold waits for its release. -/
def ResumesUnpaused (s : Joint) : Event → Prop
  | .userPause false => s.mPauseCallback = true ∧ s.mWaitingForRelease = true ∧ shouldBeConnected s = true
  | _ => False

private theorem initial : Progresses {} := by
  intro waiting
  cases waiting

private theorem idle {s : Joint} (released : s.mWaitingForRelease = false) : Progresses s := by
  intro waiting
  rw [released] at waiting
  cases waiting

private theorem blocked {s : Joint} (disconnected : shouldBeConnected s = false) : Progresses s := by
  intro _ connected
  rw [disconnected] at connected
  cases connected

private theorem releaseHold_released (s : Joint) : (releaseHold s).mWaitingForRelease = false := by
  unfold releaseHold
  split
  · rfl
  next waiting => exact Bool.eq_false_iff.mpr waiting

private theorem resume_progresses (s : Joint) : Progresses (resume s) := idle (releaseHold_released s)

private theorem networkChange_progresses (samenetwork : Bool) (s : Joint) :
    Progresses (networkChange samenetwork s) := by
  apply idle
  unfold networkChange
  split
  · exact releaseHold_released s
  next waiting => exact Bool.eq_false_iff.mpr waiting

/-- Pausing drops the posted release and leaves everything else about the hold. -/
theorem pauseNow_hold (s : Joint) :
    (pauseNow s).mWaitingForRelease = s.mWaitingForRelease ∧
      shouldBeConnected (pauseNow s) = shouldBeConnected s ∧ (pauseNow s).resumeHoldPosts = 0 := by
  simp only [pauseNow, pause, signalusr1]
  split <;> exact ⟨rfl, rfl, rfl⟩

private theorem pauseNow_iff (s : Joint) :
    Progresses (pauseNow s) ↔ ¬ (s.mWaitingForRelease = true ∧ shouldBeConnected s = true) := by
  obtain ⟨waiting, connected, posts⟩ := pauseNow_hold s
  simp only [Progresses, waiting, connected, posts, Nat.lt_irrefl, imp_false, not_and]

private theorem pauseNow_blocked {s : Joint} (disconnected : shouldBeConnected s = false) : Progresses (pauseNow s) :=
  blocked ((pauseNow_hold s).2.1.trans disconnected)

private theorem delayDisconnect_progresses {s : Joint} (progresses : Progresses s) :
    Progresses (mDelayDisconnectRunnable s) := by
  unfold mDelayDisconnectRunnable
  split
  · exact progresses
  · apply pauseNow_blocked
    simp [shouldBeConnected, disconnectPendingScreen]

private theorem updateByteCount_progresses (now diffIn diffOut : Int) {s : Joint} (progresses : Progresses s) :
    Progresses (updateByteCount now diffIn diffOut s) := by
  simp only [updateByteCount]
  split
  · exact progresses
  · split
    · exact progresses
    · split
      · apply pauseNow_blocked
        simp [shouldBeConnected]
      · exact progresses

private theorem screenOff_progresses (prefs : Preferences) (now : Int) {s : Joint} (progresses : Progresses s) :
    Progresses (screenOff prefs now s) := by
  simp only [screenOff, fillTrafficData]
  split
  · apply blocked
    by_cases paused : s.network = .disconnected ∨ s.userpause = .disconnected <;>
      simp [shouldBeConnected, paused]
  · exact progresses

private theorem screenOn_progresses {s : Joint} (progresses : Progresses s) : Progresses (screenOn s) := by
  simp only [screenOn]
  split
  · exact resume_progresses _
  next same =>
    split
    next disconnected => exact pauseNow_blocked (by simpa using disconnected)
    next connected =>
      intro waiting _
      apply progresses waiting
      simp only [bne_iff_ne, ne_eq, not_not, Bool.not_eq_true', Bool.not_eq_false] at same connected
      exact same.symm.trans connected

/-- Resuming an unpaused connection pauses it; every other resume request is harmless. -/
theorem userPause_iff (shouldBePaused : Bool) (s : Joint) :
    Progresses (userPause shouldBePaused s) ↔
      ¬ (shouldBePaused = false ∧ s.mWaitingForRelease = true ∧ shouldBeConnected s = true) := by
  cases shouldBePaused with
  | true =>
    refine iff_of_true (pauseNow_blocked ?_) (by simp)
    simp [shouldBeConnected]
  | false =>
    simp only [userPause, Bool.false_eq_true, ite_false, true_and]
    cases were : shouldBeConnected s with
    | true =>
      have unpaused : s.userpause = .shouldBeConnected := by
        simp only [shouldBeConnected, Bool.and_eq_true, beq_iff_eq] at were
        exact were.1.2
      have same : { s with userpause := .shouldBeConnected } = s := by rw [← unpaused]
      rw [same]
      simp only [were, Bool.not_true, Bool.and_false, Bool.false_eq_true, ite_false, pauseNow_iff]
    | false =>
      simp only [Bool.not_false, Bool.and_true, Bool.false_eq_true, and_false, not_false_eq_true, iff_true]
      split
      · exact resume_progresses _
      next disconnected => exact pauseNow_blocked (Bool.eq_false_iff.mpr disconnected)

private theorem networkStateChange_progresses (prefs : Preferences) (info : Option NetworkInfo) {s : Joint}
    (progresses : Progresses s) : Progresses (networkStateChange prefs info s) := by
  cases info with
  | none =>
    simp only [networkStateChange]
    split
    · exact blocked (by simp [shouldBeConnected])
    · exact progresses
  | some info =>
    simp only [networkStateChange]
    split
    · split
      · exact networkChange_progresses _ _
      · simp only [networkReplaced]
        split
        · split
          · exact networkChange_progresses _ _
          · exact resume_progresses _
        next disconnected => exact blocked (Bool.eq_false_iff.mpr disconnected)
    · exact progresses

theorem not_running {s : Joint} (unregistered : Unregistered s) (stopped : ¬ shouldBeRunning s = true) :
    shouldBeConnected s = false := by
  cases callback : s.mPauseCallback with
  | true => simpa [shouldBeRunning, callback] using stopped
  | false => simp [shouldBeConnected, unregistered callback]

private theorem handleHold_progresses {s : Joint} (unregistered : Unregistered s) (waittime : Int) :
    Progresses (handleHold waittime s) := by
  simp only [handleHold]
  split
  · intro _ _
    exact Nat.succ_pos _
  next stopped =>
    have disconnected := not_running (s := { s with mWaitingForRelease := true }) unregistered stopped
    exact blocked disconnected

/-- Running the release either performs it or finds the connection not wanted. -/
theorem resumeHold_progresses {s : Joint} (unregistered : Unregistered s) : Progresses (mResumeHoldRunnable s) := by
  unfold mResumeHoldRunnable
  split
  · exact idle rfl
  next stopped => exact blocked (not_running unregistered stopped)

private theorem step_iff (prefs : Preferences) {before after : Joint} {event : Event}
    (unregistered : Unregistered before) (progresses : Progresses before)
    (taken : step prefs before event = some after) :
    Progresses after ↔ ¬ ResumesUnpaused before event := by
  cases event with
  | userPause shouldBePaused =>
    cases taken
    cases callback : before.mPauseCallback with
    | true =>
      rw [if_pos rfl, userPause_iff]
      cases shouldBePaused <;> simp [ResumesUnpaused, callback]
    | false =>
      refine iff_of_true (by simpa using progresses) ?_
      cases shouldBePaused <;> simp [ResumesUnpaused, callback]
  | registerDeviceStateReceiver info =>
    simp only [step] at taken
    split at taken <;> cases taken
    exact iff_of_true (networkStateChange_progresses prefs info (by exact progresses)) (by simp [ResumesUnpaused])
  | networkBroadcast info =>
    simp only [step] at taken
    split at taken <;> cases taken
    exact iff_of_true (networkStateChange_progresses prefs info progresses) (by simp [ResumesUnpaused])
  | delayDisconnectExpired =>
    simp only [step] at taken
    split at taken <;> cases taken
    exact iff_of_true (delayDisconnect_progresses (by exact progresses)) (by simp [ResumesUnpaused])
  | screenOff now =>
    simp only [step] at taken
    split at taken <;> cases taken
    exact iff_of_true (screenOff_progresses prefs now progresses) (by simp [ResumesUnpaused])
  | screenOn =>
    simp only [step] at taken
    split at taken <;> cases taken
    exact iff_of_true (screenOn_progresses progresses) (by simp [ResumesUnpaused])
  | trafficSample now diffIn diffOut =>
    simp only [step] at taken
    split at taken <;> cases taken
    exact iff_of_true (updateByteCount_progresses now diffIn diffOut progresses) (by simp [ResumesUnpaused])
  | hold waittime =>
    cases taken
    exact iff_of_true (handleHold_progresses unregistered waittime) (by simp [ResumesUnpaused])
  | resumeHold =>
    simp only [step] at taken
    split at taken <;> cases taken
    exact iff_of_true (resumeHold_progresses (by exact unregistered)) (by simp [ResumesUnpaused])

/-- No waiting hold is ever stuck in exactly the runs in which the user never
resumes an unpaused connection that is waiting for its release. -/
theorem stuck_hold_iff (prefs : Preferences) {events final} (run : Run (step prefs) Free {} events final) :
    (∀ earlier later state, earlier ++ later = events → Run (step prefs) Free {} earlier state →
      Progresses state) ↔
    Run (step prefs) (fun before event => ¬ ResumesUnpaused before event) {} events final :=
  run.allowed_iff_always Registration.initial StuckHold.initial
    (fun _ _ _ unregistered taken => preserved prefs unregistered taken)
    (fun _ _ _ unregistered progresses taken => step_iff prefs unregistered progresses taken)

/-- A resume request arrives while the first hold waits for its posted release. -/
private def resumedTwice : List Event :=
  [.registerDeviceStateReceiver (some ⟨true, 1, none⟩), .hold 3, .userPause false]

theorem stuck_hold_iff_resumed_twice :
    ∃ final, Run (step {}) Free {} resumedTwice final ∧
      ((∀ earlier later state, earlier ++ later = resumedTwice → Run (step {}) Free {} earlier state →
        Progresses state) ↔
      Run (step {}) (fun before event => ¬ ResumesUnpaused before event) {} resumedTwice final) :=
  ⟨_, Run.of_exec rfl, stuck_hold_iff {} (Run.of_exec rfl)⟩

/-- The second resume leaves the hold waiting, everything connected and nothing posted. -/
theorem resuming_unpaused_sticks_hold :
    ∃ final, Run (step {}) Free {} resumedTwice final ∧ ¬ Progresses final :=
  ⟨_, Run.of_exec rfl, fun progresses => absurd (progresses rfl rfl) (by decide)⟩

end RRoadVpn.Proofs.StuckHold
