import RRoadVpn.DeviceState
import RRoadVpn.Library.Runs

/-! Before the service registers a receiver, only the management thread moves. -/

namespace RRoadVpn.Proofs.Registration
open RRoadVpn.DeviceState

def Unregistered (s : Joint) : Prop := s.mPauseCallback = false → s.network = .disconnected

theorem initial : Unregistered {} := fun _ => rfl

private theorem registered {s : Joint} (callback : s.mPauseCallback = true) : Unregistered s :=
  fun missing => by rw [callback] at missing; cases missing

@[simp] theorem releaseHold_callback (s : Joint) : (releaseHold s).mPauseCallback = s.mPauseCallback := by
  unfold releaseHold
  split <;> rfl

@[simp] theorem resume_callback (s : Joint) : (resume s).mPauseCallback = s.mPauseCallback :=
  releaseHold_callback s

@[simp] theorem networkChange_callback (samenetwork : Bool) (s : Joint) :
    (networkChange samenetwork s).mPauseCallback = s.mPauseCallback := by
  unfold networkChange
  split
  · exact releaseHold_callback s
  · rfl

@[simp] theorem pauseNow_callback (s : Joint) : (pauseNow s).mPauseCallback = s.mPauseCallback := by
  simp only [pauseNow, pause, signalusr1]
  split <;> rfl

@[simp] theorem networkReplaced_callback (pendingDisconnect same : Bool) (s : Joint) :
    (networkReplaced pendingDisconnect same s).mPauseCallback = s.mPauseCallback := by
  simp only [networkReplaced]
  split
  · split
    · exact networkChange_callback _ _
    · exact resume_callback _
  · rfl

@[simp] theorem networkStateChange_callback (prefs : Preferences) (info : Option NetworkInfo) (s : Joint) :
    (networkStateChange prefs info s).mPauseCallback = s.mPauseCallback := by
  cases info with
  | none =>
    simp only [networkStateChange]
    split <;> rfl
  | some info =>
    simp only [networkStateChange]
    split
    · split
      · exact networkChange_callback _ _
      · exact networkReplaced_callback _ _ _
    · rfl

@[simp] theorem delayDisconnect_callback (s : Joint) :
    (mDelayDisconnectRunnable s).mPauseCallback = s.mPauseCallback := by
  unfold mDelayDisconnectRunnable
  split
  · rfl
  · exact pauseNow_callback _

@[simp] theorem updateByteCount_callback (now diffIn diffOut : Int) (s : Joint) :
    (updateByteCount now diffIn diffOut s).mPauseCallback = s.mPauseCallback := by
  simp only [updateByteCount]
  split
  · rfl
  · split
    · rfl
    · split
      · exact pauseNow_callback _
      · rfl

@[simp] theorem screenOff_callback (prefs : Preferences) (now : Int) (s : Joint) :
    (screenOff prefs now s).mPauseCallback = s.mPauseCallback := by
  simp only [screenOff, fillTrafficData]
  split <;> rfl

@[simp] theorem screenOn_callback (s : Joint) : (screenOn s).mPauseCallback = s.mPauseCallback := by
  simp only [screenOn]
  split
  · exact resume_callback _
  · split
    · exact pauseNow_callback _
    · rfl

@[simp] theorem userPause_callback (shouldBePaused : Bool) (s : Joint) :
    (userPause shouldBePaused s).mPauseCallback = s.mPauseCallback := by
  simp only [userPause]
  split
  · exact pauseNow_callback _
  · split
    · exact resume_callback _
    · exact pauseNow_callback _

/-- Without a callback the thread never runs a release of its own. -/
theorem unregistered_resumeHold {s : Joint} (missing : s.mPauseCallback = false) : mResumeHoldRunnable s = s := by
  simp [mResumeHoldRunnable, shouldBeRunning, missing]

private theorem unregistered_hold {s : Joint} (missing : s.mPauseCallback = false) (waittime : Int) :
    handleHold waittime s = emit (.updateStatePause s.lastPauseReason) { s with mWaitingForRelease := true } := by
  simp [handleHold, shouldBeRunning, missing]

/-- The receiver stays registered, and until then the network state is untouched. -/
theorem preserved (prefs : Preferences) {before after : Joint} {event : Event}
    (unregistered : Unregistered before) (taken : step prefs before event = some after) : Unregistered after := by
  cases callback : before.mPauseCallback with
  | true =>
    apply registered
    cases event with
    | registerDeviceStateReceiver info => simp [step, callback] at taken
    | networkBroadcast info | screenOff now | screenOn | trafficSample now diffIn diffOut =>
      simp only [step, callback, ite_true, Option.some.injEq] at taken
      subst taken
      simp [callback]
    | userPause shouldBePaused =>
      simp only [step, callback, ite_true, Option.some.injEq] at taken
      subst taken
      simp [callback]
    | hold waittime =>
      cases taken
      simp only [handleHold]
      split
      · split <;> exact callback
      · exact callback
    | delayDisconnectExpired =>
      simp only [step] at taken
      split at taken <;> cases taken
      simp [callback]
    | resumeHold =>
      simp only [step] at taken
      split at taken <;> cases taken
      unfold mResumeHoldRunnable
      split <;> exact callback
  | false =>
    have offline := unregistered callback
    cases event with
    | registerDeviceStateReceiver info =>
      simp only [step, callback, Bool.false_eq_true, ite_false, Option.some.injEq] at taken
      subst taken
      exact registered (by simp)
    | networkBroadcast info | screenOff now | screenOn | trafficSample now diffIn diffOut =>
      simp [step, callback] at taken
    | userPause shouldBePaused =>
      simp only [step, callback, Bool.false_eq_true, ite_false, Option.some.injEq] at taken
      exact taken ▸ unregistered
    | hold waittime =>
      cases taken
      rw [unregistered_hold callback]
      exact fun _ => offline
    | delayDisconnectExpired =>
      simp only [step] at taken
      split at taken <;> cases taken
      intro _
      simp [mDelayDisconnectRunnable, offline]
    | resumeHold =>
      simp only [step] at taken
      split at taken <;> cases taken
      rw [unregistered_resumeHold (by exact callback)]
      exact fun _ => offline

end RRoadVpn.Proofs.Registration
