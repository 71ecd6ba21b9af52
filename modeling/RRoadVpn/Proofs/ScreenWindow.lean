import Mathlib.Algebra.Order.BigOperators.Group.List
import Mathlib.Algebra.Order.Ring.Int
import RRoadVpn.DeviceState
import RRoadVpn.Library.Retention
import RRoadVpn.Library.Runs

/-! The traffic window of the screen-off pause. The points that were recorded stay in
order, and what the receiver keeps of them is their end, with bytes counted in a long. -/

namespace RRoadVpn.Proofs.ScreenWindow
open RRoadVpn.Library RRoadVpn.DeviceState
open TrafficHistory (long)

/-! ### What is recorded -/

/-- The points an event adds to the window, with all their bytes. -/
def recordedBy (prefs : Preferences) (s : Joint) : Event → List Datapoint
  | .screenOff now => if prefs.screenoff then [⟨now, TRAFFIC_LIMIT⟩] else []
  | .trafficSample now diffIn diffOut => if s.screen = .pendingDisconnect then [⟨now, diffIn + diffOut⟩] else []
  | _ => []

def record (prefs : Preferences) (s : Joint × List Datapoint) (e : Event) : Option (Joint × List Datapoint) :=
  (step prefs s.1 e).map fun after => (after, s.2 ++ recordedBy prefs s.1 e)

def clock : Event → Option Int
  | .screenOff now => some now
  | .trafficSample now _ _ => some now
  | _ => none

def Traffic : Event → Prop
  | .trafficSample _ diffIn diffOut => 0 ≤ diffIn ∧ 0 ≤ diffOut
  | _ => True

/-- The clock does not go back, and traffic is not negative. -/
def Clocked (before : List Event) (e : Event) : Prop :=
  (∀ earlier ∈ before, ∀ t ∈ clock earlier, ∀ now ∈ clock e, t ≤ now) ∧ Traffic e

def stored (p : Datapoint) : Datapoint := { p with data := long p.data }

def Old (events : List Event) (p : Datapoint) : Prop := ∃ e ∈ events, ∃ t ∈ clock e, p.timestamp ≤ t - TRAFFIC_WINDOW

def gone (now : Int) (p : Datapoint) : Bool := p.timestamp ≤ now - TRAFFIC_WINDOW

structure Window (events : List Event) (s : Joint × List Datapoint) : Prop where
  ordered : s.2.Pairwise fun p q => p.timestamp ≤ q.timestamp
  past : ∀ p ∈ s.2, ∃ e ∈ events, p.timestamp ∈ clock e
  nonneg : ∀ p ∈ s.2, 0 ≤ p.data
  retains : Retains (Old events) (s.2.map stored) s.1.trafficdata
  screenOffs : ∀ t, .screenOff t ∈ events → ⟨t, TRAFFIC_LIMIT⟩ ∈ s.2

/-! ### Trimming -/

/-- The loop meets the point that was just added before the list is empty. -/
theorem trimTraffic_eq {now : Int} {points : List Datapoint} (last : Datapoint) (recent : gone now last = false)
    (ages : Ages (gone now) (points ++ [last])) :
    trimTraffic now (points ++ [last]) = some ((points ++ [last]).filter fun p => !gone now p) := by
  induction points with
  | nil =>
    have kept : ¬ last.timestamp ≤ now - TRAFFIC_WINDOW := by simpa [gone] using recent
    rw [List.nil_append, trimTraffic, if_neg kept, List.filter_cons_of_pos (by simp [recent]), List.filter_nil]
  | cons p points ih =>
    obtain ⟨first, later⟩ := List.pairwise_cons.mp ages
    rw [List.cons_append, trimTraffic]
    split
    next old =>
      rw [List.filter_cons_of_neg (by simpa [gone] using old)]
      exact ih later
    next kept =>
      have here : gone now p = false := by simpa [gone] using kept
      refine congrArg some (List.filter_eq_self.mpr fun q member => ?_).symm
      rcases List.mem_cons.mp member with rfl | member
      · simp [here]
      · cases went : gone now q with
        | false => rfl
        | true =>
          rw [first q member went] at here
          cases here

private theorem ages_gone {now : Int} {points : List Datapoint}
    (ordered : points.Pairwise fun p q => p.timestamp ≤ q.timestamp) :
    Ages (gone now) points := by
  refine ordered.imp fun {p q} order old => ?_
  simp only [gone, decide_eq_true_eq] at old ⊢
  omega

/-! ### Steps -/

@[simp] theorem pauseNow_trafficdata (s : Joint) : (pauseNow s).trafficdata = s.trafficdata := by
  simp only [pauseNow, pause, signalusr1]
  split <;> rfl

@[simp] theorem releaseHold_trafficdata (s : Joint) : (releaseHold s).trafficdata = s.trafficdata := by
  unfold releaseHold
  split <;> rfl

@[simp] theorem resume_trafficdata (s : Joint) : (resume s).trafficdata = s.trafficdata := releaseHold_trafficdata s

@[simp] theorem networkChange_trafficdata (samenetwork : Bool) (s : Joint) :
  (networkChange samenetwork s).trafficdata = s.trafficdata := by
  unfold networkChange
  split
  · exact releaseHold_trafficdata s
  · rfl

private theorem networkReplaced_trafficdata (pendingDisconnect same : Bool) (s : Joint) :
    (networkReplaced pendingDisconnect same s).trafficdata = s.trafficdata := by
  simp only [networkReplaced]
  split
  · split
    · rw [networkChange_trafficdata]
      rfl
    · rw [resume_trafficdata]
      rfl
  · rfl

private theorem networkStateChange_trafficdata (prefs : Preferences) (networkInfo : Option NetworkInfo) (s : Joint) :
    (networkStateChange prefs networkInfo s).trafficdata = s.trafficdata := by
  unfold networkStateChange
  split
  · split
    · simp only
      split
      · rw [networkChange_trafficdata]
      · rw [networkReplaced_trafficdata]
    · rfl
  · split <;> rfl

private theorem screenOn_trafficdata (s : Joint) : (screenOn s).trafficdata = s.trafficdata := by
  simp only [screenOn]
  split
  · rw [resume_trafficdata]
  · split
    · rw [pauseNow_trafficdata]
    · rfl

private theorem userPause_trafficdata (shouldBePaused : Bool) (s : Joint) :
    (userPause shouldBePaused s).trafficdata = s.trafficdata := by
  simp only [userPause]
  split
  · rw [pauseNow_trafficdata]
  · split
    · rw [resume_trafficdata]
    · rw [pauseNow_trafficdata]

private theorem handleHold_trafficdata (waittime : Int) (s : Joint) :
    (handleHold waittime s).trafficdata = s.trafficdata := by
  simp only [handleHold]
  split
  · split <;> rfl
  · rfl

theorem step_trafficdata {prefs : Preferences} {s after : Joint} {e : Event} (taken : step prefs s e = some after)
    (timeless : clock e = none) :
    after.trafficdata = s.trafficdata := by
  cases e with
  | registerDeviceStateReceiver info =>
    obtain ⟨_, same⟩ := Option.ite_none_left_eq_some.mp taken
    cases same
    exact networkStateChange_trafficdata _ _ _
  | networkBroadcast info =>
    obtain ⟨_, same⟩ := Option.ite_none_right_eq_some.mp taken
    cases same
    exact networkStateChange_trafficdata _ _ _
  | delayDisconnectExpired =>
    rw [step] at taken
    split at taken
    · cases taken
    · cases taken
      unfold mDelayDisconnectRunnable
      split
      · rfl
      · rw [pauseNow_trafficdata]
        rfl
  | screenOff now => cases timeless
  | screenOn =>
    obtain ⟨_, same⟩ := Option.ite_none_right_eq_some.mp taken
    cases same
    exact screenOn_trafficdata s
  | trafficSample now diffIn diffOut => cases timeless
  | userPause shouldBePaused =>
    cases taken
    split
    · exact userPause_trafficdata shouldBePaused s
    · rfl
  | hold waittime =>
    cases taken
    exact handleHold_trafficdata waittime s
  | resumeHold =>
    rw [step] at taken
    split at taken
    · cases taken
    · cases taken
      unfold mResumeHoldRunnable
      split <;> rfl

section Step

variable {prefs : Preferences} {events : List Event} {s : Joint} {recorded : List Datapoint}

private theorem Window.le_clock (window : Window events (s, recorded)) {e : Event} {now : Int}
    (clocked : Clocked events e)
    (reads : now ∈ clock e) :
    ∀ p ∈ recorded, p.timestamp ≤ now := by
  intro p member
  obtain ⟨earlier, seen, time⟩ := window.past p member
  exact clocked.1 earlier seen _ time now reads

private theorem Old.gone {e : Event} {now : Int} (clocked : Clocked events e) (reads : now ∈ clock e) {p : Datapoint}
    (old : Old events p) :
    gone now p = true := by
  obtain ⟨earlier, seen, t, time, past⟩ := old
  have order := clocked.1 earlier seen t time now reads
  simp only [ScreenWindow.gone, decide_eq_true_eq]
  omega

private theorem Old.snoc {p : Datapoint} (old : Old events p) (e : Event) : Old (events ++ [e]) p := by
  obtain ⟨earlier, seen, rest⟩ := old
  exact ⟨earlier, List.mem_append_left _ seen, rest⟩

theorem Window.record (window : Window events (s, recorded)) {e : Event} {p : Datapoint} (clocked : Clocked events e)
    (reads : p.timestamp ∈ clock e) (nonneg : 0 ≤ p.data) {after : Joint}
    (retains : Retains (Old (events ++ [e])) ((recorded ++ [p]).map stored) after.trafficdata)
    (screenOff : ∀ t, e = .screenOff t → p = ⟨t, TRAFFIC_LIMIT⟩) :
    Window (events ++ [e]) (after, recorded ++ [p]) where
  ordered := by
    refine List.pairwise_append.mpr ⟨window.ordered, List.pairwise_singleton _ _, fun q member r here => ?_⟩
    rw [List.mem_singleton.mp here]
    exact window.le_clock clocked reads q member
  past := by
    intro q member
    rcases List.mem_append.mp member with before | here
    · obtain ⟨earlier, seen, time⟩ := window.past q before
      exact ⟨earlier, List.mem_append_left _ seen, time⟩
    · rw [List.mem_singleton.mp here]
      exact ⟨e, by simp, reads⟩
  nonneg := by
    intro q member
    rcases List.mem_append.mp member with before | here
    · exact window.nonneg q before
    · rwa [List.mem_singleton.mp here]
  retains := retains
  screenOffs := by
    intro t member
    rcases List.mem_append.mp member with before | here
    · exact List.mem_append_left _ (window.screenOffs t before)
    · rw [screenOff t (List.mem_singleton.mp here).symm]
      simp

theorem Window.skip (window : Window events (s, recorded)) {e : Event} (other : ∀ t, e ≠ .screenOff t) {after : Joint}
    (same : after.trafficdata = s.trafficdata) : Window (events ++ [e]) (after, recorded) where
  ordered := window.ordered
  past := fun p member => by
    obtain ⟨earlier, seen, time⟩ := window.past p member
    exact ⟨earlier, List.mem_append_left _ seen, time⟩
  nonneg := window.nonneg
  retains := by
    rw [same]
    exact window.retains.mono fun p old => old.snoc e
  screenOffs := by
    intro t member
    rcases List.mem_append.mp member with before | here
    · exact window.screenOffs t before
    · exact absurd (List.mem_singleton.mp here).symm (other t)

theorem Window.trim (window : Window events (s, recorded)) {now diffIn diffOut : Int}
    (clocked : Clocked events (.trafficSample now diffIn diffOut)) :
    trimTraffic now (s.trafficdata ++ [⟨now, long (diffIn + diffOut)⟩]) =
        some (((recorded ++ [(⟨now, diffIn + diffOut⟩ : Datapoint)]).filter fun p => !gone now p).map stored) ∧
      Retains (gone now · = true) ((recorded ++ [(⟨now, diffIn + diffOut⟩ : Datapoint)]).map stored)
        (((recorded ++ [(⟨now, diffIn + diffOut⟩ : Datapoint)]).filter fun p => !gone now p).map stored) := by
  have ordered : ((recorded ++ [(⟨now, diffIn + diffOut⟩ : Datapoint)]).map stored).Pairwise fun p q =>
      p.timestamp ≤ q.timestamp := by
    refine List.pairwise_map.mpr (List.pairwise_append.mpr
      ⟨window.ordered, List.pairwise_singleton _ _, fun q member r here => ?_⟩)
    rw [List.mem_singleton.mp here]
    exact window.le_clock clocked rfl q member
  have ages : Ages (gone now) _ := ages_gone ordered
  have retains : Retains (gone now · = true) ((recorded ++ [(⟨now, diffIn + diffOut⟩ : Datapoint)]).map stored)
      (s.trafficdata ++ [stored ⟨now, diffIn + diffOut⟩]) := by
    rw [List.map_append]
    exact (window.retains.mono fun p old => old.gone clocked rfl).append _
  have ages' : Ages (gone now) (s.trafficdata ++ [stored ⟨now, diffIn + diffOut⟩]) := by
    obtain ⟨dropped, split, _⟩ := retains.suffix
    rw [split] at ages
    exact (List.pairwise_append.mp ages).2.1
  have recent : gone now (stored ⟨now, diffIn + diffOut⟩) = false := by
    simp [gone, stored, TRAFFIC_WINDOW]
  have kept : (((recorded ++ [(⟨now, diffIn + diffOut⟩ : Datapoint)]).filter fun p => !gone now p).map stored) =
      ((recorded ++ [(⟨now, diffIn + diffOut⟩ : Datapoint)]).map stored).filter fun p => !gone now p := by
    rw [List.filter_map]
    rfl
  have trimmed := retains.trim ages
  rw [retains.filter_eq] at trimmed
  rw [kept]
  refine ⟨?_, trimmed⟩
  rw [← retains.filter_eq]
  exact trimTraffic_eq _ recent ages'

end Step

/-! ### Runs -/

private theorem sample_trafficdata {s : Joint} {now diffIn diffOut : Int} {kept : List Datapoint}
    (pending : s.screen = .pendingDisconnect)
    (trimmed : trimTraffic now (s.trafficdata ++ [⟨now, long (diffIn + diffOut)⟩]) = some kept) :
    updateByteCount now diffIn diffOut s =
      if windowtraffic kept < TRAFFIC_LIMIT then pauseNow { s with trafficdata := kept, screen := .disconnected }
      else { s with trafficdata := kept } := by
  rw [updateByteCount, if_neg (not_not_intro pending), trimmed]

private theorem Window.step {prefs : Preferences} (enabled : prefs.screenoff = true) {events : List Event}
    {s after : Joint × List Datapoint}
    {e : Event} (window : Window events s) (clocked : Clocked events e)
    (taken : ScreenWindow.record prefs s e = some after) :
    Window (events ++ [e]) after := by
  obtain ⟨s, recorded⟩ := s
  obtain ⟨after, moved, rfl⟩ := Option.map_eq_some_iff.mp taken
  have kept : Retains (Old (events ++ [e])) (recorded.map stored) s.trafficdata :=
    window.retains.mono fun p old => old.snoc e
  cases e with
  | screenOff now =>
    obtain ⟨_, same⟩ := Option.ite_none_right_eq_some.mp moved
    cases same
    simp only [recordedBy, DeviceState.screenOff, enabled, if_true]
    have limit : 0 ≤ TRAFFIC_LIMIT := by decide
    refine window.record clocked rfl limit ?_ fun t same => by cases same; rfl
    rw [List.map_append]
    exact kept.append _
  | trafficSample now diffIn diffOut =>
    obtain ⟨_, same⟩ := Option.ite_none_right_eq_some.mp moved
    cases same
    by_cases pending : s.screen = .pendingDisconnect
    · obtain ⟨trimmed, retains⟩ := window.trim clocked
      simp only [recordedBy, pending, if_true]
      refine window.record clocked rfl (add_nonneg clocked.2.1 clocked.2.2) ?_ fun t same => by cases same
      have old : Retains (Old (events ++ [.trafficSample now diffIn diffOut])) _ _ := retains.mono fun p gone =>
        ⟨.trafficSample now diffIn diffOut, by simp, now, rfl, by simpa [ScreenWindow.gone] using gone⟩
      rw [sample_trafficdata pending trimmed]
      split
      · rwa [pauseNow_trafficdata]
      · exact old
    · simp only [recordedBy, pending, if_false, List.append_nil]
      refine window.skip (fun t same => by cases same) ?_
      rw [updateByteCount, if_pos pending]
  | registerDeviceStateReceiver | networkBroadcast | delayDisconnectExpired | screenOn | userPause | hold |
    resumeHold =>
    simp only [recordedBy, List.append_nil]
    exact window.skip (fun t same => by cases same) (step_trafficdata moved rfl)

private theorem window_run {prefs : Preferences} (enabled : prefs.screenoff = true) {events : List Event}
    {final : Joint × List Datapoint}
    (run : Run (ScreenWindow.record prefs) Free ({}, []) events final) (clocked : Always Clocked events) :
    Window events final := by
  induction run with
  | nil =>
    exact ⟨List.Pairwise.nil, List.forall_mem_nil _, List.forall_mem_nil _, Retains.all _ _,
      fun t member => absurd member List.not_mem_nil⟩
  | snoc before _ taken ih =>
    obtain ⟨earlier, here⟩ := always_snoc.mp clocked
    exact (ih earlier).step enabled here taken

/-! ### Main result -/

/-- The bytes of the points that are less than a window old. -/
def traffic (now : Int) (points : List Datapoint) : Int :=
  ((points.filter fun p => now - TRAFFIC_WINDOW < p.timestamp && p.timestamp ≤ now).map Datapoint.data).sum

private theorem traffic_eq {now : Int} {points : List Datapoint} (past : ∀ p ∈ points, p.timestamp ≤ now) :
    ((points.filter fun p => !gone now p).map Datapoint.data).sum = traffic now points := by
  rw [traffic]
  congr 2
  refine List.filter_congr fun p member => ?_
  simp only [gone, past p member, decide_true, Bool.and_true, ← decide_not, Int.not_le]

/-- A loop over longs wraps as its total does. -/
theorem foldl_long (points : List Datapoint) (sum : Int) :
    (points.map stored).foldl (fun sum dp => long (sum + dp.data)) (long sum) =
      long (sum + (points.map Datapoint.data).sum) := by
  induction points generalizing sum with
  | nil => rw [List.map_nil, List.map_nil, List.sum_nil, Int.add_zero, List.foldl_nil]
  | cons p points ih =>
    rw [List.map_cons, List.foldl_cons, List.map_cons, List.sum_cons, ← Int.add_assoc, ← ih]
    simp only [stored, long, Int.bmod_add_bmod, Int.add_bmod_bmod]

private theorem windowtraffic_eq {now : Int} {points : List Datapoint} (past : ∀ p ∈ points, p.timestamp ≤ now) :
    windowtraffic ((points.filter fun p => !gone now p).map stored) = long (traffic now points) := by
  rw [← traffic_eq past, ← Int.zero_add (List.sum _), ← foldl_long]
  rfl

/-- One point in the window bounds what was sent in it from below. -/
theorem data_le_traffic {now : Int} {points : List Datapoint} (nonneg : ∀ p ∈ points, 0 ≤ p.data) {p : Datapoint}
    (member : p ∈ points)
    (recent : now - TRAFFIC_WINDOW < p.timestamp) (past : p.timestamp ≤ now) : p.data ≤ traffic now points := by
  refine List.single_le_sum ?_ p.data (List.mem_map_of_mem (List.mem_filter.mpr ⟨member, by simp [recent, past]⟩))
  intro data inside
  obtain ⟨q, kept, rfl⟩ := List.mem_map.mp inside
  exact nonneg q (List.mem_of_mem_filter kept)

def Unpaused (before after : Joint) : Prop := after.screen = before.screen ∧ after.sent = before.sent

def screenReason (s : Joint) : PauseReason := if s.userpause = .disconnected then .userPause else .screenOff

/-- The screen counts as disconnected, no release of the hold is due any more, and OpenVPN is restarted
or, where it is held already, the reason is shown. -/
structure Paused (before after : Joint) : Prop where
  screen : after.screen = .disconnected
  resumeHoldPosts : after.resumeHoldPosts = 0
  lastPauseReason : after.lastPauseReason = screenReason before
  sent : after.sent = before.sent ++
    [⟨if before.mWaitingForRelease then .updateStatePause (screenReason before) else .managmentCommand .signalSIGUSR1,
      before.userpause⟩]

private theorem Paused.not_unpaused {before after : Joint} (paused : Paused before after) :
    ¬ Unpaused before after := by
  rintro ⟨-, sent⟩
  have length := congrArg List.length (paused.sent.symm.trans sent)
  rw [List.length_append, List.length_singleton] at length
  omega

private theorem pauseNow_paused (s : Joint) (trafficdata : List Datapoint) :
    Paused s (pauseNow { s with trafficdata, screen := .disconnected }) := by
  have reason : getPauseReason { s with trafficdata, screen := .disconnected } = screenReason s := by
    simp only [getPauseReason, screenReason, if_true]
  simp only [pauseNow, pause, signalusr1, reason]
  split
  next held => exact ⟨rfl, rfl, rfl, by rw [if_pos held]; rfl⟩
  next free => exact ⟨rfl, rfl, rfl, by rw [if_neg free]; rfl⟩

/-- A sample pauses exactly when the screen is off and the window has too little traffic. Where the traffic fits
into a long, that takes a window's time from the moment the screen went off. -/
theorem window_exact {prefs : Preferences} (enabled : prefs.screenoff = true) {events : List Event} {s after : Joint}
    {recorded : List Datapoint} {now diffIn diffOut : Int}
    (run : Run (ScreenWindow.record prefs) Free ({}, []) events (s, recorded))
    (clocked : Always Clocked (events ++ [.trafficSample now diffIn diffOut]))
    (taken : step prefs s (.trafficSample now diffIn diffOut) = some after) :
    (s.screen = .pendingDisconnect → ∃ kept,
      trimTraffic now (s.trafficdata ++ [⟨now, long (diffIn + diffOut)⟩]) = some kept ∧ after.trafficdata = kept ∧
        windowtraffic kept = long (traffic now (recorded ++ [⟨now, diffIn + diffOut⟩]))) ∧
      (Paused s after ↔ s.screen = .pendingDisconnect ∧
        long (traffic now (recorded ++ [⟨now, diffIn + diffOut⟩])) < TRAFFIC_LIMIT) ∧
      (¬ Paused s after → Unpaused s after) ∧
      ∀ t, .screenOff t ∈ events → now < t + TRAFFIC_WINDOW →
        traffic now (recorded ++ [⟨now, diffIn + diffOut⟩]) < 2 ^ 63 → Unpaused s after := by
  obtain ⟨earlier, here⟩ := always_snoc.mp clocked
  have window := window_run enabled run earlier
  obtain ⟨trimmed, _⟩ := window.trim here
  have past : ∀ p ∈ recorded ++ [(⟨now, diffIn + diffOut⟩ : Datapoint)], p.timestamp ≤ now := by
    intro p member
    rcases List.mem_append.mp member with before | new
    · exact window.le_clock here rfl p before
    · rw [List.mem_singleton.mp new]
  have sum := windowtraffic_eq past
  obtain ⟨_, same⟩ := Option.ite_none_right_eq_some.mp taken
  cases same
  have low (pending : s.screen = .pendingDisconnect)
      (below : long (traffic now (recorded ++ [⟨now, diffIn + diffOut⟩])) < TRAFFIC_LIMIT) :
      Paused s (updateByteCount now diffIn diffOut s) := by
    rw [sample_trafficdata pending trimmed, sum, if_pos below]
    exact pauseNow_paused s _
  have quiet (other : ¬ (s.screen = .pendingDisconnect ∧
      long (traffic now (recorded ++ [⟨now, diffIn + diffOut⟩])) < TRAFFIC_LIMIT)) :
      Unpaused s (updateByteCount now diffIn diffOut s) := by
    by_cases pending : s.screen = .pendingDisconnect
    · have enough := fun low => other ⟨pending, low⟩
      rw [sample_trafficdata pending trimmed, sum, if_neg enough]
      exact ⟨rfl, rfl⟩
    · rw [updateByteCount, if_pos pending]
      exact ⟨rfl, rfl⟩
  refine ⟨fun pending => ⟨_, trimmed, ?_, sum⟩, ⟨fun paused => ?_, fun both => low both.1 both.2⟩, fun unpaused => ?_,
    fun t seen soon fits => quiet fun both => ?_⟩
  · rw [sample_trafficdata pending trimmed]
    split
    · rw [pauseNow_trafficdata]
    · rfl
  · by_contra other
    exact paused.not_unpaused (quiet other)
  · exact quiet fun both => unpaused (low both.1 both.2)
  · -- the point of the screen-off event is still in the window
    have point : (⟨t, TRAFFIC_LIMIT⟩ : Datapoint) ∈ recorded ++ [⟨now, diffIn + diffOut⟩] :=
      List.mem_append_left _ (window.screenOffs t seen)
    have nonneg : ∀ p ∈ recorded ++ [(⟨now, diffIn + diffOut⟩ : Datapoint)], 0 ≤ p.data := by
      intro p member
      rcases List.mem_append.mp member with before | new
      · exact window.nonneg p before
      · rw [List.mem_singleton.mp new]
        exact add_nonneg here.2.1 here.2.2
    have recent : now - TRAFFIC_WINDOW < t := by omega
    have enough := data_le_traffic nonneg point recent (past _ point)
    have limit : (0 : Int) ≤ TRAFFIC_LIMIT := by decide
    have nonnegative := limit.trans enough
    have exact_ : long (traffic now (recorded ++ [⟨now, diffIn + diffOut⟩])) =
        traffic now (recorded ++ [⟨now, diffIn + diffOut⟩]) :=
      Int.bmod_eq_of_le_mul_two (by push_cast; omega) (by push_cast; omega)
    rw [exact_] at both
    exact absurd both.2 (not_lt.mpr enough)

private def screenWentOff : List Event := [.registerDeviceStateReceiver (some ⟨true, 1, none⟩), .screenOff 0]

private theorem screenWentOff_clocked {now diffIn diffOut : Int} (later : 0 ≤ now) (sent : 0 ≤ diffIn)
    (received : 0 ≤ diffOut) : Always Clocked (screenWentOff ++ [.trafficSample now diffIn diffOut]) := by
  refine always_snoc.mpr ⟨(@always_snoc _ _ [_] _).mpr ⟨(@always_snoc _ _ [] _).mpr ⟨always_nil, ?_⟩, ?_⟩, ?_⟩
  · simp [Clocked, Traffic]
  · simp [Clocked, Traffic, clock]
  · simp [Clocked, Traffic, clock, screenWentOff, later, sent, received]

private theorem screenWentOff_run :
    ∃ s, Run (ScreenWindow.record ⟨true, true⟩) Free ({}, []) screenWentOff (s, [⟨0, TRAFFIC_LIMIT⟩]) ∧
      s.mPauseCallback = true ∧ s.screen = .pendingDisconnect := ⟨_, Run.of_exec rfl, rfl, rfl⟩

/-- A second later the quota is still in the window; a minute later nothing has been sent. -/
theorem window_exact_quota : ∃ s, Run (ScreenWindow.record ⟨true, true⟩) Free ({}, []) screenWentOff
      (s, [⟨0, TRAFFIC_LIMIT⟩]) ∧
    (∃ after, step ⟨true, true⟩ s (.trafficSample 1000 0 0) = some after ∧ Unpaused s after) ∧
    ∃ after, step ⟨true, true⟩ s (.trafficSample 60000 1000 1000) = some after ∧ Paused s after := by
  obtain ⟨s, run, registered, off⟩ := screenWentOff_run
  have taken (now diffIn diffOut : Int) : step ⟨true, true⟩ s (.trafficSample now diffIn diffOut) =
      some (updateByteCount now diffIn diffOut s) := if_pos registered
  obtain ⟨_, _, _, quiet⟩ := window_exact rfl run (screenWentOff_clocked (by decide) le_rfl le_rfl) (taken 1000 0 0)
  obtain ⟨_, pauses, _, _⟩ :=
    window_exact rfl run (screenWentOff_clocked (by decide) (by decide) (by decide)) (taken 60000 1000 1000)
  exact ⟨s, run, ⟨_, taken 1000 0 0, quiet 0 (by simp [screenWentOff]) (by decide) (by decide)⟩,
    _, taken 60000 1000 1000, pauses.mpr ⟨off, by decide⟩⟩

/-- The bytes of a second do not fit into a long, so that their sum is negative. -/
theorem overflow_pauses : ∃ s after, Run (ScreenWindow.record ⟨true, true⟩) Free ({}, []) screenWentOff
      (s, [⟨0, TRAFFIC_LIMIT⟩]) ∧
    Always Clocked (screenWentOff ++ [.trafficSample 1000 (2 ^ 63 - 1) 1]) ∧
    step ⟨true, true⟩ s (.trafficSample 1000 (2 ^ 63 - 1) 1) = some after ∧
    windowtraffic after.trafficdata ≠ traffic 1000 [⟨0, TRAFFIC_LIMIT⟩, ⟨1000, 2 ^ 63 - 1 + 1⟩] ∧
    1000 < 0 + TRAFFIC_WINDOW ∧ Paused s after := by
  obtain ⟨s, run, registered, off⟩ := screenWentOff_run
  have clocked := @screenWentOff_clocked 1000 (2 ^ 63 - 1) 1 (by decide) (by decide) (by decide)
  have taken : step ⟨true, true⟩ s (.trafficSample 1000 (2 ^ 63 - 1) 1) =
      some (updateByteCount 1000 (2 ^ 63 - 1) 1 s) := if_pos registered
  obtain ⟨trimmed, -⟩ := (window_run rfl run (always_snoc.mp clocked).1).trim (always_snoc.mp clocked).2
  refine ⟨s, _, run, clocked, taken, ?_, by decide, ?_⟩
  · rw [sample_trafficdata off trimmed, if_pos (by decide), pauseNow_trafficdata]
    change windowtraffic (List.map stored _) ≠ _
    decide
  · rw [sample_trafficdata off trimmed, if_pos (by decide)]
    exact pauseNow_paused s _

end RRoadVpn.Proofs.ScreenWindow
