import Mathlib.Data.List.Nodup
import RRoadVpn.Library.Runs
import RRoadVpn.ManagementThreads

/-! Which runs keep ended threads out of `active` and the answers of `stopVPN` true.
A thread that leaves its loop by `return` stays in the list, and the answer of
`stopOpenVPN` is that of the last thread alone. -/

namespace RRoadVpn.Proofs.StopResult
open RRoadVpn.Library RRoadVpn.ManagementThreads

/-- A stop says whether it has sent SIGINT to a client. -/
def Told (call : Stopped) : Prop := call.stopSucceed = true ↔ call.signalled ≠ []

/-- No thread in `active` has ended, and all stops have told the truth. -/
structure Truthful (s : State) : Prop where
  active : ∀ i ∈ s.active, (s.threads i).running ≠ .ended
  stopped : ∀ call ∈ s.stopped, Told call

/-- A command would be written to a client that is there. -/
def Reaches (t : OpenVpnManagementThread) (fails : Bool) : Prop :=
  ∃ socket, t.mSocket = some socket ∧ socket.closed = false ∧ socket.client = true ∧ fails = false

/-- No thread is left by the end of its stream or by an exception without a message, and where
a stop has sent SIGINT before, it can write to the last thread too. -/
def Sound (s : State) : Event → Prop
  | .endOfStream _ => False
  | .ioException _ message => message.isSome
  | .signal fails _ => ∀ stop mt, s.stopping = some stop → stop.pending = [mt] → stop.signalled ≠ [] →
      Reaches (s.threads mt) fails
  | _ => True

/-! ### Commands -/

section
variable (t : OpenVpnManagementThread) (cmd : String) (fails : Bool)

/-- The answer of `managmentCommand` is whether the client has got the command. -/
theorem managmentCommand_iff : (t.managmentCommand cmd fails).1 = true ↔ Reaches t fails := by
  unfold OpenVpnManagementThread.managmentCommand Reaches
  cases t.mSocket with
  | none => simp
  | some socket =>
    cases closed : socket.closed <;> cases client : socket.client <;> cases fails <;> simp [closed, client]

@[simp] theorem managmentCommand_running : (t.managmentCommand cmd fails).2.running = t.running := by
  unfold OpenVpnManagementThread.managmentCommand
  split
  · rfl
  · split <;> rfl

@[simp] theorem clientCloses_running : t.clientCloses.running = t.running := rfl

end

/-! ### The threads in the list -/

/-- A thread that has entered `run` and not left it. -/
def Inside (running : Running) : Prop := running ∈ [.accept, .version, .read, .remove]

structure Consistent (s : State) : Prop where
  nodup : s.active.Nodup
  present : ∀ i, Inside (s.threads i).running → i ∈ s.active
  started : ∀ i ∈ s.active, (s.threads i).running ≠ .idle

/-- The list and where each thread is are as they were. -/
structure Like (s s' : State) : Prop where
  active : s'.active = s.active
  running : ∀ i, (s'.threads i).running = (s.threads i).running

variable {s s' : State} {i : Nat} {t : OpenVpnManagementThread}

private theorem Like.setThread (same : t.running = (s.threads i).running) : Like s (s.setThread i t) where
  active := rfl
  running k := by
    by_cases here : k = i
    · subst here
      simp [State.setThread, same]
    · simp [State.setThread, here]

private theorem Like.trans {s'' : State} (first : Like s s') (second : Like s' s'') : Like s s'' :=
  ⟨second.active.trans first.active, fun i => (second.running i).trans (first.running i)⟩

private theorem Like.returnStop (stop : StopOpenVPN) : Like s (s.returnStop stop) := by
  unfold State.returnStop
  split
  · have answered : Like s { s with stopping := none, stopped := s.stopped ++ [⟨stop.sendCMD, stop.signalled⟩] } :=
      ⟨rfl, fun _ => rfl⟩
    exact answered.trans (Like.setThread rfl)
  · exact ⟨rfl, fun _ => rfl⟩

private theorem Like.loopStop (stop : StopOpenVPN) : Like s (s.loopStop stop) := by
  unfold State.loopStop
  split
  · exact Like.returnStop stop
  · exact ⟨rfl, fun _ => rfl⟩

private theorem Like.signal (stop : StopOpenVPN) (mt : Nat) (pending : List Nat) (fails closeFails : Bool) :
    Like s (s.signal stop mt pending fails closeFails) := by
  unfold State.signal
  refine Like.trans (Like.setThread ?_) (Like.loopStop _)
  exact managmentCommand_running _ _ _

private theorem Consistent.like (consistent : Consistent s) (like : Like s s') : Consistent s' := by
  refine ⟨like.active ▸ consistent.nodup, fun i inside => ?_, fun i member => ?_⟩
  · rw [like.running] at inside
    rw [like.active]
    exact consistent.present i inside
  · rw [like.active] at member
    rw [like.running]
    exact consistent.started i member

private theorem Like.noneEnded (like : Like s s') (active : ∀ i ∈ s.active, (s.threads i).running ≠ .ended) :
    ∀ i ∈ s'.active, (s'.threads i).running ≠ .ended := by
  intro i member
  rw [like.active] at member
  rw [like.running]
  exact active i member

theorem Consistent.move (consistent : Consistent s) (inside : Inside (s.threads i).running)
    (begun : t.running ≠ .idle) : Consistent (s.setThread i t) := by
  refine ⟨consistent.nodup, fun k here => ?_, fun k member => ?_⟩
  · by_cases same : k = i
    · subst same
      exact consistent.present k inside
    · simp only [State.setThread, Function.update_of_ne same] at here
      exact consistent.present k here
  · by_cases same : k = i
    · subst same
      simpa [State.setThread] using begun
    · simpa [State.setThread, same] using consistent.started k member

private theorem Truthful.move (truthful : Truthful s) (going : t.running ≠ .ended) : Truthful (s.setThread i t) := by
  refine ⟨fun k member => ?_, truthful.stopped⟩
  by_cases same : k = i
  · subst same
    simpa [State.setThread] using going
  · simpa [State.setThread, same] using truthful.active k member

theorem Consistent.ended_in_list (consistent : Consistent s) (inside : Inside (s.threads i).running)
    (ended : t.running = .ended) : ¬ Truthful (s.setThread i t) := by
  intro truthful
  have wrong := truthful.active i (consistent.present i inside)
  simp [State.setThread, ended] at wrong

/-! ### The answer of a stop -/

theorem loopStop_stopped (stop : StopOpenVPN) :
    (s.loopStop stop).stopped =
      if stop.pending = [] then s.stopped ++ [⟨stop.sendCMD, stop.signalled⟩] else s.stopped := by
  unfold State.loopStop State.returnStop
  by_cases last : stop.pending = []
  · rw [if_pos last, if_pos last]
    split <;> rfl
  · rw [if_neg last, if_neg last]

private theorem answer_iff {stop : StopOpenVPN} (truthful : ∀ call ∈ s.stopped, Told call) :
    (∀ call ∈ (s.loopStop stop).stopped, Told call) ↔ (stop.pending = [] → Told ⟨stop.sendCMD, stop.signalled⟩) := by
  rw [loopStop_stopped]
  by_cases last : stop.pending = []
  · rw [if_pos last]
    constructor
    · intro all _
      exact all _ (List.mem_append_right _ (List.mem_singleton.mpr rfl))
    · intro new call member
      rcases List.mem_append.mp member with old | this
      · exact truthful call old
      · rw [List.mem_singleton.mp this]
        exact new last
  · rw [if_neg last]
    exact iff_of_true truthful fun none => absurd none last

/-- The last answer is right unless the write fails where one before it did not. -/
theorem signal_truthful_iff (truthful : Truthful s) (stop : StopOpenVPN) (mt : Nat) (pending : List Nat)
    (fails closeFails : Bool) :
    Truthful (s.signal stop mt pending fails closeFails) ↔
      (pending = [] → stop.signalled ≠ [] → Reaches (s.threads mt) fails) := by
  have none := (Like.signal (s := s) stop mt pending fails closeFails).noneEnded truthful.active
  have written := managmentCommand_iff (s.threads mt) "signal SIGINT\n" fails
  have answers := truthful.stopped
  have same (t : OpenVpnManagementThread) : (s.setThread mt t).stopped = s.stopped := rfl
  have iff : (∀ call ∈ (s.signal stop mt pending fails closeFails).stopped, Told call) ↔
      (pending = [] → stop.signalled ≠ [] → Reaches (s.threads mt) fails) := by
    unfold State.signal
    rw [answer_iff (by rwa [same])]
    refine imp_congr_right fun _ => ?_
    rw [← written]
    cases (s.threads mt).managmentCommand "signal SIGINT\n" fails with
    | mk sendCMD t => cases sendCMD <;> simp [Told]
  exact ⟨fun after => iff.mp after.stopped, fun sound => ⟨none, iff.mpr sound⟩⟩

/-! ### Steps -/

theorem like_exact (like : Like s s') (consistent : Consistent s) (same : s'.stopped = s.stopped) :
    Consistent s' ∧ (Truthful s → (Truthful s' ↔ True)) :=
  ⟨consistent.like like, fun truthful => iff_of_true
    ⟨like.noneEnded truthful.active, same ▸ truthful.stopped⟩ trivial⟩

/-- A step keeps where the threads are in order, and the list and the answers right exactly when it is sound. -/
def Exact (s : State) (e : Event) (s' : State) : Prop :=
  Consistent s' ∧ (Truthful s → (Truthful s' ↔ Sound s e))

private theorem start_exact {i : Nat} (consistent : Consistent s) (taken : step s (.start i) = some s') :
    Exact s (.start i) s' := by
  simp only [step] at taken
  split at taken <;> cases taken
  next idle =>
    have absent : i ∉ s.active := fun member => consistent.started i member idle.1
    have old (k : Nat) (other : k ≠ i) (member : k ∈ s.active ++ [i]) : k ∈ s.active := by
      simpa [other] using member
    have nodup : (s.active ++ [i]).Nodup :=
      List.nodup_append_comm.mp (List.nodup_cons.mpr ⟨absent, consistent.nodup⟩)
    refine ⟨⟨nodup, fun k inside => ?_, fun k member => ?_⟩,
      fun truthful => iff_of_true ⟨fun k member => ?_, truthful.stopped⟩ trivial⟩
    all_goals by_cases same : k = i
    · exact List.mem_append_right _ (List.mem_singleton.mpr same)
    · simp only [State.setRunning, State.setThread, Function.update_of_ne same] at inside
      exact List.mem_append_left _ (consistent.present k inside)
    · subst same
      simp [State.setRunning, State.setThread]
    · simpa [State.setRunning, State.setThread, same] using consistent.started k (old k same member)
    · subst same
      simp [State.setRunning, State.setThread]
    · simpa [State.setRunning, State.setThread, same] using truthful.active k (old k same member)

private theorem ioException_exact {i : Nat} {message : Option String} (consistent : Consistent s)
    (taken : step s (.ioException i message) = some s') : Exact s (.ioException i message) s' := by
  simp only [step] at taken
  split at taken <;> cases taken
  next here =>
    have inside : Inside (s.threads i).running := by
      simp only [List.mem_cons, List.not_mem_nil, or_false] at here
      simp only [Inside, List.mem_cons, List.not_mem_nil, or_false]
      tauto
    cases message with
    | some text =>
      exact ⟨consistent.move inside (by simp), fun truthful => iff_of_true (truthful.move (by simp)) rfl⟩
    | none =>
      have unsound : ¬ Sound s (.ioException i none) := by simp [Sound]
      exact ⟨consistent.move inside (by simp), fun _ => iff_of_false (consistent.ended_in_list inside rfl) unsound⟩

private theorem remove_exact {i : Nat} (consistent : Consistent s) (taken : step s (.remove i) = some s') :
    Exact s (.remove i) s' := by
  simp only [step] at taken
  split at taken <;> cases taken
  have others (k : Nat) (member : k ∈ s.active.erase i) : k ≠ i ∧ k ∈ s.active :=
    (List.Nodup.mem_erase_iff consistent.nodup).mp member
  refine ⟨⟨consistent.nodup.erase i, fun k inside => ?_, fun k member => ?_⟩,
    fun truthful => iff_of_true ⟨fun k member => ?_, truthful.stopped⟩ trivial⟩
  · by_cases same : k = i
    · subst same
      simp [State.setRunning, State.setThread, Inside] at inside
    · simp only [State.setRunning, State.setThread, Function.update_of_ne same] at inside
      exact (List.mem_erase_of_ne same).mpr (consistent.present k inside)
  · obtain ⟨other, old⟩ := others k member
    simpa [State.setRunning, State.setThread, other] using consistent.started k old
  · obtain ⟨other, old⟩ := others k member
    simpa [State.setRunning, State.setThread, other] using truthful.active k old

private theorem signal_exact {fails closeFails : Bool} (consistent : Consistent s)
    (taken : step s (.signal fails closeFails) = some s') : Exact s (.signal fails closeFails) s' := by
  simp only [step] at taken
  split at taken
  next stop stopping =>
    split at taken <;> cases taken
    next mt pending here =>
      refine ⟨consistent.like (Like.signal ..), fun truthful => ?_⟩
      rw [signal_truthful_iff truthful]
      constructor
      · intro sound stop' mt' stopping' last sent
        cases stopping.symm.trans stopping'
        cases here.symm.trans last
        exact sound rfl sent
      · intro sound last sent
        exact sound stop mt stopping (here.trans (by rw [last])) sent
  next => cases taken

private theorem step_exact {e : Event} (consistent : Consistent s) (taken : step s e = some s') : Exact s e s' := by
  cases e with
  | start i => exact start_exact consistent taken
  | accept i =>
    simp only [step] at taken
    split at taken <;> cases taken
    next here =>
      have inside : Inside (s.threads i).running := by simp [here, Inside]
      exact ⟨consistent.move inside (by simp), fun truthful => iff_of_true (truthful.move (by simp)) trivial⟩
  | version i fails =>
    simp only [step] at taken
    split at taken <;> cases taken
    next here =>
      have inside : Inside (s.threads i).running := by simp [here, Inside]
      exact ⟨consistent.move inside (by simp), fun truthful => iff_of_true (truthful.move (by simp)) trivial⟩
  | managmentCommand i cmd fails =>
    cases taken
    exact like_exact (Like.setThread (managmentCommand_running ..)) consistent rfl
  | clientCloses i =>
    cases taken
    exact like_exact (Like.setThread (clientCloses_running _)) consistent rfl
  | endOfStream i =>
    simp only [step] at taken
    split at taken <;> cases taken
    next here =>
      have inside : Inside (s.threads i).running := by simp [here.1, Inside]
      exact ⟨consistent.move inside (by simp), fun _ => iff_of_false (consistent.ended_in_list inside rfl) id⟩
  | ioException i message => exact ioException_exact consistent taken
  | remove i => exact remove_exact consistent taken
  | stopVPN i =>
    simp only [step] at taken
    split at taken <;> cases taken
    refine ⟨consistent.like (Like.loopStop _), fun truthful => iff_of_true ⟨?_, ?_⟩ trivial⟩
    · exact (Like.loopStop _).noneEnded truthful.active
    · exact (answer_iff truthful.stopped).mpr fun _ => by simp [Told]
  | signal fails closeFails => exact signal_exact consistent taken

/-! ### Runs -/

private theorem consistent_initial : Consistent {} :=
  ⟨List.nodup_nil, fun _ inside => by simp [Inside] at inside, fun _ member => absurd member List.not_mem_nil⟩

private theorem truthful_initial : Truthful {} :=
  ⟨fun _ member => absurd member List.not_mem_nil, fun _ member => absurd member List.not_mem_nil⟩

/-- The list and the answers are right all along a run exactly when each of its steps is sound. -/
theorem stop_truthful_iff {events : List Event} (run : Run step Free {} events s) :
    (∀ earlier later state, earlier ++ later = events → Run step Free {} earlier state → Truthful state) ↔
      Run step Sound {} events s :=
  Run.allowed_iff_always consistent_initial truthful_initial
    (fun _ _ _ consistent taken => (step_exact consistent taken).1)
    (fun _ _ _ consistent truthful taken => (step_exact consistent taken).2 truthful) run

/-- Two clients and a thread without one, which a stop comes to first. -/
def twoClients : List Event :=
  [.start 0, .start 1, .start 2, .accept 1, .accept 2, .version 1 false, .stopVPN 2, .signal false false,
    .version 2 false, .signal false false, .signal false false, .ioException 1 (some "socket closed"), .remove 1]

theorem stop_truthful_iff_two_clients : ∃ s, Run step Free {} twoClients s ∧
    ((∀ earlier later state, earlier ++ later = twoClients → Run step Free {} earlier state → Truthful state) ↔
      Run step Sound {} twoClients s) :=
  ⟨_, Run.of_exec rfl, stop_truthful_iff (Run.of_exec rfl)⟩

def endedStream : List Event := [.start 0, .accept 0, .version 0 false, .clientCloses 0, .endOfStream 0]

/-- A stop that sends SIGINT to a client and then comes to a thread that waits for one. -/
def deniedSignal : List Event :=
  [.start 0, .accept 0, .version 0 false, .start 1, .stopVPN 0, .signal false false, .signal false false]

theorem ended_thread_stays_and_stop_denies_signal : ∃ ended denied : State,
    Run step Free {} endedStream ended ∧ 0 ∈ ended.active ∧ (ended.threads 0).running = .ended ∧ ¬ Truthful ended ∧
      Run step Free {} deniedSignal denied ∧ denied.stopped = [⟨false, [0]⟩] ∧ ¬ Truthful denied := by
  refine ⟨_, _, Run.of_exec rfl, by decide, by decide, ?_, Run.of_exec rfl, by decide, ?_⟩
  · intro truthful
    exact truthful.active 0 (by decide) (by decide)
  · intro truthful
    have told := truthful.stopped ⟨false, [0]⟩ (by decide)
    exact absurd (told.mpr (by decide)) (by decide)

end RRoadVpn.Proofs.StopResult
