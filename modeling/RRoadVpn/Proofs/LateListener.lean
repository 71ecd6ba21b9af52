import Mathlib.Data.List.Basic
import Mathlib.Data.List.Induction
import Mathlib.Order.Lattice
import RRoadVpn.ByteCount

/-! What a byte count listener is given when it is registered. Of the two points that are
taken for the difference each is the newest one. -/

namespace RRoadVpn.Proofs.LateListener
open TrafficHistory ByteCount

variable {α : Type*}

def counts (events : List (Event α)) : List (Int × Int) :=
  events.filterMap fun
    | .updateByteCount _ inBytes outBytes => some (inBytes, outBytes)
    | _ => none

private theorem counts_append (events events' : List (Event α)) :
    counts (events ++ events') = counts events ++ counts events' :=
  List.filterMap_append

/-- The counts before the next update; those of no update are zero. -/
def previous (events : List (Event α)) : Int × Int := (counts events).getLast?.getD (0, 0)

/-! ### The newest point -/

/-- The newest point stays, at any time of the clock. -/
theorem addDataPoint_newest (tdp : TrafficDatapoint) (h : TrafficHistory) :
    (addDataPoint tdp h).trafficHistorySeconds.getLast? = some tdp := by
  have young (timePeriod : Int) : toRemove timePeriod tdp tdp = false := by
    rw [toRemove, Int.sub_self, Int.zero_tdiv]
    rfl
  have kept (tpList : List TrafficDatapoint) :
      (removeAll TIME_PERIOD_MINTUES tdp (tpList ++ [tdp])).getLast? = some tdp := by
    rw [removeAll, List.filter_append, List.filter_singleton, young, Bool.not_false, cond_true, List.getLast?_concat]
  have apart (h : TrafficHistory) : (averageMinutes tdp h).trafficHistorySeconds = h.trafficHistorySeconds := by
    rw [averageMinutes]
    split <;> rfl
  simp only [addDataPoint, averageSeconds]
  split <;> split <;> simp only [apart, kept, List.getLast?_concat]

def newest (h : TrafficHistory) : Int × Int :=
  (h.trafficHistorySeconds.getLast?.map fun tdp => (tdp.inBytes, tdp.outBytes)).getD (0, 0)

private theorem add_newest (inBytes outBytes now : Int) (h : TrafficHistory) :
    newest (add inBytes outBytes now h).1 = (inBytes, outBytes) := by
  rw [newest, add, addDataPoint_newest]
  rfl

/-! ### What a listener is given -/

theorem registered (now : Int) (bcl : α) (s : State α) :
    (addByteCountListener now bcl s).2 =
      [(bcl, ⟨(newest s.trafficHistory).1, (newest s.trafficHistory).2, 0, 0⟩)] := by
  rw [addByteCountListener, newest, getLastDiff]
  cases s.trafficHistory.trafficHistorySeconds.getLast? <;>
    simp [LastDiff.getIn, LastDiff.getOut, LastDiff.getDiffIn, LastDiff.getDiffOut, long]

private theorem updated (now inBytes outBytes : Int) (s : State α) :
    (updateByteCount now inBytes outBytes s).2 = s.byteCountListener.map (·, ⟨inBytes, outBytes,
      max 0 (long (inBytes - (newest s.trafficHistory).1)),
        max 0 (long (outBytes - (newest s.trafficHistory).2))⟩) := by
  rw [updateByteCount, newest, add, getLastDiff]
  cases s.trafficHistory.trafficHistorySeconds.getLast? <;> rfl

/-! ### Runs -/

variable [DecidableEq α]

private theorem step_newest (s : State α) (event : Event α) :
    newest (step s event).trafficHistory = (counts [event]).getLast?.getD (newest s.trafficHistory) := by
  cases event with
  | addByteCountListener => rfl
  | removeByteCountListener => rfl
  | updateByteCount now inBytes outBytes => exact add_newest inBytes outBytes now s.trafficHistory

theorem run_newest (s : State α) (events : List (Event α)) :
    newest (events.foldl step s).trafficHistory = (counts events).getLast?.getD (newest s.trafficHistory) := by
  induction events using List.reverseRecOn with
  | nil => rfl
  | append_singleton events event ih =>
    rw [List.foldl_append, List.foldl_cons, List.foldl_nil, step_newest, ih, counts_append, List.getLast?_append]
    cases (counts [event]).getLast? <;> rfl

/-! ### Main result -/

variable (before later : List (Event α))

def reached : State α := before.foldl step {}

/-- A listener that is registered later is given what the last update gave exactly when there
was no listener then, or both differences of that update were none. -/
theorem late_listener_exact (quiet : counts later = []) (now now' inBytes outBytes : Int) (bcl : α) :
    let (after, calls) := updateByteCount now inBytes outBytes (reached before)
    (∀ call ∈ calls, (addByteCountListener now' bcl (later.foldl step after)).2 = [(bcl, call.2)]) ↔
      (reached before).byteCountListener = [] ∨
        long (inBytes - (previous before).1) ≤ 0 ∧ long (outBytes - (previous before).2) ≤ 0 := by
  have earlier : newest (reached before).trafficHistory = previous before := run_newest {} before
  have here : newest (updateByteCount now inBytes outBytes (reached before)).1.trafficHistory = (inBytes, outBytes) :=
    add_newest inBytes outBytes now (reached before).trafficHistory
  simp only [registered, updated, run_newest, quiet, List.getLast?_nil, Option.getD_none, here, earlier,
    List.forall_mem_map]
  have same : ([(bcl, (⟨inBytes, outBytes, 0, 0⟩ : ByteCount))] = [(bcl, ⟨inBytes, outBytes,
      max 0 (long (inBytes - (previous before).1)), max 0 (long (outBytes - (previous before).2))⟩)]) ↔
      long (inBytes - (previous before).1) ≤ 0 ∧ long (outBytes - (previous before).2) ≤ 0 := by
    simp
  cases (reached before).byteCountListener with
  | nil => simp
  | cons first others =>
    simp only [same, reduceCtorEq, false_or, List.forall_mem_cons]
    exact ⟨And.left, fun none_ => ⟨none_, fun _ _ => none_⟩⟩

/-- Two updates with a listener, and a registration between their end and another one's. -/
theorem late_listener_exact_same :
    let before : List (Event Nat) := [.addByteCountListener 0 1, .updateByteCount 1000 100 50]
    ∀ call ∈ (updateByteCount 2000 100 50 (reached before)).2,
      (addByteCountListener 3000 2 ([Event.removeByteCountListener 1].foldl step
        (updateByteCount 2000 100 50 (reached before)).1)).2 = [(2, call.2)] :=
  (late_listener_exact [.addByteCountListener 0 1, .updateByteCount 1000 100 50] [.removeByteCountListener 1] rfl
    2000 3000 100 50 2).mpr (Or.inr (by decide))

/-- After two updates the listener that was there has seen the difference; the one that comes then is given none. -/
theorem difference_lost :
    let before : List (Event Nat) := [.addByteCountListener 0 1, .updateByteCount 1000 100 50]
    let (after, calls) := updateByteCount 2000 400 80 (reached before)
    calls = [(1, ⟨400, 80, 300, 30⟩)] ∧ (addByteCountListener 3000 2 after).2 = [(2, ⟨400, 80, 0, 0⟩)] ∧
      ¬ ∀ call ∈ calls, (addByteCountListener 3000 2 after).2 = [(2, call.2)] := by
  decide +kernel

end RRoadVpn.Proofs.LateListener
