import Mathlib.Algebra.Order.Ring.Int
import RRoadVpn.Library.Retention
import RRoadVpn.Library.Runs
import RRoadVpn.TrafficHistory

/-! The three levels of the traffic history: the end of what was added, and the first point
of each minute and of each hour. -/

namespace RRoadVpn.Proofs.TrafficLevels
open Library TrafficHistory

/-- The history after points were added, with the differences that were returned. -/
def adds (points : List TrafficDatapoint) : TrafficHistory × List LastDiff :=
  points.foldl (fun s tdp =>
    let (h, diff) := add tdp.inBytes tdp.outBytes tdp.timestamp s.1
    (h, s.2 ++ [diff])) ({}, [])

private theorem adds_snoc (points : List TrafficDatapoint) (tdp : TrafficDatapoint) :
    adds (points ++ [tdp]) = (addDataPoint tdp (adds points).1,
      (adds points).2 ++ [getLastDiff tdp.timestamp (some tdp) (adds points).1]) := by
  rw [adds, List.foldl_append]
  rfl

/-- Points as they are added while the clock does not go back. -/
structure Timed (points : List TrafficDatapoint) : Prop where
  nonneg : ∀ p ∈ points, 0 ≤ p.timestamp
  ordered : points.Pairwise fun p q => p.timestamp ≤ q.timestamp

/-- The first point that was added of its period, which is not the one at the start of time. -/
def FirstOf (timePeriod : Int) (points : List TrafficDatapoint) (p : TrafficDatapoint) : Prop :=
  1 ≤ period timePeriod p ∧ ∃ before after, points = before ++ p :: after ∧ ∀ q ∈ before,
    period timePeriod q ≠ period timePeriod p

/-! ### Times -/

private theorem period_eq {timePeriod : Int} {p : TrafficDatapoint} (nonneg : 0 ≤ p.timestamp) :
    period timePeriod p = p.timestamp / timePeriod :=
  Int.tdiv_eq_ediv_of_nonneg nonneg

theorem toRemove_iff {timePeriod : Int} (positive : 0 < timePeriod) {newTdp tph : TrafficDatapoint} :
    toRemove timePeriod newTdp tph = true ↔ PERIODS_TO_KEEP * timePeriod ≤ newTdp.timestamp - tph.timestamp := by
  rw [toRemove, decide_eq_true_eq]
  by_cases nonneg : 0 ≤ newTdp.timestamp - tph.timestamp
  · rw [Int.tdiv_eq_ediv_of_nonneg nonneg, Int.le_ediv_iff_mul_le positive]
  · have keeps : 0 < PERIODS_TO_KEEP := by decide
    have product : 0 < PERIODS_TO_KEEP * timePeriod := mul_pos keeps positive
    have quotient : (newTdp.timestamp - tph.timestamp).tdiv timePeriod ≤ 0 := by
      rw [← Int.neg_neg (newTdp.timestamp - tph.timestamp), Int.neg_tdiv]
      have := Int.tdiv_nonneg (a := -(newTdp.timestamp - tph.timestamp)) (b := timePeriod) (by omega) (by omega)
      omega
    constructor <;> intro <;> omega

private theorem period_mono {timePeriod : Int} (positive : 0 < timePeriod) {p q : TrafficDatapoint}
    (nonneg : 0 ≤ p.timestamp)
    (order : p.timestamp ≤ q.timestamp) : period timePeriod p ≤ period timePeriod q := by
  rw [period_eq nonneg, period_eq (Int.le_trans nonneg order)]
  exact Int.ediv_le_ediv positive order

theorem close {timePeriod : Int} (positive : 0 < timePeriod) {p q : TrafficDatapoint} (nonneg : 0 ≤ p.timestamp)
    (nonneg' : 0 ≤ q.timestamp)
    (same : period timePeriod p = period timePeriod q) : q.timestamp - p.timestamp < timePeriod := by
  rw [period_eq nonneg, period_eq nonneg'] at same
  have low := Int.ediv_mul_le p.timestamp (Int.ne_of_gt positive)
  have high := Int.lt_ediv_add_one_mul_self q.timestamp positive
  rw [← same, Int.add_mul] at high
  omega

/-! ### Levels -/

/-- The first points of the periods, with the one that was used last. -/
structure Level (timePeriod : Int) (points : List TrafficDatapoint) (last : TrafficDatapoint)
    (firsts : List TrafficDatapoint) : Prop where
  latest : ∀ q ∈ points, period timePeriod q ≤ period timePeriod last
  added : last.timestamp = 0 ∨ last ∈ points
  ordered : firsts.Pairwise fun p q => period timePeriod p < period timePeriod q
  mem : ∀ p, p ∈ firsts ↔ FirstOf timePeriod points p

private theorem level_nil (timePeriod : Int) : Level timePeriod [] ⟨0, 0, 0⟩ [] where
  latest := List.forall_mem_nil _
  added := Or.inl rfl
  ordered := List.Pairwise.nil
  mem := fun p => by simp [FirstOf]

private theorem FirstOf.snoc {timePeriod : Int} {points : List TrafficDatapoint} {p : TrafficDatapoint}
    (first : FirstOf timePeriod points p)
    (tdp : TrafficDatapoint) : FirstOf timePeriod (points ++ [tdp]) p := by
  obtain ⟨large, before, after, rfl, apart⟩ := first
  exact ⟨large, before, after ++ [tdp], by simp, apart⟩

private theorem firstOf_snoc {timePeriod : Int} {points : List TrafficDatapoint} {tdp p : TrafficDatapoint} :
    FirstOf timePeriod (points ++ [tdp]) p ↔
      FirstOf timePeriod points p ∨ p = tdp ∧ 1 ≤ period timePeriod tdp ∧ ∀ q ∈ points,
        period timePeriod q ≠ period timePeriod tdp := by
  constructor
  · rintro ⟨large, before, after, split, apart⟩
    rcases snoc_eq_split split with ⟨rfl, rfl, rfl⟩ | ⟨rest, rfl, rfl⟩
    · exact Or.inr ⟨rfl, large, apart⟩
    · exact Or.inl ⟨large, before, rest, rfl, apart⟩
  · rintro (first | ⟨rfl, large, apart⟩)
    · exact first.snoc tdp
    · exact ⟨large, points, [], rfl, apart⟩

section Level

variable {timePeriod : Int} {points firsts : List TrafficDatapoint} {last tdp : TrafficDatapoint}

private theorem Level.last_nonneg (level : Level timePeriod points last firsts) (timed : Timed points) :
    0 ≤ last.timestamp := by
  rcases level.added with zero | member
  · exact Int.le_of_eq zero.symm
  · exact timed.nonneg last member

private theorem Level.last_le (level : Level timePeriod points last firsts) (timed : Timed (points ++ [tdp])) :
    last.timestamp ≤ tdp.timestamp := by
  rcases level.added with zero | member
  · rw [zero]
    exact timed.nonneg tdp (by simp)
  · exact (List.pairwise_append.mp timed.ordered).2.2 last member tdp (by simp)

theorem Level.cross (level : Level timePeriod points last firsts) (timed : Timed points) (positive : 0 < timePeriod)
    (later : period timePeriod tdp > period timePeriod last) :
    Level timePeriod (points ++ [tdp]) tdp (firsts ++ [tdp]) where
  latest := by
    intro q member
    rcases List.mem_append.mp member with before | here
    · exact Int.le_of_lt (Int.lt_of_le_of_lt (level.latest q before) later)
    · rw [List.mem_singleton.mp here]
  added := Or.inr (by simp)
  ordered := by
    refine List.pairwise_append.mpr ⟨level.ordered, List.pairwise_singleton _ _, fun p member q here => ?_⟩
    obtain ⟨_, before, after, rfl, _⟩ := (level.mem p).mp member
    rw [List.mem_singleton.mp here]
    exact Int.lt_of_le_of_lt (level.latest p (by simp)) later
  mem := by
    intro p
    have large : 1 ≤ period timePeriod tdp := by
      have nonneg : 0 ≤ period timePeriod last := by
        rw [period_eq (level.last_nonneg timed)]
        exact Int.ediv_nonneg (level.last_nonneg timed) (Int.le_of_lt positive)
      omega
    have apart : ∀ q ∈ points, period timePeriod q ≠ period timePeriod tdp := fun q member =>
      Int.ne_of_lt (Int.lt_of_le_of_lt (level.latest q member) later)
    rw [List.mem_append, List.mem_singleton, level.mem, firstOf_snoc]
    simp only [large, true_and]
    exact or_congr_right ⟨fun same => ⟨same, apart⟩, And.left⟩

theorem Level.stay (level : Level timePeriod points last firsts) (timed : Timed (points ++ [tdp]))
    (timed' : Timed points)
    (positive : 0 < timePeriod) (same : ¬ period timePeriod tdp > period timePeriod last) :
    Level timePeriod (points ++ [tdp]) last firsts where
  latest := by
    intro q member
    rcases List.mem_append.mp member with before | here
    · exact level.latest q before
    · rw [List.mem_singleton.mp here]
      exact Int.not_lt.mp same
  added := level.added.imp_right (List.mem_append_left _)
  ordered := level.ordered
  mem := by
    intro p
    have order := period_mono positive (level.last_nonneg timed') (level.last_le timed)
    have equal : period timePeriod last = period timePeriod tdp := Int.le_antisymm order (Int.not_lt.mp same)
    rw [level.mem, firstOf_snoc]
    refine (or_iff_left ?_).symm
    rintro ⟨rfl, large, apart⟩
    rcases level.added with zero | member
    · rw [← equal, period, zero, Int.zero_tdiv] at large
      exact absurd large (by decide)
    · exact apart last member equal

end Level

/-! ### What is kept -/

/-- The point that is taken for the last used one at first. -/
def origin : TrafficDatapoint := ⟨0, 0, 0⟩

/-- The lists and the points that were last used, after points were added. -/
structure History (points : List TrafficDatapoint) (h : TrafficHistory) (last hourLast : TrafficDatapoint)
    (minutes hours : List TrafficDatapoint) :
    Prop where
  lastSecond : h.lastSecondUsedForMinute.getD origin = last
  lastMinute : h.lastMinuteUsedForHours.getD origin = hourLast
  unused : h.lastSecondUsedForMinute = none → h.lastMinuteUsedForHours = none
  minuteLevel : Level TIME_PERIOD_MINTUES points last minutes
  hourLevel : Level TIME_PERIOD_HOURS points hourLast hours
  seconds : h.trafficHistorySeconds = removeAll TIME_PERIOD_MINTUES last points
  minutes : h.trafficHistoryMinutes = removeAll TIME_PERIOD_HOURS hourLast minutes
  hours : h.trafficHistoryHours = hours

private theorem minute_positive : 0 < TIME_PERIOD_MINTUES := by decide

private theorem hour_positive : 0 < TIME_PERIOD_HOURS := by decide

section Removal

variable {timePeriod : Int} {points : List TrafficDatapoint} {last tdp : TrafficDatapoint}

private theorem toRemove_mono (positive : 0 < timePeriod) (order : last.timestamp ≤ tdp.timestamp)
    {p : TrafficDatapoint}
    (removed : toRemove timePeriod last p = true) : toRemove timePeriod tdp p = true := by
  rw [toRemove_iff positive] at removed ⊢
  omega

private theorem toRemove_later (positive : 0 < timePeriod) (order : last.timestamp ≤ tdp.timestamp) :
    toRemove timePeriod last tdp = false := by
  rw [Bool.eq_false_iff]
  intro removed
  rw [toRemove_iff positive] at removed
  have product : 0 < PERIODS_TO_KEEP * timePeriod := mul_pos (by decide) positive
  omega

theorem removeAll_snoc (positive : 0 < timePeriod) (order : last.timestamp ≤ tdp.timestamp) :
    removeAll timePeriod last points ++ [tdp] = removeAll timePeriod last (points ++ [tdp]) := by
  rw [removeAll, removeAll, List.filter_append, List.filter_cons_of_pos (by simp [toRemove_later positive order]),
    List.filter_nil]

theorem removeAll_again (positive : 0 < timePeriod) (order : last.timestamp ≤ tdp.timestamp) :
    removeAll timePeriod tdp (removeAll timePeriod last points ++ [tdp]) =
      removeAll timePeriod tdp (points ++ [tdp]) := by
  rw [removeAll, List.filter_append, removeAll, List.filter_filter, removeAll, List.filter_append]
  congr 1
  refine List.filter_congr fun p _ => ?_
  cases removed : toRemove timePeriod last p with
  | true => rw [toRemove_mono positive order removed]; rfl
  | false => simp

end Removal

theorem period_hours {p : TrafficDatapoint} (nonneg : 0 ≤ p.timestamp) :
    period TIME_PERIOD_HOURS p = period TIME_PERIOD_MINTUES p / 60 := by
  rw [period_eq nonneg, period_eq nonneg, Int.ediv_ediv_of_nonneg (by decide)]
  rfl

theorem hour_stays {points minutes hours : List TrafficDatapoint} {last hourLast tdp : TrafficDatapoint}
    (minuteLevel : Level TIME_PERIOD_MINTUES points last minutes)
    (hourLevel : Level TIME_PERIOD_HOURS points hourLast hours)
    (timed : Timed points) (nonneg : 0 ≤ tdp.timestamp)
    (same : ¬ period TIME_PERIOD_MINTUES tdp > period TIME_PERIOD_MINTUES last) :
    ¬ period TIME_PERIOD_HOURS tdp > period TIME_PERIOD_HOURS hourLast := by
  have first : period TIME_PERIOD_HOURS tdp ≤ period TIME_PERIOD_HOURS last := by
    rw [period_hours nonneg, period_hours (minuteLevel.last_nonneg timed)]
    exact Int.ediv_le_ediv (by decide) (Int.not_lt.mp same)
  have second : period TIME_PERIOD_HOURS last ≤ period TIME_PERIOD_HOURS hourLast := by
    rcases minuteLevel.added with zero | member
    · rw [period, zero, Int.zero_tdiv, period_eq (hourLevel.last_nonneg timed)]
      exact Int.ediv_nonneg (hourLevel.last_nonneg timed) (by decide)
    · exact hourLevel.latest last member
  omega

private theorem history_nil : History [] {} origin origin [] [] :=
  ⟨rfl, rfl, fun _ => rfl, level_nil _, level_nil _, rfl, rfl, rfl⟩

private theorem History.add {points minutes hours : List TrafficDatapoint} {h : TrafficHistory}
    {last hourLast tdp : TrafficDatapoint}
    (history : History points h last hourLast minutes hours) (timed : Timed (points ++ [tdp])) :
    ∃ last' hourLast' minutes' hours', History (points ++ [tdp])
      (addDataPoint tdp h) last' hourLast' minutes' hours' := by
  have timed' : Timed points :=
    ⟨fun p member => timed.nonneg p (List.mem_append_left _ member), (List.pairwise_append.mp timed.ordered).1⟩
  have order := history.minuteLevel.last_le timed
  have hourOrder := history.hourLevel.last_le timed
  -- the last used points are what they are taken for
  have started : ∃ used hourUsed, addDataPoint tdp h = averageSeconds tdp { h with
      trafficHistorySeconds := h.trafficHistorySeconds ++ [tdp]
      lastSecondUsedForMinute := some used
      lastMinuteUsedForHours := hourUsed } ∧ used = last ∧ hourUsed.getD origin = hourLast := by
    cases unused : h.lastSecondUsedForMinute with
    | none =>
      have both := history.unused unused
      refine ⟨origin, some origin, ?_, ?_, ?_⟩
      · rw [addDataPoint]
        simp only [unused, if_true]
        rfl
      · rw [← history.lastSecond, unused]
        rfl
      · rw [← history.lastMinute, both]
        rfl
    | some used =>
      refine ⟨used, h.lastMinuteUsedForHours, ?_, ?_, history.lastMinute⟩
      · rw [addDataPoint]
        simp only [unused, reduceCtorEq, if_false]
      · rw [← history.lastSecond, unused]
        rfl
  obtain ⟨used, hourUsed, started, rfl, hourSame⟩ := started
  rw [started, averageSeconds]
  simp only [Option.getD_some]
  split
  next crossed =>
    rw [averageMinutes]
    simp only
    rw [show hourUsed.getD ⟨0, 0, 0⟩ = hourLast from hourSame]
    split
    next crossedHour =>
      refine ⟨tdp, tdp, minutes ++ [tdp], hours ++ [tdp], rfl, rfl, (fun used => by cases used),
        history.minuteLevel.cross timed' minute_positive crossed,
        history.hourLevel.cross timed' hour_positive crossedHour, ?_, ?_, ?_⟩
      · rw [history.seconds]
        exact removeAll_again minute_positive order
      · rw [history.minutes]
        exact removeAll_again hour_positive hourOrder
      · rw [history.hours]
    next sameHour =>
      refine ⟨tdp, hourLast, minutes ++ [tdp], hours, rfl, hourSame, (fun used => by cases used),
        history.minuteLevel.cross timed' minute_positive crossed,
        history.hourLevel.stay timed timed' hour_positive sameHour, ?_, ?_, history.hours⟩
      · rw [history.seconds]
        exact removeAll_again minute_positive order
      · rw [history.minutes]
        exact removeAll_snoc hour_positive hourOrder
  next same =>
    have sameHour := hour_stays history.minuteLevel history.hourLevel timed' (timed.nonneg tdp (by simp)) same
    refine ⟨used, hourLast, minutes, hours, rfl, hourSame, (fun used => by cases used),
      history.minuteLevel.stay timed timed' minute_positive same,
      history.hourLevel.stay timed timed' hour_positive sameHour, ?_, history.minutes, history.hours⟩
    rw [history.seconds]
    exact removeAll_snoc minute_positive order

private theorem history_run {points : List TrafficDatapoint} (timed : Timed points) :
    ∃ last hourLast minutes hours, History points (adds points).1 last hourLast minutes hours := by
  induction points using List.reverseRecOn with
  | nil => exact ⟨_, _, _, _, history_nil⟩
  | append_singleton points tdp ih =>
    have timed' : Timed points :=
      ⟨fun p member => timed.nonneg p (List.mem_append_left _ member), (List.pairwise_append.mp timed.ordered).1⟩
    obtain ⟨last, hourLast, minutes, hours, history⟩ := ih timed'
    rw [adds_snoc]
    exact history.add timed

/-! ### Main result -/

theorem seconds_getLast {points : List TrafficDatapoint} (timed : Timed points) :
    (adds points).1.trafficHistorySeconds.getLast? = points.getLast? := by
  obtain ⟨last, hourLast, minutes, hours, history⟩ := history_run timed
  rw [history.seconds]
  rcases List.eq_nil_or_concat points with rfl | ⟨earlier, newest, rfl⟩
  · rfl
  · rw [List.concat_eq_append] at history timed ⊢
    have order : last.timestamp ≤ newest.timestamp := by
      rcases history.minuteLevel.added with zero | member
      · rw [zero]
        exact timed.nonneg newest (by simp)
      · rcases List.mem_append.mp member with before | here
        · exact (List.pairwise_append.mp timed.ordered).2.2 last before newest (by simp)
        · rw [List.mem_singleton.mp here]
    rw [← removeAll_snoc minute_positive order, List.getLast?_concat, List.getLast?_concat]

private theorem long_eq {n : Int} (nonneg : 0 ≤ n) (small : n < 2 ^ 63) : long n = n := by
  rw [long, Int.bmod_eq_of_le] <;> omega

theorem sum_run {count : TrafficDatapoint → Int} (zero : ∀ t, count ⟨0, 0, t⟩ = 0) {points : List TrafficDatapoint}
    (timed : Timed points)
    (range : ∀ p ∈ points, 0 ≤ count p ∧ count p < 2 ^ 63) (ordered : points.Pairwise fun p q => count p ≤ count q) :
    ((adds points).2.map fun diff => max 0 (long (count diff.tdp - count diff.lasttdp))).sum =
      (points.getLast?.map count).getD 0 := by
  induction points using List.reverseRecOn with
  | nil => rfl
  | append_singleton points tdp ih =>
    have timed' : Timed points :=
      ⟨fun p member => timed.nonneg p (List.mem_append_left _ member), (List.pairwise_append.mp timed.ordered).1⟩
    have before := ih timed' (fun p member => range p (List.mem_append_left _ member))
        (List.pairwise_append.mp ordered).1
    rw [adds_snoc, List.map_append, List.sum_append, before, List.getLast?_concat, List.map_singleton,
      List.sum_singleton, getLastDiff,
      seconds_getLast timed']
    obtain ⟨nonneg, small⟩ := range tdp (by simp)
    cases newest : points.getLast? with
    | none =>
      simp only [Option.getD_none, Option.getD_some, Option.map_none, Option.map_some, zero]
      rw [long_eq (by omega) (by omega)]
      omega
    | some last =>
      have order := (List.pairwise_append.mp ordered).2.2 last (List.mem_of_getLast? newest) tdp (by simp)
      have last_nonneg := (range last (List.mem_append_left _ (List.mem_of_getLast? newest))).1
      simp only [Option.getD_some, Option.map_some]
      rw [long_eq (by omega) (by omega)]
      omega

/-- Byte counters, which are numbers of type `long`, that do not go back. -/
structure Counted (points : List TrafficDatapoint) : Prop where
  rangeIn : ∀ p ∈ points, 0 ≤ p.inBytes ∧ p.inBytes < 2 ^ 63
  rangeOut : ∀ p ∈ points, 0 ≤ p.outBytes ∧ p.outBytes < 2 ^ 63
  ordered : points.Pairwise fun p q => p.inBytes ≤ q.inBytes ∧ p.outBytes ≤ q.outBytes

def age (newest p : TrafficDatapoint) : Int := newest.timestamp - p.timestamp

private theorem toRemove_age {timePeriod : Int} (positive : 0 < timePeriod) {last newest p : TrafficDatapoint}
    (order : last.timestamp ≤ newest.timestamp)
    (removed : toRemove timePeriod last p = true) : PERIODS_TO_KEEP * timePeriod ≤ age newest p := by
  rw [toRemove_iff positive] at removed
  unfold age
  omega

theorem kept_age {timePeriod : Int} (positive : 0 < timePeriod) {points firsts : List TrafficDatapoint}
    {last newest p : TrafficDatapoint}
    (level : Level timePeriod (points ++ [newest]) last firsts) (timed : Timed (points ++ [newest]))
    (order : last.timestamp ≤ newest.timestamp)
    (kept : toRemove timePeriod last p = false) : age newest p < (PERIODS_TO_KEEP + 1) * timePeriod := by
  have nonneg := level.last_nonneg timed
  have same : period timePeriod last = period timePeriod newest :=
    Int.le_antisymm (period_mono positive nonneg order) (level.latest newest (by simp))
  have near := close positive nonneg (timed.nonneg newest (by simp)) same
  rw [Bool.eq_false_iff, Ne, toRemove_iff positive] at kept
  rw [Int.add_mul, Int.one_mul, age]
  omega

theorem ages_toRemove {timePeriod : Int} (positive : 0 < timePeriod) {last : TrafficDatapoint}
    {points : List TrafficDatapoint}
    (ordered : points.Pairwise fun p q => p.timestamp ≤ q.timestamp) : Ages (toRemove timePeriod last) points := by
  refine ordered.imp fun {p q} order removed => ?_
  rw [toRemove_iff positive] at removed ⊢
  omega

theorem timestamp_lt {timePeriod : Int} (positive : 0 < timePeriod) {p q : TrafficDatapoint}
    (nonneg : 0 ≤ q.timestamp)
    (later : period timePeriod p < period timePeriod q) : p.timestamp < q.timestamp := by
  by_contra order
  exact absurd (period_mono positive nonneg (Int.not_lt.mp order)) (Int.not_le.mpr later)

/-- After any points: the end of them that covers five minutes, the first point of each minute
for five hours, the first point of each hour, and differences that add up. -/
theorem levels_exact {points : List TrafficDatapoint} {newest : TrafficDatapoint}
    (timed : Timed (points ++ [newest])) :
    (∃ dropped, points ++ [newest] = dropped ++ (adds (points ++ [newest])).1.trafficHistorySeconds ∧
      ∀ p ∈ dropped, 5 * TIME_PERIOD_MINTUES ≤ age newest p) ∧
    (∀ p ∈ (adds (points ++ [newest])).1.trafficHistorySeconds, age newest p < 6 * TIME_PERIOD_MINTUES) ∧
    ((adds (points ++ [newest])).1.trafficHistoryMinutes.Pairwise fun p q =>
      p.timestamp < q.timestamp ∧ period TIME_PERIOD_MINTUES p < period TIME_PERIOD_MINTUES q) ∧
    (∀ p ∈ (adds (points ++ [newest])).1.trafficHistoryMinutes,
      FirstOf TIME_PERIOD_MINTUES (points ++ [newest]) p ∧ age newest p < 6 * TIME_PERIOD_HOURS) ∧
    (∀ p, FirstOf TIME_PERIOD_MINTUES (points ++ [newest]) p → age newest p < 5 * TIME_PERIOD_HOURS →
      p ∈ (adds (points ++ [newest])).1.trafficHistoryMinutes) ∧
    ((adds (points ++ [newest])).1.trafficHistoryHours.Pairwise fun p q =>
      period TIME_PERIOD_HOURS p < period TIME_PERIOD_HOURS q) ∧
    (∀ p, p ∈ (adds (points ++ [newest])).1.trafficHistoryHours ↔ FirstOf TIME_PERIOD_HOURS (points ++ [newest]) p) ∧
    (Counted (points ++ [newest]) → ((adds (points ++ [newest])).2.map LastDiff.getDiffIn).sum = newest.inBytes ∧
      ((adds (points ++ [newest])).2.map LastDiff.getDiffOut).sum = newest.outBytes) := by
  obtain ⟨last, hourLast, minutes, hours, history⟩ := history_run timed
  have newer {timePeriod : Int} {last : TrafficDatapoint} {firsts : List TrafficDatapoint}
      (level : Level timePeriod (points ++ [newest]) last firsts) : last.timestamp ≤ newest.timestamp := by
    rcases level.added with zero | member
    · rw [zero]
      exact timed.nonneg newest (by simp)
    · rcases List.mem_append.mp member with before | here
      · exact (List.pairwise_append.mp timed.ordered).2.2 last before newest (by simp)
      · rw [List.mem_singleton.mp here]
  have order := newer history.minuteLevel
  have hourOrder := newer history.hourLevel
  have inside {p : TrafficDatapoint} (first : FirstOf TIME_PERIOD_MINTUES (points ++ [newest]) p) : p ∈ points ++
      [newest] := by
    obtain ⟨_, before, after, split, _⟩ := first
    rw [split]
    simp
  rw [history.seconds, history.minutes, history.hours]
  refine ⟨⟨(points ++ [newest]).filter (toRemove TIME_PERIOD_MINTUES last), ?_, ?_⟩, ?_, ?_, ?_, ?_,
    history.hourLevel.ordered,
    history.hourLevel.mem, ?_⟩
  · exact (ages_toRemove minute_positive timed.ordered).filter_append
  · intro p member
    exact toRemove_age minute_positive order (List.of_mem_filter member)
  · intro p member
    exact kept_age minute_positive history.minuteLevel timed order (by simpa using List.of_mem_filter member)
  · refine List.Pairwise.imp_of_mem ?_ (history.minuteLevel.ordered.filter _)
    intro p q _ member later
    have first := (history.minuteLevel.mem q).mp (List.mem_of_mem_filter member)
    exact ⟨timestamp_lt minute_positive (timed.nonneg q (inside first)) later, later⟩
  · intro p member
    exact ⟨(history.minuteLevel.mem p).mp (List.mem_of_mem_filter member),
      kept_age hour_positive history.hourLevel timed hourOrder (by simpa using List.of_mem_filter member)⟩
  · intro p first young
    refine List.mem_filter.mpr ⟨(history.minuteLevel.mem p).mpr first, ?_⟩
    cases removed : toRemove TIME_PERIOD_HOURS hourLast p with
    | false => rfl
    | true => exact absurd (toRemove_age hour_positive hourOrder removed) (Int.not_le.mpr young)
  · intro counted
    have sumIn := @sum_run (·.inBytes) (fun _ => rfl) _ timed counted.rangeIn (counted.ordered.imp And.left)
    have sumOut := @sum_run (·.outBytes) (fun _ => rfl) _ timed counted.rangeOut (counted.ordered.imp And.right)
    rw [List.getLast?_concat] at sumIn sumOut
    exact ⟨sumIn, sumOut⟩

/-- Points of two minutes. -/
theorem levels_exact_two : ∃ dropped, [(⟨1, 1, 30000⟩ : TrafficDatapoint), ⟨5, 2, 61000⟩] =
    dropped ++ (adds [⟨1, 1, 30000⟩, ⟨5, 2, 61000⟩]).1.trafficHistorySeconds := by
  have timed : Timed ([(⟨1, 1, 30000⟩ : TrafficDatapoint)] ++ [⟨5, 2, 61000⟩]) := ⟨by simp, by simp⟩
  obtain ⟨⟨dropped, split, _⟩, _⟩ := levels_exact timed
  exact ⟨dropped, split⟩

end RRoadVpn.Proofs.TrafficLevels
