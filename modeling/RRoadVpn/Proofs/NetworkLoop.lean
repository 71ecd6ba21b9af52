import RRoadVpn.Proofs.NetworkPartition
import RRoadVpn.Proofs.NetworkSteps

/-! The loop of `generateIPList` as a whole: what a round does, the networks that
are done, and what they are when it ends. -/

namespace RRoadVpn.Proofs.NetworkLoop
open Library Block IpAddress NetworkSpace NetworkBlocks NetworkInvariant NetworkSteps
open NetworkPartition (Turn turn_of_poll)

variable {v4 : Bool} {nets queued rest ipsDone : List IpAddress} {cur next : IpAddress} (queue : Queue)

/-! ### The queue -/

theorem polled_of_poll (families : ∀ x ∈ queued, Family v4 x) (polled : queue.poll queued = some (next, rest)) :
    Polled queued next rest := by
  refine ⟨fun x => queue.mem_poll polled, ?_⟩
  intro z member
  have known := queue.mem_poll polled (y := z)
  apply (compareTo_ne_gt (families next ((queue.mem_poll polled).mpr (Or.inl rfl)))
    (families z (known.mpr (Or.inr member)))).mp
  exact queue.poll_least _ _ _ polled z member

private theorem contains_iff (families : ∀ x ∈ queued, Family v4 x) (family : Family v4 next) :
    contains queued next = true ↔ ∃ y ∈ queued, block y = block next := by
  rw [contains, List.any_eq_true]
  constructor
  · rintro ⟨y, member, equal⟩
    exact ⟨y, member, ((equals_iff family (families y member)).mp equal).symm⟩
  · rintro ⟨y, member, same⟩
    exact ⟨y, member, (equals_iff family (families y member)).mpr same.symm⟩

private theorem mem_addAbsent (families : ∀ x ∈ queued, Family v4 x) (family : Family v4 next) {x : IpAddress} :
    x ∈ addAbsent queue queued next ↔ x ∈ queued ∨ (x = next ∧ ∀ y ∈ queued, block y ≠ block next) := by
  have known := contains_iff families family
  unfold addAbsent
  split
  next found =>
    obtain ⟨y, member, same⟩ := known.mp found
    exact ⟨Or.inl, fun either => either.resolve_right fun absent => absent.2 y member same⟩
  next missing =>
    rw [queue.mem_add]
    constructor
    · rintro (here | member)
      · exact Or.inr ⟨here, fun y member same => missing (known.mpr ⟨y, member, same⟩)⟩
      · exact Or.inl member
    · rintro (member | ⟨here, _⟩)
      · exact Or.inr member
      · exact Or.inl here

theorem exists_addAbsent (families : ∀ x ∈ queued, Family v4 x) (family : Family v4 next) :
    ∃ x ∈ addAbsent queue queued next, block x = block next := by
  by_cases known : ∃ y ∈ queued, block y = block next
  · obtain ⟨y, member, same⟩ := known
    exact ⟨y, (mem_addAbsent queue families family).mpr (Or.inl member), same⟩
  · refine ⟨next, (mem_addAbsent queue families family).mpr (Or.inr ⟨rfl, ?_⟩), rfl⟩
    intro y member same
    exact known ⟨y, member, same⟩

private theorem splitNext_facts (family' : Family v4 next) (families : ∀ x ∈ rest, Family v4 x)
    (inside : block cur < block next) (first : (block cur).first = (block next).first) :
    SplitNext v4 cur next rest (splitNext queue cur next rest) := by
  have bits := bits_lt_of_lt inside
  have large : 0 < (block next).bits := by omega
  have halves := split_halves family' large
  have second := @mem_addAbsent v4 rest next.split.2 queue families halves.family'
  have families' : ∀ x ∈ addAbsent queue rest next.split.2, Family v4 x := by
    intro x member
    rcases second.mp member with member | ⟨rfl, _⟩
    · exact families x member
    · exact halves.family'
  have firstHalf := @mem_addAbsent v4 _ next.split.1 queue families' halves.family
  have same : next.split.1.getLastAddress = cur.getLastAddress ↔ (block next).left = block cur := by
    have last := getLastAddress_eq next.split.1
    have last' := getLastAddress_eq cur
    have begins := left_first large
    rw [halves.left] at last
    constructor
    · intro same
      exact le_antisymm (le_def.mpr ⟨by omega, by omega⟩) (le_def.mpr ⟨by omega, by omega⟩)
    · intro same
      rw [same] at last
      omega
  have unfolded : splitNext queue cur next rest =
      if next.split.1.getLastAddress = cur.getLastAddress then addAbsent queue rest next.split.2
      else addAbsent queue (addAbsent queue rest next.split.2) next.split.1 := rfl
  refine ⟨large, halves, ?_, ?_, ?_, ?_⟩
  · intro x member
    rw [unfolded]
    split
    · exact second.mpr (Or.inl member)
    · exact firstHalf.mpr (Or.inl (second.mpr (Or.inl member)))
  · intro x member
    rw [unfolded] at member
    have late (member : x ∈ addAbsent queue rest next.split.2) :
        x ∈ rest ∨ x = next.split.2 ∧ ∀ z ∈ rest, block z ≠ (block next).right := by
      rw [← halves.right]
      exact second.mp member
    split at member
    next => exact (late member).imp id Or.inl
    next other =>
      rcases firstHalf.mp member with member | ⟨here, absent⟩
      · exact (late member).imp id Or.inl
      · refine Or.inr (Or.inr ⟨here, fun alike => other (same.mpr alike), ?_⟩)
        intro z left
        rw [← halves.left]
        exact absent z (second.mpr (Or.inl left))
  · rw [unfolded, ← halves.left]
    split
    next alike => exact Or.inl (halves.left.trans (same.mp alike))
    next => exact Or.inr (exists_addAbsent queue families' halves.family)
  · obtain ⟨x, member, alike⟩ := exists_addAbsent queue families halves.family'
    refine ⟨x, ?_, alike.trans halves.right⟩
    rw [unfolded]
    split
    · exact member
    · exact firstHalf.mpr (Or.inl member)

private theorem splitCurrent_facts (family : Family v4 cur) (family' : Family v4 next)
    (inside : block next < block cur)
    (later : (block cur).first < (block next).first) : PutBack cur next rest (splitCurrent queue cur next rest) := by
  have bits := bits_lt_of_lt inside
  have large : 0 < (block cur).bits := by omega
  have half : (block cur).right.bits + 1 = (block cur).bits := Nat.sub_add_cancel large
  have halves := split_halves family large
  have same : cur.split.2.networkMask = next.networkMask ↔ block next = (block cur).right := by
    rw [mask_eq_iff family' halves.family', halves.right]
    constructor
    · intro bits
      rcases le_half inside with within | within
      · have same : block next = (block cur).left := eq_of_le within (Nat.le_of_eq bits.symm)
        rw [same, left_first large] at later
        omega
      · exact eq_of_le within (Nat.le_of_eq bits.symm)
    · intro same
      rw [same]
  intro x
  unfold splitCurrent
  simp only [same]
  split
  next alike =>
    rw [queue.mem_add]
    constructor
    · rintro (here | member)
      · exact Or.inr (Or.inl here)
      · exact Or.inl member
    · rintro (member | here | ⟨_, other⟩)
      · exact Or.inr member
      · exact Or.inl here
      · exact absurd alike other
  next other =>
    rw [queue.mem_add, queue.mem_add]
    constructor
    · rintro (here | here | member)
      · exact Or.inr (Or.inl here)
      · exact Or.inr (Or.inr ⟨here, other⟩)
      · exact Or.inl member
    · rintro (member | here | ⟨here, _⟩)
      · exact Or.inr (Or.inr member)
      · exact Or.inl here
      · exact Or.inr (Or.inl here)

/-! ### A round -/

/-- What a round that does not end the loop makes of the state. -/
inductive Round (cur next : IpAddress) (rest ipsDone : List IpAddress) : Loop → Prop
  | done (apart : (block cur).stop ≤ (block next).first) :
      Round cur next rest ipsDone ⟨next, rest, TreeSet.add compareTo cur ipsDone⟩
  | forget (first : (block cur).first = (block next).first) (inside : block cur ≤ block next)
      (same : cur.included = next.included) : Round cur next rest ipsDone ⟨next, rest, ipsDone⟩
  | splitNext (first : (block cur).first = (block next).first) (inside : block cur ≤ block next)
      (differs : cur.included ≠ next.included) :
      Round cur next rest ipsDone ⟨cur, NetworkSpace.splitNext queue cur next rest, ipsDone⟩
  | skip (later : (block cur).first < (block next).first) (inside : block next < block cur)
      (same : cur.included = next.included) : Round cur next rest ipsDone ⟨cur, rest, ipsDone⟩
  | splitCurrent (later : (block cur).first < (block next).first) (inside : block next < block cur)
      (differs : cur.included ≠ next.included) :
      Round cur next rest ipsDone ⟨cur.split.1, NetworkSpace.splitCurrent queue cur next rest, ipsDone⟩

private theorem round_of_turn (family : Family v4 cur) (family' : Family v4 next)
    (order : Precedes (block cur) (block next))
    {loop : Loop} (turn : Turn queue cur next rest ipsDone loop) : Round queue cur next rest ipsDone loop := by
  have bits := mask_lt_iff family' family
  have later (other : ¬ ((block cur).first = (block next).first ∧ next.networkMask ≤ cur.networkMask)) :
      (block cur).first < (block next).first := by
    rcases order with before | ⟨same, small⟩
    · exact before
    · exact absurd ⟨same, by omega⟩ other
  cases turn with
  | done apart => exact .done apart
  | forget first mask same => exact .forget first (le_of_first (by omega) first) same
  | splitNext first mask differs => exact .splitNext first (le_of_first (by omega) first) differs
  | skip overlap other same => exact .skip (later other) (lt_of_later (later other) overlap) same
  | splitCurrent overlap other differs => exact .splitCurrent (later other) (lt_of_later (later other) overlap) differs

/-- A round keeps the invariant, unless the loop is disturbed. -/
theorem keeps_round (undisturbed : Undisturbed nets) (inv : Invariant v4 nets cur queued)
    (polled : Polled queued next rest) {loop : Loop} (step : Round queue cur next rest ipsDone loop) :
    Invariant v4 nets loop.currentNet loop.networks := by
  have family := inv.families next polled.next_mem
  cases step with
  | done apart => exact keeps_done inv polled apart
  | forget first inside same => exact keeps_forget inv polled first inside same
  | splitNext first inside differs =>
    have proper : block cur < block next := by
      apply lt_of_le_of_ne inside
      intro same
      exact differs (inv.agree next polled.next_mem same.symm).symm
    have families : ∀ x ∈ rest, Family v4 x := fun x left => inv.families x (polled.rest_mem left)
    exact keeps_splitNext inv polled proper first differs (splitNext_facts queue family families proper first)
  | skip later inside same => exact keeps_skip undisturbed inv polled inside later same
  | splitCurrent later inside differs =>
    exact keeps_splitCurrent undisturbed inv polled inside later differs
      (splitCurrent_facts queue inv.family family inside later)

/-! ### The networks that are done -/

/-- Below a bound, the networks that are done route every address and have its flag. -/
structure Finished (v4 : Bool) (nets : List IpAddress) (bound : Nat) (ipsDone : List IpAddress) : Prop where
  families : ∀ r ∈ ipsDone, Family v4 r
  covered : ∀ a < bound, (∃ r ∈ ipsDone, (block r).Contains a) ↔ route nets a ≠ none
  flags : ∀ r ∈ ipsDone, ∀ a, (block r).Contains a → route nets a = some r.included
  before : ∀ r ∈ ipsDone, (block r).stop ≤ bound
  origin : ∀ r ∈ ipsDone,
    ∃ t, Piece nets t ∧ own nets t = some r.included ∧ block r ≤ t ∧ t.first = (block r).first

theorem Finished.add (finished : Finished v4 nets (block cur).first ipsDone) (inv : Invariant v4 nets cur queued)
    {bound : Nat} (stop : (block cur).stop ≤ bound) (next : ∀ x ∈ queued, bound ≤ (block x).first) :
    Finished v4 nets bound (TreeSet.add compareTo cur ipsDone) := by
  have size := first_lt_stop (block cur)
  have flag {a : Nat} (contains : (block cur).Contains a) : route nets a = some cur.included := by
    have high := contains.2
    refine route_current inv contains ?_
    intro x member
    have := next x member
    omega
  have cur_mem : cur ∈ TreeSet.add compareTo cur ipsDone := by
    rcases TreeSet.mem_self cur ipsDone with member | ⟨r, member, equal⟩
    · exact member
    · have same := (compareTo_eq inv.family (finished.families r member)).mp equal
      have := finished.before r member
      rw [← same] at this
      omega
  refine ⟨?_, ?_, ?_, ?_, ?_⟩
  · intro r member
    rcases TreeSet.mem_add member with rfl | member
    · exact inv.family
    · exact finished.families r member
  · intro a below
    constructor
    · rintro ⟨r, member, contains⟩
      rcases TreeSet.mem_add member with rfl | member
      · simp [flag contains]
      · simp [finished.flags r member a contains]
    · intro routed
      rcases Nat.lt_or_ge a (block cur).first with done | from_cur
      · obtain ⟨r, member, contains⟩ := (finished.covered a done).mpr routed
        exact ⟨r, TreeSet.mem_of_mem member, contains⟩
      · rcases Nat.lt_or_ge a (block cur).stop with inside | after
        · exact ⟨cur, cur_mem, from_cur, inside⟩
        · apply absurd _ routed
          refine route_none inv after ?_
          intro x member
          have := next x member
          omega
  · intro r member a contains
    rcases TreeSet.mem_add member with rfl | member
    · exact flag contains
    · exact finished.flags r member a contains
  · intro r member
    rcases TreeSet.mem_add member with rfl | member
    · exact stop
    · have := finished.before r member
      omega
  · intro r member
    rcases TreeSet.mem_add member with rfl | member
    · exact inv.origin
    · exact finished.origin r member

private theorem finished_round (inv : Invariant v4 nets cur queued) (polled : Polled queued next rest)
    (finished : Finished v4 nets (block cur).first ipsDone) {loop : Loop}
    (step : Round queue cur next rest ipsDone loop) : Finished v4 nets (block loop.currentNet).first loop.ipsDone := by
  cases step with
  | done apart => exact finished.add inv apart fun x => polled.first_le
  | forget first inside same => exact first ▸ finished
  | splitNext first inside differs => exact finished
  | skip later inside same => exact finished
  | splitCurrent later inside differs =>
    have bits := bits_lt_of_lt inside
    have large : 0 < (block cur).bits := by omega
    change Finished v4 nets (block cur.split.1).first ipsDone
    rw [(split_halves inv.family large).left, left_first large]
    exact finished

/-! ### The run -/

/-- What is done when the loop ends routes every address. -/
theorem rounds_finished (undisturbed : Undisturbed nets) {fuel : Nat} (inv : Invariant v4 nets cur queued)
    (finished : Finished v4 nets (block cur).first ipsDone) {result : List IpAddress}
    (ends : rounds queue fuel ⟨cur, queued, ipsDone⟩ = some result) :
    ∃ bound, ∀ later, bound ≤ later → Finished v4 nets later result := by
  induction fuel generalizing cur queued ipsDone with
  | zero => cases ends
  | succ fuel ih =>
    cases found : queue.poll queued with
    | none =>
      have empty := queue.poll_none queued found
      simp only [rounds, NetworkSpace.round, found] at ends
      cases ends
      refine ⟨(block cur).stop, ?_⟩
      intro later stop
      apply finished.add inv stop
      intro x member
      rw [empty] at member
      cases member
    | some both =>
      obtain ⟨next, rest⟩ := both
      have polled := polled_of_poll queue inv.families found
      obtain ⟨loop, made, turn⟩ := turn_of_poll queue ipsDone found
      rw [rounds, made] at ends
      have step := round_of_turn queue inv.family (inv.families next polled.next_mem)
        (inv.ordered next polled.next_mem) turn
      exact ih (keeps_round queue undisturbed inv polled step) (finished_round queue inv polled finished step) ends

end RRoadVpn.Proofs.NetworkLoop
