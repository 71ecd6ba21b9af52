import Mathlib.Algebra.Order.BigOperators.Group.List
import RRoadVpn.Proofs.NetworkBlocks

/-! What the loop of `generateIPList` does with any set of networks: it ends, and what
is done are networks one after the other that have all addresses of the set. A split
of a network of one address gives a network of the next address with a mask beyond the
family's width; at most one such network is about for an address, and it is not split. -/

namespace RRoadVpn.Proofs.NetworkPartition
open Library Block IpAddress NetworkSpace NetworkBlocks

variable {v4 : Bool} {x y cur next : IpAddress} {queued rest ipsDone : List IpAddress}

/-- A network of the family or the rest of one that was split too far. -/
structure Sized (v4 : Bool) (ip : IpAddress) : Prop where
  isV4 : ip.isV4 = v4
  networkMask : ip.networkMask ≤ width v4 + 1

private theorem numBits_of_isV4 (isV4 : x.isV4 = v4) : x.numBits = width v4 - x.networkMask := by
  unfold IpAddress.numBits
  rw [isV4]
  cases v4 <;> rfl

private theorem Sized.numBits (sized : Sized v4 x) :
    x.numBits = width v4 - x.networkMask := numBits_of_isV4 sized.isV4

private theorem Sized.family (sized : Sized v4 x) (mask : x.networkMask ≤ width v4) :
    Family v4 x := ⟨sized.isV4, mask⟩

private theorem Sized.of_family (family : Family v4 x) :
    Sized v4 x := ⟨family.isV4, Nat.le_succ_of_le family.networkMask⟩

private theorem Sized.bits_le (first : Sized v4 x) (second : Sized v4 y) (mask : x.networkMask ≤ y.networkMask) :
    (block y).bits ≤ (block x).bits := by
  rw [block_bits, block_bits, first.numBits, second.numBits]
  omega

private theorem Sized.bits_pos_iff (sized : Sized v4 x) : 0 < (block x).bits ↔ x.networkMask < width v4 := by
  rw [block_bits, sized.numBits]
  omega

private theorem block_of_full (isV4 : x.isV4 = v4) (full : width v4 ≤ x.networkMask) :
    block x = ⟨0, x.netAddress⟩ := by
  unfold block
  rw [numBits_of_isV4 isV4, Nat.sub_eq_zero_of_le full, pow_zero, Nat.div_one]

theorem stop_of_full (full : (block x).bits = 0) : (block x).stop = (block x).first + 1 := by
  rw [stop_eq, full]
  rfl

/-! ### The queue -/

/-- The next network is before those that are left. -/
structure Next (next : IpAddress) (rest : List IpAddress) : Prop where
  first : ∀ x ∈ rest, (block next).first ≤ (block x).first
  mask : ∀ x ∈ rest, (block x).first = (block next).first → x.networkMask ≤ next.networkMask

variable (queue : Queue)

private theorem next_of_poll (polled : queue.poll queued = some (next, rest)) : Next next rest := by
  have least (x : IpAddress) (member : x ∈ rest) := compareTo_ne_gt_iff.mp (queue.poll_least _ _ _ polled x member)
  refine ⟨fun x member => ?_, fun x member same => ?_⟩
  · have := least x member
    omega
  · have := least x member
    omega

/-- What is in the queue after `addAbsent`: what was, and the network unless an equal one was. -/
theorem mem_addAbsent_of_mem (member : x ∈ queued) : x ∈ addAbsent queue queued y := by
  unfold addAbsent
  split
  · exact member
  · exact queue.mem_add.mpr (Or.inr member)

private theorem addAbsent_cases (queued : List IpAddress) (y : IpAddress) :
    ((∃ z ∈ queued, y.equals z = true) ∧ addAbsent queue queued y = queued) ∨
    ((∀ z ∈ queued, y.equals z = false) ∧ (addAbsent queue queued y).Perm (y :: queued)) := by
  unfold addAbsent
  by_cases present : contains queued y = true
  · rw [if_pos present]
    exact Or.inl ⟨List.any_eq_true.mp present, rfl⟩
  · rw [if_neg present]
    refine Or.inr ⟨fun z member => ?_, queue.add_perm queued y⟩
    simpa using fun equal => present (List.any_eq_true.mpr ⟨z, member, equal⟩)

private theorem mem_addAbsent_iff {z : IpAddress} (queued : List IpAddress) (y : IpAddress)
    (member : z ∈ addAbsent queue queued y) : z ∈ queued ∨ z = y := by
  rcases addAbsent_cases queue queued y with ⟨-, same⟩ | ⟨-, perm⟩
  · rw [same] at member
    exact Or.inl member
  · exact (List.mem_cons.mp (perm.mem_iff.mp member)).symm

theorem exists_addAbsent (sized : ∀ z ∈ queued, Sized v4 z) (sized' : Sized v4 y) :
    ∃ z ∈ addAbsent queue queued y, block z = block y := by
  rcases addAbsent_cases queue queued y with ⟨⟨z, member, equal⟩, same⟩ | ⟨-, perm⟩
  · obtain ⟨mask, first⟩ := equals_iff_first.mp equal
    refine ⟨z, by rwa [same], ext_of_first ?_ first.symm⟩
    rw [block_bits, block_bits, (sized z member).numBits, sized'.numBits, mask]
  · exact ⟨y, perm.mem_iff.mpr List.mem_cons_self, rfl⟩

/-! ### Halves -/

/-- What a split makes of a network without open bits: itself and the next address. -/
theorem split_full (sized : Sized v4 x) (full : width v4 ≤ x.networkMask) :
    block x.split.1 = ⟨0, (block x).first⟩ ∧ block x.split.2 = ⟨0, (block x).first + 1⟩ := by
  have longer : width v4 ≤ x.networkMask + 1 := Nat.le_succ_of_le full
  have first : block x.split.1 = ⟨0, (block x).first⟩ := by
    rw [block_of_full (x := x.split.1) sized.isV4 longer, ← getFirstAddress_eq]
    rfl
  have last := getLastAddress_eq x.split.1
  rw [stop_of_full (congrArg Block.bits first), first] at last
  refine ⟨first, ?_⟩
  rw [block_of_full (x := x.split.2) sized.isV4 longer]
  change (⟨0, x.split.1.getLastAddress + 1⟩ : Block) = _
  rw [last]
  simp [Block.first]

/-! ### The measure -/

/-- How many rounds a network is good for: a split costs one and leaves the halves, and a
network of the family with one address leaves one that was split too far. -/
def load (ip : IpAddress) : Nat := if width ip.isV4 < ip.networkMask then 1 else 3 * 2 ^ ip.numBits - 1

def total (l : List IpAddress) : Nat := (l.map load).sum

private theorem total_cons (ip : IpAddress) (l : List IpAddress) :
    total (ip :: l) = load ip + total l := List.sum_cons

private theorem total_perm {l l' : List IpAddress} (perm : l.Perm l') : total l = total l' := (perm.map load).sum_nat

private theorem load_pos (ip : IpAddress) : 0 < load ip := by
  have positive : 0 < 2 ^ ip.numBits := Nat.two_pow_pos _
  unfold load
  split <;> omega

private theorem total_addAbsent (l : List IpAddress) (ip : IpAddress) :
    total (addAbsent queue l ip) ≤ load ip + total l := by
  rcases addAbsent_cases queue l ip with ⟨-, same⟩ | ⟨-, perm⟩
  · rw [same]
    exact Nat.le_add_left _ _
  · exact Nat.le_of_eq ((total_perm perm).trans (total_cons ip l))

private theorem load_of_family (family : Family v4 x) : load x = 3 * 2 ^ x.numBits - 1 := by
  unfold load
  rw [family.isV4, if_neg (Nat.not_lt.mpr family.networkMask)]

theorem load_split (family : Family v4 x) (large : 0 < (block x).bits) :
    load x.split.1 + load x.split.2 + 1 = load x := by
  obtain ⟨family', family'', left, right, -, -⟩ := split_halves family large
  have bits : x.split.1.numBits + 1 = x.numBits := by
    rw [← block_bits, left]
    exact Nat.sub_add_cancel large
  have bits' : x.split.2.numBits = x.split.1.numBits := by
    rw [← block_bits, ← block_bits, left, right]
    rfl
  have positive : 0 < 2 ^ x.split.1.numBits := Nat.two_pow_pos _
  rw [load_of_family family, load_of_family family', load_of_family family'', bits', ← bits, Nat.pow_succ]
  omega

theorem load_split_full (sized : Sized v4 x) (full : x.networkMask = width v4) : load x.split.2 < load x := by
  have bits : x.numBits = 0 := by
    rw [sized.numBits, full, Nat.sub_self]
  have beyond : load x.split.2 = 1 := by
    unfold load
    change (if width x.isV4 < x.networkMask + 1 then 1 else _) = 1
    rw [sized.isV4, full, if_pos (Nat.lt_succ_self _)]
  rw [beyond, load_of_family (sized.family (Nat.le_of_eq full)), bits]
  decide

/-! ### The state at the head of the loop -/

/-- Not two networks that were split too far to one address. -/
def Apart (v4 : Bool) (x y : IpAddress) : Prop :=
  width v4 < x.networkMask → width v4 < y.networkMask → (block x).first ≠ (block y).first

private theorem Apart.symm (apart : Apart v4 x y) : Apart v4 y x := fun left right same => apart right left same.symm

/-- A queued network that starts where the current one does is not smaller, unless the current
one has met a network with its own block, whose halves are both in the queue. -/
structure Ready (v4 : Bool) (cur : IpAddress) (queued : List IpAddress) : Prop where
  sized : ∀ x ∈ cur :: queued, Sized v4 x
  later : ∀ x ∈ queued, (block cur).first ≤ (block x).first
  smaller : ∀ x ∈ queued, (block x).first = (block cur).first → cur.networkMask < x.networkMask →
    x.networkMask = cur.networkMask + 1 ∧ cur.networkMask < width v4 ∧ ∃ y ∈ queued, block y = (block cur).right
  single : (cur :: queued).Pairwise (Apart v4)

/-- Whether an address is in a network that is done, current or queued. -/
def Held (loop : Loop) (a : Nat) : Prop :=
  (∃ r ∈ loop.ipsDone, (block r).Contains a) ∨ (block loop.currentNet).Contains a ∨
    ∃ x ∈ loop.networks, (block x).Contains a

/-- The networks that are done are one after the other and before the current one. -/
structure Progress (v4 : Bool) (loop : Loop) : Prop where
  ready : Ready v4 loop.currentNet loop.networks
  before : ∀ r ∈ loop.ipsDone, (block r).stop ≤ (block loop.currentNet).first
  ordered : loop.ipsDone.Pairwise fun x y => (block x).stop ≤ (block y).first

/-- What a round does to a loop in progress. -/
structure Advances (v4 : Bool) (loop loop' : Loop) : Prop where
  progress : Progress v4 loop'
  held : ∀ a, Held loop a → Held loop' a
  shrinks : total (loop'.currentNet :: loop'.networks) < total (loop.currentNet :: loop.networks)

/-! ### Rounds without a split -/

private theorem first_lt_right {d : Block} (large : 0 < d.bits) : d.first < d.right.first := by
  rw [right_first, ← left_first large]
  exact first_lt_stop d.left

section Rounds

variable (progress : Progress v4 ⟨cur, queued, ipsDone⟩) (perm : queued.Perm (next :: rest)) (order : Next next rest)

include perm in
private theorem mem_queued : x ∈ queued ↔ x = next ∨ x ∈ rest := perm.mem_iff.trans List.mem_cons

include perm in
private theorem total_queued : total (cur :: queued) = load cur + (load next + total rest) := by
  rw [total_cons, total_perm perm, total_cons]

include progress perm in
private theorem single_rest : (cur :: next :: rest).Pairwise (Apart v4) :=
  (List.Perm.pairwise_iff Apart.symm (perm.cons cur)).mp progress.ready.single

include progress perm order in
private theorem ready_next : Ready v4 next rest where
  sized x member := progress.ready.sized x (List.mem_cons_of_mem _ (perm.mem_iff.mpr member))
  later := order.first
  smaller x member same mask := absurd (order.mask x member same) (Nat.not_le.mpr mask)
  single := (List.pairwise_cons.mp (single_rest progress perm)).2

include progress in
theorem append_of_before : TreeSet.add compareTo cur ipsDone = ipsDone ++ [cur] := by
  apply TreeSet.add_greatest
  intro r member
  apply Classical.byContradiction
  intro other
  have less := compareTo_ne_gt_iff.mp other
  have before : (block r).stop ≤ (block cur).first := progress.before r member
  have size := first_lt_stop (block r)
  omega

include progress perm order in
theorem advances_done (apart : (block cur).stop ≤ (block next).first) :
    Advances v4 ⟨cur, queued, ipsDone⟩ ⟨next, rest, TreeSet.add compareTo cur ipsDone⟩ := by
  rw [append_of_before progress]
  refine ⟨⟨ready_next progress perm order, fun r member => ?_, ?_⟩, fun a held => ?_, ?_⟩
  · have size := first_lt_stop (block cur)
    rcases List.mem_append.mp member with member | here
    · have before : (block r).stop ≤ (block cur).first := progress.before r member
      change (block r).stop ≤ (block next).first
      omega
    · rw [List.mem_singleton.mp here]
      exact apart
  · refine List.pairwise_append.mpr ⟨progress.ordered, List.pairwise_singleton _ _, fun r member x here => ?_⟩
    rw [List.mem_singleton.mp here]
    exact progress.before r member
  · rcases held with ⟨r, member, contains⟩ | contains | ⟨x, member, contains⟩
    · exact Or.inl ⟨r, List.mem_append_left _ member, contains⟩
    · exact Or.inl ⟨cur, List.mem_append_right _ (List.mem_singleton.mpr rfl), contains⟩
    · rcases (mem_queued perm).mp member with rfl | left
      · exact Or.inr (Or.inl contains)
      · exact Or.inr (Or.inr ⟨x, left, contains⟩)
  · change total (next :: rest) < total (cur :: queued)
    rw [total_queued perm, total_cons]
    exact Nat.lt_add_of_pos_left (load_pos cur)

include progress perm order in
theorem advances_forget (first : (block cur).first = (block next).first) (mask : next.networkMask ≤ cur.networkMask) :
    Advances v4 ⟨cur, queued, ipsDone⟩ ⟨next, rest, ipsDone⟩ := by
  have sized : Sized v4 cur := progress.ready.sized cur List.mem_cons_self
  have sized' : Sized v4 next :=
    progress.ready.sized next (List.mem_cons_of_mem _ (perm.mem_iff.mpr List.mem_cons_self))
  have inside : block cur ≤ block next := le_of_first (sized'.bits_le sized mask) first
  refine ⟨⟨ready_next progress perm order, fun r member => ?_, progress.ordered⟩, fun a held => ?_, ?_⟩
  · change (block r).stop ≤ (block next).first
    rw [← first]
    exact progress.before r member
  · rcases held with done | contains | ⟨x, member, contains⟩
    · exact Or.inl done
    · exact Or.inr (Or.inl ⟨Nat.le_trans inside.1 contains.1, Nat.lt_of_lt_of_le contains.2 inside.2⟩)
    · rcases (mem_queued perm).mp member with rfl | left
      · exact Or.inr (Or.inl contains)
      · exact Or.inr (Or.inr ⟨x, left, contains⟩)
  · change total (next :: rest) < total (cur :: queued)
    rw [total_queued perm, total_cons]
    exact Nat.lt_add_of_pos_left (load_pos cur)

/-- Where the next network overlaps and the current one is not its start. -/
structure Within (v4 : Bool) (cur next : IpAddress) (rest : List IpAddress) : Prop where
  family : Family v4 cur
  large : 0 < (block cur).bits
  inside : block next ≤ block cur
  right : (block cur).first < (block next).first ∨
    ((block next).first = (block cur).first ∧ next.networkMask = cur.networkMask + 1 ∧
      ∃ y ∈ rest, block y = (block cur).right)

include progress perm in
private theorem within_of_overlap (overlap : (block next).first < (block cur).stop)
    (other : ¬ ((block cur).first = (block next).first ∧ next.networkMask ≤ cur.networkMask)) :
    Within v4 cur next rest := by
  have sized : Sized v4 cur := progress.ready.sized cur List.mem_cons_self
  have queues : next ∈ queued := perm.mem_iff.mpr List.mem_cons_self
  have sized' : Sized v4 next := progress.ready.sized next (List.mem_cons_of_mem _ queues)
  rcases Nat.lt_or_eq_of_le (progress.ready.later next queues) with later | same
  · have inside : block next < block cur := lt_of_later later overlap
    have bits := bits_lt_of_lt inside
    have large : 0 < (block cur).bits := by omega
    exact ⟨sized.family (Nat.le_of_lt (sized.bits_pos_iff.mp large)), large, inside.le, Or.inl later⟩
  · have mask : cur.networkMask < next.networkMask := Nat.not_le.mp fun le => other ⟨same, le⟩
    obtain ⟨one, narrow, y, member, right⟩ := progress.ready.smaller next queues same.symm mask
    have large : 0 < (block cur).bits := sized.bits_pos_iff.mpr narrow
    have left : y ∈ rest := by
      refine ((mem_queued perm).mp member).resolve_left ?_
      rintro rfl
      have after := first_lt_right large
      rw [← right] at after
      exact absurd same (Nat.ne_of_lt after)
    exact ⟨sized.family (Nat.le_of_lt narrow), large,
      le_of_first (sized.bits_le sized' (Nat.le_of_lt mask)) same.symm,
      Or.inr ⟨same.symm, one, y, left, right⟩⟩

include progress perm order in
theorem advances_skip (within : Within v4 cur next rest) :
    Advances v4 ⟨cur, queued, ipsDone⟩ ⟨cur, rest, ipsDone⟩ := by
  have ready := progress.ready
  have kept {x : IpAddress} (member : x ∈ rest) : x ∈ queued := (mem_queued perm).mpr (Or.inr member)
  refine ⟨⟨⟨?_, fun x member => ready.later x (kept member), ?_, ?_⟩, progress.before, progress.ordered⟩,
    fun a held => ?_, ?_⟩
  · intro x member
    rcases List.mem_cons.mp member with rfl | left
    · exact ready.sized x List.mem_cons_self
    · exact ready.sized x (List.mem_cons_of_mem _ (kept left))
  · intro x member same mask
    obtain ⟨one, narrow, y, present, right⟩ := ready.smaller x (kept member) same mask
    refine ⟨one, narrow, y, ((mem_queued perm).mp present).resolve_left ?_, right⟩
    rintro rfl
    have after := first_lt_right within.large
    have low := order.first x member
    rw [← right] at after
    change (block x).first = (block cur).first at same
    omega
  · exact (single_rest progress perm).sublist ((List.sublist_cons_self next rest).cons_cons cur)
  · rcases held with done | contains | ⟨x, member, contains⟩
    · exact Or.inl done
    · exact Or.inr (Or.inl contains)
    · rcases (mem_queued perm).mp member with rfl | left
      · exact Or.inr (Or.inl ⟨Nat.le_trans within.inside.1 contains.1, Nat.lt_of_lt_of_le contains.2 within.inside.2⟩)
      · exact Or.inr (Or.inr ⟨x, left, contains⟩)
  · change total (cur :: rest) < total (cur :: queued)
    rw [total_queued perm, total_cons]
    exact Nat.add_lt_add_left (Nat.lt_add_of_pos_left (load_pos next)) _

/-! ### Rounds with a split -/

/-- What is in the queue when the next network is split. -/
structure Halved (v4 : Bool) (cur next : IpAddress) (rest queued' : List IpAddress) : Prop where
  kept : ∀ x ∈ rest, x ∈ queued'
  mem : ∀ x ∈ queued', x ∈ rest ∨ x = next.split.2 ∨
    (x = next.split.1 ∧ (block next.split.1).stop ≠ (block cur).stop)
  right : ∃ y ∈ queued', block y = block next.split.2
  left : (block next.split.1).stop = (block cur).stop ∨ ∃ y ∈ queued', block y = block next.split.1
  single : (cur :: queued').Pairwise (Apart v4)
  total : total queued' < load next + total rest

private theorem pairwise_addAbsent (sized : ∀ x ∈ queued, Sized v4 x) (sized' : Sized v4 y)
    (single : (cur :: queued).Pairwise (Apart v4))
    (apart : Apart v4 cur y) : (cur :: addAbsent queue queued y).Pairwise (Apart v4) := by
  rcases addAbsent_cases queue queued y with ⟨-, same⟩ | ⟨absent, perm⟩
  · rwa [same]
  · refine (List.Perm.pairwise_iff Apart.symm (perm.cons cur)).mpr ?_
    obtain ⟨front, inner⟩ := List.pairwise_cons.mp single
    refine List.pairwise_cons.mpr ⟨?_, List.pairwise_cons.mpr ⟨?_, inner⟩⟩
    · intro x member
      rcases List.mem_cons.mp member with rfl | member
      · exact apart
      · exact front x member
    · intro x member beyond beyond' first
      have limit := (sized x member).networkMask
      have limit' := sized'.networkMask
      have equal : y.equals x = true := equals_iff_first.mpr ⟨by omega, first⟩
      rw [absent x member] at equal
      cases equal

private theorem splitNext_eq : splitNext queue cur next rest =
    if (block next.split.1).stop = (block cur).stop then addAbsent queue rest next.split.2
    else addAbsent queue (addAbsent queue rest next.split.2) next.split.1 := by
  have last := getLastAddress_eq next.split.1
  have last' := getLastAddress_eq cur
  have same : next.split.1.getLastAddress = cur.getLastAddress ↔ (block next.split.1).stop = (block cur).stop := by
    omega
  simp only [splitNext, same]

private theorem halved_splitNext (single : (cur :: next :: rest).Pairwise (Apart v4))
    (sized : ∀ x ∈ next :: rest, Sized v4 x)
    (sizes : Sized v4 next.split.1 ∧ Sized v4 next.split.2) (apart : Apart v4 cur next.split.2)
    (leaves : (block next.split.1).stop ≠ (block cur).stop → next.networkMask < width v4)
    (load : load next.split.2 < load next ∧ (next.networkMask < width v4 →
      load next.split.1 + load next.split.2 < load next)) :
    Halved v4 cur next rest (splitNext queue cur next rest) := by
  have sized' : ∀ x ∈ rest, Sized v4 x := fun x member => sized x (List.mem_cons_of_mem _ member)
  have single' : (cur :: rest).Pairwise (Apart v4) :=
    single.sublist ((List.sublist_cons_self next rest).cons_cons cur)
  have second := pairwise_addAbsent queue sized' sizes.2 single' apart
  have sized'' : ∀ x ∈ addAbsent queue rest next.split.2, Sized v4 x := by
    intro x member
    rcases mem_addAbsent_iff queue rest _ member with member | rfl
    · exact sized' x member
    · exact sizes.2
  have light := total_addAbsent queue rest next.split.2
  have light' := total_addAbsent queue (addAbsent queue rest next.split.2) next.split.1
  obtain ⟨y, member, right⟩ := exists_addAbsent queue sized' sizes.2
  rw [splitNext_eq]
  by_cases same : (block next.split.1).stop = (block cur).stop
  · rw [if_pos same]
    refine ⟨fun x member => mem_addAbsent_of_mem queue member, fun x member => ?_, ⟨y, member, right⟩, Or.inl same,
      second, ?_⟩
    · exact (mem_addAbsent_iff queue rest _ member).imp id Or.inl
    · have := load.1
      omega
  · rw [if_neg same]
    have narrow := leaves same
    have front : Apart v4 cur next.split.1 := by
      intro _ beyond
      change width v4 < next.networkMask + 1 at beyond
      omega
    refine ⟨fun x member => ?_, fun x member => ?_, ⟨y, mem_addAbsent_of_mem queue member, right⟩,
      Or.inr (exists_addAbsent queue sized'' sizes.1), pairwise_addAbsent queue sized'' sizes.1 second front, ?_⟩
    · exact mem_addAbsent_of_mem queue (mem_addAbsent_of_mem queue member)
    · rcases mem_addAbsent_iff queue _ _ member with member | rfl
      · exact (mem_addAbsent_iff queue rest _ member).imp id Or.inl
      · exact Or.inr (Or.inr ⟨rfl, same⟩)
    · have := load.2 narrow
      omega

/-- How the blocks of a split lie: next to each other, the first where the network starts. -/
structure Parts (v4 : Bool) (next : IpAddress) : Prop where
  sized : Sized v4 next.split.1 ∧ Sized v4 next.split.2
  first : (block next.split.1).first = (block next).first
  second : (block next.split.2).first = (block next.split.1).stop
  covers : ∀ a, (block next).Contains a → (block next.split.1).Contains a ∨ (block next.split.2).Contains a

private theorem parts_of_sized (sized : Sized v4 next) (mask : next.networkMask ≤ width v4) : Parts v4 next := by
  have sizes : Sized v4 next.split.1 ∧ Sized v4 next.split.2 :=
    ⟨⟨sized.isV4, Nat.succ_le_succ mask⟩, ⟨sized.isV4, Nat.succ_le_succ mask⟩⟩
  rcases Nat.lt_or_eq_of_le mask with narrow | full
  · have large := sized.bits_pos_iff.mpr narrow
    have halves := split_halves (sized.family mask) large
    refine ⟨sizes, ?_, ?_, fun a contains => ?_⟩
    · rw [halves.left, left_first large]
    · rw [halves.left, halves.right, right_first]
    · rw [halves.left, halves.right]
      have start := left_first large
      have stop := right_stop large
      have middle := @right_first (block next)
      obtain ⟨low, high⟩ := contains
      rcases Nat.lt_or_ge a (block next).left.stop with before | after
      · exact Or.inl ⟨by omega, before⟩
      · exact Or.inr ⟨by omega, by omega⟩
  · obtain ⟨left, right⟩ := split_full sized (Nat.le_of_eq full.symm)
    have bits : (block next).bits = 0 := by
      have := sized.bits_pos_iff
      omega
    refine ⟨sizes, ?_, ?_, fun a contains => Or.inl ?_⟩
    · rw [left]
      simp [Block.first]
    · rw [left, right]
      simp [Block.first, Block.stop]
    · obtain ⟨low, high⟩ := contains
      rw [stop_of_full bits] at high
      rw [left]
      have same : a = (block next).first := by omega
      simp [Contains, Block.first, Block.stop, same]

private theorem load_halves (whole : Sized v4 next) (limit : next.networkMask ≤ width v4) :
    load next.split.2 < load next ∧ (next.networkMask < width v4 →
      load next.split.1 + load next.split.2 < load next) := by
  have positive := load_pos next.split.1
  have halves (narrow : next.networkMask < width v4) :=
    load_split (whole.family limit) (whole.bits_pos_iff.mpr narrow)
  refine ⟨?_, fun narrow => by have := halves narrow; omega⟩
  rcases Nat.lt_or_eq_of_le limit with narrow | full
  · have := halves narrow
    omega
  · exact load_split_full whole full

/-- Only a network of one address is its own first half, and then so is the current one. -/
private theorem narrow_of_differs (current : Sized v4 cur) (whole : Sized v4 next)
    (first : (block cur).first = (block next).first) (mask : next.networkMask ≤ cur.networkMask)
    (limit : next.networkMask ≤ width v4) (differs : (block next.split.1).stop ≠ (block cur).stop) :
    next.networkMask < width v4 := by
  apply Nat.lt_of_le_of_ne limit
  intro full
  have begins := (parts_of_sized whole limit).first
  have bits := current.bits_pos_iff
  obtain ⟨left, -⟩ := split_full whole (Nat.le_of_eq full.symm)
  apply differs
  rw [stop_of_full (congrArg Block.bits left), stop_of_full (by omega), begins, first]

private theorem covers_halved {queued' : List IpAddress} (parts : Parts v4 next)
    (halved : Halved v4 cur next rest queued') (first : (block cur).first = (block next).first) {a : Nat}
    (contains : (block next).Contains a) :
    (block cur).Contains a ∨ ∃ y ∈ queued', (block y).Contains a := by
  have begins := parts.first
  rcases parts.covers a contains with inside | inside
  · rcases halved.left with same | ⟨y, present, block⟩
    · refine Or.inl ⟨?_, same ▸ inside.2⟩
      have low := inside.1
      change (NetworkBlocks.block cur).first ≤ a
      omega
    · exact Or.inr ⟨y, present, block ▸ inside⟩
  · obtain ⟨y, present, block⟩ := halved.right
    exact Or.inr ⟨y, present, block ▸ inside⟩

include progress perm order in
/-- The current network is the start of the next one, which has the other flag. -/
theorem advances_splitNext (first : (block cur).first = (block next).first)
    (mask : next.networkMask ≤ cur.networkMask) :
    Advances v4 ⟨cur, queued, ipsDone⟩ ⟨cur, splitNext queue cur next rest, ipsDone⟩ := by
  have ready := progress.ready
  have single := single_rest progress perm
  have sized : ∀ x ∈ next :: rest, Sized v4 x := fun x member =>
    ready.sized x (List.mem_cons_of_mem _ (perm.mem_iff.mpr member))
  have whole : Sized v4 next := sized next List.mem_cons_self
  have current : Sized v4 cur := ready.sized cur List.mem_cons_self
  have limit : next.networkMask ≤ width v4 := by
    apply Nat.le_of_not_lt
    intro beyond
    exact (List.pairwise_cons.mp single).1 next List.mem_cons_self (Nat.lt_of_lt_of_le beyond mask) beyond first
  have parts := parts_of_sized whole limit
  have size := first_lt_stop (block next.split.1)
  have begins := parts.first
  have middle := parts.second
  have apart : Apart v4 cur next.split.2 := fun _ _ same => by omega
  have leaves := narrow_of_differs current whole first mask limit
  have halved := halved_splitNext queue single sized parts.sized apart leaves (load_halves whole limit)
  refine ⟨⟨⟨fun x member => ?_, fun x member => ?_, fun x member same smaller => ?_, halved.single⟩, progress.before,
    progress.ordered⟩, fun a held => ?_, ?_⟩
  · rcases List.mem_cons.mp member with rfl | member
    · exact current
    · rcases halved.mem x member with member | rfl | ⟨rfl, -⟩
      · exact sized x (List.mem_cons_of_mem _ member)
      · exact parts.sized.2
      · exact parts.sized.1
  · change (block cur).first ≤ (block x).first
    rcases halved.mem x member with member | rfl | ⟨rfl, -⟩
    · exact ready.later x (perm.mem_iff.mpr (List.mem_cons_of_mem _ member))
    · omega
    · omega
  · change (block x).first = (block cur).first at same
    change cur.networkMask < x.networkMask at smaller
    rcases halved.mem x member with member | rfl | ⟨rfl, differs⟩
    · have := order.mask x member (same.trans first)
      omega
    · omega
    · change cur.networkMask < next.networkMask + 1 at smaller
      have narrow := leaves differs
      have masks : cur.networkMask = next.networkMask := by omega
      have coincide : block cur = block next := by
        apply ext_of_first _ first
        rw [block_bits, block_bits, current.numBits, whole.numBits, masks]
      obtain ⟨y, present, right⟩ := halved.right
      refine ⟨congrArg (· + 1) masks.symm, masks ▸ narrow, y, present, ?_⟩
      rw [right, (split_halves (whole.family limit) (whole.bits_pos_iff.mpr narrow)).right]
      exact congrArg Block.right coincide.symm
  · rcases held with done | contains | ⟨x, member, contains⟩
    · exact Or.inl done
    · exact Or.inr (Or.inl contains)
    · rcases (mem_queued perm).mp member with rfl | left
      · exact Or.inr (covers_halved parts halved first contains)
      · exact Or.inr (Or.inr ⟨x, halved.kept x left, contains⟩)
  · change total (cur :: splitNext queue cur next rest) < total (cur :: queued)
    rw [total_queued perm, total_cons]
    exact Nat.add_lt_add_left halved.total _

private theorem splitCurrent_perm (cur next : IpAddress) (rest : List IpAddress) :
    (next.networkMask = cur.networkMask + 1 ∧ (splitCurrent queue cur next rest).Perm (next :: rest)) ∨
    (next.networkMask ≠ cur.networkMask + 1 ∧ (splitCurrent queue cur next rest).Perm
      (next :: cur.split.2 :: rest)) := by
  have unfolded : splitCurrent queue cur next rest =
      if cur.networkMask + 1 = next.networkMask then queue.add rest next
      else queue.add (queue.add rest cur.split.2) next := rfl
  rw [unfolded]
  by_cases same : cur.networkMask + 1 = next.networkMask
  · rw [if_pos same]
    exact Or.inl ⟨same.symm, queue.add_perm rest next⟩
  · rw [if_neg same]
    refine Or.inr ⟨fun equal => same equal.symm, ?_⟩
    exact (queue.add_perm _ next).trans ((queue.add_perm rest cur.split.2).cons next)

/-- What is in the queue when the current network is split: the next one again, and the second
half unless there is a network with its block. -/
structure Refilled (cur next : IpAddress) (rest queued' more : List IpAddress) : Prop where
  perm : queued'.Perm (next :: more)
  second : more = rest ∧ (∃ y ∈ next :: rest, block y = block cur.split.2) ∨ more = cur.split.2 :: rest

private theorem refilled_splitCurrent (within : Within v4 cur next rest) (sized : Sized v4 next) :
    ∃ more, Refilled cur next rest (splitCurrent queue cur next rest) more := by
  obtain ⟨family, large, inside, right⟩ := within
  have halves := split_halves family large
  have parts := parts_of_sized (Sized.of_family family) family.networkMask
  rcases splitCurrent_perm queue cur next rest with ⟨same, perm⟩ | ⟨-, perm⟩
  · refine ⟨rest, perm, Or.inl ⟨rfl, ?_⟩⟩
    rcases right with later | ⟨-, -, y, member, second⟩
    · refine ⟨next, List.mem_cons_self, ?_⟩
      rw [halves.right]
      rcases le_half (lt_of_later later (Nat.lt_of_lt_of_le (first_lt_stop _) inside.2)) with below | below
      · have bits : (block cur).left.bits ≤ (block next).bits := by
          rw [← halves.left]
          exact sized.bits_le parts.sized.1 (Nat.le_of_eq same)
        rw [eq_of_le below bits, left_first large] at later
        exact absurd later (Nat.lt_irrefl _)
      · have bits : (block cur).right.bits ≤ (block next).bits := by
          rw [← halves.right]
          exact sized.bits_le parts.sized.2 (Nat.le_of_eq same)
        exact eq_of_le below bits
    · exact ⟨y, List.mem_cons_of_mem _ member, second.trans halves.right.symm⟩
  · exact ⟨_, perm, Or.inr rfl⟩

namespace Refilled

variable {queued' more : List IpAddress} (refilled : Refilled cur next rest queued' more)
include refilled

private theorem mem (member : x ∈ queued') : x ∈ next :: rest ∨ x = cur.split.2 := by
  rcases List.mem_cons.mp (refilled.perm.mem_iff.mp member) with rfl | left
  · exact Or.inl List.mem_cons_self
  · rcases refilled.second with ⟨rfl, -⟩ | rfl
    · exact Or.inl (List.mem_cons_of_mem _ left)
    · exact (List.mem_cons.mp left).symm.imp (List.mem_cons_of_mem _) id

private theorem kept (member : x ∈ next :: rest) : x ∈ queued' := by
  refine refilled.perm.mem_iff.mpr ?_
  rcases List.mem_cons.mp member with rfl | left
  · exact List.mem_cons_self
  · rcases refilled.second with ⟨rfl, -⟩ | rfl
    · exact List.mem_cons_of_mem _ left
    · exact List.mem_cons_of_mem _ (List.mem_cons_of_mem _ left)

private theorem right : ∃ y ∈ queued', block y = block cur.split.2 := by
  rcases refilled.second with ⟨-, y, member, same⟩ | rfl
  · exact ⟨y, refilled.kept member, same⟩
  · exact ⟨_, refilled.perm.mem_iff.mpr (List.mem_cons_of_mem _ List.mem_cons_self), rfl⟩

private theorem single (family : Family v4 cur) (large : 0 < (block cur).bits)
    (single : (cur :: next :: rest).Pairwise (Apart v4)) :
    (cur.split.1 :: queued').Pairwise (Apart v4) := by
  have narrow := (Sized.of_family family).bits_pos_iff.mp large
  have inFamily (x : IpAddress) (mask : x.networkMask = cur.networkMask + 1) (y : IpAddress) : Apart v4 x y := by
    intro beyond
    omega
  refine (List.Perm.pairwise_iff Apart.symm (refilled.perm.cons _)).mpr
    (List.pairwise_cons.mpr ⟨fun y _ => inFamily _ rfl y, ?_⟩)
  have inner := (List.pairwise_cons.mp single).2
  rcases refilled.second with ⟨rfl, -⟩ | rfl
  · exact inner
  · obtain ⟨front, tail⟩ := List.pairwise_cons.mp inner
    refine List.pairwise_cons.mpr ⟨fun y member => ?_, List.pairwise_cons.mpr ⟨fun y _ => inFamily _ rfl y, tail⟩⟩
    rcases List.mem_cons.mp member with rfl | member
    · exact (inFamily _ rfl next).symm
    · exact front y member

private theorem total (family : Family v4 cur) (large : 0 < (block cur).bits) :
    NetworkPartition.total (cur.split.1 :: queued') < NetworkPartition.total (cur :: next :: rest) := by
  have light := load_split family large
  have positive := load_pos cur.split.2
  rw [total_cons, total_cons, total_cons, total_perm refilled.perm, total_cons]
  rcases refilled.second with ⟨rfl, -⟩ | rfl
  · omega
  · rw [total_cons]
    omega

end Refilled

include progress perm in
/-- The next network is inside the current one and has the other flag. -/
theorem advances_splitCurrent (within : Within v4 cur next rest) :
    Advances v4 ⟨cur, queued, ipsDone⟩ ⟨cur.split.1, splitCurrent queue cur next rest, ipsDone⟩ := by
  have ready := progress.ready
  have sized : ∀ x ∈ next :: rest, Sized v4 x := fun x member =>
    ready.sized x (List.mem_cons_of_mem _ (perm.mem_iff.mpr member))
  obtain ⟨more, refilled⟩ := refilled_splitCurrent queue within (sized next List.mem_cons_self)
  have parts := parts_of_sized (Sized.of_family within.family) within.family.networkMask
  have begins := parts.first
  have middle := parts.second
  have size := first_lt_stop (block cur.split.1)
  refine ⟨⟨⟨fun x member => ?_, fun x member => ?_, fun x member same smaller => ?_,
    refilled.single within.family within.large (single_rest progress perm)⟩, fun r member => ?_, progress.ordered⟩,
    fun a held => ?_, ?_⟩
  · rcases List.mem_cons.mp member with rfl | member
    · exact parts.sized.1
    · rcases refilled.mem member with member | rfl
      · exact sized x member
      · exact parts.sized.2
  · change (block cur.split.1).first ≤ (block x).first
    rcases refilled.mem member with member | rfl
    · rw [begins]
      exact ready.later x (perm.mem_iff.mpr member)
    · omega
  · change (block x).first = (block cur.split.1).first at same
    change cur.networkMask + 1 < x.networkMask at smaller
    rcases refilled.mem member with member | rfl
    · have larger : cur.networkMask < x.networkMask := by omega
      have one : x.networkMask = cur.networkMask + 1 :=
        (ready.smaller x (perm.mem_iff.mpr member) (same.trans begins) larger).1
      omega
    · omega
  · change (block r).stop ≤ (block cur.split.1).first
    rw [begins]
    exact progress.before r member
  · rcases held with done | contains | ⟨x, member, contains⟩
    · exact Or.inl done
    · rcases parts.covers a contains with first | inside
      · exact Or.inr (Or.inl first)
      · obtain ⟨y, present, block⟩ := refilled.right
        exact Or.inr (Or.inr ⟨y, present, block ▸ inside⟩)
    · exact Or.inr (Or.inr ⟨x, refilled.kept (perm.mem_iff.mp member), contains⟩)
  · change total (cur.split.1 :: splitCurrent queue cur next rest) < total (cur :: queued)
    rw [total_cons cur, total_perm perm, ← total_cons cur]
    exact refilled.total within.family within.large

end Rounds

/-! ### The loop -/

/-- What a round that does not end the loop makes of the state. -/
inductive Turn (cur next : IpAddress) (rest ipsDone : List IpAddress) : Loop → Prop
  | done (apart : (block cur).stop ≤ (block next).first) :
      Turn cur next rest ipsDone ⟨next, rest, TreeSet.add compareTo cur ipsDone⟩
  | forget (first : (block cur).first = (block next).first) (mask : next.networkMask ≤ cur.networkMask)
      (same : cur.included = next.included) : Turn cur next rest ipsDone ⟨next, rest, ipsDone⟩
  | splitNext (first : (block cur).first = (block next).first) (mask : next.networkMask ≤ cur.networkMask)
      (differs : cur.included ≠ next.included) :
      Turn cur next rest ipsDone ⟨cur, NetworkSpace.splitNext queue cur next rest, ipsDone⟩
  | skip (overlap : (block next).first < (block cur).stop)
      (other : ¬ ((block cur).first = (block next).first ∧ next.networkMask ≤ cur.networkMask))
      (same : cur.included = next.included) : Turn cur next rest ipsDone ⟨cur, rest, ipsDone⟩
  | splitCurrent (overlap : (block next).first < (block cur).stop)
      (other : ¬ ((block cur).first = (block next).first ∧ next.networkMask ≤ cur.networkMask))
      (differs : cur.included ≠ next.included) :
      Turn cur next rest ipsDone ⟨cur.split.1, NetworkSpace.splitCurrent queue cur next rest, ipsDone⟩

theorem turn_of_poll (ipsDone : List IpAddress) (polled : queue.poll queued = some (next, rest)) :
    ∃ loop, NetworkSpace.round queue ⟨cur, queued, ipsDone⟩ = .inl loop ∧ Turn queue cur next rest ipsDone loop := by
  have last := getLastAddress_eq cur
  have first := getFirstAddress_eq cur
  have first' := getFirstAddress_eq next
  simp only [NetworkSpace.round, polled]
  split
  next apart => exact ⟨_, rfl, .done (by omega)⟩
  next overlaps =>
    refine ⟨_, rfl, ?_⟩
    unfold overlap
    split
    next around =>
      have starts : (block cur).first = (block next).first := by omega
      split
      next same => exact .forget starts around.2 same
      next differs => exact .splitNext starts around.2 differs
    next within =>
      have other : ¬ ((block cur).first = (block next).first ∧ next.networkMask ≤ cur.networkMask) := by
        rw [← first, ← first']
        exact within
      split
      next same => exact .skip (by omega) other same
      next differs => exact .splitCurrent (by omega) other differs

private theorem advances_of_turn (progress : Progress v4 ⟨cur, queued, ipsDone⟩)
    (polled : queue.poll queued = some (next, rest))
    {loop : Loop} (turn : Turn queue cur next rest ipsDone loop) : Advances v4 ⟨cur, queued, ipsDone⟩ loop := by
  have perm := queue.poll_perm _ _ _ polled
  have order := next_of_poll queue polled
  cases turn with
  | done apart => exact advances_done progress perm order apart
  | forget first mask same => exact advances_forget progress perm order first mask
  | splitNext first mask differs => exact advances_splitNext queue progress perm order first mask
  | skip overlap other same =>
    exact advances_skip progress perm order (within_of_overlap progress perm overlap other)
  | splitCurrent overlap other differs =>
    exact advances_splitCurrent queue progress perm (within_of_overlap progress perm overlap other)

/-- What is done when the loop ends. -/
structure Ended (held : Nat → Prop) (ipsDone : List IpAddress) : Prop where
  ordered : ipsDone.Pairwise fun x y => (block x).stop ≤ (block y).first
  held : ∀ a, held a → ∃ r ∈ ipsDone, (block r).Contains a

private theorem ended_of_last (progress : Progress v4 ⟨cur, [], ipsDone⟩) :
    Ended (Held ⟨cur, [], ipsDone⟩) (TreeSet.add compareTo cur ipsDone) := by
  rw [append_of_before progress]
  refine ⟨?_, fun a held => ?_⟩
  · refine List.pairwise_append.mpr ⟨progress.ordered, List.pairwise_singleton _ _, fun r member x here => ?_⟩
    rw [List.mem_singleton.mp here]
    exact progress.before r member
  · rcases held with ⟨r, member, contains⟩ | contains | ⟨x, member, -⟩
    · exact ⟨r, List.mem_append_left _ member, contains⟩
    · exact ⟨cur, List.mem_append_right _ (List.mem_singleton.mpr rfl), contains⟩
    · cases member

/-- The loop ends, whatever the networks and the queue. -/
theorem rounds_end (fuel : Nat) (progress : Progress v4 ⟨cur, queued, ipsDone⟩)
    (enough : total (cur :: queued) ≤ fuel) :
    ∃ result, rounds queue fuel ⟨cur, queued, ipsDone⟩ = some result ∧
      Ended (Held ⟨cur, queued, ipsDone⟩) result := by
  induction fuel generalizing cur queued ipsDone with
  | zero =>
    have positive := load_pos cur
    rw [total_cons] at enough
    omega
  | succ fuel ih =>
    cases polled : queue.poll queued with
    | none =>
      have empty := queue.poll_none queued polled
      subst empty
      refine ⟨_, ?_, ended_of_last progress⟩
      simp only [rounds, NetworkSpace.round, polled]
    | some both =>
      obtain ⟨next, rest⟩ := both
      obtain ⟨loop, made, turn⟩ := turn_of_poll queue ipsDone polled
      obtain ⟨progress', held, shrinks⟩ := advances_of_turn queue progress polled turn
      obtain ⟨result, ends, ended⟩ := ih progress' (Nat.le_of_lt_succ (Nat.lt_of_lt_of_le shrinks enough))
      refine ⟨result, ?_, ended.ordered, fun a before => ended.held a (held a before)⟩
      rw [rounds, made]
      exact ends

/-- `generateIPList` returns a list for any networks of one family. -/
theorem generateIPList_ends {nets : List IpAddress} (families : ∀ x ∈ nets, Family v4 x) :
    ∃ ips, generateIPList queue ⟨nets⟩ = some ips ∧ Ended (fun a => ∃ n ∈ nets, (block n).Contains a) ips := by
  unfold generateIPList
  simp only
  cases polled : queue.poll nets with
  | none =>
    have empty := queue.poll_none nets polled
    subst empty
    exact ⟨[], rfl, List.Pairwise.nil, by simp⟩
  | some both =>
    obtain ⟨cur, rest⟩ := both
    have perm := queue.poll_perm _ _ _ polled
    have order := next_of_poll queue polled
    have families' : ∀ x ∈ cur :: rest, Family v4 x := fun x member => families x (perm.mem_iff.mpr member)
    have ready : Ready v4 cur rest :=
      { sized := fun x member => Sized.of_family (families' x member)
        later := order.first
        smaller := fun x member same mask => absurd (order.mask x member same) (Nat.not_le.mpr mask)
        single := by
          refine List.Pairwise.imp_of_mem ?_ (List.pairwise_of_forall (R := fun _ _ => True) fun _ _ => trivial)
          intro x y member _ _ beyond
          exact absurd (families' x member).networkMask (Nat.not_le.mpr beyond) }
    have enough : total (cur :: rest) ≤ (nets.map fun ip => 3 * 2 ^ ip.numBits).sum := by
      rw [← total_perm perm]
      refine List.sum_le_sum fun ip member => ?_
      rw [load_of_family (families ip member)]
      exact Nat.sub_le _ _
    obtain ⟨ips, ends, ordered, held⟩ := rounds_end queue _ ⟨ready, by simp, List.Pairwise.nil⟩ enough
    refine ⟨ips, ends, ordered, ?_⟩
    rintro a ⟨n, member, contains⟩
    apply held
    rcases List.mem_cons.mp (perm.mem_iff.mp member) with rfl | left
    · exact Or.inr (Or.inl contains)
    · exact Or.inr (Or.inr ⟨n, left, contains⟩)

end RRoadVpn.Proofs.NetworkPartition
