import RRoadVpn.Proofs.NetworkInvariant

/-! What each branch of the loop keeps: one lemma for each of its five rounds. -/

namespace RRoadVpn.Proofs.NetworkSteps
open Library Block IpAddress NetworkSpace NetworkBlocks NetworkInvariant

variable {v4 : Bool} {nets queued rest : List IpAddress} {cur next : IpAddress}

/-! ### The current network is done -/

section Done

variable (inv : Invariant v4 nets cur queued) (polled : Polled queued next rest)
  (apart : (block cur).stop ≤ (block next).first)

include inv polled apart

private theorem routes_done {a : Nat} (from_next : (block next).first ≤ a) : Routes nets (next :: rest) a := by
  have size := first_lt_stop (block cur)
  have outside : ¬ (block cur).Contains a := fun contains => absurd contains.2 (by omega)
  apply (inv.routes a (by omega)).transfer
  · intro x least
    obtain ⟨member, contains, least⟩ := isMostSpecific_point.mp least
    refine ⟨x, isMostSpecific_point.mpr ⟨List.mem_cons_of_mem cur (polled.left member), contains, ?_⟩, rfl⟩
    intro m member inside
    rcases List.mem_cons.mp member with rfl | member
    · exact absurd inside outside
    · exact least m (polled.cons member) inside
  · intro x member contains
    rcases List.mem_cons.mp member with rfl | member
    · exact absurd contains outside
    · exact ⟨x, polled.cons member, contains⟩

private theorem fate_done {d : Block} (added : Added nets d) (after : (block next).first < d.first) :
    Fate nets next rest d := by
  have size := first_lt_stop (block cur)
  have start := first_lt_stop (block next)
  cases inv.fates d added (by omega) with
  | queued x member same =>
    rcases (polled.mem x).mp member with rfl | member
    · exact absurd after (by rw [same]; omega)
    · exact .queued x member same
  | current inside =>
    have := first_lt_stop d
    exact absurd inside.2 (by omega)
  | forgotten x member inside owned stop order =>
    rcases order next polled.next_mem with same | before | before
    · refine .current (same ▸ inside) ?_ ?_
      · rw [owned, ← inv.owns x member, ← inv.owns next polled.next_mem, same]
      · intro z left
        rcases order z (polled.rest_mem left) with here | gone | there
        · exact Or.inl (here.trans same.symm)
        · have := (polled.precedes z left).first_le
          have := first_lt_stop (block z)
          rw [← same] at gone
          omega
        · exact Or.inr (Or.inl there)
    · rcases (polled.mem x).mp member with rfl | member
      · omega
      · exact .forgotten x member inside owned before fun z left => order z (polled.rest_mem left)
    · omega

private theorem sameFirst_done {d : Block} (added : Added nets d) (first : d.first = (block next).first) :
    d ≤ block next ∨ ∃ x ∈ rest, block x = d := by
  have size := first_lt_stop (block cur)
  have start := first_lt_stop (block next)
  cases inv.fates d added (by omega) with
  | queued x member here =>
    rcases (polled.mem x).mp member with rfl | member
    · exact Or.inl (le_of_eq here.symm)
    · exact Or.inr ⟨x, member, here⟩
  | current inside =>
    have := first_lt_stop d
    exact absurd inside.2 (by omega)
  | forgotten x member inside owned stop order =>
    have := inside.1
    rcases order next polled.next_mem with same | before | before
    · exact Or.inl (same ▸ inside)
    · omega
    · omega

theorem keeps_done : Invariant v4 nets next rest := by
  have size := first_lt_stop (block cur)
  have later : (block cur).first < (block next).first := by omega
  refine
    { family := inv.families next polled.next_mem
      families := fun x member => inv.families x (polled.rest_mem member)
      ordered := polled.precedes
      routes := fun a from_next => routes_done inv polled apart from_next
      owns := fun x member => inv.owns x (polled.rest_mem member)
      origin := ⟨block next, inv.pieces next polled.next_mem (Or.inl later), inv.owns next polled.next_mem,
        le_refl _, rfl⟩
      first := route_next inv polled later (Or.inl apart)
      agree := ?_
      fates := fun d added after => fate_done inv polled apart added after
      sameFirst := fun z left starts d added first owned => sameFirst_done inv polled apart added first
      pieces := ?_ }
  · intro x member same
    have := inv.owns x (polled.rest_mem member)
    rw [same, inv.owns next polled.next_mem] at this
    exact (Option.some.inj this).symm
  · intro x member _
    have := (polled.precedes x member).first_le
    exact inv.pieces x (polled.rest_mem member) (Or.inl (by omega))

end Done

/-! ### The current network is forgotten for a larger one of the same flag -/

section Forget

variable (inv : Invariant v4 nets cur queued) (polled : Polled queued next rest)
  (first : (block cur).first = (block next).first) (inside : block cur ≤ block next)
  (same : cur.included = next.included)

include inv polled first inside same

private theorem routes_forget {a : Nat} (from_next : (block next).first ≤ a) : Routes nets (next :: rest) a := by
  apply (inv.routes a (by omega)).transfer
  · intro x least
    obtain ⟨member, contains, least⟩ := isMostSpecific_point.mp least
    have queuedLeast (m : IpAddress) (member : m ∈ queued) (inside : (block m).Contains a) :
        (block x).bits ≤ (block m).bits := least m (polled.cons member) inside
    by_cases around : (block cur).Contains a ∧ (block cur).bits ≤ (block x).bits
    · -- What is around the current network starts with it, so the smallest is the next one.
      have larger := le_of_contains around.2 around.1 contains
      have start := (inv.ordered x (polled.left member)).first_le
      refine ⟨cur, isMostSpecific_point.mpr ⟨List.mem_cons_self, around.1, ?_⟩, ?_⟩
      · intro m member inside
        rcases List.mem_cons.mp member with rfl | member
        · exact Nat.le_refl _
        · exact Nat.le_trans around.2 (queuedLeast m member inside)
      · have bits := least next List.mem_cons_self ⟨from_next, Nat.lt_of_lt_of_le around.1.2 inside.2⟩
        have alike : block x = block next := by
          have := larger.1
          apply ext_of_first _ (by omega)
          rcases polled.order (polled.left member) with rfl | order
          · rfl
          · rcases order with before | ⟨_, small⟩ <;> omega
        have flag := inv.owns x (polled.left member)
        rw [alike, inv.owns next polled.next_mem] at flag
        rw [same]
        exact Option.some.inj flag
    · refine ⟨x, isMostSpecific_point.mpr ⟨List.mem_cons_of_mem cur (polled.left member), contains, ?_⟩, rfl⟩
      intro m member holds
      rcases List.mem_cons.mp member with rfl | member
      · exact Nat.le_of_not_le fun small => around ⟨holds, small⟩
      · exact queuedLeast m member holds
  · intro x member contains
    rcases List.mem_cons.mp member with rfl | member
    · exact ⟨next, List.mem_cons_self, from_next, Nat.lt_of_lt_of_le contains.2 inside.2⟩
    · exact ⟨x, polled.cons member, contains⟩

private theorem fate_forget {d : Block} (added : Added nets d) (after : (block next).first < d.first) :
    Fate nets next rest d := by
  have size := first_lt_stop (block cur)
  have start := first_lt_stop (block next)
  cases inv.fates d added (by omega) with
  | queued x member here =>
    rcases (polled.mem x).mp member with rfl | member
    · exact absurd after (by rw [here]; omega)
    · exact .queued x member here
  | current within own later =>
    rcases later next polled.next_mem with alike | before | before
    · refine .current (alike ▸ within) (same ▸ own) ?_
      intro z left
      rw [alike, ← same]
      exact later z (polled.rest_mem left)
    · omega
    · omega
  | forgotten x member within owned stop order =>
    rcases (polled.mem x).mp member with rfl | left
    · omega
    · rcases order next polled.next_mem with alike | before | before
      · rw [← alike] at stop
        omega
      · exact .forgotten x left within owned before fun z left => order z (polled.rest_mem left)
      · omega

theorem keeps_forget : Invariant v4 nets next rest := by
  have owned := inv.owns next polled.next_mem
  refine
    { family := inv.families next polled.next_mem
      families := fun x member => inv.families x (polled.rest_mem member)
      ordered := polled.precedes
      routes := fun a from_next => routes_forget inv polled first inside same from_next
      owns := fun x member => inv.owns x (polled.rest_mem member)
      origin := ⟨block next, inv.pieces next polled.next_mem (Or.inr same.symm), owned, le_refl _, rfl⟩
      first := by rw [← first, ← same]; exact inv.first
      agree := ?_
      fates := fun d added after => fate_forget inv polled first inside same added after
      sameFirst := ?_
      pieces := ?_ }
  · intro x member alike
    have := inv.owns x (polled.rest_mem member)
    rw [alike, owned] at this
    exact (Option.some.inj this).symm
  · intro z left begins d added starts owned
    rw [← first] at begins
    rcases inv.sameFirst z (polled.rest_mem left) begins d added (by omega) (same ▸ owned) with within |
      ⟨x, member, here⟩
    · exact Or.inl (le_trans within inside)
    · rcases (polled.mem x).mp member with rfl | member
      · exact Or.inl (le_of_eq here.symm)
      · exact Or.inr ⟨x, member, here⟩
  · intro x member either
    rw [← first, ← same] at either
    exact inv.pieces x (polled.rest_mem member) either

end Forget

/-! ### A smaller network of the same flag is forgotten -/

/-- What starts with a network that is forgotten has its flag. -/
theorem flag_of_start (undisturbed : Undisturbed nets) (inv : Invariant v4 nets cur queued)
    (polled : Polled queued next rest) (inside : block next < block cur)
    (later : (block cur).first < (block next).first) (same : cur.included = next.included) {z : IpAddress}
    (member : z ∈ rest) (start : (block z).first = (block next).first) : z.included = cur.included := by
  obtain ⟨t, piece, owned, around, begins⟩ := inv.origin
  have size := first_lt_stop (block next)
  have stop := inside.le.2
  have within : block z < block cur := lt_of_later (by omega) (by omega)
  apply Classical.byContradiction
  intro differs
  have crossing : Crossing nets t (block z) cur.included :=
    { piece := piece
      own := owned
      first := by rw [begins]; exact inv.first
      inside := le_trans within.le around
      later := by omega
      other := by
        rw [inv.owns z (polled.rest_mem member)]
        exact fun flag => differs (Option.some.inj flag) }
  obtain ⟨a, low, high, met⟩ :=
    undisturbed.met _ _ _ crossing (inv.pieces z (polled.rest_mem member) (Or.inl (by omega)))
  rcases Nat.lt_or_ge a (block next).first with before | from_next
  · apply met
    refine route_current inv ⟨by omega, by omega⟩ ?_
    intro x queued
    exact Nat.lt_of_lt_of_le before (polled.first_le queued)
  · have at_next : a = (block next).first := by omega
    apply met
    rw [at_next, route_next inv polled later (Or.inr inside.le), same]

theorem keeps_skip (undisturbed : Undisturbed nets) (inv : Invariant v4 nets cur queued)
    (polled : Polled queued next rest) (inside : block next < block cur)
    (later : (block cur).first < (block next).first) (same : cur.included = next.included) :
    Invariant v4 nets cur rest := by
  have flag {z : IpAddress} := flag_of_start undisturbed inv polled inside later same (z := z)
  have bits := bits_lt_of_lt inside
  refine
    { family := inv.family
      families := fun x member => inv.families x (polled.rest_mem member)
      ordered := fun x member => inv.ordered x (polled.rest_mem member)
      routes := ?_
      owns := fun x member => inv.owns x (polled.rest_mem member)
      origin := inv.origin
      first := inv.first
      agree := fun x member => inv.agree x (polled.rest_mem member)
      fates := ?_
      sameFirst := ?_
      pieces := fun x member => inv.pieces x (polled.rest_mem member) }
  · intro a from_cur
    apply (inv.routes a from_cur).transfer
    · intro x least
      obtain ⟨member, contains, least⟩ := isMostSpecific_point.mp least
      have kept {m : IpAddress} (left : m ∈ cur :: rest) : m ∈ cur :: queued := by
        rcases List.mem_cons.mp left with here | left
        · exact List.mem_cons.mpr (Or.inl here)
        · exact List.mem_cons_of_mem cur (polled.rest_mem left)
      have others {m : IpAddress} (queued : m ∈ cur :: queued) : m = next ∨ m ∈ cur :: rest := by
        rcases List.mem_cons.mp queued with here | queued
        · exact Or.inr (List.mem_cons.mpr (Or.inl here))
        · exact ((polled.mem m).mp queued).imp id (List.mem_cons_of_mem cur)
      by_cases smaller : (block next).Contains a ∧ (block next).bits < (block x).bits
      · -- The forgotten network was the smallest, and what is now has its flag.
        refine ⟨next, isMostSpecific_point.mpr ⟨List.mem_cons_of_mem cur polled.next_mem, smaller.1, ?_⟩, ?_⟩
        · intro m member holds
          rcases others member with rfl | member
          · exact Nat.le_refl _
          · exact Nat.le_trans (Nat.le_of_lt smaller.2) (least m member holds)
        · have larger := le_of_contains (Nat.le_of_lt smaller.2) smaller.1 contains
          rcases List.mem_cons.mp member with rfl | member
          · exact same.symm
          · have start := Nat.le_antisymm larger.1 (polled.precedes x member).first_le
            rw [flag member start, same]
      · refine ⟨x, isMostSpecific_point.mpr ⟨kept member, contains, ?_⟩, rfl⟩
        intro m member holds
        rcases others member with rfl | member
        · exact Nat.le_of_not_lt fun small => smaller ⟨holds, small⟩
        · exact least m member holds
    · intro x member contains
      rcases List.mem_cons.mp member with rfl | member
      · exact ⟨x, List.mem_cons_self, contains⟩
      · rcases (polled.mem x).mp member with rfl | member
        · exact ⟨cur, List.mem_cons_self, from_cur, Nat.lt_of_lt_of_le contains.2 inside.le.2⟩
        · exact ⟨x, List.mem_cons_of_mem cur member, contains⟩
  · intro d added after
    cases inv.fates d added after with
    | queued x member here =>
      rcases (polled.mem x).mp member with rfl | member
      · refine .current (here ▸ inside.le) ?_ ?_
        · rw [← here, inv.owns x polled.next_mem, same]
        · intro z left
          rw [← here]
          rcases Nat.lt_or_eq_of_le (polled.precedes z left).first_le with before | start
          · exact Or.inr (Or.inl before)
          · exact Or.inr (Or.inr ⟨start, flag left start.symm⟩)
      · exact .queued x member here
    | current within own order => exact .current within own fun z left => order z (polled.rest_mem left)
    | forgotten x member within owned stop order =>
      rcases (polled.mem x).mp member with rfl | left
      · have := inside.le.2
        have := first_lt_stop (block x)
        omega
      · exact .forgotten x left within owned stop fun z left => order z (polled.rest_mem left)
  · intro z left begins
    have := (polled.precedes z left).first_le
    omega

/-! ### The current network is split around a smaller one of another flag -/

theorem own_right (undisturbed : Undisturbed nets) (inv : Invariant v4 nets cur queued)
    (polled : Polled queued next rest) (inside : block next < block cur)
    (later : (block cur).first < (block next).first) (differs : cur.included ≠ next.included)
    (other : block next ≠ (block cur).right) : own nets (block cur).right = some cur.included := by
  obtain ⟨t, piece, owned, around, begins⟩ := inv.origin
  have bits := bits_lt_of_lt inside
  have large : 0 < (block cur).bits := by omega
  have first := left_first large
  have second : (block cur).right.first = (block cur).left.stop := right_first
  have size := first_lt_stop (block cur).left
  have size' := first_lt_stop (block cur).right
  have whole := (right_le large).2
  apply Classical.byContradiction
  intro foreign
  have crossing : Crossing nets t (block cur).right cur.included :=
    { piece := piece
      own := owned
      first := by rw [begins]; exact inv.first
      inside := le_trans (right_le large) around
      later := by omega
      other := foreign }
  obtain ⟨leftFlag, alone⟩ := undisturbed.halved t (block cur) _ crossing large begins.symm
  obtain ⟨a, low, high, met⟩ := undisturbed.met _ _ _ crossing (Or.inr (right_isRight _))
  have at_second : a = (block cur).right.first := by
    rcases Nat.lt_or_ge a (block cur).right.first with before | after
    · exact absurd (leftFlag a ⟨by omega, by omega⟩) met
    · omega
  rcases le_half inside with within | within
  · have start := first_lt_stop (block next)
    have flag := leftFlag (block next).first ⟨within.1, Nat.lt_of_lt_of_le start within.2⟩
    rw [route_next inv polled later (Or.inr inside.le)] at flag
    exact differs (Option.some.inj flag).symm
  · rcases Nat.lt_or_eq_of_le within.1 with before | same
    · apply met
      refine route_current inv ⟨by omega, by omega⟩ ?_
      intro x member
      have := polled.first_le member
      omega
    · rcases inv.pieces next polled.next_mem (Or.inl later) with added | odd
      · exact other (alone _ added within same.symm)
      · exact not_isRight (lt_of_le_of_ne within other) same.symm odd

/-- What the split leaves: the halves, one current and one queued, and what was queued. -/
structure SplitCurrent (v4 : Bool) (nets : List IpAddress) (cur : IpAddress) (queued queued' : List IpAddress) :
    Prop where
  large : 0 < (block cur).bits
  halves : Halves v4 cur
  kept : ∀ x ∈ queued, x ∈ queued'
  new : ∀ x ∈ queued', x ∈ queued ∨ (x = cur.split.2 ∧ own nets (block cur).right = some cur.included)
  second : ∃ x ∈ queued', block x = (block cur).right
  later : ∀ x ∈ queued, (block cur).first < (block x).first

variable {queued' : List IpAddress}

private theorem SplitCurrent.begins (split : SplitCurrent v4 nets cur queued queued') {x : IpAddress}
    (member : x ∈ queued') :
    (block cur).first < (block x).first := by
  rcases split.new x member with member | ⟨rfl, _⟩
  · exact split.later x member
  · have := left_first split.large
    have := first_lt_stop (block cur).left
    rw [split.halves.right, right_first]
    omega

theorem SplitCurrent.around (split : SplitCurrent v4 nets cur queued queued') {a : Nat}
    (contains : (block cur).Contains a) :
    ∃ x ∈ cur.split.1 :: queued', (block x).Contains a ∧ (block x).bits < (block cur).bits := by
  have large := split.large
  rcases Nat.lt_or_ge a (block cur).left.stop with low | high
  · refine ⟨_, List.mem_cons_self, ?_⟩
    rw [split.halves.left]
    refine ⟨⟨?_, low⟩, Nat.sub_lt large Nat.one_pos⟩
    rw [left_first large]
    exact contains.1
  · obtain ⟨x, member, same⟩ := split.second
    refine ⟨x, List.mem_cons_of_mem _ member, ?_⟩
    rw [same]
    refine ⟨⟨high, ?_⟩, Nat.sub_lt large Nat.one_pos⟩
    rw [right_stop large]
    exact contains.2

theorem SplitCurrent.half (split : SplitCurrent v4 nets cur queued queued') (inv : Invariant v4 nets cur queued)
    {a : Nat} {x : IpAddress} (contains : (block x).Contains a) (inside : block x ≤ block cur)
    (bits : (block x).bits + 1 = (block cur).bits)
    (least : ∀ m ∈ cur.split.1 :: queued', (block m).Contains a → (block x).bits ≤ (block m).bits)
    (known : ∀ y ∈ queued, block y = block x → y.included = cur.included) :
    ∃ y, IsMostSpecific block (cur :: queued) (point a) y ∧ y.included = cur.included := by
  have around : (block cur).Contains a := ⟨Nat.le_trans inside.1 contains.1, Nat.lt_of_lt_of_le contains.2 inside.2⟩
  obtain ⟨y, small⟩ := exists_mostSpecific (List.mem_cons_self (l := queued)) (point_le_iff.mpr around)
  refine ⟨y, small, ?_⟩
  obtain ⟨member, holds, smallest⟩ := isMostSpecific_point.mp small
  rcases List.mem_cons.mp member with rfl | member
  · rfl
  · have low := least y (List.mem_cons_of_mem _ (split.kept y member)) holds
    have high := smallest cur List.mem_cons_self around
    rcases Nat.lt_or_eq_of_le high with less | equal
    · have same : block x = block y := eq_of_le (le_of_contains low contains holds) (by omega)
      exact known y member same.symm
    · have same : block y = block cur := eq_of_le (le_of_contains high holds around) (by omega)
      have := split.later y member
      rw [same] at this
      omega

private theorem SplitCurrent.routes (split : SplitCurrent v4 nets cur queued queued')
    (inv : Invariant v4 nets cur queued)
    {a : Nat} (from_cur : (block cur).first ≤ a) : Routes nets (cur.split.1 :: queued') a := by
  have large := split.large
  apply (inv.routes a from_cur).transfer
  · intro x least
    obtain ⟨member, contains, least⟩ := isMostSpecific_point.mp least
    rcases List.mem_cons.mp member with rfl | member
    · rw [split.halves.included]
      refine split.half inv contains ?_ ?_ least ?_
      · rw [split.halves.left]
        exact left_le large
      · rw [split.halves.left]
        exact Nat.sub_add_cancel large
      · intro y member same
        have := split.later y member
        rw [same, split.halves.left, left_first large] at this
        omega
    · rcases split.new x member with old | ⟨rfl, owned⟩
      · refine ⟨x, isMostSpecific_point.mpr ⟨List.mem_cons_of_mem cur old, contains, ?_⟩, rfl⟩
        intro m known holds
        rcases List.mem_cons.mp known with rfl | known
        · obtain ⟨y, half, around, bits⟩ := split.around holds
          exact Nat.le_trans (least y half around) (Nat.le_of_lt bits)
        · exact least m (List.mem_cons_of_mem _ (split.kept m known)) holds
      · rw [split.halves.included']
        refine split.half inv contains ?_ ?_ least ?_
        · rw [split.halves.right]
          exact right_le large
        · rw [split.halves.right]
          exact Nat.sub_add_cancel large
        · intro y member same
          have flag := inv.owns y member
          rw [same, split.halves.right, owned] at flag
          exact (Option.some.inj flag).symm
  · intro x member contains
    rcases List.mem_cons.mp member with rfl | member
    · obtain ⟨y, half, around, _⟩ := split.around contains
      exact ⟨y, half, around⟩
    · exact ⟨x, List.mem_cons_of_mem _ (split.kept x member), contains⟩

private theorem SplitCurrent.fate (split : SplitCurrent v4 nets cur queued queued') (polled : Polled queued next rest)
    (differs : cur.included ≠ next.included) {d : Block} (after : (block cur).first < d.first)
    (fate : Fate nets cur queued d) (put : block next ≠ (block cur).right → cur.split.2 ∈ queued') :
    Fate nets cur.split.1 queued' d := by
  have large := split.large
  have size := first_lt_stop d
  have second : (block cur).right.first = (block cur).left.stop := right_first
  have halfStop := right_stop large
  have leftSize := (left_le large).2
  obtain ⟨-, -, left, right, included, included'⟩ := split.halves
  cases fate with
  | queued x member here => exact .queued x (split.kept x member) here
  | current within own order =>
    -- The next network has the other flag, so the forgotten one begins before it.
    have before : d.first < (block next).first := by
      rcases order next polled.next_mem with same | before | ⟨_, flag⟩
      · have := split.later next polled.next_mem
        rw [same] at this
        omega
      · exact before
      · exact absurd flag.symm differs
    have smaller : d < block cur := lt_of_later after (Nat.lt_of_lt_of_le size within.2)
    rcases le_half smaller with low | high
    · refine .current (left ▸ low) (included ▸ own) ?_
      intro z member
      rcases split.new z member with member | ⟨rfl, _⟩
      · rw [included]
        rcases order z member with same | later
        · have := split.later z member
          rw [same] at this
          omega
        · exact Or.inr later
      · have := low.2
        rw [right]
        exact Or.inr (Or.inl (by omega))
    · have other : block next ≠ (block cur).right := by
        intro same
        have := high.1
        rw [same] at before
        omega
      refine .forgotten cur.split.2 (put other) (right ▸ high) (included' ▸ own) ?_ ?_
      · rw [left, right]
        exact Nat.le_of_eq second.symm
      · intro z member
        rcases split.new z member with member | ⟨rfl, _⟩
        · exact Or.inr (Or.inr (Nat.lt_of_lt_of_le before (polled.first_le member)))
        · exact Or.inl rfl
  | forgotten x member within own stop order =>
    refine .forgotten x (split.kept x member) within own ?_ ?_
    · rw [left]
      omega
    · intro z member
      rcases split.new z member with member | ⟨rfl, _⟩
      · exact order z member
      · rw [right]
        exact Or.inr (Or.inl (by omega))

def PutBack (cur next : IpAddress) (rest queued' : List IpAddress) : Prop :=
  ∀ x, x ∈ queued' ↔ x ∈ rest ∨ x = next ∨ (x = cur.split.2 ∧ block next ≠ (block cur).right)

theorem keeps_splitCurrent (undisturbed : Undisturbed nets) (inv : Invariant v4 nets cur queued)
    (polled : Polled queued next rest) (inside : block next < block cur)
    (later : (block cur).first < (block next).first) (differs : cur.included ≠ next.included)
    (put : PutBack cur next rest queued') : Invariant v4 nets cur.split.1 queued' := by
  have bits := bits_lt_of_lt inside
  have large : 0 < (block cur).bits := by omega
  have halves := split_halves inv.family large
  have first := left_first large
  have split : SplitCurrent v4 nets cur queued queued' := by
    refine ⟨large, halves, ?_, ?_, ?_, ?_⟩
    · intro x member
      exact (put x).mpr (((polled.mem x).mp member).elim (fun here => Or.inr (Or.inl here)) Or.inl)
    · intro x member
      rcases (put x).mp member with member | rfl | ⟨rfl, other⟩
      · exact Or.inl (polled.rest_mem member)
      · exact Or.inl polled.next_mem
      · exact Or.inr ⟨rfl, own_right undisturbed inv polled inside later differs other⟩
    · by_cases other : block next = (block cur).right
      · exact ⟨next, (put next).mpr (Or.inr (Or.inl rfl)), other⟩
      · exact ⟨cur.split.2, (put _).mpr (Or.inr (Or.inr ⟨rfl, other⟩)), halves.right⟩
    · intro x member
      exact Nat.lt_of_lt_of_le later (polled.first_le member)
  obtain ⟨family, family', left, right, included, included'⟩ := halves
  refine
    { family := family
      families := ?_
      ordered := ?_
      routes := ?_
      owns := ?_
      origin := ?_
      first := ?_
      agree := ?_
      fates := ?_
      sameFirst := ?_
      pieces := ?_ }
  · intro x member
    rcases split.new x member with member | ⟨rfl, _⟩
    · exact inv.families x member
    · exact family'
  · intro x member
    rw [left]
    exact Or.inl (first ▸ split.begins member)
  · intro a from_cur
    rw [left, first] at from_cur
    exact split.routes inv from_cur
  · intro x member
    rcases split.new x member with member | ⟨rfl, owned⟩
    · exact inv.owns x member
    · rw [right, owned, included']
  · obtain ⟨t, piece, flag, around, starts⟩ := inv.origin
    refine ⟨t, piece, included ▸ flag, ?_, ?_⟩
    · rw [left]
      exact le_trans (left_le large) around
    · rw [left, first, starts]
  · rw [left, first, included]
    exact inv.first
  · intro x member same
    have := split.begins member
    rw [same, left] at this
    omega
  · intro d added after
    rw [left, first] at after
    refine split.fate polled differs after (inv.fates d added after) ?_
    intro other
    exact (put _).mpr (Or.inr (Or.inr ⟨rfl, other⟩))
  · intro z member starts
    have := split.begins member
    rw [left] at starts
    omega
  · intro x member either
    rcases split.new x member with queued | ⟨rfl, _⟩
    · exact inv.pieces x queued (Or.inl (split.begins member))
    · rw [right]
      exact Or.inr (right_isRight _)

/-! ### The next network is split around the current one -/

/-- What the split leaves: the halves that were not there, and what was queued after the next network. -/
structure SplitNext (v4 : Bool) (cur next : IpAddress) (rest queued' : List IpAddress) : Prop where
  large : 0 < (block next).bits
  halves : Halves v4 next
  kept : ∀ x ∈ rest, x ∈ queued'
  new : ∀ x ∈ queued', x ∈ rest ∨
    (x = next.split.2 ∧ ∀ z ∈ rest, block z ≠ (block next).right) ∨
    (x = next.split.1 ∧ (block next).left ≠ block cur ∧ ∀ z ∈ rest, block z ≠ (block next).left)
  first : (block next).left = block cur ∨ ∃ x ∈ queued', block x = (block next).left
  second : ∃ x ∈ queued', block x = (block next).right

theorem own_of_added {d : Block} (added : Added nets d) : ∃ f, own nets d = some f := by
  obtain ⟨n, member, rfl⟩ := added
  cases found : own nets (block n) with
  | none => exact absurd (le_refl _) (lookup_eq_none.mp found n member)
  | some f => exact ⟨f, rfl⟩

theorem own_half {d e : Block} (inside : d ≤ e) (bits : d.bits + 1 = e.bits) (absent : ¬ Added nets d) :
    own nets d = own nets e := by
  apply lookup_between inside
  intro n member within
  have proper : d < block n := lt_of_le_of_ne within fun same => absent ⟨n, member, same.symm⟩
  have larger := bits_lt_of_lt proper
  have start : d.Contains d.first := ⟨Nat.le_refl _, first_lt_stop d⟩
  have grow {x : Block} (around : d ≤ x) : x.Contains d.first :=
    ⟨around.1, Nat.lt_of_lt_of_le start.2 around.2⟩
  exact le_of_contains (by omega) (grow inside) (grow within)

theorem current_in_half (inside : block cur < block next) (first : (block cur).first = (block next).first) :
    block cur ≤ (block next).left := by
  have bits := bits_lt_of_lt inside
  have large : 0 < (block next).bits := by omega
  have half : (block next).left.bits + 1 = (block next).bits := Nat.sub_add_cancel large
  exact le_of_first (by omega) (by rw [left_first large, first])

theorem own_first_half (inv : Invariant v4 nets cur queued) (polled : Polled queued next rest)
    (inside : block cur < block next) (first : (block cur).first = (block next).first)
    (differs : cur.included ≠ next.included) (other : (block next).left ≠ block cur)
    (absent : ∀ z ∈ rest, block z ≠ (block next).left) : own nets (block next).left = some next.included := by
  have bits := bits_lt_of_lt inside
  have large : 0 < (block next).bits := by omega
  have half : (block next).left.bits + 1 = (block next).bits := Nat.sub_add_cancel large
  by_cases added : Added nets (block next).left
  · obtain ⟨f, owned⟩ := own_of_added added
    rcases Bool.eq_or_eq_not f cur.included with rfl | rfl
    · have begins : (block next).left.first = (block cur).first := by rw [left_first large, first]
      rcases inv.sameFirst next polled.next_mem first.symm _ added begins owned with within | ⟨x, member, same⟩
      · exact absurd (le_antisymm within (current_in_half inside first)) other
      · rcases (polled.mem x).mp member with rfl | member
        · rw [← same] at half
          omega
        · exact absurd same (absent x member)
    · rw [owned]
      cases known : cur.included <;> cases known' : next.included <;> simp_all
  · rw [own_half (left_le large) half added, inv.owns next polled.next_mem]

private theorem own_second_half (inv : Invariant v4 nets cur queued) (polled : Polled queued next rest)
    (inside : block cur < block next) (first : (block cur).first = (block next).first)
    (differs : cur.included ≠ next.included) (absent : ∀ z ∈ rest, block z ≠ (block next).right) :
    own nets (block next).right = some next.included := by
  have bits := bits_lt_of_lt inside
  have large : 0 < (block next).bits := by omega
  have half : (block next).right.bits + 1 = (block next).bits := Nat.sub_add_cancel large
  have size := first_lt_stop (block next).left
  have start := left_first large
  have second : (block next).right.first = (block next).left.stop := right_first
  have size' := first_lt_stop (block next).right
  have whole := right_stop large
  have within := (current_in_half inside first).2
  by_cases added : Added nets (block next).right
  · obtain ⟨f, owned⟩ := own_of_added added
    rcases Bool.eq_or_eq_not f cur.included with rfl | rfl
    · cases inv.fates _ added (by omega) with
      | queued x member same =>
        rcases (polled.mem x).mp member with rfl | member
        · rw [← same] at half
          omega
        · exact absurd same (absent x member)
      | current inside =>
        have := inside.2
        omega
      | forgotten x member around own stop order =>
        have low := around.1
        rcases order next polled.next_mem with same | before | before
        · have flag := inv.owns next polled.next_mem
          rw [same, inv.owns x member, ← own, owned] at flag
          exact absurd (Option.some.inj flag) differs
        · omega
        · omega
    · rw [owned]
      cases known : cur.included <;> cases known' : next.included <;> simp_all
  · rw [own_half (right_le large) half added, inv.owns next polled.next_mem]

theorem SplitNext.around (split : SplitNext v4 cur next rest queued') {a : Nat} (contains : (block next).Contains a) :
    ∃ x ∈ cur :: queued', (block x).Contains a ∧ (block x).bits < (block next).bits := by
  have large := split.large
  have half : (block next).bits - 1 < (block next).bits := Nat.sub_lt large Nat.one_pos
  rcases Nat.lt_or_ge a (block next).left.stop with low | high
  · have holds : (block next).left.Contains a := ⟨by rw [left_first large]; exact contains.1, low⟩
    rcases split.first with same | ⟨x, member, same⟩
    · exact ⟨cur, List.mem_cons_self, same ▸ ⟨holds, half⟩⟩
    · exact ⟨x, List.mem_cons_of_mem cur member, by rw [same]; exact ⟨holds, half⟩⟩
  · have holds : (block next).right.Contains a := ⟨high, by rw [right_stop large]; exact contains.2⟩
    obtain ⟨x, member, same⟩ := split.second
    exact ⟨x, List.mem_cons_of_mem cur member, by rw [same]; exact ⟨holds, half⟩⟩

theorem SplitNext.half (split : SplitNext v4 cur next rest queued') (inv : Invariant v4 nets cur queued)
    (polled : Polled queued next rest) {a : Nat} {x : IpAddress} (contains : (block x).Contains a)
    (inside : block x ≤ block next) (bits : (block x).bits + 1 = (block next).bits)
    (least : ∀ m ∈ cur :: queued', (block m).Contains a → (block x).bits ≤ (block m).bits)
    (smaller : block cur < block next) (other : block x ≠ block cur) (absent : ∀ z ∈ rest, block z ≠ block x) :
    ∃ y, IsMostSpecific block (cur :: queued) (point a) y ∧ y.included = next.included := by
  have around : (block next).Contains a := ⟨Nat.le_trans inside.1 contains.1, Nat.lt_of_lt_of_le contains.2 inside.2⟩
  have known : next ∈ cur :: queued := List.mem_cons_of_mem cur polled.next_mem
  obtain ⟨y, small⟩ := exists_mostSpecific known (point_le_iff.mpr around)
  refine ⟨y, small, ?_⟩
  obtain ⟨member, holds, smallest⟩ := isMostSpecific_point.mp small
  have high := smallest next known around
  have apart (low : (block x).bits ≤ (block y).bits) (different : block x ≠ block y) : block y = block next := by
    have larger : ¬ (block y).bits ≤ (block x).bits :=
      fun same => different (eq_of_le (le_of_contains low contains holds) same)
    exact eq_of_le (le_of_contains high holds around) (by omega)
  rcases List.mem_cons.mp member with rfl | member
  · have same := apart (least y List.mem_cons_self holds) other
    exact absurd same smaller.ne
  · rcases (polled.mem y).mp member with rfl | left
    · rfl
    · have low := least y (List.mem_cons_of_mem cur (split.kept y left)) holds
      have same := apart low (absent y left).symm
      have flag := inv.owns y member
      rw [same, inv.owns next polled.next_mem] at flag
      exact (Option.some.inj flag).symm

private theorem SplitNext.routes (split : SplitNext v4 cur next rest queued') (inv : Invariant v4 nets cur queued)
    (polled : Polled queued next rest) (inside : block cur < block next)
    (first : (block cur).first = (block next).first) {a : Nat} (from_cur : (block cur).first ≤ a) :
    Routes nets (cur :: queued') a := by
  have large := split.large
  apply (inv.routes a from_cur).transfer
  · intro x least
    obtain ⟨member, contains, least⟩ := isMostSpecific_point.mp least
    have old (known : x ∈ cur :: queued) :
        ∃ y, IsMostSpecific block (cur :: queued) (point a) y ∧ y.included = x.included := by
      refine ⟨x, isMostSpecific_point.mpr ⟨known, contains, ?_⟩, rfl⟩
      intro m member holds
      rcases List.mem_cons.mp member with rfl | member
      · exact least m List.mem_cons_self holds
      · rcases (polled.mem m).mp member with rfl | left
        · obtain ⟨y, half, around, bits⟩ := split.around holds
          exact Nat.le_trans (least y half around) (Nat.le_of_lt bits)
        · exact least m (List.mem_cons_of_mem cur (split.kept m left)) holds
    rcases List.mem_cons.mp member with rfl | member
    · exact old List.mem_cons_self
    · rcases split.new x member with left | ⟨rfl, absent⟩ | ⟨rfl, other, absent⟩
      · exact old (List.mem_cons_of_mem cur (polled.rest_mem left))
      · rw [split.halves.included']
        have right := split.halves.right
        refine split.half inv polled contains ?_ ?_ least inside ?_ (right ▸ absent) <;> rw [right]
        · exact right_le large
        · exact Nat.sub_add_cancel large
        · intro same
          have start := first_lt_stop (block next).left
          have begins := left_first large
          have second : (block next).right.first = (block next).left.stop := right_first
          rw [same] at second
          omega
      · rw [split.halves.included]
        have left := split.halves.left
        refine split.half inv polled contains ?_ ?_ least inside ?_ (left ▸ absent) <;> rw [left]
        · exact left_le large
        · exact Nat.sub_add_cancel large
        · exact other
  · intro x member contains
    rcases List.mem_cons.mp member with rfl | member
    · exact ⟨x, List.mem_cons_self, contains⟩
    · rcases (polled.mem x).mp member with rfl | left
      · obtain ⟨y, half, around, _⟩ := split.around contains
        exact ⟨y, half, around⟩
      · exact ⟨x, List.mem_cons_of_mem cur (split.kept x left), contains⟩

private theorem SplitNext.fate (split : SplitNext v4 cur next rest queued') (polled : Polled queued next rest)
    (inside : block cur < block next) (first : (block cur).first = (block next).first) {d : Block}
    (after : (block cur).first < d.first) (fate : Fate nets cur queued d) : Fate nets cur queued' d := by
  have size := first_lt_stop (block cur)
  cases fate with
  | queued x member here =>
    rcases (polled.mem x).mp member with rfl | left
    · rw [← here] at after
      omega
    · exact .queued x (split.kept x left) here
  | current within own order =>
    rcases order next polled.next_mem with same | before | ⟨same, _⟩
    · exact absurd same inside.ne'
    · omega
    · omega
  | forgotten x member within own stop order =>
    rcases (polled.mem x).mp member with rfl | left
    · omega
    · have apart : (block next).stop ≤ (block x).first := by
        rcases order next polled.next_mem with same | before | before
        · rw [← same] at stop
          omega
        · exact before
        · omega
      refine .forgotten x (split.kept x left) within own stop ?_
      intro z member
      rcases split.new z member with left | ⟨rfl, _⟩ | ⟨rfl, _⟩
      · exact order z (polled.rest_mem left)
      · rw [split.halves.right]
        exact Or.inr (Or.inl (Nat.le_trans (right_le split.large).2 apart))
      · rw [split.halves.left]
        exact Or.inr (Or.inl (Nat.le_trans (left_le split.large).2 apart))

theorem keeps_splitNext (inv : Invariant v4 nets cur queued) (polled : Polled queued next rest)
    (inside : block cur < block next) (first : (block cur).first = (block next).first)
    (differs : cur.included ≠ next.included) (split : SplitNext v4 cur next rest queued') :
    Invariant v4 nets cur queued' := by
  have large := split.large
  have halves := split.halves
  have left := halves.left
  have right := halves.right
  have within := current_in_half inside first
  have start := first_lt_stop (block next).left
  have begins := left_first large
  have second : (block next).right.first = (block next).left.stop := right_first
  refine
    { family := inv.family
      families := ?_
      ordered := ?_
      routes := fun a from_cur => split.routes inv polled inside first from_cur
      owns := ?_
      origin := inv.origin
      first := inv.first
      agree := ?_
      fates := fun d added after => split.fate polled inside first after (inv.fates d added after)
      sameFirst := ?_
      pieces := ?_ }
  · intro x member
    rcases split.new x member with left | ⟨rfl, _⟩ | ⟨rfl, _⟩
    · exact inv.families x (polled.rest_mem left)
    · exact halves.family'
    · exact halves.family
  · intro x member
    rcases split.new x member with left | ⟨rfl, _⟩ | ⟨rfl, _⟩
    · exact inv.ordered x (polled.rest_mem left)
    · rw [right]
      exact Or.inl (by omega)
    · rw [left]
      exact Or.inr ⟨by omega, bits_le_of_le within⟩
  · intro x member
    rcases split.new x member with old | ⟨rfl, absent⟩ | ⟨rfl, other, absent⟩
    · exact inv.owns x (polled.rest_mem old)
    · rw [right, halves.included']
      exact own_second_half inv polled inside first differs absent
    · rw [left, halves.included]
      exact own_first_half inv polled inside first differs other absent
  · intro x member same
    rcases split.new x member with old | ⟨rfl, _⟩ | ⟨rfl, other, _⟩
    · exact inv.agree x (polled.rest_mem old) same
    · rw [right] at same
      rw [same] at second
      omega
    · rw [left] at same
      exact absurd same other
  · intro z _ _ d added starts owned
    rcases inv.sameFirst next polled.next_mem first.symm d added starts owned with within | ⟨x, member, here⟩
    · exact Or.inl within
    · rcases (polled.mem x).mp member with rfl | old
      · rw [← here, inv.owns x member] at owned
        exact absurd (Option.some.inj owned).symm differs
      · exact Or.inr ⟨x, split.kept x old, here⟩
  · intro x member either
    rcases split.new x member with old | ⟨rfl, _⟩ | ⟨rfl, _⟩
    · exact inv.pieces x (polled.rest_mem old) either
    · rw [right]
      exact Or.inr (right_isRight _)
    · rw [left, halves.included] at either
      rcases either with later | same
      · omega
      · exact absurd same.symm differs

end RRoadVpn.Proofs.NetworkSteps
