import Mathlib.Data.List.Induction
import RRoadVpn.Proofs.NetworkLoop

/-! Longest-prefix routing: the lists that are computed from the added networks
route every address as its longest-prefix network says, when no network disturbs
the loop. In any case they are a partition of the addresses that were put in. -/

namespace RRoadVpn.Proofs.NetworkRouting
open Library Block IpAddress NetworkSpace NetworkBlocks NetworkInvariant NetworkLoop
open NetworkPartition (generateIPList_ends)

def Covers (ip : IpAddress) (a : Nat) : Prop := ip.getFirstAddress ≤ a ∧ a ≤ ip.getLastAddress

instance (ip : IpAddress) (a : Nat) : Decidable (Covers ip a) := inferInstanceAs (Decidable (_ ∧ _))

def addAll (adds : List IpAddress) : NetworkSpace := adds.foldl NetworkSpace.add {}

/-- No included network that starts a larger excluded block lies in a whole of excluded addresses. -/
def Unshadowed (nets : List IpAddress) : Prop :=
  ∀ b t, Added nets b → own nets b = some true → Piece nets t → own nets t = some false → b.parent ≤ t →
    t.first = b.first → ∃ a, b.parent.Contains a ∧ route nets a ≠ some false

variable {v4 : Bool} {adds nets : List IpAddress}

private theorem covers_iff {ip : IpAddress} {a : Nat} : Covers ip a ↔ (block ip).Contains a := by
  have last := getLastAddress_eq ip
  unfold Covers Contains
  rw [getFirstAddress_eq]
  omega

theorem family_ofCIDRIP {ip len : Nat} (included : Bool) (length : len ≤ 32) :
    Family true (.ofCIDRIP ip len included) :=
  ⟨rfl, length⟩

/-! ### The tree set -/

private theorem addAll_concat (adds : List IpAddress) (ip : IpAddress) :
    addAll (adds ++ [ip]) = (addAll adds).add ip := by
  rw [addAll, List.foldl_append]
  rfl

/-- What the tree set keeps of the networks put in. -/
structure Kept (v4 : Bool) (adds set : List IpAddress) : Prop where
  families : ∀ x ∈ set, Family v4 x
  sorted : TreeSet.Sorted compareTo set
  added : ∀ d, Added set d ↔ Added adds d
  own : ∀ d, own set d = own adds d

private theorem Kept.consistent {set : List IpAddress} (kept : Kept v4 adds set) : Consistent block included set := by
  intro x member y member' same
  rw [TreeSet.eq_of_mem kept.sorted member member'
    ((compareTo_eq (kept.families x member) (kept.families y member')).mpr same)]

private theorem kept_add {set : List IpAddress} (kept : Kept v4 adds set) {ip : IpAddress} (family : Family v4 ip) :
    Kept v4 (adds ++ [ip]) (TreeSet.add compareTo ip set) := by
  have concat (d : Block) : Added (adds ++ [ip]) d ↔ Added adds d ∨ block ip = d := by
    unfold Added
    simp only [List.mem_append, List.mem_singleton]
    grind
  by_cases known : Added set (block ip)
  · obtain ⟨y, member, same⟩ := known
    have equal := (compareTo_eq family (kept.families y member)).mpr same.symm
    have there : Added adds (block ip) := (kept.added _).mp ⟨y, member, same⟩
    rw [TreeSet.add_of_mem kept.sorted member equal]
    refine ⟨kept.families, kept.sorted, ?_, ?_⟩
    · intro d
      rw [concat, kept.added]
      exact ⟨Or.inl, fun either => either.elim id fun here => here ▸ there⟩
    · intro d
      have notSmaller : ¬ (d ≤ block ip ∧ ∀ m ∈ adds, d ≤ block m → (block ip).bits < (block m).bits) := by
        rintro ⟨inside, smaller⟩
        obtain ⟨m, member, same⟩ := there
        have := smaller m member (same ▸ inside)
        rw [same] at this
        exact Nat.lt_irrefl _ this
      rw [kept.own, NetworkInvariant.own, NetworkInvariant.own, lookup_concat, if_neg notSmaller]
  · have mem (x : IpAddress) : x ∈ TreeSet.add compareTo ip set ↔ x ∈ set ++ [ip] := by
      rw [List.mem_append, List.mem_singleton]
      constructor
      · intro member
        exact (TreeSet.mem_add member).symm
      · rintro (member | rfl)
        · exact TreeSet.mem_of_mem member
        · rcases TreeSet.mem_self x set with member | ⟨y, member, equal⟩
          · exact member
          · have same := (compareTo_eq family (kept.families y member)).mp equal
            exact absurd ⟨y, member, same.symm⟩ known
    have families : ∀ x ∈ TreeSet.add compareTo ip set, Family v4 x := by
      intro x member
      rcases TreeSet.mem_add member with rfl | member
      · exact family
      · exact kept.families x member
    have sorted := TreeSet.sorted_add (x := ip) kept.sorted
    refine ⟨families, sorted, ?_, ?_⟩
    · intro d
      rw [concat, ← kept.added]
      unfold Added
      simp only [mem, List.mem_append, List.mem_singleton]
      grind
    · intro d
      have consistent : Consistent block included (TreeSet.add compareTo ip set) := by
        intro x member y member' same
        rw [TreeSet.eq_of_mem sorted member member'
          ((compareTo_eq (families x member) (families y member')).mpr same)]
      have smaller : (∀ m ∈ set, d ≤ block m → (block ip).bits < (block m).bits) ↔
          ∀ m ∈ adds, d ≤ block m → (block ip).bits < (block m).bits := by
        constructor
        · intro all m member inside
          obtain ⟨n, member', same⟩ := (kept.added (block m)).mpr ⟨m, member, rfl⟩
          rw [← same] at inside ⊢
          exact all n member' inside
        · intro all m member inside
          obtain ⟨n, member', same⟩ := (kept.added (block m)).mp ⟨m, member, rfl⟩
          rw [← same] at inside ⊢
          exact all n member' inside
      have before := kept.own d
      unfold NetworkInvariant.own at before ⊢
      rw [lookup_of_mem_iff consistent mem, lookup_concat, lookup_concat, before]
      simp only [smaller]

private theorem kept_addAll (families : ∀ ip ∈ adds, Family v4 ip) : Kept v4 adds (addAll adds).mIpAddresses := by
  induction adds using List.reverseRecOn with
  | nil => exact ⟨fun x member => absurd member List.not_mem_nil, List.Pairwise.nil, fun d => Iff.rfl, fun d => rfl⟩
  | append_singleton adds ip ih =>
    rw [addAll_concat]
    exact kept_add (ih fun x member => families x (List.mem_append_left [ip] member))
      (families ip (List.mem_append_right adds (List.mem_singleton.mpr rfl)))

/-! ### The run from the start -/

variable (queue : Queue)

theorem invariant_start {cur : IpAddress} {rest : List IpAddress} (families : ∀ x ∈ nets, Family v4 x)
    (consistent : Consistent block included nets) (polled : Polled nets cur rest) : Invariant v4 nets cur rest := by
  have member (x : IpAddress) : x ∈ nets ↔ x ∈ cur :: rest := (polled.mem x).trans List.mem_cons.symm
  have owned {x : IpAddress} (known : x ∈ nets) : own nets (block x) = some x.included := lookup_self consistent known
  have start : (block cur).Contains (block cur).first := ⟨Nat.le_refl _, first_lt_stop _⟩
  refine
    { family := families cur polled.next_mem
      families := fun x left => families x (polled.rest_mem left)
      ordered := polled.precedes
      routes := ?_
      owns := fun x left => owned (polled.rest_mem left)
      origin := ⟨block cur, Or.inl ⟨cur, polled.next_mem, rfl⟩, owned polled.next_mem, le_refl _, rfl⟩
      first := ?_
      agree := fun x left same => consistent x (polled.rest_mem left) cur polled.next_mem same
      fates := ?_
      sameFirst := ?_
      pieces := fun x left _ => Or.inl ⟨x, polled.rest_mem left, rfl⟩ }
  · intro a _
    refine ⟨?_, ?_⟩
    · intro x least
      refine IsMostSpecific.lookup ⟨(member x).mpr least.mem, least.contains, ?_⟩ consistent
      intro m known inside
      exact least.least m ((member m).mp known) inside
    · intro none
      apply lookup_eq_none.mpr
      intro n known inside
      exact none n ((member n).mp known) (point_le_iff.mp inside)
  · refine IsMostSpecific.lookup (isMostSpecific_point.mpr ⟨polled.next_mem, start, ?_⟩) consistent
    intro m known contains
    rcases polled.order known with rfl | order
    · exact Nat.le_refl _
    · exact bits_le_of_le (order.le (order.first_eq contains))
  · rintro d ⟨x, known, here⟩ after
    rcases (polled.mem x).mp known with rfl | left
    · rw [here] at after
      exact absurd after (Nat.lt_irrefl _)
    · exact .queued x left here
  · rintro z _ _ d ⟨x, known, here⟩ _ _
    rcases (polled.mem x).mp known with rfl | left
    · exact Or.inl (le_of_eq here.symm)
    · exact Or.inr ⟨x, left, here⟩

private theorem finished_start {cur : IpAddress} {rest : List IpAddress} (polled : Polled nets cur rest) :
    Finished v4 nets (block cur).first [] := by
  refine ⟨?_, ?_, ?_, ?_, ?_⟩
  · intro r member
    cases member
  · intro a below
    have unrouted : route nets a = none := by
      apply lookup_eq_none.mpr
      intro n known inside
      have low := polled.first_le known
      have high := (point_le_iff.mp inside).1
      omega
    simp [unrouted]
  · intro r member
    cases member
  · intro r member
    cases member
  · intro r member
    cases member

/-- `generateIPList` of an undisturbed set returns a list that routes every address. -/
theorem generateIPList_finished (families : ∀ x ∈ nets, Family v4 x) (consistent : Consistent block included nets)
    (undisturbed : Undisturbed nets) :
    ∃ result, generateIPList queue ⟨nets⟩ = some result ∧ ∃ bound, ∀ later, bound ≤ later →
      Finished v4 nets later result := by
  obtain ⟨result, made, -⟩ := generateIPList_ends queue families
  refine ⟨result, made, ?_⟩
  unfold generateIPList at made
  simp only at made
  cases found : queue.poll nets with
  | none =>
    have empty := queue.poll_none nets found
    simp only [found] at made
    cases made
    refine ⟨0, fun later _ => ?_⟩
    refine ⟨?_, ?_, ?_, ?_, ?_⟩ <;> simp [empty, route, NetworkInvariant.own, lookup, mostSpecific]
  | some both =>
    obtain ⟨cur, rest⟩ := both
    simp only [found] at made
    have polled := polled_of_poll queue families found
    exact rounds_finished queue undisturbed (invariant_start families consistent polled) (finished_start polled) made

/-- What is added back before KitKat is included throughout. -/
theorem route_addedBack {ipsDone : List IpAddress} (consistent : Consistent block included nets)
    (undisturbed : Undisturbed nets) (unshadowed : Unshadowed nets)
    (finished : ∃ bound, ∀ later, bound ≤ later → Finished v4 nets later ipsDone) {ip : IpAddress}
    (member : ip ∈ nets)
    (back : addedBack ipsDone ip = true) {a : Nat} (contains : (block ip).Contains a) : route nets a = some true := by
  obtain ⟨bound, finished⟩ := finished
  have done := finished (max bound (a + 1)) (Nat.le_max_left _ _)
  have below : a < max bound (a + 1) := Nat.lt_of_lt_of_le (Nat.lt_succ_self a) (Nat.le_max_right _ _)
  simp only [addedBack, Bool.and_eq_true, Bool.not_eq_true', List.any_eq_false] at back
  obtain ⟨⟨flag, -⟩, larger⟩ := back
  have owned : own nets (block ip) = some true := flag ▸ lookup_self consistent member
  have routed : route nets a ≠ none := by
    intro none
    exact lookup_eq_none.mp none ip member (point_le_iff.mpr contains)
  obtain ⟨r, known, around⟩ := (done.covered a below).mpr routed
  have all := done.flags r known
  cases sign : r.included with
  | true => rw [all a around, sign]
  | false =>
    -- An excluded network that is done and starts or holds the one that is added back.
    have proper : block ip < block r := by
      rcases le_or_lt_of_overlap (x := block r) (y := block ip) (Nat.lt_of_le_of_lt around.1 contains.2)
        (Nat.lt_of_le_of_lt contains.1 around.2) with inside | inside
      · exact absurd ⟨sign, containsNet_iff.mpr inside⟩ (larger r known)
      · exact inside
    obtain ⟨t, piece, excluded, within, begins⟩ := done.origin r known
    rw [sign] at excluded
    have size := first_lt_stop (block ip)
    have size' := first_lt_stop (block r)
    have stop := proper.le.2
    rcases Nat.lt_or_eq_of_le proper.le.1 with later | same
    · have crossing : Crossing nets t (block ip) false :=
        { piece := piece
          own := excluded
          first := by rw [begins, all _ ⟨Nat.le_refl _, size'⟩, sign]
          inside := le_trans proper.le within
          later := by omega
          other := by rw [owned]; decide }
      obtain ⟨b, low, high, met⟩ := undisturbed.met _ _ _ crossing (Or.inl ⟨ip, member, rfl⟩)
      exact absurd (sign ▸ all b ⟨by omega, by omega⟩) met
    · obtain ⟨b, held, met⟩ := unshadowed _ t ⟨ip, member, rfl⟩ owned piece excluded
        (le_trans (parent_le proper) within) (begins.trans same)
      have whole := parent_le proper
      exact absurd (sign ▸ all b ⟨Nat.le_trans whole.1 held.1, Nat.lt_of_lt_of_le held.2 whole.2⟩) met

private theorem getPositiveIPList_covers (families : ∀ x ∈ nets, Family v4 x)
    (consistent : Consistent block included nets)
    (undisturbed : Undisturbed nets) (sdkInt : Nat) (unshadowed : sdkInt < KITKAT → Unshadowed nets) :
    ∃ ips, getPositiveIPList queue sdkInt ⟨nets⟩ = some ips ∧
      ∀ a, (∃ ip ∈ ips, (block ip).Contains a) ↔ route nets a = some true := by
  obtain ⟨result, made, finished⟩ := generateIPList_finished queue families consistent undisturbed
  refine ⟨_, by rw [getPositiveIPList, made]; rfl, ?_⟩
  intro a
  obtain ⟨bound, done⟩ := finished
  have last := done (max bound (a + 1)) (Nat.le_max_left _ _)
  have below : a < max bound (a + 1) := Nat.lt_of_lt_of_le (Nat.lt_succ_self a) (Nat.le_max_right _ _)
  have positive {ip : IpAddress} (kept : ip ∈ result.filter (·.included)) (contains : (block ip).Contains a) :
      route nets a = some true := by
    obtain ⟨member, flag⟩ := List.mem_filter.mp kept
    rw [last.flags ip member a contains, flag]
  constructor
  · rintro ⟨ip, member, contains⟩
    simp only at member
    split at member
    next early =>
      rcases List.mem_append.mp member with kept | back
      · exact positive kept contains
      · obtain ⟨added, back⟩ := List.mem_filter.mp back
        exact route_addedBack consistent undisturbed (unshadowed early) ⟨bound, done⟩ added back contains
    next => exact positive member contains
  · intro routed
    obtain ⟨ip, member, contains⟩ := (last.covered a below).mpr (by rw [routed]; exact Option.some_ne_none _)
    have flag := last.flags ip member a contains
    rw [routed] at flag
    have kept : ip ∈ result.filter (·.included) := List.mem_filter.mpr ⟨member, (Option.some.inj flag).symm⟩
    refine ⟨ip, ?_, contains⟩
    simp only
    split
    · exact List.mem_append_left _ kept
    · exact kept

/-! ### The networks put in -/

/-- The list covers what the networks put in cover, and every address in it has the flag
of its longest-prefix network. -/
def RoutesByPrefix (adds ips : List IpAddress) : Prop :=
  ∀ a, ((∃ ip ∈ ips, Covers ip a) ↔ ∃ ip ∈ adds, Covers ip a) ∧
    ∀ ip ∈ ips, Covers ip a → route adds a = some ip.included

private theorem covered_iff (adds : List IpAddress) (a : Nat) : (∃ ip ∈ adds, Covers ip a) ↔ route adds a ≠ none := by
  simp only [covers_iff, ne_eq, route, NetworkInvariant.own, lookup_eq_none, point_le_iff, not_forall, not_not,
    exists_prop]

theorem Kept.transfer {set : List IpAddress} (kept : Kept v4 adds set) :
    (Undisturbed adds → Undisturbed set) ∧ (Unshadowed adds → Unshadowed set) ∧ ∀ a, route set a = route adds a := by
  have added : Added set = Added adds := funext fun d => propext (kept.added d)
  have owned : NetworkInvariant.own set = NetworkInvariant.own adds := funext kept.own
  have pieces : Piece set = Piece adds := by
    funext d
    rw [Piece, Piece, added]
  have routes : route set = route adds := by
    funext a
    rw [route, route, owned]
  refine ⟨?_, ?_, fun a => congrFun routes a⟩
  · intro undisturbed
    have crossing {t d : Block} {f : Bool} (here : Crossing set t d f) : Crossing adds t d f := by
      obtain ⟨piece, own, first, inside, later, other⟩ := here
      rw [pieces] at piece
      rw [owned] at own other
      rw [routes] at first
      exact ⟨piece, own, first, inside, later, other⟩
    refine ⟨?_, ?_⟩
    · intro t d f here piece
      rw [pieces] at piece
      rw [routes]
      exact undisturbed.met t d f (crossing here) piece
    · intro t p f here
      rw [routes, added]
      exact undisturbed.halved t p f (crossing here)
  · intro unshadowed b t
    rw [added, owned, pieces, routes]
    exact unshadowed b t

/-- The lists computed from networks of one family that do not disturb the loop are
longest-prefix routing; before KitKat the positive list needs no network shadowed. -/
theorem generateIPList_routes (v4 : Bool) (adds : List IpAddress) (families : ∀ ip ∈ adds, Family v4 ip)
    (undisturbed : Undisturbed adds) (queue : Queue) :
    (∃ ips, generateIPList queue (addAll adds) = some ips ∧ RoutesByPrefix adds ips) ∧
      ∀ sdkInt, (sdkInt < KITKAT → Unshadowed adds) → ∃ positive,
        getPositiveIPList queue sdkInt (addAll adds) = some positive ∧
          ∀ a, (∃ ip ∈ positive, Covers ip a) ↔ route adds a = some true := by
  have kept := kept_addAll families
  obtain ⟨disturbed, shadowed, routes⟩ := kept.transfer
  refine ⟨?_, ?_⟩
  · obtain ⟨ips, made, bound, finished⟩ :=
      generateIPList_finished queue kept.families kept.consistent (disturbed undisturbed)
    refine ⟨ips, made, ?_⟩
    intro a
    have done := finished (max bound (a + 1)) (Nat.le_max_left _ _)
    have below : a < max bound (a + 1) := Nat.lt_of_lt_of_le (Nat.lt_succ_self a) (Nat.le_max_right _ _)
    refine ⟨?_, ?_⟩
    · rw [covered_iff adds, ← routes]
      simp only [covers_iff]
      exact done.covered a below
    · intro ip member contains
      rw [← routes]
      exact done.flags ip member a (covers_iff.mp contains)
  · intro sdkInt unshadowed
    obtain ⟨positive, made, covers⟩ := getPositiveIPList_covers queue kept.families kept.consistent
      (disturbed undisturbed) sdkInt fun early => shadowed (unshadowed early)
    refine ⟨positive, made, ?_⟩
    intro a
    rw [← routes, ← covers a]
    simp only [covers_iff]

/-! ### One network inside another -/

section Pair

variable {x y : IpAddress}

private theorem own_pair (inside : block y < block x) (d : Block) : own [x, y] d =
    if d ≤ block y then some y.included else if d ≤ block x then some x.included else none := by
  have bits := bits_lt_of_lt inside
  unfold own lookup
  by_cases within : d ≤ block y
  · simp [mostSpecific, within, Nat.not_le.mpr bits]
  · by_cases around : d ≤ block x <;> simp [mostSpecific, within, around]

/-- A network inside another one disturbs nothing. -/
theorem undisturbed_pair (inside : block y < block x) : Undisturbed [x, y] := by
  have crossed {t d : Block} {f : Bool} (here : Crossing [x, y] t d f) :
      f = x.included ∧ t ≤ block x ∧ d ≤ block y ∧ y.included ≠ f := by
    have owned := here.own
    have other := here.other
    rw [own_pair inside] at owned other
    by_cases within : t ≤ block y
    · rw [if_pos within] at owned
      rw [if_pos (le_trans here.inside within)] at other
      exact absurd owned other
    · rw [if_neg within] at owned
      by_cases around : t ≤ block x
      · rw [if_pos around] at owned
        rw [if_pos (le_trans here.inside around)] at other
        by_cases low : d ≤ block y
        · rw [if_pos low] at other
          exact ⟨(Option.some.inj owned).symm, around, low, fun same => other (congrArg some same)⟩
        · rw [if_neg low] at other
          exact absurd owned other
      · rw [if_neg around] at owned
        cases owned
  have routed (a : Nat) (contains : (block y).Contains a) : route [x, y] a = some y.included := by
    rw [route, own_pair inside, if_pos (point_le_iff.mpr contains)]
  refine ⟨?_, ?_⟩
  · intro t d f here _
    obtain ⟨rfl, -, low, differs⟩ := crossed here
    refine ⟨d.first, Nat.le_of_lt here.later, Nat.le_refl _, ?_⟩
    rw [routed d.first ⟨low.1, Nat.lt_of_lt_of_le (first_lt_stop d) low.2⟩]
    exact fun same => differs (Option.some.inj same)
  · intro t p f here large begins
    obtain ⟨rfl, around, low, differs⟩ := crossed here
    have size := first_lt_stop p.right
    have size' := first_lt_stop p.left
    have half := left_first large
    have second : p.right.first = p.left.stop := right_first
    have whole := right_stop large
    have first := low.1
    have stop := low.2
    have smaller : block y < p := by
      rcases le_or_lt_of_overlap (x := p) (y := block y) (by omega) (by omega) with outside | proper
      · have start := routed t.first ⟨by rw [← begins]; exact outside.1, by have := outside.2; omega⟩
        rw [here.first] at start
        exact absurd (Option.some.inj start).symm differs
      · exact proper
    have same : block y = p.right := by
      rcases le_half smaller with left | right
      · have := left.2
        have := first_lt_stop (block y)
        omega
      · exact le_antisymm right low
    refine ⟨?_, ?_⟩
    · intro a contains
      have outside : ¬ point a ≤ block y := by
        rw [point_le_iff, same]
        exact fun held => absurd held.1 (by have := contains.2; omega)
      have held : point a ≤ block x := by
        have := contains.1
        have := contains.2
        have := around.1
        have := here.inside.2
        have := around.2
        exact point_le_iff.mpr ⟨by omega, by omega⟩
      rw [route, own_pair inside, if_neg outside, if_pos held]
    · rintro d ⟨n, member, rfl⟩ within _
      rcases List.mem_cons.mp member with rfl | member
      · rw [← same] at within
        exact absurd inside (not_lt_of_ge within)
      · rw [List.mem_singleton.mp member, same]

end Pair

/-- 0.0.0.0/0 and 128.0.0.0/2 are included, 128.0.0.0/1 between them is not: 128.0.0.0 is
excluded, since its longest-prefix network was forgotten inside the largest. -/
theorem smaller_network_forgotten : ¬ ∀ (v4 : Bool) (adds : List IpAddress), (∀ ip ∈ adds, Family v4 ip) →
    ∀ queue : Queue, (∃ ips, generateIPList queue (addAll adds) = some ips ∧ RoutesByPrefix adds ips) := by
  intro all
  have family : ∀ ip ∈ [ofCIDRIP 0 0 true, ofCIDRIP 0x80000000 1 false, ofCIDRIP 0x80000000 2 true],
      Family true ip := by
    simp [family_ofCIDRIP]
  have listed : generateIPList (PriorityQueue.scan compareTo)
      (addAll [ofCIDRIP 0 0 true, ofCIDRIP 0x80000000 1 false, ofCIDRIP 0x80000000 2 true]) =
        some [⟨0, 1, true, true⟩, ⟨0x80000000, 1, false, true⟩] := by decide +kernel
  obtain ⟨ips, made, routes⟩ := all true _ family (PriorityQueue.scan compareTo)
  rw [listed] at made
  cases made
  have wrong := (routes 0x80000000).2 ⟨0x80000000, 1, false, true⟩ (by simp) (by decide +kernel)
  revert wrong
  decide +kernel

/-- 0.0.0.0/0 without 10.0.0.0/8, from KitKat on. -/
theorem generateIPList_routes_exclude :
    (∃ ips, generateIPList (PriorityQueue.scan compareTo) (addAll [ofCIDRIP 0 0 true, ofCIDRIP 0x0A000000 8 false]) =
        some ips ∧ RoutesByPrefix [ofCIDRIP 0 0 true, ofCIDRIP 0x0A000000 8 false] ips) ∧
      ∃ positive, getPositiveIPList (PriorityQueue.scan compareTo) KITKAT
          (addAll [ofCIDRIP 0 0 true, ofCIDRIP 0x0A000000 8 false]) = some positive ∧
        ∀ a, (∃ ip ∈ positive, Covers ip a) ↔
          route [ofCIDRIP 0 0 true, ofCIDRIP 0x0A000000 8 false] a = some true := by
  have inside : block (ofCIDRIP 0x0A000000 8 false) < block (ofCIDRIP 0 0 true) :=
    lt_of_le_of_ne (by decide +kernel) (by decide +kernel)
  have families : ∀ ip ∈ [ofCIDRIP 0 0 true, ofCIDRIP 0x0A000000 8 false], Family true ip := by
    simp [family_ofCIDRIP]
  obtain ⟨list, positive⟩ :=
    generateIPList_routes true _ families (undisturbed_pair inside) (PriorityQueue.scan compareTo)
  exact ⟨list, positive KITKAT fun early => absurd early (Nat.lt_irrefl _)⟩

/-! ### The partition -/

/-- The list is in ascending order and without overlaps, and has all addresses that were put in. -/
structure Partition (adds ips : List IpAddress) : Prop where
  ascending : ips.Pairwise fun x y => x.getFirstAddress < y.getFirstAddress
  disjoint : ips.Pairwise fun x y => ∀ a, ¬ (Covers x a ∧ Covers y a)
  covered : ∀ ip ∈ adds, ∀ a, Covers ip a → ∃ r ∈ ips, Covers r a

/-- Any networks of one family, and any queue: the loop ends and makes a partition. -/
theorem generateIPList_partition (v4 : Bool) (adds : List IpAddress) (families : ∀ ip ∈ adds, Family v4 ip)
    (queue : Queue) :
    ∃ ips, generateIPList queue (addAll adds) = some ips ∧ Partition adds ips := by
  have kept := kept_addAll families
  obtain ⟨ips, made, ended⟩ := generateIPList_ends queue kept.families
  refine ⟨ips, made, ?_, ?_, ?_⟩
  · refine ended.ordered.imp fun {x y} order => ?_
    have size := first_lt_stop (block x)
    rw [getFirstAddress_eq, getFirstAddress_eq]
    omega
  · refine ended.ordered.imp fun {x y} order a both => ?_
    have before := (covers_iff.mp both.1).2
    have after := (covers_iff.mp both.2).1
    omega
  · intro ip member a covers
    obtain ⟨n, present, same⟩ := (kept.added (block ip)).mpr ⟨ip, member, rfl⟩
    obtain ⟨r, done, contains⟩ := ended.held a ⟨n, present, same ▸ covers_iff.mp covers⟩
    exact ⟨r, done, covers_iff.mpr contains⟩

/-- Two networks with one block come to be in the queue: the half of 0.0.0.0/0 and 128.0.0.0/1. -/
theorem generateIPList_partition_coinciding :
    ∃ ips, generateIPList (PriorityQueue.scan compareTo)
        (addAll [ofCIDRIP 0 0 true, ofCIDRIP 0x20000000 3 false, ofCIDRIP 0x80000000 1 false]) = some ips ∧
      Partition [ofCIDRIP 0 0 true, ofCIDRIP 0x20000000 3 false, ofCIDRIP 0x80000000 1 false] ips :=
  generateIPList_partition true _ (by simp [family_ofCIDRIP]) _

end RRoadVpn.Proofs.NetworkRouting
