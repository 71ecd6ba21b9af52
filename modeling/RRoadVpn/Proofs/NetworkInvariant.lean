import RRoadVpn.Proofs.NetworkBlocks

/-! The loop of `generateIPList` and what holds of it. The networks that are left
still route every address that is not done, unless the loop is disturbed by a
network it forgets or by two networks it takes for one. -/

namespace RRoadVpn.Proofs.NetworkInvariant
open Library Block IpAddress NetworkSpace NetworkBlocks

section Networks

variable (nets : List IpAddress)

/-- What the networks say about a block: the flag of the smallest one around it. -/
def own (d : Block) : Option Bool := lookup block included nets d

/-- The flag of the longest-prefix network that contains the address. -/
def route (a : Nat) : Option Bool := own nets (point a)

def Added (d : Block) : Prop := ∃ n ∈ nets, block n = d

/-- A block the loop can meet: an added one, or a second half. -/
def Piece (d : Block) : Prop := Added nets d ∨ d.IsRight

/-- A block that the loop can be at, whose first address has the block's flag, and in
it a later block with another flag. -/
structure Crossing (t d : Block) (f : Bool) : Prop where
  piece : Piece nets t
  own : own nets t = some f
  first : route nets t.first = some f
  inside : d ≤ t
  later : t.first < d.first
  other : NetworkInvariant.own nets d ≠ some f

/-- No network of another flag is forgotten with the one it starts with, and no second
half is queued beside an added network of the same block with another flag. -/
structure Undisturbed : Prop where
  met : ∀ (t d : Block) f, Crossing nets t d f → Piece nets d → ∃ a, t.first ≤ a ∧ a ≤ d.first ∧ route nets a ≠ some f
  halved : ∀ (t p : Block) f, Crossing nets t p.right f → 0 < p.bits → p.first = t.first →
    (∀ a, p.left.Contains a → route nets a = some f) ∧
      ∀ d, Added nets d → d ≤ p.right → d.first = p.right.first → d = p.right

end Networks

/-- The networks left say of the address what the added ones say. -/
structure Routes (nets left : List IpAddress) (a : Nat) : Prop where
  specific : ∀ x, IsMostSpecific block left (point a) x → route nets a = some x.included
  nothing : (∀ x ∈ left, ¬ (block x).Contains a) → route nets a = none

theorem isMostSpecific_point {l : List IpAddress} {a : Nat} {x : IpAddress} :
    IsMostSpecific block l (point a) x ↔
      x ∈ l ∧ (block x).Contains a ∧ ∀ m ∈ l, (block m).Contains a → (block x).bits ≤ (block m).bits := by
  constructor
  · intro least
    exact ⟨least.mem, point_le_iff.mp least.contains, fun m member contains =>
      least.least m member (point_le_iff.mpr contains)⟩
  · rintro ⟨member, contains, least⟩
    exact ⟨member, point_le_iff.mpr contains, fun m member inside => least m member (point_le_iff.mp inside)⟩

theorem Routes.transfer {nets l l' : List IpAddress} {a : Nat} (routes : Routes nets l a)
    (specific : ∀ x, IsMostSpecific block l' (point a) x →
      ∃ y, IsMostSpecific block l (point a) y ∧ y.included = x.included)
    (covered : ∀ x ∈ l, (block x).Contains a → ∃ y ∈ l', (block y).Contains a) : Routes nets l' a := by
  refine ⟨?_, ?_⟩
  · intro x least
    obtain ⟨y, least, same⟩ := specific x least
    rw [← same]
    exact routes.specific y least
  · intro none
    apply routes.nothing
    intro x member contains
    obtain ⟨y, member, contains⟩ := covered x member contains
    exact none y member contains

/-- What has become of an added block that begins after the current network: it is
queued, or it was forgotten inside the current network or inside a queued one. -/
inductive Fate (nets : List IpAddress) (cur : IpAddress) (queued : List IpAddress) (d : Block) : Prop
  | queued (x : IpAddress) (member : x ∈ queued) (same : block x = d)
  | current (inside : d ≤ block cur) (own : own nets d = some cur.included)
      (later : ∀ z ∈ queued, block z = block cur ∨ d.first < (block z).first ∨
        (d.first = (block z).first ∧ z.included = cur.included))
  | forgotten (x : IpAddress) (member : x ∈ queued) (inside : d ≤ block x) (own : own nets d = some x.included)
      (after : (block cur).stop ≤ (block x).first)
      (later : ∀ z ∈ queued, block z = block x ∨ (block z).stop ≤ (block x).first ∨ d.first < (block z).first)

structure Invariant (v4 : Bool) (nets : List IpAddress) (cur : IpAddress) (queued : List IpAddress) : Prop where
  family : Family v4 cur
  families : ∀ x ∈ queued, Family v4 x
  ordered : ∀ x ∈ queued, Precedes (block cur) (block x)
  routes : ∀ a, (block cur).first ≤ a → Routes nets (cur :: queued) a
  owns : ∀ x ∈ queued, own nets (block x) = some x.included
  origin : ∃ t, Piece nets t ∧ own nets t = some cur.included ∧ block cur ≤ t ∧ t.first = (block cur).first
  first : route nets (block cur).first = some cur.included
  agree : ∀ x ∈ queued, block x = block cur → x.included = cur.included
  fates : ∀ d, Added nets d → (block cur).first < d.first → Fate nets cur queued d
  sameFirst : ∀ z ∈ queued, (block z).first = (block cur).first → ∀ d, Added nets d →
    d.first = (block cur).first → own nets d = some cur.included → d ≤ block cur ∨ ∃ x ∈ queued, block x = d
  pieces : ∀ x ∈ queued, (block cur).first < (block x).first ∨ x.included = cur.included → Piece nets (block x)

/-- The next network and those left in the queue. -/
structure Polled (queued : List IpAddress) (next : IpAddress) (rest : List IpAddress) : Prop where
  mem : ∀ x, x ∈ queued ↔ x = next ∨ x ∈ rest
  precedes : ∀ z ∈ rest, Precedes (block next) (block z)

section Lemmas

variable {v4 : Bool} {nets queued rest : List IpAddress} {cur next : IpAddress}

theorem Polled.next_mem (polled : Polled queued next rest) : next ∈ queued := (polled.mem next).mpr (Or.inl rfl)

theorem Polled.rest_mem (polled : Polled queued next rest) {x : IpAddress} (member : x ∈ rest) : x ∈ queued :=
  (polled.mem x).mpr (Or.inr member)

theorem Polled.order (polled : Polled queued next rest) {x : IpAddress} (member : x ∈ queued) :
    x = next ∨ Precedes (block next) (block x) :=
  ((polled.mem x).mp member).imp id (polled.precedes x)

theorem Polled.first_le (polled : Polled queued next rest) {x : IpAddress} (member : x ∈ queued) :
    (block next).first ≤ (block x).first := by
  rcases polled.order member with rfl | order
  · exact Nat.le_refl _
  · exact order.first_le

theorem Polled.left (polled : Polled queued next rest) {x : IpAddress} (member : x ∈ next :: rest) : x ∈ queued :=
  (polled.mem x).mpr (List.mem_cons.mp member)

theorem Polled.cons (polled : Polled queued next rest) {x : IpAddress} (member : x ∈ queued) : x ∈ next :: rest :=
  List.mem_cons.mpr ((polled.mem x).mp member)

theorem route_current (inv : Invariant v4 nets cur queued) {a : Nat} (contains : (block cur).Contains a)
    (before : ∀ x ∈ queued, a < (block x).first) : route nets a = some cur.included := by
  apply (inv.routes a contains.1).specific
  refine ⟨List.mem_cons_self, point_le_iff.mpr contains, ?_⟩
  intro m member inside
  rcases List.mem_cons.mp member with rfl | member
  · exact Nat.le_refl _
  · have := (point_le_iff.mp inside).1
    have := before m member
    omega

theorem route_none (inv : Invariant v4 nets cur queued) {a : Nat} (after : (block cur).stop ≤ a)
    (before : ∀ x ∈ queued, a < (block x).first) : route nets a = none := by
  have := first_lt_stop (block cur)
  apply (inv.routes a (by omega)).nothing
  intro x member contains
  rcases List.mem_cons.mp member with rfl | member
  · exact absurd contains.2 (by omega)
  · have := before x member
    exact absurd contains.1 (by omega)

theorem route_next (inv : Invariant v4 nets cur queued) (polled : Polled queued next rest)
    (later : (block cur).first < (block next).first)
    (apart : (block cur).stop ≤ (block next).first ∨ block next ≤ block cur) :
    route nets (block next).first = some next.included := by
  have start : (block next).Contains (block next).first := ⟨Nat.le_refl _, first_lt_stop _⟩
  apply (inv.routes _ (Nat.le_of_lt later)).specific
  refine ⟨List.mem_cons_of_mem cur polled.next_mem, point_le_iff.mpr start, ?_⟩
  intro m member inside
  have contains := point_le_iff.mp inside
  rcases List.mem_cons.mp member with rfl | member
  · rcases apart with after | inside
    · exact absurd contains.2 (by omega)
    · exact bits_le_of_le inside
  · rcases polled.order member with rfl | order
    · exact Nat.le_refl _
    · exact bits_le_of_le (order.le (order.first_eq contains))

end Lemmas

end RRoadVpn.Proofs.NetworkInvariant
