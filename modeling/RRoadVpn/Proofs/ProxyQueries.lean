import Mathlib.Algebra.Group.Nat.Defs
import Mathlib.Data.List.TakeDrop
import RRoadVpn.ConnectionConfig

/-! Which connection answers a proxy query. The config numbers the connections it has,
the answer numbers those of the profile. -/

namespace RRoadVpn.Proofs.ProxyQueries
open RRoadVpn.VpnProfile RRoadVpn.ProxyQuery

/-! ### The config -/

private theorem join_map_enabled (block : Connection → String) (conns : List Connection) :
    String.join (conns.map fun conn => if conn.mEnabled then block conn else "") =
      String.join ((conns.filter Connection.mEnabled).map block) := by
  induction conns with
  | nil => rfl
  | cons conn conns ih =>
    cases on : conn.mEnabled with
    | true => simp [on, ih]
    | false => simp [on, ih]

private theorem emitted_connections {mConnections : List Connection} (several : mConnections.length ≠ 1) :
    (emitted mConnections).map Prod.fst = mConnections.filter Connection.mEnabled := by
  have shape : emitted mConnections = mConnections.zipIdx.filter (·.1.mEnabled) := by
    unfold emitted
    split
    · exact absurd rfl several
    · rfl
  have first : mConnections.zipIdx.map Prod.fst = mConnections := List.zipIdx_map_fst 0 mConnections
  rw [shape, ← first, List.filter_map, first]
  rfl

/-- The config has a block for every emitted connection, in their order. -/
theorem config_emitted (mRemoteRandom configForOvpn3 : Bool) (mConnections : List Connection) :
    remotes mRemoteRandom configForOvpn3 mConnections =
        (if mRemoteRandom ∧ mConnections.length ≠ 1 then "remote-random\n" else "") ++
          (if canUsePlainRemotes mConnections then
            String.join ((emitted mConnections).map fun entry => entry.1.getConnectionBlock configForOvpn3)
          else "") ∧
      (¬ canUsePlainRemotes mConnections →
        connectionBlocks configForOvpn3 mConnections = connectionComment ++
          String.join ((emitted mConnections).map fun entry =>
            "<connection>\n" ++ entry.1.getConnectionBlock configForOvpn3 ++ "</connection>\n")) := by
  by_cases single : mConnections.length = 1
  · obtain ⟨conn, rfl⟩ := List.length_eq_one_iff.mp single
    refine ⟨?_, fun several => absurd rfl several⟩
    simp [remotes, canUsePlainRemotes, emitted]
  · have blocks (block : Connection → String) :
        String.join ((emitted mConnections).map fun entry => block entry.1) =
          String.join (mConnections.map fun conn => if conn.mEnabled then block conn else "") := by
      rw [join_map_enabled, ← emitted_connections single, List.map_map]
      rfl
    refine ⟨?_, ?_⟩
    · rw [blocks (·.getConnectionBlock configForOvpn3)]
      unfold remotes
      split
      · exact absurd rfl single
      · simp [single]
    · intro several
      rw [blocks fun conn => "<connection>\n" ++ conn.getConnectionBlock configForOvpn3 ++ "</connection>\n",
        connectionBlocks, if_neg several]

/-! ### Numbers -/

/-- A kept element stands as far from the front as before only if everything before it is kept. -/
theorem filter_zipIdx {α : Type} (kept : α → Bool) (xs : List α) (n : Nat) {k j : Nat} {x : α}
    (entry : ((xs.zipIdx n).filter (kept ·.1))[k]? = some (x, j)) :
    n + k ≤ j ∧ j < n + xs.length ∧ (j = n + k ↔ ∀ y ∈ xs.take (k + 1), kept y) := by
  induction xs generalizing n k with
  | nil => simp at entry
  | cons head tail ih =>
    rw [List.zipIdx_cons] at entry
    cases keep : kept head with
    | false =>
      rw [List.filter_cons_of_neg (by simp [keep])] at entry
      obtain ⟨above, below, _⟩ := ih (n + 1) entry
      refine ⟨by omega, by simp only [List.length_cons]; omega, ?_⟩
      refine iff_of_false (by omega) ?_
      intro all
      have first := all head (by simp)
      simp [keep] at first
    | true =>
      rw [List.filter_cons_of_pos (by simp [keep])] at entry
      cases k with
      | zero =>
        cases entry
        refine ⟨Nat.le_refl _, by simp only [List.length_cons]; omega, ?_⟩
        simp [keep]
      | succ k =>
        obtain ⟨above, below, exact⟩ := ih (n + 1) entry
        refine ⟨by omega, by simp only [List.length_cons]; omega, ?_⟩
        rw [List.take_succ_cons, List.forall_mem_cons, ← exact]
        constructor
        · intro same
          exact ⟨keep, by omega⟩
        · rintro ⟨_, same⟩
          omega

private theorem emitted_place {mConnections : List Connection} {k j : Nat} {conn : Connection}
    (entry : (emitted mConnections)[k]? = some (conn, j)) :
    k < mConnections.length ∧
      (j = k ↔ mConnections.length = 1 ∨ ∀ other ∈ mConnections.take (k + 1), other.mEnabled) := by
  unfold emitted at entry
  split at entry
  next single =>
    have zero : k = 0 := by
      have inside := (List.getElem?_eq_some_iff.mp entry).1
      simpa using inside
    subst zero
    cases entry
    exact ⟨Nat.one_pos, by simp⟩
  next single =>
    obtain ⟨above, below, exact⟩ := filter_zipIdx Connection.mEnabled mConnections 0 entry
    have several : mConnections.length ≠ 1 := by
      intro one
      obtain ⟨conn, rfl⟩ := List.length_eq_one_iff.mp one
      exact single conn rfl
    refine ⟨by omega, ?_⟩
    rw [Nat.zero_add] at exact
    rw [exact]
    simp [several]

/-! ### The query -/

theorem split_comma (limit : Nat) {part : List Char} (plain : ',' ∉ part) (rest : List Char) :
    split (limit + 2) (part ++ ',' :: rest) = part :: split (limit + 1) rest := by
  have cut : (part ++ ',' :: rest).span (· ≠ ',') = (part, ',' :: rest) := by
    rw [List.span_eq_takeWhile_dropWhile]
    have all : ∀ c ∈ part, decide (c ≠ ',') = true := by
      intro c member
      simpa using fun same : c = ',' => plain (same ▸ member)
    rw [List.takeWhile_append_of_pos all, List.dropWhile_append_of_pos all]
    simp
  rw [split]
  simp only [cut]

private theorem parseInt_digits {digits : List Char} (nonempty : digits ≠ []) (isDigit : ∀ c ∈ digits, c.isDigit)
    (small : Nat.ofDigitChars 10 digits 0 < 2 ^ 31) :
    parseInt digits = some (Nat.ofDigitChars 10 digits 0 : Int) := by
  have all : digits.all Char.isDigit = true := List.all_eq_true.mpr isDigit
  have unsigned : ∀ rest, digits ≠ '-' :: rest ∧ digits ≠ '+' :: rest := by
    intro rest
    refine ⟨?_, ?_⟩
    · rintro rfl
      exact absurd (isDigit '-' List.mem_cons_self) (by decide)
    · rintro rfl
      exact absurd (isDigit '+' List.mem_cons_self) (by decide)
  rw [parseInt]
  · rw [if_neg (by simp [nonempty, all])]
    simp only [Bool.false_eq_true, if_false]
    rw [if_pos ⟨by omega, by omega⟩]
  · exact fun rest => (unsigned rest).1
  · exact fun rest => (unsigned rest).2

private theorem parseInt_toString {n : Nat} (small : n < 2 ^ 31) : parseInt (toString n).toList = some (n : Int) := by
  have digits : (toString n).toList = Nat.toDigits 10 n := by simp
  have value : Nat.ofDigitChars 10 (Nat.toDigits 10 n) 0 = n := Nat.ofDigitChars_ten_toDigits
  have nonempty : Nat.toDigits 10 n ≠ [] := by simp
  have read := parseInt_digits nonempty
    (fun c member => Nat.isDigit_of_mem_toDigits (by decide) (by decide) member) (value.symm ▸ small)
  rw [digits, read, value]

theorem take_behind {α : Type} {front : List α} {n : Nat} (fits : front.length ≤ n) (xs : List α) :
    ∃ rest, rest <+: xs ∧ (front ++ xs).take n = front ++ rest := by
  refine ⟨xs.take (n - front.length), List.take_prefix _ xs, ?_⟩
  rw [List.take_append, List.take_of_length_le fits]

theorem query_eq {current : Nat} (small : current + 1 < 2 ^ 31) (udp : Bool) (remote : String) :
    ∃ rest, rest <+: remote.toList ∧ ce_management_query_proxy current udp remote =
      (toString (current + 1)).toList ++ ',' :: ((if udp then "UDP" else "TCP").toList ++ ',' :: rest) := by
  have digits : (toString (current + 1)).toList = Nat.toDigits 10 (current + 1) := by simp
  have short : (Nat.toDigits 10 (current + 1)).length ≤ 10 :=
    (Nat.length_toDigits_le_iff (by decide) (by decide)).mpr (by omega)
  have proto : (if udp then "UDP" else "TCP").toList.length = 3 := by cases udp <;> rfl
  have fits : ((toString (current + 1)).toList ++ ',' :: ((if udp then "UDP" else "TCP").toList ++ [','])).length ≤
      255 - ">PROXY:".length := by
    have room : 16 ≤ 255 - ">PROXY:".length := by decide
    simp only [List.length_append, List.length_cons, List.length_nil, proto, digits]
    omega
  obtain ⟨rest, cut, same⟩ := take_behind fits remote.toList
  refine ⟨rest, cut, ?_⟩
  simpa only [ce_management_query_proxy, List.append_assoc, List.cons_append, List.nil_append] using same

theorem split_query {current : Nat} (small : current + 1 < 2 ^ 31) (udp : Bool) (remote : String) :
    ∃ rest, rest <+: remote.toList ∧ split 3 (ce_management_query_proxy current udp remote) =
      [(toString (current + 1)).toList, (if udp then "UDP" else "TCP").toList, rest] := by
  obtain ⟨rest, cut, query⟩ := query_eq small udp remote
  refine ⟨rest, cut, ?_⟩
  have number : ',' ∉ (toString (current + 1)).toList := by
    intro comma
    have digit : ',' ∈ Nat.toDigits 10 (current + 1) := by simpa using comma
    exact absurd (Nat.isDigit_of_mem_toDigits (by decide) (by decide) digit) (by decide)
  have proto : ',' ∉ (if udp then "UDP" else "TCP").toList := by cases udp <;> decide
  have first := split_comma 1 number ((if udp then "UDP" else "TCP").toList ++ ',' :: rest)
  have second := split_comma 0 proto rest
  rw [second] at first
  rw [query]
  exact first

section Answers

variable (detectProxy : Option (String × Nat)) (mCurrentProxyConnection : Option Nat)

/-- A query for an entry that the profile has a place for is answered from that place. -/
theorem processProxyCMD_query {mConnections : List Connection} {k : Nat} (inside : k < mConnections.length)
    (small : k + 1 < 2 ^ 31) (udp : Bool) (remote : String) :
    processProxyCMD detectProxy mCurrentProxyConnection mConnections (ce_management_query_proxy k udp remote) =
      some ⟨some k, answer detectProxy mConnections[k]? (split 3 (ce_management_query_proxy k udp remote))⟩ := by
  have number := parseInt_toString small
  obtain ⟨rest, -, query⟩ := split_query small udp remote
  have head : ((split 3 (ce_management_query_proxy k udp remote)).headD []) = (toString (k + 1)).toList := by
    rw [query]
    rfl
  unfold processProxyCMD
  simp only [head, number, bind, Option.bind_some]
  rw [if_pos (by omega), if_neg (by omega)]
  have place : ((k + 1 : Nat) - 1 : Int).toNat = k := by omega
  simp only [place]
  rfl

/-- The query for an entry of the config never throws, and it is answered from the connection
that made the entry exactly if that is the only one or none before it is disabled. -/
theorem answered_iff {mConnections : List Connection} (few : (emitted mConnections).length ≤ CONNECTION_LIST_SIZE)
    {k j : Nat} {conn : Connection} (entry : (emitted mConnections)[k]? = some (conn, j)) (udp : Bool)
    (remote : String) :
    (processProxyCMD detectProxy mCurrentProxyConnection mConnections
      (ce_management_query_proxy k udp remote)).isSome ∧
      (processProxyCMD detectProxy mCurrentProxyConnection mConnections (ce_management_query_proxy k udp remote) =
          some ⟨some j, answer detectProxy mConnections[j]? (split 3 (ce_management_query_proxy k udp remote))⟩ ↔
        mConnections.length = 1 ∨ ∀ other ∈ mConnections.take (k + 1), other.mEnabled) := by
  obtain ⟨inside, place⟩ := emitted_place entry
  have below := (List.getElem?_eq_some_iff.mp entry).1
  have small : k + 1 < 2 ^ 31 := by
    have listed : CONNECTION_LIST_SIZE = 64 := rfl
    omega
  rw [processProxyCMD_query detectProxy mCurrentProxyConnection inside small udp remote, ← place]
  refine ⟨rfl, ?_⟩
  constructor
  · intro same
    have answers := Option.some.inj same
    exact (Option.some.inj (congrArg Answer.mCurrentProxyConnection answers)).symm
  · intro same
    rw [same]

end Answers

theorem answered_iff_two_connections :
    (processProxyCMD none none [{}, {}] (ce_management_query_proxy 1 true "openvpn.example.com")).isSome ∧
      (processProxyCMD none none [{}, {}] (ce_management_query_proxy 1 true "openvpn.example.com") =
          some ⟨some 1, answer none ([{}, {}] : List Connection)[1]?
            (split 3 (ce_management_query_proxy 1 true "openvpn.example.com"))⟩ ↔
        ([{}, {}] : List Connection).length = 1 ∨ ∀ other ∈ ([{}, {}] : List Connection).take 2, other.mEnabled) :=
  @answered_iff none none [{}, {}] (by decide) 1 1 {} rfl true "openvpn.example.com"

private def firstDisabled : List Connection := [{ mEnabled := false, mProxyType := .HTTP }, {}, {}]

/-- The query for the first entry, which has no proxy, is answered with the proxy of the disabled connection. -/
theorem disabled_connection_answers :
    (emitted firstDisabled)[0]? = some (({} : Connection), 1) ∧
      processProxyCMD none none firstDisabled (ce_management_query_proxy 0 false "openvpn.example.com") =
        some ⟨some 0, .managmentCommand "proxy HTTP proxy.example.com 8080\n"⟩ ∧
      answer none (some ({} : Connection)) (split 3 (ce_management_query_proxy 0 false "openvpn.example.com")) =
        .managmentCommand "proxy NONE\n" := by
  refine ⟨rfl, ?_, ?_⟩
  · decide
  · decide

end RRoadVpn.Proofs.ProxyQueries
