import Mathlib
import RRoadVpn.Library.Lines
import RRoadVpn.TunService

/-! How far the configuration string of a tunnel shows the settings it was made of.
Between the IPv4 and the IPv6 part of a list there is no separator. -/

namespace RRoadVpn.Proofs.TunTexts
open Library RRoadVpn.OpenVPNService

def hex (c : Char) : Bool := c.isDigit || ('a' ≤ c && c ≤ 'f')

def printed (c : Char) : Bool := hex c || c == '.' || c == ':' || c == '/' || c == '|'

/-! ### Numbers and addresses -/

theorem digits_toString (n : Nat) : ∀ c ∈ (toString n).toList, c.isDigit = true := by
  intro c member
  have digits : (toString n).toList = Nat.toDigits 10 n := by simp
  rw [digits] at member
  exact Nat.isDigit_of_mem_toDigits (by decide) (by decide) member

private theorem hex_toDigits (n : Nat) : ∀ c ∈ Nat.toDigits 16 n, hex c = true := by
  induction n using Nat.strongRecOn with
  | ind n ih =>
    have last : ∀ m < 16, hex m.digitChar = true := by decide
    intro c member
    rw [Nat.toDigits_eq_if (by decide)] at member
    split at member
    next small =>
      rw [List.mem_singleton.mp member]
      exact last n small
    next large =>
      rcases List.mem_append.mp member with before | here
      · exact ih (n / 16) (Nat.div_lt_self (by omega) (by decide)) c before
      · rw [List.mem_singleton.mp here]
        exact last _ (Nat.mod_lt _ (by decide))

private theorem not_mem_of_digits {text : List Char} (digits : ∀ c ∈ text, c.isDigit = true) {c : Char}
    (other : c.isDigit = false) :
    c ∉ text := by
  intro member
  rw [digits c member] at other
  cases other

private theorem count_digits (n : Nat) {c : Char} (other : c.isDigit = false) : (toString n).toList.count c = 0 :=
  List.count_eq_zero.mpr (not_mem_of_digits (digits_toString n) other)

theorem dotted_toList (ip : Nat) :
    (dotted ip).toList = (toString ((ip >>> 24) % 256)).toList ++
      '.' :: ((toString ((ip >>> 16) % 256)).toList ++ '.' ::
      ((toString ((ip >>> 8) % 256)).toList ++ '.' :: (toString (ip % 256)).toList)) := by
  simp only [dotted, String.toList_append, List.append_assoc]
  rfl

theorem dotted_chars (ip : Nat) : ∀ c ∈ (dotted ip).toList, c.isDigit = true ∨ c = '.' := by
  intro c member
  rw [dotted_toList] at member
  simp only [List.mem_append, List.mem_cons] at member
  rcases member with first | dot | second | dot | third | dot | fourth
  · exact Or.inl (digits_toString _ c first)
  · exact Or.inr dot
  · exact Or.inl (digits_toString _ c second)
  · exact Or.inr dot
  · exact Or.inl (digits_toString _ c third)
  · exact Or.inr dot
  · exact Or.inl (digits_toString _ c fourth)

private theorem dotted_dots (ip : Nat) : (dotted ip).toList.count '.' = 3 := by
  rw [dotted_toList]
  simp only [List.count_append, List.count_cons, count_digits _ (by decide : '.'.isDigit = false)]
  rfl

private theorem ipv6Parts_chars (fuel r : Nat) (lastPart : Bool) {ipv6str : Option String}
    (before : ∀ text, ipv6str = some text → ∀ c ∈ text.toList, hex c = true ∨ c = ':') :
    ∀ text, IpAddress.ipv6Parts fuel r ipv6str lastPart = some text → ∀ c ∈ text.toList, hex c = true ∨ c = ':' := by
  induction fuel generalizing r ipv6str lastPart with
  | zero => exact before
  | succ fuel ih =>
    rw [IpAddress.ipv6Parts]
    split
    · exact before
    have part (n : Nat) : ∀ c ∈ (IpAddress.hex n).toList, hex c = true := by
      rw [IpAddress.hex, String.toList_ofList]
      exact hex_toDigits n
    refine ih _ _ ?_
    intro text made c member
    cases ipv6str with
    | none =>
      simp only at made
      split at made
      · cases made
      · split at made <;> cases made
        · exact Or.inl (part _ c member)
        · rw [String.toList_append] at member
          rcases List.mem_append.mp member with inside | colons
          · exact Or.inl (part _ c inside)
          · simp only [String.reduceToList, List.mem_cons, List.not_mem_nil, or_false, or_self] at colons
            exact Or.inr colons
    | some old =>
      cases made
      rw [String.toList_append, String.toList_append] at member
      rcases List.mem_append.mp member with inside | later
      · rcases List.mem_append.mp inside with inside | colon
        · exact Or.inl (part _ c inside)
        · exact Or.inr (List.mem_singleton.mp colon)
      · exact before old rfl c later

private theorem getIPv6Address_chars (ip : IpAddress) : ∀ c ∈ ip.getIPv6Address.toList, hex c = true ∨ c = ':' := by
  rw [IpAddress.getIPv6Address]
  cases made : IpAddress.ipv6Parts 8 ip.netAddress none true with
  | none =>
    intro c member
    simp only [Option.getD_none, String.reduceToList, List.mem_cons, List.not_mem_nil, or_false, or_self] at member
    exact Or.inr member
  | some text =>
    have before : ∀ text, (none : Option String) = some text → ∀ c ∈ text.toList, hex c = true ∨ c = ':' := by
      intro text other
      cases other
    exact ipv6Parts_chars 8 ip.netAddress true before text made

/-! ### Networks -/

private theorem printed_digit {c : Char} (digit : c.isDigit = true) : printed c = true := by
  simp [printed, hex, digit]

private theorem toText_ipv4 {ip : IpAddress} (isV4 : ip.isV4 = true) :
    ip.toText.toList = (dotted ip.netAddress).toList ++ '/' :: (toString ip.networkMask).toList := by
  simp only [IpAddress.toText, isV4, if_true, String.toList_append, List.append_assoc]
  rfl

private theorem toText_ipv6 {ip : IpAddress} (isV6 : ip.isV4 = false) :
    ip.toText.toList = ip.getIPv6Address.toList ++ '/' :: (toString ip.networkMask).toList := by
  simp only [IpAddress.toText, isV6, Bool.false_eq_true, if_false, String.toList_append, List.append_assoc]
  rfl

private theorem toText_chars (ip : IpAddress) : ∀ c ∈ ip.toText.toList, printed c = true ∧ c ≠ '|' := by
  have digit {c : Char} (digit : c.isDigit = true) : printed c = true ∧ c ≠ '|' := by
    refine ⟨printed_digit digit, ?_⟩
    rintro rfl
    exact absurd digit (by decide)
  have slash {c : Char} {n : Nat} (member : c ∈ '/' :: (toString n).toList) : printed c = true ∧ c ≠ '|' := by
    rcases List.mem_cons.mp member with rfl | inside
    · decide
    · exact digit (digits_toString n c inside)
  intro c member
  cases isV4 : ip.isV4 with
  | true =>
    rw [toText_ipv4 isV4] at member
    rcases List.mem_append.mp member with address | length
    · rcases dotted_chars _ c address with inside | rfl
      · exact digit inside
      · decide
    · exact slash length
  | false =>
    rw [toText_ipv6 isV4] at member
    rcases List.mem_append.mp member with address | length
    · rcases getIPv6Address_chars ip c address with inside | rfl
      · refine ⟨by simp [printed, inside], ?_⟩
        rintro rfl
        exact absurd inside (by decide)
      · decide
    · exact slash length

private theorem toText_dots (ip : IpAddress) : ip.toText.toList.count '.' = if ip.isV4 then 3 else 0 := by
  cases isV4 : ip.isV4 with
  | true =>
    rw [toText_ipv4 isV4, List.count_append, dotted_dots, List.count_cons, count_digits _ (by decide)]
    rfl
  | false =>
    rw [toText_ipv6 isV4, List.count_append, List.count_cons, count_digits _ (by decide)]
    have none : ip.getIPv6Address.toList.count '.' = 0 := by
      refine List.count_eq_zero.mpr fun member => ?_
      rcases getIPv6Address_chars ip _ member with inside | other
      · exact absurd inside (by decide)
      · exact absurd other (by decide)
    rw [none]
    rfl

private theorem toText_slash (ip : IpAddress) : ip.toText.toList.count '/' = 1 := by
  cases isV4 : ip.isV4 with
  | true =>
    rw [toText_ipv4 isV4, List.count_append, List.count_cons, count_digits _ (by decide)]
    have none : (dotted ip.netAddress).toList.count '/' = 0 := by
      refine List.count_eq_zero.mpr fun member => ?_
      rcases dotted_chars _ _ member with inside | other
      · exact absurd inside (by decide)
      · exact absurd other (by decide)
    rw [none]
    rfl
  | false =>
    rw [toText_ipv6 isV4, List.count_append, List.count_cons, count_digits _ (by decide)]
    have none : ip.getIPv6Address.toList.count '/' = 0 := by
      refine List.count_eq_zero.mpr fun member => ?_
      rcases getIPv6Address_chars ip _ member with inside | other
      · exact absurd inside (by decide)
      · exact absurd other (by decide)
    rw [none]
    rfl

private theorem toText_nonempty (ip : IpAddress) : ip.toText.toList ≠ [] := by
  intro empty
  have slash := toText_slash ip
  rw [empty] at slash
  cases slash

def nets (space : NetworkSpace) (included : Bool) : List (List Char) :=
  (space.getNetworks included).map fun ip => ip.toText.toList

def joined (first second : List (List Char)) : List Char :=
  ['|'].intercalate first ++ ['|'].intercalate second

private theorem count_intercalate {c : Char} (other : c ≠ '|') (texts : List (List Char)) :
    (['|'].intercalate texts).count c = (texts.map (List.count c)).sum := by
  induction texts with
  | nil => rfl
  | cons text texts ih =>
    cases texts with
    | nil => simp
    | cons next texts =>
      have bar : (['|'] : List Char).count c = 0 := by simp [other.symm]
      rw [List.intercalate_cons_cons, List.count_append, List.count_append, ih, bar, Nat.add_zero]
      rfl

private theorem join_toList (texts : List String) :
    ("|".intercalate texts).toList = ['|'].intercalate (texts.map String.toList) := by
  induction texts with
  | nil => rfl
  | cons text texts ih =>
    cases texts with
    | nil => simp
    | cons next texts =>
      rw [String.intercalate_cons_cons, String.toList_append, String.toList_append, ih]
      simp

private theorem joined_chars {first second : List (List Char)} (clean : ∀ text ∈ first, ∀ c ∈ text, printed c = true)
    (clean' : ∀ text ∈ second, ∀ c ∈ text, printed c = true) : ∀ c ∈ joined first second, printed c = true := by
  have half {texts : List (List Char)} (clean : ∀ text ∈ texts, ∀ c ∈ text, printed c = true) :
      ∀ c ∈ ['|'].intercalate texts, printed c = true := by
    induction texts with
    | nil => simp
    | cons text texts ih =>
      obtain ⟨here, later⟩ := List.forall_mem_cons.mp clean
      cases texts with
      | nil => simpa using here
      | cons next texts =>
        intro c member
        rw [List.intercalate_cons_cons] at member
        simp only [List.mem_append] at member
        rcases member with (inside | bar) | after
        · exact here c inside
        · rw [List.mem_singleton.mp bar]
          decide
        · exact ih later c after
  intro c member
  rcases List.mem_append.mp member with before | after
  · exact half clean c before
  · exact half clean' c after

/-! ### Settings -/

def AddressText (text : String) : Prop :=
  (∀ c ∈ text.toList, printed c = true) ∧ '|' ∉ text.toList ∧ text.toList ≠ []

/-- The text of an IPv6 address and its length: hexadecimal digits up to the first colon. -/
def IPv6Text (text : String) : Prop :=
  AddressText text ∧ ∃ digits rest, text.toList = digits ++ ':' :: rest ∧ ∀ c ∈ digits, hex c = true

structure Printed (s : OpenVPNService) : Prop where
  mLocalIPv6 : ∀ text, s.mLocalIPv6 = some text → IPv6Text text
  mDnslist : ∀ dns ∈ s.mDnslist, AddressText dns
  mRoutes : ∀ ip ∈ s.mRoutes.mIpAddresses, ip.isV4 = true
  mRoutesv6 : ∀ ip ∈ s.mRoutesv6.mIpAddresses, ip.isV4 = false

def localIP (s : OpenVPNService) : List (List Char) := s.mLocalIP.toList.map fun ip => ip.toText.toList

def localIPv6 (s : OpenVPNService) : List (List Char) := s.mLocalIPv6.toList.map String.toList

/-- Settings whose texts are the same: an unset domain is printed like the domain "null",
and the last IPv4 network of a list may be cut elsewhere from the IPv6 networks behind it. -/
structure PrintedAlike (s t : OpenVPNService) : Prop where
  addresses : RunTogether '|' (localIP s) (localIPv6 s) (localIP t) (localIPv6 t)
  included : RunTogether '|' (nets s.mRoutes true) (nets s.mRoutesv6 true) (nets t.mRoutes true)
    (nets t.mRoutesv6 true)
  excluded : RunTogether '|' (nets s.mRoutes false) (nets s.mRoutesv6 false) (nets t.mRoutes false)
    (nets t.mRoutesv6 false)
  dns : s.mDnslist = t.mDnslist
  domain : s.mDomain.getD "null" = t.mDomain.getD "null"
  mtu : s.mMtu = t.mMtu

/-- The part of the text that depends on the networks with a flag. -/
def routes (s : OpenVPNService) (included : Bool) : List Char :=
  joined (nets s.mRoutes included) (nets s.mRoutesv6 included)

def addresses (s : OpenVPNService) : List Char := joined (localIP s) (localIPv6 s)

def servers (s : OpenVPNService) : List Char := ['|'].intercalate (s.mDnslist.map String.toList)

def tail (s : OpenVPNService) : List Char :=
  (s.mDomain.getD "null").toList ++ ("mtu: ".toList ++ (toString s.mMtu.toInt).toList)

private theorem config_toList (s : OpenVPNService) :
    s.getTunConfigString.toList =
      "TUNCFG UNQIUE STRING ips:".toList ++ (addresses s ++ ("routes: ".toList ++ (routes s true ++
        ("excl. routes:".toList ++
          (routes s false ++ ("dns: ".toList ++ (servers s ++ ("domain: ".toList ++ tail s)))))))) := by
  have list (space : NetworkSpace) (included : Bool) :
      (join (space.getNetworks included)).toList = ['|'].intercalate (nets space included) := by
    rw [join, join_toList, List.map_map]
    rfl
  have ipv4 : ((s.mLocalIP.map CIDRIP.toText).getD "").toList = ['|'].intercalate (localIP s) := by
    rw [localIP]
    cases s.mLocalIP <;> simp
  have ipv6 : (s.mLocalIPv6.getD "").toList = ['|'].intercalate (localIPv6 s) := by
    rw [localIPv6]
    cases s.mLocalIPv6 <;> simp
  have dns : ("|".intercalate s.mDnslist).toList = servers s := join_toList s.mDnslist
  delta getTunConfigString
  simp only [String.toList_append, List.append_assoc, -String.reduceToList, addresses, routes, tail, joined]
  rw [list, list, list, list, ipv4, ipv6, dns]

private theorem localIP_chars (s : OpenVPNService) : ∀ text ∈ localIP s, ∀ c ∈ text, printed c = true ∧ c ≠ '|' := by
  intro text member
  obtain ⟨ip, -, rfl⟩ := List.mem_map.mp member
  intro c inside
  have same : ip.toText.toList = (dotted ip.mIp.toNat).toList ++ '/' :: (toString ip.len).toList := by
    simp only [CIDRIP.toText, String.toList_append, List.append_assoc]
    rfl
  have digit {c : Char} (digit : c.isDigit = true) : printed c = true ∧ c ≠ '|' := by
    refine ⟨printed_digit digit, ?_⟩
    rintro rfl
    exact absurd digit (by decide)
  rw [same] at inside
  rcases List.mem_append.mp inside with address | length
  · rcases dotted_chars _ c address with number | rfl
    · exact digit number
    · decide
  · rcases List.mem_cons.mp length with rfl | number
    · decide
    · exact digit (digits_toString _ c number)

private theorem localIPv6_address {s : OpenVPNService} (print : Printed s) :
    ∀ text ∈ localIPv6 s, (∀ c ∈ text, printed c = true) ∧ '|' ∉ text ∧ text ≠ [] := by
  intro text member
  obtain ⟨address, set, rfl⟩ := List.mem_map.mp member
  exact (print.mLocalIPv6 address (Option.mem_toList.mp set)).1

theorem localIP_seen {s : OpenVPNService} (print : Printed s) :
    ((addresses s).dropWhile hex).head? = some '.' ↔ s.mLocalIP.isSome = true := by
  cases ip : s.mLocalIP with
  | some cidr =>
    refine iff_of_true ?_ rfl
    have first : ∀ c ∈ (toString ((cidr.mIp.toNat >>> 24) % 256)).toList, hex c = true := by
      intro c member
      simp [hex, digits_toString _ c member]
    simp only [addresses, joined, localIP, ip, Option.toList_some, List.map_cons, List.map_nil,
      List.intercalate_singleton,
      CIDRIP.toText, String.toList_append, dotted_toList, List.append_assoc, List.cons_append]
    rw [List.dropWhile_append_of_pos first, List.dropWhile_cons_of_neg (by decide)]
    rfl
  | none =>
    refine iff_of_false ?_ nofun
    rw [addresses, joined, localIP, ip, localIPv6]
    cases address : s.mLocalIPv6 with
    | none => nofun
    | some text =>
      obtain ⟨-, digits, rest, split, before⟩ := print.mLocalIPv6 text address
      simp only [Option.toList_none, List.map_nil, List.intercalate_nil, List.nil_append, Option.toList_some,
        List.map_cons,
        List.intercalate_singleton, split]
      rw [List.dropWhile_append_of_pos before, List.dropWhile_cons_of_neg (by decide)]
      nofun

private theorem mem_nets {space : NetworkSpace} {included : Bool} {text : List Char}
    (member : text ∈ nets space included) :
    ∃ ip ∈ space.mIpAddresses, ip.toText.toList = text := by
  obtain ⟨ip, inside, rfl⟩ := List.mem_map.mp member
  exact ⟨ip, (List.mem_filter.mp inside).1, rfl⟩

private theorem nets_chars {space : NetworkSpace} {included : Bool} :
    ∀ text ∈ nets space included, ∀ c ∈ text, printed c = true ∧ c ≠ '|' := by
  intro text member
  obtain ⟨ip, -, rfl⟩ := mem_nets member
  exact toText_chars ip

private theorem routes_chars (s : OpenVPNService) (included : Bool) : ∀ c ∈ routes s included, printed c = true :=
  joined_chars (fun text member c inside => (nets_chars text member c inside).1)
    (fun text member c inside => (nets_chars text member c inside).1)

private theorem addresses_chars {s : OpenVPNService} (print : Printed s) : ∀ c ∈ addresses s, printed c = true :=
  joined_chars (fun text member c inside => (localIP_chars s text member c inside).1)
    (fun text member => (localIPv6_address print text member).1)

private theorem servers_chars {s : OpenVPNService} (print : Printed s) : ∀ c ∈ servers s, printed c = true := by
  have chars : ∀ text ∈ s.mDnslist.map String.toList, ∀ c ∈ text, printed c = true := by
    intro text member
    obtain ⟨dns, inside, rfl⟩ := List.mem_map.mp member
    exact (print.mDnslist dns inside).1
  have whole : servers s = joined (s.mDnslist.map String.toList) [] := (List.append_nil _).symm
  rw [whole]
  exact joined_chars chars nofun

/-! ### What the text shows -/

theorem nets_dots {space : NetworkSpace} {included isV4 : Bool} (family : ∀ ip ∈ space.mIpAddresses, ip.isV4 = isV4) :
    (['|'].intercalate (nets space included)).count '.' = if isV4 then 3 * (nets space included).length else 0 := by
  have each : (nets space included).map (List.count '.') = (nets space included).map fun _ =>
      if isV4 then 3 else 0 := by
    refine List.map_congr_left fun text member => ?_
    obtain ⟨ip, inside, rfl⟩ := mem_nets member
    rw [toText_dots, family ip inside]
  rw [count_intercalate (by decide), each, List.map_const', List.sum_replicate]
  cases isV4
  · rfl
  · exact Nat.mul_comm _ _

private theorem routes_dots {s : OpenVPNService} (print : Printed s) (included : Bool) :
    (routes s included).count '.' = 3 * (nets s.mRoutes included).length := by
  rw [routes, joined, List.count_append, nets_dots print.mRoutes, nets_dots print.mRoutesv6]
  rfl

private theorem routes_inj {s t : OpenVPNService} (print : Printed s) (print' : Printed t) {included : Bool}
    (same : routes s included = routes t included) :
    RunTogether '|' (nets s.mRoutes included) (nets s.mRoutesv6 included) (nets t.mRoutes included)
      (nets t.mRoutesv6 included) := by
  have dots := congrArg (List.count '.') same
  rw [routes_dots print, routes_dots print'] at dots
  have clean {space : NetworkSpace} : ∀ text ∈ nets space included, '|' ∉ text :=
    fun text member bar => (nets_chars text member '|' bar).2 rfl
  have piece {space : NetworkSpace} : ∀ text ∈ nets space included, '|' ∉ text ∧ text ≠ [] := by
    intro text member
    refine ⟨clean text member, ?_⟩
    obtain ⟨ip, -, rfl⟩ := mem_nets member
    exact toText_nonempty ip
  exact runTogether_of_eq '|' (Nat.eq_of_mul_eq_mul_left (by decide) dots) clean clean piece piece same

private theorem addresses_inj {s t : OpenVPNService} (print : Printed s) (print' : Printed t)
    (same : addresses s = addresses t) :
    RunTogether '|' (localIP s) (localIPv6 s) (localIP t) (localIPv6 t) := by
  have seen : s.mLocalIP.isSome = true ↔ t.mLocalIP.isSome = true := by
    rw [← localIP_seen print, ← localIP_seen print', same]
  have length : (localIP s).length = (localIP t).length := by
    rw [localIP, localIP, List.length_map, List.length_map]
    cases ip : s.mLocalIP <;> cases ip' : t.mLocalIP <;> simp_all
  have clean (s : OpenVPNService) : ∀ text ∈ localIP s, '|' ∉ text :=
    fun text member bar => (localIP_chars s text member '|' bar).2 rfl
  exact runTogether_of_eq '|' length (clean s) (clean t) (fun text member => (localIPv6_address print text member).2)
    (fun text member => (localIPv6_address print' text member).2) same

private theorem servers_inj {s t : OpenVPNService} (print : Printed s) (print' : Printed t)
    (same : servers s = servers t) :
    s.mDnslist = t.mDnslist := by
  have piece {s : OpenVPNService} (print : Printed s) : ∀ text ∈ s.mDnslist.map String.toList, '|' ∉ text ∧
      text ≠ [] := by
    intro text member
    obtain ⟨dns, inside, rfl⟩ := List.mem_map.mp member
    exact (print.mDnslist dns inside).2
  have texts := intercalate_inj '|' (piece print) (piece print') same
  exact List.map_injective_iff.mpr (fun _ _ same => String.toList_injective same) texts

private theorem toString_int_chars (i : Int) : ∀ c ∈ (toString i).toList, (c.isDigit || c == '-') = true := by
  intro c member
  cases i with
  | ofNat n =>
    have number : toString (Int.ofNat n) = toString n := rfl
    rw [number] at member
    simp [digits_toString n c member]
  | negSucc n =>
    have number : toString (Int.negSucc n) = "-" ++ toString (n + 1) := rfl
    rw [number, String.toList_append] at member
    rcases List.mem_append.mp member with minus | digit
    · have here : c = '-' := by simpa using minus
      simp [here]
    · simp [digits_toString _ c digit]

theorem tail_inj {s t : OpenVPNService} (same : tail s = tail t) :
    s.mDomain.getD "null" = t.mDomain.getD "null" ∧ s.mMtu = t.mMtu := by
  have back (s : OpenVPNService) : (tail s).reverse =
      (toString s.mMtu.toInt).toList.reverse ++
        ("mtu: ".toList.reverse ++ (s.mDomain.getD "null").toList.reverse) := by
    rw [tail, List.reverse_append, List.reverse_append, List.append_assoc]
  have chars (s : OpenVPNService) : ∀ c ∈ (toString s.mMtu.toInt).toList.reverse, (c.isDigit || c == '-') = true :=
    fun c member => toString_int_chars _ c (List.mem_reverse.mp member)
  have whole := congrArg List.reverse same
  rw [back, back] at whole
  obtain ⟨mtu, domain⟩ := append_mark_inj (p := fun c => c.isDigit || c == '-') (chars s) (chars t)
    ⟨' ', by simp, by decide⟩ whole
  refine ⟨String.toList_injective (List.reverse_injective domain), ?_⟩
  have text : s.mMtu.toInt.repr = t.mMtu.toInt.repr := String.toList_injective (List.reverse_injective mtu)
  exact BitVec.eq_of_toInt_eq (Int.repr_inj.mp text)

/-- What two printed texts being equal means. -/
theorem sameText_iff {s t : OpenVPNService} (print : Printed s) (print' : Printed t) :
    s.getTunConfigString = t.getTunConfigString ↔ PrintedAlike s t := by
  constructor
  · intro same
    have whole := congrArg String.toList same
    rw [config_toList, config_toList] at whole
    have rest := List.append_cancel_left whole
    obtain ⟨address, rest⟩ :=
      append_mark_inj (addresses_chars print) (addresses_chars print') ⟨'r', by simp, by decide⟩ rest
    obtain ⟨included, rest⟩ :=
      append_mark_inj (routes_chars s true) (routes_chars t true) ⟨'x', by simp, by decide⟩ rest
    obtain ⟨excluded, rest⟩ :=
      append_mark_inj (routes_chars s false) (routes_chars t false) ⟨'n', by simp, by decide⟩ rest
    obtain ⟨dns, rest⟩ := append_mark_inj (servers_chars print) (servers_chars print') ⟨'o', by simp, by decide⟩ rest
    obtain ⟨domain, mtu⟩ := tail_inj rest
    exact ⟨addresses_inj print print' address, routes_inj print print' included, routes_inj print print' excluded,
      servers_inj print print' dns, domain, mtu⟩
  · intro alike
    refine String.toList_injective ?_
    have address : addresses s = addresses t := alike.addresses.eq
    have included : routes s true = routes t true := alike.included.eq
    have excluded : routes s false = routes t false := alike.excluded.eq
    have dns : servers s = servers t := by rw [servers, servers, alike.dns]
    have rest : tail s = tail t := by rw [tail, tail, alike.domain, alike.mtu]
    rw [config_toList, config_toList, address, included, excluded, dns, rest]

private theorem length_nets (space : NetworkSpace) :
    (nets space true).length + (nets space false).length = space.mIpAddresses.length := by
  rw [nets, nets, List.length_map, List.length_map, NetworkSpace.getNetworks, NetworkSpace.getNetworks]
  have other : ∀ ip ∈ space.mIpAddresses, (ip.included == false) = !(ip.included == true) := by
    intro ip _
    cases ip.included <;> rfl
  rw [List.filter_congr other]
  exact (List.length_eq_length_filter_add _).symm

theorem routes_slashes (s : OpenVPNService) (included : Bool) :
    (routes s included).count '/' = (nets s.mRoutes included).length + (nets s.mRoutesv6 included).length := by
  have each (space : NetworkSpace) : (['|'].intercalate (nets space included)).count '/' =
      (nets space included).length := by
    have one : (nets space included).map (List.count '/') = (nets space included).map fun _ => 1 := by
      refine List.map_congr_left fun text member => ?_
      obtain ⟨ip, -, rfl⟩ := mem_nets member
      exact toText_slash ip
    rw [count_intercalate (by decide), one, List.map_const', List.sum_replicate, smul_eq_mul, mul_one]
  rw [routes, joined, List.count_append, each, each]

theorem PrintedAlike.length_routes {s t : OpenVPNService} (alike : PrintedAlike s t) :
    s.mRoutes.mIpAddresses.length + s.mRoutesv6.mIpAddresses.length =
      t.mRoutes.mIpAddresses.length + t.mRoutesv6.mIpAddresses.length := by
  have included : (routes s true).count '/' = (routes t true).count '/' := congrArg _ alike.included.eq
  have excluded : (routes s false).count '/' = (routes t false).count '/' := congrArg _ alike.excluded.eq
  simp only [routes_slashes] at included excluded
  rw [← length_nets, ← length_nets, ← length_nets, ← length_nets]
  omega

end RRoadVpn.Proofs.TunTexts
