import Mathlib.Data.BitVec
import RRoadVpn.Proofs.ImportSteps

/-! Which configs make an import fail in a way that it does not declare. There are four
options with such arguments; one of them does it if everything before it is accepted. -/

namespace RRoadVpn.Proofs.ImportErrors
open RRoadVpn.Library RRoadVpn.ConfigParser RRoadVpn.Proofs.ImportSteps
open JavaText (Text)

/-! ### Masks -/

/-- The loop over the zeros of the mask meets no one. -/
def Endless (mask : Text) : Prop := getInt mask = .ok (-bit33)

/-- The mask has numbers for parts, but fewer than four. -/
def Short (mask : Text) : Prop := getInt mask = .error .ArrayIndexOutOfBounds

private theorem lenZeros_eq_none {fuel : Nat} {netmask : BitVec 64} (fits : fuel ≤ 64) :
    lenZeros fuel netmask = none ↔ ∀ i < fuel, netmask.getLsbD i = false := by
  induction fuel generalizing netmask with
  | zero => simp [lenZeros]
  | succ fuel ih =>
    have odd : netmask &&& 1 = 0 ↔ netmask.getLsbD 0 = false := by
      rw [BitVec.eq_of_getLsbD_eq_iff]
      constructor
      · intro zero
        simpa using zero 0 (by decide)
      · intro even i inside
        cases i with
        | zero => simpa using even
        | succ i => simp
    rw [lenZeros]
    split
    next even =>
      have shifted (i : Nat) (inside : i < fuel) : (netmask.sshiftRight 1).getLsbD i = netmask.getLsbD (i + 1) := by
        rw [BitVec.getLsbD_sshiftRight, if_pos (by omega), Nat.add_comm]
        simp
        omega
      rw [Option.map_eq_none_iff, ih (by omega)]
      constructor
      · intro zeros i inside
        cases i with
        | zero => exact odd.mp even
        | succ i => exact (shifted i (by omega)).symm.trans (zeros i (by omega))
      · intro zeros i inside
        rw [shifted i inside]
        exact zeros (i + 1) (by omega)
    next one => exact iff_of_false nofun fun zeros => one (odd.mpr (zeros 0 (by omega)))

theorem maskLength_eq_none (netmask : BitVec 64) : maskLength netmask = none ↔ netmask = -bit33 := by
  have zero (x : BitVec 64) : (∀ i < 64, x.getLsbD i = false) ↔ x = 0 := by
    rw [BitVec.eq_of_getLsbD_eq_iff]
    simp only [BitVec.ofNat_eq_ofNat, BitVec.getLsbD_zero]
  rw [maskLength, Option.map_eq_none_iff, lenZeros_eq_none (by decide), zero]
  exact add_eq_zero_iff_eq_neg

private theorem calculateLenFromMask_error {mask : Text} {e : ImportError} :
    calculateLenFromMask mask = .error e ↔ (∃ r, getInt mask = .error r ∧ e = .runtime r) ∨
      (Endless mask ∧ e = .endless) := by
  have endless := maskLength_eq_none
  rw [calculateLenFromMask, Endless]
  -- The loop would be unrolled.
  generalize maskLength = length at endless ⊢
  generalize -bit33 = top at endless ⊢
  cases getInt mask with
  | error r => simp [eq_comm]
  | ok netmask =>
    have same := endless netmask
    simp only [reduceCtorEq, false_and, exists_false, Except.ok.injEq, false_or, ← same]
    cases length netmask with
    | none => simp [eq_comm]
    | some len => simp

private theorem cidrip_error {ip mask : Text} {e : ImportError} :
    cidrip ip mask = .error e ↔ (∃ r, getInt mask = .error r ∧ e = .runtime r) ∨ (Endless mask ∧ e = .endless) := by
  rw [← calculateLenFromMask_error, cidrip]
  cases calculateLenFromMask mask <;> simp [bind, Except.bind, pure, Except.pure]

/-! ### Passes that can fail otherwise -/

def netmaskOf (line : Args) : Text := if line.length ≥ 3 then arg line 2 else "255.255.255.255".toList

private theorem route_declared {line : Args} :
    (∀ e, route line = .error e → Declared e) ↔ ¬ Endless (netmaskOf line) := by
  have read (e : ImportError) := @cidrip_error (arg line 1) (netmaskOf line) e
  constructor
  · intro declared endless
    have failed : route line = .error .endless := by
      rw [route, ← netmaskOf, (read .endless).mpr (Or.inr ⟨endless, rfl⟩)]
    obtain ⟨d, other⟩ := declared _ failed
    cases other
  · intro ends e failed
    rw [route, ← netmaskOf] at failed
    cases cidr : cidrip (arg line 1) (netmaskOf line) with
    | ok cidr =>
      rw [cidr] at failed
      cases failed
    | error other =>
      rw [cidr] at failed
      rcases (read other).mp cidr with ⟨r, -, rfl⟩ | ⟨endless, -⟩
      · cases failed
        exact declared_parseError _
      · exact absurd endless ends

/-- Routes are converted up to the first that cannot be; its mask does not make a loop without end. -/
def RoutesEnd (options : Options) : Prop :=
  ∀ lines, options.lookup "route".toList = some lines → InRange 1 4 lines →
    ∀ earlier line later, lines = earlier ++ line :: later → (∀ other ∈ earlier, ∃ cidr, route other = .ok cidr) →
      ¬ Endless (netmaskOf line)

theorem routes_declared {np : Draft} {options : Options} :
    FailsAt Declared (allOptions "route" 1 4 routes np) options ↔ RoutesEnd options := by
  have convert (lines : List Args) : (∀ e, routes np lines = .error e → Declared e) ↔
      ∀ e, lines.mapM route = .error e → Declared e := by
    have same (e : ImportError) : routes np lines = .error e ↔ lines.mapM route = .error e := by
      rw [routes]
      cases lines.mapM route <;> simp [bind, Except.bind, pure, Except.pure]
    simp only [same]
  rw [allOptions, failsAt_bind]
  constructor
  · rintro ⟨-, fails⟩ lines present inRange earlier line later split before
    have here := fails (some lines) _ (getAllOption_ok.mpr ⟨present.symm, rfl, fun other found => ?_⟩)
    · rw [← route_declared]
      intro e failed
      refine (convert lines).mp (fun e failed => here e (checked_error.mpr failed)) e ?_
      exact mapM_error.mpr ⟨earlier, line, later, split, before, failed⟩
    · rw [present] at found
      cases found
      exact inRange
  · intro ends
    refine ⟨(getAllOption_failsWith "route" 1 4).at options, fun found rest read => ?_⟩
    obtain ⟨rfl, -, inRange⟩ := getAllOption_ok.mp read
    cases present : options.lookup "route".toList with
    | none => exact (FailsWith.pure np).at rest
    | some lines =>
      intro e failed
      refine (convert lines).mpr ?_ e (checked_error.mp failed)
      intro e failed
      obtain ⟨earlier, line, later, split, before, here⟩ := mapM_error.mp failed
      exact route_declared.mpr (ends lines present (inRange lines present) earlier line later split before) e here

theorem checkedOption_failsAt {name : String} {minarg maxarg : Nat} {set : Draft → Args → Except ImportError Draft}
    {np : Draft} {options : Options} :
    FailsAt Declared (checkedOption name minarg maxarg set np) options ↔
      ∀ lines line, options.lookup name.toList = some lines → InRange minarg maxarg lines →
        lines.getLast? = some line →
        ∀ e, set np line = .error e → Declared e := by
  rw [checkedOption, failsAt_bind]
  constructor
  · rintro ⟨-, fails⟩ lines line present inRange last e failed
    refine fails (some line) _ (getOption_ok.mpr ⟨?_, rfl, ?_⟩) e (checked_error.mpr failed)
    · rw [present, Option.bind_some, last]
    · intro other found
      rw [present] at found
      cases found
      exact inRange
  · intro declared
    refine ⟨(getOption_failsWith name minarg maxarg).at options, fun found rest read => ?_⟩
    obtain ⟨same, -, inRange⟩ := getOption_ok.mp read
    cases found with
    | none => exact (FailsWith.pure np).at rest
    | some line =>
      obtain ⟨lines, present, last⟩ := Option.bind_eq_some_iff.mp same.symm
      intro e failed
      exact declared lines line present (inRange lines present) last e (checked_error.mp failed)

/-- The mask of the local address has four parts and does not make a loop without end. -/
def IfconfigRead (options : Options) : Prop :=
  ∀ lines line, options.lookup "ifconfig".toList = some lines → InRange 2 2 lines → lines.getLast? = some line →
    ¬ Short (arg line 2) ∧ ¬ Endless (arg line 2)

private theorem part_error {parse : Text → Option Int} {ipt : List Text} {i : Nat} {r : RuntimeException}
    (failed : part parse ipt i = .error r) : r = .ArrayIndexOutOfBounds ∨ ∃ s, r = .NumberFormat s := by
  unfold part at failed
  split at failed
  · cases failed
    exact Or.inl rfl
  next s _ =>
    split at failed
    · cases failed
      exact Or.inr ⟨s, rfl⟩
    · cases failed

private theorem getInt_error {ipaddr : Text} {r : RuntimeException} (failed : getInt ipaddr = .error r) :
    r = .ArrayIndexOutOfBounds ∨ ∃ s, r = .NumberFormat s := by
  rw [getInt] at failed
  simp only [bind, Except.bind] at failed
  repeat
    split at failed
    next error => cases failed; exact part_error error
  cases failed

theorem ifconfig_declared {np : Draft} {line : Args} :
    (∀ e, ifconfig np line = .error e → Declared e) ↔ ¬ Short (arg line 2) ∧ ¬ Endless (arg line 2) := by
  have read (e : ImportError) := @cidrip_error (arg line 1) (arg line 2) e
  constructor
  · intro declared
    constructor
    · intro short
      have failed : ifconfig np line = .error (.runtime .ArrayIndexOutOfBounds) := by
        rw [ifconfig, (read _).mpr (Or.inl ⟨_, short, rfl⟩)]
      obtain ⟨d, other⟩ := declared _ failed
      cases other
    · intro endless
      have failed : ifconfig np line = .error .endless := by
        rw [ifconfig, (read _).mpr (Or.inr ⟨endless, rfl⟩)]
      obtain ⟨d, other⟩ := declared _ failed
      cases other
  · rintro ⟨long, ends⟩ e failed
    rw [ifconfig] at failed
    cases cidr : cidrip (arg line 1) (arg line 2) with
    | ok cidr =>
      rw [cidr] at failed
      cases failed
    | error other =>
      rw [cidr] at failed
      rcases (read other).mp cidr with ⟨r, unread, rfl⟩ | ⟨endless, -⟩
      · rcases getInt_error unread with rfl | ⟨s, rfl⟩
        · exact absurd unread long
        · cases failed
          exact declared_parseError _
      · exact absurd endless ends

/-- The argument is one of those that are known. -/
def AuthRetryRead (options : Options) : Prop :=
  ∀ lines line, options.lookup "auth-retry".toList = some lines → InRange 1 1 lines → lines.getLast? = some line →
    AuthRetryKnown line

theorem authretry_declared {np : Draft} {line : Args} (one : line.length = 2) :
    (∀ e, authretry np line = .error e → Declared e) ↔ AuthRetryKnown line := by
  have missing : line.length ≤ 2 := by omega
  simp only [AuthRetryKnown, List.map_cons, List.map_nil, List.mem_cons, List.not_mem_nil, or_false]
  unfold authretry
  constructor
  · intro declared
    by_contra unknown
    simp only [not_or] at unknown
    obtain ⟨d, other⟩ := declared (.runtime .ArrayIndexOutOfBounds)
      (by rw [if_neg unknown.1, if_neg unknown.2.1, if_neg unknown.2.2, List.getElem?_eq_none missing])
    cases other
  · rintro known e failed
    split at failed
    · cases failed
    · split at failed
      · cases failed
      · split at failed
        · cases failed
        next first second third =>
          rcases known with known | known | known
          · exact absurd known first
          · exact absurd known second
          · exact absurd known third

/-! ### Connections -/

private theorem isUdpProto_error {proto : Text} {e : ImportError} (failed : isUdpProto proto = .error e) :
    Declared e := by
  unfold isUdpProto at failed
  split at failed
  · cases failed
  · split at failed
    · cases failed
    · cases failed
      exact declared_parseError _

theorem option_failsWith {δ : Type} (name : String) (minarg maxarg : Nat) (set : δ → Args → δ) (d : δ) :
    FailsWith Declared (option name minarg maxarg set d) :=
  (getOption_failsWith name minarg maxarg).bind fun _ => FailsWith.pure _

theorem checkedOption_failsWith {δ : Type} (name : String) (minarg maxarg : Nat)
    {set : δ → Args → Except ImportError δ} {d : δ}
    (declared : ∀ args e, set d args = .error e → Declared e) :
    FailsWith Declared (checkedOption name minarg maxarg set d) := by
  refine (getOption_failsWith name minarg maxarg).bind fun args => ?_
  cases args with
  | none => exact FailsWith.pure d
  | some args => exact checked_failsWith (declared args)

private theorem connectionSettings_failsWith :
    ∀ pass ∈ connectionSettings, ∀ conn, FailsWith Declared (pass conn) := by
  have proto (conn : Connection) : FailsWith Declared (checkedOption "proto" 1 1 connectionProto conn) := by
    refine checkedOption_failsWith "proto" 1 1 fun args e failed => ?_
    rw [connectionProto] at failed
    cases udp : isUdpProto (arg args 1) with
    | error other =>
      rw [udp] at failed
      cases failed
      exact isUdpProto_error udp
    | ok isudp =>
      rw [udp] at failed
      cases failed
  have timeout (conn : Connection) : FailsWith Declared
      (checkedOption "connect-timeout" 1 1 connectTimeout conn) := by
    refine checkedOption_failsWith "connect-timeout" 1 1 fun args e failed => ?_
    simp only [connectTimeout] at failed
    split at failed <;> cases failed
    exact declared_parseError _
  have proxy (conn : Connection) : FailsWith Declared (proxySettings conn) := by
    refine (getOption_failsWith "socks-proxy" 1 2).bind fun socks => ?_
    cases socks with
    | none => exact option_failsWith "http-proxy" 2 2 connectionProxy conn
    | some proxy => exact FailsWith.pure _
  simp only [connectionSettings, List.forall_mem_cons]
  exact ⟨option_failsWith _ _ _ _, option_failsWith _ _ _ _, proto, timeout, proxy, option_failsWith _ _ _ _,
    List.forall_mem_nil _⟩

private theorem remoteConnection_error {conn : Connection} {remote : Args} {e : ImportError}
    (failed : remoteConnection conn remote = .error e) : Declared e := by
  rw [remoteConnection] at failed
  split at failed
  · cases udp : isUdpProto (arg remote 3) with
    | error other =>
      rw [udp] at failed
      cases failed
      exact isUdpProto_error udp
    | ok isudp =>
      rw [udp] at failed
      cases failed
  · cases failed

section Connections

variable {entrySet : EntrySet}

private theorem leftover_failsWith (inBlock : Bool) (conn : Connection) :
    FailsWith Declared (leftover entrySet inBlock conn) := by
  intro options e failed
  cases failed

private theorem parseConnectionOptions_failsWith (connDefault : Option Connection) :
    FailsWith Declared (parseConnectionOptions entrySet connDefault) := by
  refine (runPasses_failsWith connectionSettings_failsWith _).bind fun conn =>
    (getAllOption_failsWith "remote" 1 3).bind fun remotes => (leftover_failsWith _ conn).bind fun conn =>
      FailsWith.bind ?_ fun connections => FailsWith.pure _
  refine checked_failsWith fun e failed => ?_
  obtain ⟨_, remote, _, _, _, here⟩ := mapM_error.mp failed
  exact remoteConnection_error here

theorem parseConnection_declared {connection : Text} {defaultValues : Connection} :
    (∀ e, parseConnection entrySet connection defaultValues = .error e → Declared e) ↔
      VpnProfile.INLINE_TAG.length ≤ connection.length := by
  unfold parseConnection
  split
  next short =>
    refine iff_of_false (fun declared => ?_) (by omega)
    obtain ⟨d, other⟩ := declared _ rfl
    cases other
  next long =>
    refine iff_of_true (fun e failed => ?_) (by omega)
    split at failed
    · cases failed
      exact ⟨_, rfl⟩
    next parsed _ =>
      split at failed
      next error =>
        cases failed
        exact parseConnectionOptions_failsWith _ parsed.options e error
      · cases failed
      · cases failed
        exact declared_parseError _

variable (entrySet)

/-- Connections are read up to the first that cannot be; it is long enough for a block. -/
def BlocksEmbedded (options : Options) : Prop :=
  ∀ conn rest blocks, parseConnectionOptions entrySet none options = .ok ((conn, []), rest) →
    rest.lookup "connection".toList = some blocks → InRange 1 1 blocks →
      ∀ earlier block later, blocks = earlier ++ block :: later →
        (∀ other ∈ earlier, ∃ c, parseConnection entrySet (arg other 1) conn = .ok c) →
          VpnProfile.INLINE_TAG.length ≤ (arg block 1).length

variable {entrySet}

theorem connections_declared {np : Draft} {options : Options} :
    FailsAt Declared (connections entrySet np) options ↔ BlocksEmbedded entrySet options := by
  have blocksFail (conn : Connection) (blocks : List Args) (rest : Options) :
      FailsAt Declared (do
        let blocks ← checked (blocks.mapM fun block => parseConnection entrySet (arg block 1) conn)
        return { np with mConnections := blocks } : Import Draft) rest ↔
      ∀ e, blocks.mapM (fun block => parseConnection entrySet (arg block 1) conn) = .error e → Declared e := by
    rw [failsAt_bind]
    constructor
    · rintro ⟨first, -⟩ e failed
      exact first e (checked_error.mpr failed)
    · intro declared
      exact ⟨fun e failed => declared e (checked_error.mp failed), fun _ middle _ => (FailsWith.pure _).at middle⟩
  rw [connections, failsAt_bind]
  constructor
  · rintro ⟨-, fails⟩ conn rest blocks outside present inRange earlier block later split before
    have next := (failsAt_bind.mp (fails (conn, []) rest outside)).2 (some blocks) _
      (getAllOption_ok.mpr ⟨present.symm, rfl, fun other found => by
        rw [present] at found
        cases found
        exact inRange⟩)
    simp only [ne_eq, not_true_eq_false, if_false] at next
    rw [← parseConnection_declared]
    intro e failed
    exact (blocksFail conn blocks _).mp next e (mapM_error.mpr ⟨earlier, block, later, split, before, failed⟩)
  · intro embedded
    refine ⟨(parseConnectionOptions_failsWith none).at options, fun conns rest outside => ?_⟩
    rw [failsAt_bind]
    refine ⟨(getAllOption_failsWith "connection" 1 1).at rest, fun found middle read => ?_⟩
    obtain ⟨same, -, inRange⟩ := getAllOption_ok.mp read
    cases found with
    | none => exact (FailsWith.pure _).at middle
    | some blocks =>
      simp only
      split
      next others =>
        intro e failed
        have error := checked_error.mp failed
        cases error
        exact declared_parseError _
      next none =>
        rw [blocksFail]
        intro e failed
        obtain ⟨earlier, block, later, split, before, here⟩ := mapM_error.mp failed
        obtain ⟨conn, remotes⟩ := conns
        have empty : remotes = [] := not_not.mp none
        subst empty
        exact parseConnection_declared.mpr
          (embedded conn rest blocks outside same.symm
            (inRange blocks same.symm) earlier block later split before) e here

end Connections

end RRoadVpn.Proofs.ImportErrors
