import RRoadVpn.ConvertProfile

/-! What the steps of an import read and how they fail. An option is read as the parsed
config has it, since no other step takes it. -/

namespace RRoadVpn.Proofs.ImportSteps
open RRoadVpn.Library RRoadVpn.ConfigParser
open JavaText (Text)

def Declared (e : ImportError) : Prop := ∃ d, e = .configParseError d

/-- The numbers of arguments are in the range of an option. -/
def InRange (minarg maxarg : Nat) (lines : List Args) : Prop :=
  ∀ line ∈ lines, minarg + 1 ≤ line.length ∧ line.length ≤ maxarg + 1

theorem declared_parseError (message : Text) : Declared (parseError message) := ⟨_, rfl⟩

/-! ### Reading an option -/

private theorem erase_absent {options : Options} {key : Text} (absent : options.lookup key = none) :
    options.erase key = options := by
  refine AList.ext ?_
  have missing : key ∉ options := AList.lookup_eq_none.mp absent
  exact List.kerase_of_notMem_keys missing

theorem getAllOption_ok {name : String} {minarg maxarg : Nat} {options rest : Options} {found : Option (List Args)} :
    getAllOption name minarg maxarg options = .ok (found, rest) ↔
      found = options.lookup name.toList ∧ rest = options.erase name.toList ∧
        ∀ lines, options.lookup name.toList = some lines → InRange minarg maxarg lines := by
  unfold getAllOption
  cases present : options.lookup name.toList with
  | none => simp [erase_absent present, eq_comm]
  | some lines =>
    simp only
    split
    next line outside =>
      have wrong := List.find?_some outside
      refine iff_of_false (by simp) ?_
      rintro ⟨-, -, inRange⟩
      have here := inRange lines rfl line (List.mem_of_find?_eq_some outside)
      simp at wrong
      omega
    next inside =>
      have inRange : InRange minarg maxarg lines := by
        intro line member
        have passed := List.find?_eq_none.mp inside line member
        simp at passed
        omega
      simp only [Except.ok.injEq, Prod.mk.injEq, Option.some.injEq, forall_eq', inRange, and_true]
      exact and_congr eq_comm eq_comm

theorem getAllOption_failsWith (name : String) (minarg maxarg : Nat) :
    FailsWith Declared (getAllOption name minarg maxarg) := by
  intro options e failed
  unfold getAllOption at failed
  split at failed
  · cases failed
  · split at failed
    · cases failed
      exact declared_parseError _
    · cases failed

theorem getOption_ok {name : String} {minarg maxarg : Nat} {options rest : Options} {found : Option Args} :
    getOption name minarg maxarg options = .ok (found, rest) ↔
      found = (options.lookup name.toList).bind List.getLast? ∧ rest = options.erase name.toList ∧
        ∀ lines, options.lookup name.toList = some lines → InRange minarg maxarg lines := by
  unfold getOption
  rw [stateBind_ok]
  constructor
  · rintro ⟨lines, middle, read, last⟩
    obtain ⟨rfl, rfl, inRange⟩ := getAllOption_ok.mp read
    obtain ⟨rfl, rfl⟩ := statePure_ok.mp last
    exact ⟨rfl, rfl, inRange⟩
  · rintro ⟨rfl, rfl, inRange⟩
    exact ⟨_, _, getAllOption_ok.mpr ⟨rfl, rfl, inRange⟩, statePure_ok.mpr ⟨rfl, rfl⟩⟩

theorem getOption_failsWith (name : String) (minarg maxarg : Nat) :
    FailsWith Declared (getOption name minarg maxarg) :=
  (getAllOption_failsWith name minarg maxarg).bind fun _ => FailsWith.pure _

theorem checked_ok {α : Type} {result : Except ImportError α} {a : α} {options rest : Options} :
    checked result options = .ok (a, rest) ↔ result = .ok a ∧ rest = options := by
  unfold checked
  cases result with
  | error e => simp [Except.map]
  | ok b => simp [Except.map, eq_comm]

theorem checked_error {α : Type} {result : Except ImportError α} {e : ImportError} {options : Options} :
    checked result options = .error e ↔ result = .error e := by
  unfold checked
  cases result with
  | error e => simp [Except.map]
  | ok b => simp [Except.map]

theorem checked_failsWith {α : Type} {result : Except ImportError α}
    (declared : ∀ e, result = .error e → Declared e) :
    FailsWith Declared (checked result) := by
  intro options e failed
  exact declared e (checked_error.mp failed)

/-! ### What is left -/

def Keeps {α : Type} (names : List String) (x : Import α) : Prop :=
  ∀ options a rest, x options = .ok (a, rest) → ∀ key, key ∉ names →
    rest.lookup key.toList = options.lookup key.toList

private theorem lookup_erase_ne {options : Options} {key name : String} (other : key ≠ name) :
    (options.erase name.toList).lookup key.toList = options.lookup key.toList :=
  AList.lookup_erase_ne fun same => other (String.toList_injective same)

namespace Keeps

variable {α β : Type} {names : List String}

private theorem pure (a : α) : Keeps names (Pure.pure a : Import α) := by
  intro options b rest done key _
  obtain ⟨-, rfl⟩ := statePure_ok.mp done
  rfl

private theorem bind {x : Import α} {k : α → Import β} (first : Keeps names x) (next : ∀ a, Keeps names (k a)) :
    Keeps names (x >>= k) := by
  intro options b rest done key other
  obtain ⟨a, middle, here, later⟩ := stateBind_ok.mp done
  exact (next a middle b rest later key other).trans (first options a middle here key other)

private theorem checked (result : Except ImportError α) : Keeps names (ConfigParser.checked result) := by
  intro options a rest done key _
  obtain ⟨-, rfl⟩ := checked_ok.mp done
  rfl

private theorem getAllOption {name : String} (member : name ∈ names) (minarg maxarg : Nat) :
    Keeps names (getAllOption name minarg maxarg) := by
  intro options found rest done key other
  obtain ⟨-, rfl, -⟩ := getAllOption_ok.mp done
  exact lookup_erase_ne fun same => other (same ▸ member)

private theorem getOption {name : String} (member : name ∈ names) (minarg maxarg : Nat) :
    Keeps names (getOption name minarg maxarg) :=
  (Keeps.getAllOption member minarg maxarg).bind fun _ => Keeps.pure _

private theorem removeOption {name : String} (member : name ∈ names) : Keeps names (removeOption name) := by
  intro options found rest done key other
  cases done
  exact lookup_erase_ne fun same => other (same ▸ member)

end Keeps

section Setters

variable {δ : Type}

private theorem option_keeps (name : String) (minarg maxarg : Nat) (set : δ → Args → δ) (d : δ) :
    Keeps [name] (option name minarg maxarg set d) :=
  (Keeps.getOption List.mem_cons_self minarg maxarg).bind fun _ => Keeps.pure _

private theorem checkedOption_keeps (name : String) (minarg maxarg : Nat) (set : δ → Args → Except ImportError δ)
    (d : δ) :
    Keeps [name] (checkedOption name minarg maxarg set d) := by
  refine (Keeps.getOption List.mem_cons_self minarg maxarg).bind fun args => ?_
  cases args with
  | none => exact Keeps.pure d
  | some args => exact Keeps.checked _

private theorem allOptions_keeps (name : String) (minarg maxarg : Nat) (set : δ → List Args → Except ImportError δ)
    (d : δ) :
    Keeps [name] (allOptions name minarg maxarg set d) := by
  refine (Keeps.getAllOption List.mem_cons_self minarg maxarg).bind fun args => ?_
  cases args with
  | none => exact Keeps.pure d
  | some args => exact Keeps.checked _

end Setters

private theorem dev_keeps (np : Draft) : Keeps ["dev", "dev-type"] (dev np) := by
  refine (Keeps.getOption (by simp) 1 1).bind fun dev => (Keeps.getOption (by simp) 1 1).bind fun devtype => ?_
  split
  · exact Keeps.pure np
  · exact Keeps.checked _

private theorem tlsremote_keeps (np : Draft) :
    Keeps ["compat-names", "no-name-remapping", "tls-remote"] (tlsremote np) := by
  refine (Keeps.getOption (by simp) 1 2).bind fun compatnames =>
    (Keeps.getOption (by simp) 1 1).bind fun nonameremapping =>
    (Keeps.getOption (by simp) 1 1).bind fun tlsremote => ?_
  cases tlsremote with
  | none => exact Keeps.pure np
  | some tlsremote => exact Keeps.pure _

private theorem remotetls_keeps (np : Draft) : Keeps ["remote-cert-tls", "remotetls"] (remotetls np) := by
  refine (Keeps.getAllOption (by simp) 1 1).bind fun lines => ?_
  cases lines with
  | none => exact Keeps.pure np
  | some lines =>
    simp only
    split
    · exact Keeps.pure _
    · refine Keeps.bind ?_ fun _ => Keeps.pure np
      intro options a rest done key other
      cases done
      refine AList.lookup_insert_ne fun same => ?_
      have absent : key ∉ ["remote-cert-tls", "remotetls"] := other
      simp only [List.mem_cons, not_or] at absent
      exact absent.2.1 (String.toList_injective same)

/-! ### What a pass needs -/

/-- The options a pass reads, and what they have to be for it to be accepted. -/
structure Needs where
  names : List String
  accepts : Options → Prop

def Needs.lines (name : String) (minarg maxarg : Nat) (fine : List Args → Prop) : Needs :=
  ⟨[name], fun options => ∀ lines, options.lookup name.toList = some lines → InRange minarg maxarg lines ∧ fine lines⟩

def Needs.last (name : String) (minarg maxarg : Nat) (fine : Args → Prop) : Needs :=
  .lines name minarg maxarg fun lines => ∀ line, lines.getLast? = some line → fine line

def Needs.any (name : String) (minarg maxarg : Nat) : Needs := .lines name minarg maxarg fun _ => True

/-- A pass reads no other options, and is accepted if these are as it needs them. -/
structure Reads (pass : Draft → Import Draft) (needs : Needs) : Prop where
  keeps : ∀ np, Keeps needs.names (pass np)
  accepted : ∀ np options, (∃ final rest, pass np options = .ok (final, rest)) ↔ needs.accepts options
  same : ∀ options other : Options, (∀ name ∈ needs.names, other.lookup name.toList = options.lookup name.toList) →
    (needs.accepts other ↔ needs.accepts options)

namespace Reads

private theorem lines_same {name : String} {minarg maxarg : Nat} {fine : List Args → Prop} (options other : Options)
    (same : ∀ read ∈ (Needs.lines name minarg maxarg fine).names,
    other.lookup read.toList = options.lookup read.toList) :
    (Needs.lines name minarg maxarg fine).accepts other ↔ (Needs.lines name minarg maxarg fine).accepts options := by
  simp only [Needs.lines, same name List.mem_cons_self]

private theorem allOptions (name : String) (minarg maxarg : Nat) {set : Draft → List Args → Except ImportError Draft}
    {fine : List Args → Prop} (accepted : ∀ np lines, (∃ final, set np lines = .ok final) ↔ fine lines) :
    Reads (allOptions name minarg maxarg set) (.lines name minarg maxarg fine) where
  keeps := allOptions_keeps name minarg maxarg set
  same := lines_same
  accepted np options := by
    simp only [ConfigParser.allOptions, stateBind_ok, getAllOption_ok, Needs.lines]
    constructor
    · rintro ⟨final, rest, found, middle, ⟨rfl, rfl, inRange⟩, read⟩ lines present
      rw [present] at read
      exact ⟨inRange lines present, (accepted np lines).mp ⟨final, (checked_ok.mp read).1⟩⟩
    · intro needs
      cases present : options.lookup name.toList with
      | none =>
        exact ⟨np, _, none, _, ⟨rfl, rfl, fun lines other => by cases other⟩, rfl⟩
      | some lines =>
        obtain ⟨inRange, fine⟩ := needs lines present
        obtain ⟨final, here⟩ := (accepted np lines).mpr fine
        refine ⟨final, _, some lines, _, ⟨rfl, rfl, fun other same => ?_⟩, checked_ok.mpr ⟨here, rfl⟩⟩
        cases same
        exact inRange

private theorem checkedOption (name : String) (minarg maxarg : Nat) {set : Draft → Args → Except ImportError Draft}
    {fine : Args → Prop} (accepted : ∀ np line, (∃ final, set np line = .ok final) ↔ fine line) :
    Reads (checkedOption name minarg maxarg set) (.last name minarg maxarg fine) where
  keeps := checkedOption_keeps name minarg maxarg set
  same := lines_same
  accepted np options := by
    simp only [ConfigParser.checkedOption, stateBind_ok, getOption_ok, Needs.last, Needs.lines]
    constructor
    · rintro ⟨final, rest, found, middle, ⟨rfl, rfl, inRange⟩, read⟩ lines present
      refine ⟨inRange lines present, fun line last => ?_⟩
      rw [present, Option.bind_some, last] at read
      exact (accepted np line).mp ⟨final, (checked_ok.mp read).1⟩
    · intro needs
      cases last : (options.lookup name.toList).bind List.getLast? with
      | none => exact ⟨np, _, none, _, ⟨rfl, rfl, fun lines present => (needs lines present).1⟩, rfl⟩
      | some line =>
        obtain ⟨lines, present, last⟩ := Option.bind_eq_some_iff.mp last
        obtain ⟨final, here⟩ := (accepted np line).mpr ((needs lines present).2 line last)
        exact ⟨final, _, some line, _, ⟨rfl, rfl, fun lines present => (needs lines present).1⟩,
          checked_ok.mpr ⟨here, rfl⟩⟩

private theorem option (name : String) (minarg maxarg : Nat) (set : Draft → Args → Draft) :
    Reads (option name minarg maxarg set) (.any name minarg maxarg) where
  keeps := option_keeps name minarg maxarg set
  same := lines_same
  accepted np options := by
    simp only [ConfigParser.option, stateBind_ok, getOption_ok, Needs.any, Needs.lines, and_true]
    constructor
    · rintro ⟨final, rest, found, middle, ⟨rfl, rfl, inRange⟩, -⟩
      exact inRange
    · intro inRange
      exact ⟨_, _, _, _, ⟨rfl, rfl, inRange⟩, rfl⟩

end Reads

def TunDevice (options : Options) : Prop :=
  let dev := (options.lookup "dev".toList).bind List.getLast?
  let devtype := (options.lookup "dev-type".toList).bind List.getLast?
  devtype.map (arg · 1) = some "tun".toList ∨ dev.any (fun dev => "tun".toList.isPrefixOf (arg dev 1)) ∨
    (devtype = none ∧ dev = none)

def IntArgument (line : Args) : Prop := (JavaText.parseInt (arg line 1)).isSome

def AuthRetryKnown (line : Args) : Prop := arg line 1 ∈ ["none", "nointeract", "interact"].map String.toList

def settingsNeeds : List Needs :=
  [ ⟨["client", "pull"], fun _ => True⟩,
    .any "secret" 1 2,
    .lines "route" 1 4 fun lines => ∀ line ∈ lines, ∃ cidr, route line = .ok cidr,
    .any "route-ipv6" 1 4,
    .any "route-nopull" 0 0,
    .any "tls-auth" 1 2,
    .any "key-direction" 1 1,
    .any "tls-crypt" 1 1,
    .any "redirect-gateway" 0 7,
    .any "redirect-private" 0 5,
    ⟨["dev", "dev-type"], fun options =>
      (Needs.any "dev" 1 1).accepts options ∧ (Needs.any "dev-type" 1 1).accepts options ∧ TunDevice options⟩,
    .last "mssfix" 0 1 fun line => line.length ≥ 2 → IntArgument line,
    .last "mtu" 1 1 IntArgument,
    .last "mode" 1 1 fun line => arg line 1 = "p2p".toList,
    .any "dhcp-option" 2 2,
    .last "ifconfig" 2 2 fun line => ∃ cidr, cidrip (arg line 1) (arg line 2) = .ok cidr,
    .any "remote-random-hostname" 0 0,
    .any "float" 0 0,
    .any "comp-lzo" 0 1,
    .any "cipher" 1 1,
    .any "auth" 1 1,
    .any "ca" 1 1,
    .any "cert" 1 1,
    .any "key" 1 1,
    .any "pkcs12" 1 1,
    .any "cryptoapicert" 1 1,
    ⟨["compat-names", "no-name-remapping", "tls-remote"], fun options =>
      (Needs.any "compat-names" 1 2).accepts options ∧ (Needs.any "no-name-remapping" 1 1).accepts options ∧
        (Needs.any "tls-remote" 1 1).accepts options⟩,
    .last "verify-x509-name" 1 2 fun line =>
      line.length > 2 → arg line 2 ∈ ["name", "subject", "name-prefix"].map String.toList,
    .any "x509-username-field" 1 1,
    .any "verb" 1 1,
    .any "nobind" 0 0,
    .any "persist-tun" 0 0,
    .any "push-peer-info" 0 0,
    .any "connect-retry" 1 2,
    .any "connect-retry-max" 1 1,
    ⟨["remote-cert-tls", "remotetls"], (Needs.any "remote-cert-tls" 1 1).accepts⟩,
    .any "auth-user-pass" 0 1,
    .last "auth-retry" 1 1 AuthRetryKnown,
    .any "crl-verify" 1 2 ]

namespace Reads

private theorem routes_accepted (np : Draft) (lines : List Args) :
    (∃ final, routes np lines = .ok final) ↔ ∀ line ∈ lines, ∃ cidr, route line = .ok cidr := by
  have all : (∃ final, routes np lines = .ok final) ↔ ∃ cidrs, lines.mapM route = .ok cidrs := by
    rw [routes]
    cases lines.mapM route <;> simp [bind, Except.bind, pure, Except.pure]
  rw [all]
  exact mapM_ok

private theorem intArgument_accepted {message : String} {line : Args} {set : Int → Draft} :
    (∃ final, (do let size ← intArgument message (arg line 1); return set size : Except ImportError Draft) =
      .ok final) ↔
      IntArgument line := by
  rw [intArgument, IntArgument]
  cases JavaText.parseInt (arg line 1) <;> simp [bind, Except.bind, pure, Except.pure]

private theorem mssfix_accepted (np : Draft) (line : Args) :
    (∃ final, mssfix np line = .ok final) ↔ (line.length ≥ 2 → IntArgument line) := by
  rw [mssfix]
  split
  next two =>
    rw [intArgument_accepted]
    simp [two]
  next one => simp [one]

private theorem mode_accepted (np : Draft) (line : Args) : (∃ final, mode np line = .ok final) ↔
    arg line 1 = "p2p".toList := by
  rw [mode]
  split
  next p2p => simp [p2p]
  next other => simp only [other, reduceCtorEq, exists_false]

private theorem ifconfig_accepted (np : Draft) (line : Args) :
    (∃ final, ifconfig np line = .ok final) ↔ ∃ cidr, cidrip (arg line 1) (arg line 2) = .ok cidr := by
  rw [ifconfig]
  split
  next cidr read => simp [read]
  next read => simp [read]
  next _ read => simp [read]

private theorem verifyx509name_accepted (np : Draft) (line : Args) :
    (∃ final, verifyx509name np line = .ok final) ↔
      (line.length > 2 → arg line 2 ∈ ["name", "subject", "name-prefix"].map String.toList) := by
  simp only [verifyx509name, List.map_cons, List.map_nil, List.mem_cons, List.not_mem_nil, or_false]
  split
  next typed =>
    simp only [typed, true_imp_iff]
    split
    next name => simp [name]
    next name =>
      split
      next subject => simp [subject]
      next subject =>
        split
        next prefixed => simp [prefixed]
        next other => simp only [name, subject, other, or_self, reduceCtorEq, exists_false]
  next plain => simp [plain]

private theorem authretry_accepted (np : Draft) (line : Args) :
    (∃ final, authretry np line = .ok final) ↔ AuthRetryKnown line := by
  simp only [authretry, AuthRetryKnown, List.map_cons, List.map_nil, List.mem_cons, List.not_mem_nil, or_false]
  split
  next none => simp [none]
  next none =>
    split
    next nointeract => simp [nointeract]
    next nointeract =>
      split
      next interact => simp [interact]
      next interact =>
        simp only [none, nointeract, interact, or_self, iff_false]
        rintro ⟨final, read⟩
        split at read <;> cases read

private theorem dev : Reads dev ⟨["dev", "dev-type"], fun options =>
    (Needs.any "dev" 1 1).accepts options ∧ (Needs.any "dev-type" 1 1).accepts options ∧ TunDevice options⟩ where
  keeps := dev_keeps
  same options other same := by
    have dev := same "dev" (by simp)
    have devtype := same "dev-type" (by simp)
    simp only [Needs.any, Needs.lines, TunDevice, dev, devtype]
  accepted np options := by
    have devtype : (options.erase "dev".toList).lookup "dev-type".toList = options.lookup "dev-type".toList :=
      lookup_erase_ne (by decide)
    simp only [ConfigParser.dev, stateBind_ok, getOption_ok, Needs.any, Needs.lines, and_true]
    constructor
    · rintro ⟨final, rest, found, middle, ⟨rfl, rfl, first⟩, type, after, ⟨rfl, rfl, second⟩, read⟩
      rw [devtype] at read second
      refine ⟨first, second, ?_⟩
      split at read
      next tun => exact tun
      next other => cases (checked_ok.mp read).1
    · rintro ⟨first, second, tun⟩
      rw [← devtype] at second
      refine ⟨np, (options.erase "dev".toList).erase "dev-type".toList, _, _, ⟨rfl, rfl, first⟩, _, _,
        ⟨rfl, rfl, second⟩, ?_⟩
      rw [devtype]
      exact congrFun (if_pos tun) _

private theorem tlsremote : Reads tlsremote ⟨["compat-names", "no-name-remapping", "tls-remote"], fun options =>
    (Needs.any "compat-names" 1 2).accepts options ∧ (Needs.any "no-name-remapping" 1 1).accepts options ∧
      (Needs.any "tls-remote" 1 1).accepts options⟩ where
  keeps := tlsremote_keeps
  same options other same := by
    have first := same "compat-names" (by simp)
    have second := same "no-name-remapping" (by simp)
    have third := same "tls-remote" (by simp)
    simp only [Needs.any, Needs.lines, first, second, third]
  accepted np options := by
    have second : (options.erase "compat-names".toList).lookup "no-name-remapping".toList =
        options.lookup "no-name-remapping".toList := lookup_erase_ne (by decide)
    have third : ((options.erase "compat-names".toList).erase "no-name-remapping".toList).lookup "tls-remote".toList =
        options.lookup "tls-remote".toList := (lookup_erase_ne (by decide)).trans (lookup_erase_ne (by decide))
    simp only [ConfigParser.tlsremote, stateBind_ok, getOption_ok, Needs.any, Needs.lines, and_true]
    constructor
    · rintro ⟨final, rest, _, _, ⟨rfl, rfl, names⟩, _, _, ⟨rfl, rfl, remapping⟩, _, _, ⟨rfl, rfl, remote⟩, -⟩
      rw [second] at remapping
      rw [third] at remote
      exact ⟨names, remapping, remote⟩
    · rintro ⟨names, remapping, remote⟩
      rw [← second] at remapping
      rw [← third] at remote
      cases last : (options.lookup "tls-remote".toList).bind List.getLast? with
      | none =>
        exact ⟨np, _, _, _, ⟨rfl, rfl, names⟩, _, _, ⟨rfl, rfl, remapping⟩, none, _,
          ⟨by rw [third, last], rfl, remote⟩, rfl⟩
      | some line =>
        exact ⟨_, _, _, _, ⟨rfl, rfl, names⟩, _, _, ⟨rfl, rfl, remapping⟩, some line, _,
          ⟨by rw [third, last], rfl, remote⟩, rfl⟩

private theorem remotetls :
    Reads remotetls ⟨["remote-cert-tls", "remotetls"], (Needs.any "remote-cert-tls" 1 1).accepts⟩ where
  keeps := remotetls_keeps
  same options other same := by
    have here := same "remote-cert-tls" (by simp)
    simp only [Needs.any, Needs.lines, here]
  accepted np options := by
    simp only [ConfigParser.remotetls, stateBind_ok, getAllOption_ok, Needs.any, Needs.lines, and_true]
    constructor
    · rintro ⟨final, rest, found, middle, ⟨rfl, rfl, inRange⟩, -⟩
      exact inRange
    · intro inRange
      cases present : options.lookup "remote-cert-tls".toList with
      | none => exact ⟨np, _, none, _, ⟨rfl, rfl, fun lines other => by cases other⟩, rfl⟩
      | some lines =>
        by_cases server : arg (lines.headD []) 1 = "server".toList
        · refine ⟨{ np with mExpectTLSCert := true }, options.erase "remote-cert-tls".toList, some lines, _,
            ⟨rfl, rfl, fun other same => inRange other (present.trans same)⟩, ?_⟩
          simp only [server, if_true]
          rfl
        · refine ⟨np, (options.erase "remote-cert-tls".toList).insert "remotetls".toList lines, some lines, _,
            ⟨rfl, rfl, fun other same => inRange other (present.trans same)⟩, ?_⟩
          simp only [server, if_false]
          rfl

end Reads

private theorem client_reads : Reads
    (fun np => do
      let client ← removeOption "client"
      let pull ← removeOption "pull"
      return if client || pull then { np with mUsePull := true } else np)
    ⟨["client", "pull"], fun _ => True⟩ where
  keeps np := (Keeps.removeOption (by simp)).bind fun _ => (Keeps.removeOption (by simp)).bind fun _ => Keeps.pure _
  same _ _ _ := Iff.rfl
  accepted np options := iff_of_true ⟨_, _, rfl⟩ trivial

theorem settings_read : List.Forall₂ Reads settings settingsNeeds := by
  have all (name : String) (minarg maxarg : Nat) (set : Draft → List Args → Draft) :
      Reads (allOptions name minarg maxarg fun np lines => .ok (set np lines)) (.any name minarg maxarg) :=
    Reads.allOptions name minarg maxarg fun np lines => iff_of_true ⟨_, rfl⟩ trivial
  unfold settings settingsNeeds
  exact .cons client_reads <| .cons (Reads.option _ _ _ _) <| .cons (Reads.allOptions _ _ _ Reads.routes_accepted) <|
    .cons (all _ _ _ _) <| .cons (Reads.option _ _ _ _) <| .cons (all _ _ _ _) <| .cons (Reads.option _ _ _ _) <|
    .cons (Reads.option _ _ _ _) <| .cons (all _ _ _ _) <| .cons (all _ _ _ _) <| .cons Reads.dev <|
    .cons (Reads.checkedOption _ _ _ Reads.mssfix_accepted) <|
    .cons (Reads.checkedOption _ _ _ fun np line => Reads.intArgument_accepted) <|
    .cons (Reads.checkedOption _ _ _ Reads.mode_accepted) <| .cons (all _ _ _ _) <|
    .cons (Reads.checkedOption _ _ _ Reads.ifconfig_accepted) <| .cons (Reads.option _ _ _ _) <|
    .cons (Reads.option _ _ _ _) <| .cons (Reads.option _ _ _ _) <| .cons (Reads.option _ _ _ _) <|
    .cons (Reads.option _ _ _ _) <| .cons (Reads.option _ _ _ _) <| .cons (Reads.option _ _ _ _) <|
    .cons (Reads.option _ _ _ _) <| .cons (Reads.option _ _ _ _) <| .cons (Reads.option _ _ _ _) <|
    .cons Reads.tlsremote <| .cons (Reads.checkedOption _ _ _ Reads.verifyx509name_accepted) <|
    .cons (Reads.option _ _ _ _) <| .cons (Reads.option _ _ _ _) <| .cons (Reads.option _ _ _ _) <|
    .cons (Reads.option _ _ _ _) <| .cons (Reads.option _ _ _ _) <| .cons (Reads.option _ _ _ _) <|
    .cons (Reads.option _ _ _ _) <| .cons Reads.remotetls <| .cons (Reads.option _ _ _ _) <|
    .cons (Reads.checkedOption _ _ _ Reads.authretry_accepted) <| .cons (Reads.option _ _ _ _) .nil

/-- No option is read by two of the passes. -/
theorem settings_apart : settingsNeeds.Pairwise fun first later => ∀ name ∈ later.names, name ∉ first.names := by
  have names : (settingsNeeds.map Needs.names).Pairwise fun first later => ∀ name ∈ later, name ∉ first := by
    decide
  exact List.pairwise_map.mp names

/-! ### Runs -/

section Runs

variable {passes : List (Pass Options ImportError Draft)} {needs : List Needs}

private theorem reads_of_mem (read : List.Forall₂ Reads passes needs) {need : Needs} (member : need ∈ needs) :
    ∃ pass, Reads pass need := by
  induction read with
  | nil => cases member
  | @cons pass _ _ _ reads _ ih =>
    rcases List.mem_cons.mp member with rfl | later
    · exact ⟨pass, reads⟩
    · exact ih later

theorem runPasses_keeps (read : List.Forall₂ Reads passes needs) {key : String}
    (other : ∀ need ∈ needs, key ∉ need.names)
    {np final : Draft} {options rest : Options} (run : runPasses passes np options = .ok (final, rest)) :
    rest.lookup key.toList = options.lookup key.toList := by
  induction read generalizing np options with
  | nil =>
    obtain ⟨-, rfl⟩ := statePure_ok.mp run
    rfl
  | cons reads _ ih =>
    obtain ⟨here, later⟩ := List.forall_mem_cons.mp other
    rw [runPasses_cons] at run
    obtain ⟨middle, between, first, run⟩ := stateBind_ok.mp run
    exact (ih later run).trans (reads.keeps np options middle between first key here)

theorem runPasses_accepted (read : List.Forall₂ Reads passes needs)
    (apart : needs.Pairwise fun first later => ∀ name ∈ later.names, name ∉ first.names) (np : Draft)
    (options : Options) :
    (∃ final rest, runPasses passes np options = .ok (final, rest)) ↔ ∀ need ∈ needs, need.accepts options := by
  induction read generalizing np options with
  | nil => exact iff_of_true ⟨np, options, rfl⟩ (List.forall_mem_nil _)
  | @cons pass need passes needs reads others ih =>
    obtain ⟨here, later⟩ := List.pairwise_cons.mp apart
    -- What the later passes need is about options that this one does not take.
    have kept (middle : Draft) (between : Options) (ran : pass np options = .ok (middle, between)) :
        (∀ need ∈ needs, need.accepts between) ↔ ∀ need ∈ needs, need.accepts options := by
      refine forall₂_congr fun need member => ?_
      obtain ⟨pass, reads'⟩ := reads_of_mem others member
      exact reads'.same options between fun name reading =>
        reads.keeps np options middle between ran name (here need member name reading)
    simp only [runPasses_cons, stateBind_ok, List.forall_mem_cons, ← reads.accepted np options]
    constructor
    · rintro ⟨final, rest, middle, between, ran, run⟩
      exact ⟨⟨middle, between, ran⟩, (kept middle between ran).mp ((ih later middle between).mp ⟨final, rest, run⟩)⟩
    · rintro ⟨⟨middle, between, ran⟩, accepts⟩
      obtain ⟨final, rest, run⟩ := (ih later middle between).mpr ((kept middle between ran).mpr accepts)
      exact ⟨final, rest, middle, between, ran, run⟩

end Runs

theorem settings_accepted (k : Nat) (np : Draft) (options : Options) :
    (∃ final rest, runPasses (settings.take k) np options = .ok (final, rest)) ↔
      ∀ need ∈ settingsNeeds.take k, need.accepts options :=
  runPasses_accepted (List.forall₂_take k settings_read) (settings_apart.take) np options

end RRoadVpn.Proofs.ImportSteps
