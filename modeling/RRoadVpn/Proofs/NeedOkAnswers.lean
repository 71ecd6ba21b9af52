import RRoadVpn.NeedOk

/-! When a `>NEED-OK` request is answered once and the thread goes on. -/

namespace RRoadVpn.Proofs.NeedOkAnswers
open RRoadVpn.Library RRoadVpn.NeedOk
open JavaText (Text)
open ConfigParser (RuntimeException getInt calculateLenFromMask)
open OpenVPNService (LOLLIPOP)

/-! ### Arguments -/

def Quad (ipaddr : Text) : Prop := ∃ n, getInt ipaddr = .ok n

def Mask (mask : Text) : Prop := ∃ len, calculateLenFromMask mask = .ok len

private theorem returns_runtime {α : Type} {result : Except RuntimeException α} {a : α} {s after : State} :
    Returns (runtime result) s a after ↔ result = .ok a ∧ s = after := by
  cases result with
  | ok b =>
    rw [runtime, returns_pure]
    simp
  | error e => exact iff_of_false returns_throw fun ⟨other, _⟩ => by cases other

private theorem returns_lenFromMask {mask : Text} {len : Int} {s after : State} :
    Returns (lenFromMask mask) s len after ↔ calculateLenFromMask mask = .ok len ∧ s = after := by
  unfold lenFromMask
  split
  next read =>
    rw [returns_pure, read]
    simp
  next read => exact iff_of_false returns_throw fun ⟨other, _⟩ => by rw [read] at other; cases other
  next _ read => exact iff_of_false returns_throw fun ⟨other, _⟩ => by rw [read] at other; cases other

private theorem part_ok {parts : List Text} {i : Nat} {s : Text} :
    NeedOk.part parts i = .ok s ↔ parts[i]? = some s := by
  unfold NeedOk.part
  cases parts[i]? <;> simp

private theorem parseInt_ok {s : Text} {n : Int} : NeedOk.parseInt s = .ok n ↔ JavaText.parseInt s = some n := by
  unfold NeedOk.parseInt
  cases JavaText.parseInt s <;> simp

private theorem Mask.quad {mask : Text} (isMask : Mask mask) : Quad mask := by
  obtain ⟨len, read⟩ := isMask
  rw [calculateLenFromMask] at read
  cases number : getInt mask with
  | ok n => exact ⟨n, number⟩
  | error e =>
    rw [number] at read
    cases read

/-! ### The service -/

/-- The numbers of a route, which are read only as far as the local address is known. -/
def RouteNumbers (mLocalIP : Option Text) (dest mask gateway : Text) : Prop :=
  Mask mask ∧ Quad gateway ∧ ∀ ip, mLocalIP = some ip → Quad ip ∧ Quad dest

private theorem addRoute_returns {dest mask gateway : Text} {s after : State} :
    Returns (addRoute dest mask gateway) s () after ↔ RouteNumbers s.mLocalIP dest mask gateway ∧ s = after := by
  simp only [addRoute, returns_bind, returns_lenFromMask, returns_runtime, returns_get]
  constructor
  · rintro ⟨len, s, ⟨isMask, rfl⟩, n, s, ⟨quad, rfl⟩, t, s, ⟨same, rfl⟩, rest⟩
    rw [same] at rest
    cases known : s.mLocalIP with
    | none =>
      rw [known] at rest
      exact ⟨⟨⟨len, isMask⟩, ⟨n, quad⟩, fun ip other => by cases other⟩, (returns_pure.mp rest).2⟩
    | some ip =>
      simp only [known, returns_bind, returns_runtime, returns_pure] at rest
      obtain ⟨a, _, ⟨first, rfl⟩, b, _, ⟨second, rfl⟩, -, rfl⟩ := rest
      exact ⟨⟨⟨len, isMask⟩, ⟨n, quad⟩, fun ip other => by cases other; exact ⟨⟨a, first⟩, ⟨b, second⟩⟩⟩, rfl⟩
  · rintro ⟨⟨⟨len, isMask⟩, ⟨n, quad⟩, known⟩, rfl⟩
    refine ⟨len, s, ⟨isMask, rfl⟩, n, s, ⟨quad, rfl⟩, s, s, ⟨rfl, rfl⟩, ?_⟩
    cases local' : s.mLocalIP with
    | none => exact returns_pure.mpr ⟨rfl, rfl⟩
    | some ip =>
      obtain ⟨⟨a, first⟩, ⟨b, second⟩⟩ := known ip local'
      simp only [returns_bind, returns_runtime, returns_pure]
      exact ⟨a, s, ⟨first, rfl⟩, b, s, ⟨second, rfl⟩, trivial, rfl⟩

section Steps

variable {steps : Steps}

variable (steps) in
/-- A network whose host is unknown, or is an IPv6 address with a length behind it. -/
def NetworkFine (v6parts : List Text) : Prop :=
  ∃ host, v6parts[0]? = some host ∧
    (steps.getAllByName host = .UnknownHost ∨
      (steps.getAllByName host = .Inet6Address ∧ ∃ mask n, v6parts[1]? = some mask ∧ JavaText.parseInt mask = some n))

private theorem addRoutev6_returns {network : Text} {s after : State} :
    Returns (addRoutev6 steps network) s () after ↔ NetworkFine steps (JavaText.split '/' network) ∧ s = after := by
  simp only [addRoutev6, returns_bind, returns_runtime, part_ok, NetworkFine]
  constructor
  · rintro ⟨host, _, ⟨first, rfl⟩, rest⟩
    cases found : steps.getAllByName host with
    | UnknownHost =>
      rw [found] at rest
      exact ⟨⟨host, first, Or.inl found⟩, (returns_pure.mp rest).2⟩
    | Inet4Address =>
      rw [found] at rest
      exact absurd rest returns_throw
    | Inet6Address =>
      simp only [found, returns_bind, returns_runtime, part_ok, parseInt_ok, returns_pure] at rest
      obtain ⟨mask, _, ⟨second, rfl⟩, n, _, ⟨number, rfl⟩, -, rfl⟩ := rest
      exact ⟨⟨host, first, Or.inr ⟨found, mask, n, second, number⟩⟩, rfl⟩
  · rintro ⟨⟨host, first, unknown | ⟨found, mask, n, second, number⟩⟩, rfl⟩
    · refine ⟨host, s, ⟨first, rfl⟩, ?_⟩
      rw [unknown]
      exact returns_pure.mpr ⟨rfl, rfl⟩
    · refine ⟨host, s, ⟨first, rfl⟩, ?_⟩
      simp only [found, returns_bind, returns_runtime, part_ok, parseInt_ok, returns_pure]
      exact ⟨mask, s, ⟨second, rfl⟩, n, s, ⟨number, rfl⟩, trivial, rfl⟩

variable (steps) in
/-- The local address is read as a number if it has to be compared with the mask, or its
network gets a route. -/
def AddressNumbers (ip netmask : Text) : Prop :=
  ∃ len, calculateLenFromMask netmask = .ok len ∧
    ((len = 32 ∧ netmask ≠ "255.255.255.255".toList) ∨ (len ≤ 31 ∧ steps.sdkInt ≥ LOLLIPOP) → Quad ip)

private theorem setLocalIP_returns {ip netmask mode : Text} {s after : State} :
    Returns (setLocalIP steps ip netmask mode) s () after ↔
      AddressNumbers steps ip netmask ∧ after = { s with mLocalIP := some ip } := by
  have compared (len : Int) (isMask : calculateLenFromMask netmask = .ok len) :
      (∃ final, localLen ip netmask mode len = .ok final ∧ interfaceRoute steps ip final = .ok ()) ↔
        ((len = 32 ∧ netmask ≠ "255.255.255.255".toList) ∨ (len ≤ 31 ∧ steps.sdkInt ≥ LOLLIPOP) → Quad ip) := by
    obtain ⟨n, number⟩ := Mask.quad ⟨len, isMask⟩
    have route (final : Int) : interfaceRoute steps ip final = .ok () ↔
        (final ≤ 31 ∧ steps.sdkInt ≥ LOLLIPOP → Quad ip) := by
      unfold interfaceRoute Quad
      split
      next small =>
        simp only [small, and_self, true_imp_iff]
        cases getInt ip <;> simp [Except.map]
      next other => simp [other]
    simp only [route]
    unfold localLen
    split
    next odd =>
      simp only [odd, ne_eq, not_false_eq_true, and_self, true_or, true_imp_iff]
      unfold pointToPointLen Quad
      rw [number]
      cases getInt ip <;> simp [bind, Except.bind, pure, Except.pure]
    next plain => simp only [plain, false_or, Except.ok.injEq, exists_eq_left']
  simp only [setLocalIP, returns_bind, returns_lenFromMask, returns_runtime, returns_modify, AddressNumbers]
  constructor
  · rintro ⟨len, _, ⟨isMask, rfl⟩, _, _, rfl, final, _, ⟨first, rfl⟩, second, rfl⟩
    exact ⟨⟨len, isMask, (compared len isMask).mp ⟨final, first, second⟩⟩, rfl⟩
  · rintro ⟨⟨len, isMask, numbers⟩, rfl⟩
    obtain ⟨final, first, second⟩ := (compared len isMask).mpr numbers
    exact ⟨len, s, ⟨isMask, rfl⟩, (), _, rfl, final, _, ⟨first, rfl⟩, second, rfl⟩

/-! ### Requests -/

variable (steps) in
/-- The arguments of a request with settings, as the thread and the service take them apart. -/
def PushFine (mLocalIP : Option Text) (parts : List Text) : Request → Prop
  | .ROUTE =>
    ∀ dest mask gateway more, parts = dest :: mask :: gateway :: more → RouteNumbers mLocalIP dest mask gateway
  | .ROUTE6 =>
    ∃ network device more, parts = network :: device :: more ∧ NetworkFine steps (JavaText.split '/' network)
  | .IFCONFIG => ∃ ip netmask mtu mode more n, parts = ip :: netmask :: mtu :: mode :: more ∧
      JavaText.parseInt mtu = some n ∧ AddressNumbers steps ip netmask
  | .IFCONFIG6 => ∃ ip mtu more n, parts = ip :: mtu :: more ∧ JavaText.parseInt mtu = some n
  | _ => True

theorem push_returns (extra : Text) (request : Request) (s : State) :
    ∃ final : State, final.written = s.written ∧
      ∀ after, Returns (push steps extra request) s () after ↔
        PushFine steps s.mLocalIP (JavaText.split ' ' extra) request ∧ after = final := by
  have plain (after : State) : Returns (pure () : Handling Unit) s () after ↔ True ∧ after = s := by
    rw [returns_pure]
    simp [eq_comm]
  cases request with
  | ROUTE =>
    refine ⟨s, rfl, fun after => ?_⟩
    simp only [push, PushFine]
    rcases JavaText.split ' ' extra with _ | ⟨dest, _ | ⟨mask, _ | ⟨gateway, more⟩⟩⟩
    case cons.cons.cons =>
      simp only [List.length_cons, ge_iff_le, Nat.le_add_left, if_true, List.getElem?_cons_zero,
        List.getElem?_cons_succ,
        Option.getD_some, addRoute_returns, List.cons.injEq]
      constructor
      · rintro ⟨numbers, rfl⟩
        refine ⟨?_, rfl⟩
        rintro _ _ _ _ ⟨rfl, rfl, rfl, -⟩
        exact numbers
      · rintro ⟨numbers, rfl⟩
        exact ⟨numbers dest mask gateway more ⟨rfl, rfl, rfl, rfl⟩, rfl⟩
    all_goals
      simp only [List.length_nil, List.length_cons, ge_iff_le, Nat.reduceLeDiff, if_false, plain, reduceCtorEq,
        List.cons.injEq, and_false, IsEmpty.forall_iff, implies_true]
  | ROUTE6 =>
    refine ⟨s, rfl, fun after => ?_⟩
    simp only [push, PushFine, returns_bind, returns_runtime, part_ok, addRoutev6_returns]
    rcases JavaText.split ' ' extra with _ | ⟨network, _ | ⟨device, more⟩⟩ <;> simp [eq_comm]
  | IFCONFIG =>
    refine ⟨{ s with mLocalIP := some ((JavaText.split ' ' extra)[0]?.getD []) }, rfl, fun after => ?_⟩
    simp only [push, PushFine, returns_bind, returns_runtime, part_ok, parseInt_ok, setLocalIP_returns]
    rcases JavaText.split ' ' extra with _ | ⟨ip, _ | ⟨netmask, _ | ⟨mtu, _ | ⟨mode, more⟩⟩⟩⟩
    case cons.cons.cons.cons =>
      simp only [List.getElem?_cons_zero, List.getElem?_cons_succ, Option.some.injEq, List.cons.injEq,
        Option.getD_some]
      constructor
      · rintro ⟨_, s, ⟨rfl, rfl⟩, n, s, ⟨number, rfl⟩, _, s, ⟨rfl, rfl⟩, _, s, ⟨rfl, rfl⟩, _, s, ⟨rfl, rfl⟩, numbers,
          rfl⟩
        exact ⟨⟨ip, netmask, mtu, mode, more, n, ⟨rfl, rfl, rfl, rfl, rfl⟩, number, numbers⟩, rfl⟩
      · rintro ⟨⟨_, _, _, _, _, n, ⟨rfl, rfl, rfl, rfl, rfl⟩, number, numbers⟩, rfl⟩
        exact ⟨mtu, s, ⟨rfl, rfl⟩, n, s, ⟨number, rfl⟩, ip, s, ⟨rfl, rfl⟩, netmask, s, ⟨rfl, rfl⟩, mode, s,
          ⟨rfl, rfl⟩, numbers, rfl⟩
    all_goals simp
  | IFCONFIG6 =>
    refine ⟨s, rfl, fun after => ?_⟩
    simp only [push, PushFine, returns_bind, returns_runtime, part_ok, parseInt_ok, returns_pure]
    rcases JavaText.split ' ' extra with _ | ⟨ip, _ | ⟨mtu, more⟩⟩ <;> simp [eq_comm]
  | _ => exact ⟨s, rfl, plain⟩

/-! ### The descriptor -/

variable (steps) in
/-- What fails before the reply that takes the descriptor with it. -/
def failsBefore : Option SendException := steps.setInt.or steps.setFileDescriptorsForSend

variable (steps) in
def failsBehind : Option SendException := steps.clearFileDescriptors.or steps.close

variable (steps) in
/-- The tunnel is not opened, or its descriptor fails to be sent in a way that is caught, or
nothing fails. -/
def OpentunFine (extra : Text) : Prop :=
  extra ≠ "tun".toList ∨ steps.openTun = .null ∨ steps.openTun = .establishFailed ∨
    (steps.openTun = .pfd ∧
      ((∃ e, failsBefore steps = some e ∧ e ≠ .unchecked) ∨ (failsBefore steps = none ∧ failsBehind steps = none)))

private theorem sendFD_before {needed : Text} {s : State} {e : SendException} (fails : failsBefore steps = some e) :
    attempt (sendFD steps needed) s = (.error e, s) := by
  unfold sendFD
  rcases Option.or_eq_some_iff.mp fails with setInt | ⟨setInt, fds⟩
  · rw [setInt]
    rfl
  · rw [setInt, fds]
    rfl

private theorem sendFD_behind {needed : Text} {s : State} (fine : failsBefore steps = none) :
    attempt (sendFD steps needed) s =
      ((failsBehind steps).elim (.ok ()) .error, { s with written := s.written ++ [needok needed "ok".toList] }) := by
  obtain ⟨setInt, fds⟩ := Option.or_eq_none_iff.mp fine
  unfold sendFD failsBehind
  rw [setInt, fds]
  cases steps.clearFileDescriptors with
  | some e => rfl
  | none => cases steps.close <;> rfl

theorem caught_cancel {needed : Text} {result : Except SendException Unit} {s after : State} :
    (∃ sent middle, Returns (caught result) s sent middle ∧
      Returns (if sent then pure () else managmentCommand (needok needed "cancel".toList)) middle () after) ↔
    (result = .ok () ∧ after = s) ∨
      ∃ e, result = .error e ∧ e ≠ .unchecked ∧ after =
        { s with written := s.written ++ [needok needed "cancel".toList] } := by
  cases result with
  | ok done =>
    simp only [caught, returns_pure]
    constructor
    · rintro ⟨_, _, ⟨rfl, rfl⟩, answered⟩
      exact Or.inl ⟨trivial, (returns_pure.mp answered).2.symm⟩
    · rintro (⟨-, rfl⟩ | ⟨e, other, -⟩)
      · exact ⟨true, _, ⟨rfl, rfl⟩, returns_pure.mpr ⟨rfl, rfl⟩⟩
      · cases other
  | error e =>
    rw [caught]
    split
    next unchecked =>
      refine iff_of_false (fun ⟨_, _, threw, _⟩ => returns_throw threw) ?_
      rintro (⟨other, -⟩ | ⟨_, same, checked, -⟩)
      · cases other
      · cases same
        exact checked unchecked
    next checked =>
      simp only [returns_pure]
      constructor
      · rintro ⟨_, _, ⟨rfl, rfl⟩, answered⟩
        exact Or.inr ⟨e, rfl, checked, returns_modify.mp answered⟩
      · rintro (⟨other, -⟩ | ⟨_, -, -, rfl⟩)
        · cases other
        · exact ⟨false, _, ⟨rfl, rfl⟩, returns_modify.mpr rfl⟩

/-- The descriptor is sent with one answer, or its failure is caught before that answer. -/
private theorem sendFD_once {needed : Text} {s : State} :
    (∃ after status, (∃ result middle, attempt (sendFD steps needed) s = (result, middle) ∧
      ∃ sent caughtAt, Returns (caught result) middle sent caughtAt ∧
        Returns (if sent then pure () else managmentCommand (needok needed "cancel".toList)) caughtAt () after) ∧
      after.written = s.written ++ [needok needed status]) ↔
    (∃ e, failsBefore steps = some e ∧ e ≠ .unchecked) ∨ (failsBefore steps = none ∧ failsBehind steps = none) := by
  cases before : failsBefore steps with
  | some e =>
    simp only [sendFD_before before, Prod.mk.injEq]
    constructor
    · rintro ⟨after, status, ⟨_, _, ⟨rfl, rfl⟩, tail⟩, once⟩
      rcases caught_cancel.mp tail with ⟨other, -⟩ | ⟨_, thrown, checked, -⟩
      · cases other
      · cases thrown
        exact Or.inl ⟨e, rfl, checked⟩
    · rintro (⟨_, thrown, checked⟩ | ⟨other, -⟩)
      · cases thrown
        exact ⟨_, "cancel".toList, ⟨_, s, ⟨rfl, rfl⟩, caught_cancel.mpr (Or.inr ⟨e, rfl, checked, rfl⟩)⟩, rfl⟩
      · cases other
  | none =>
    simp only [sendFD_behind before, Prod.mk.injEq]
    constructor
    · rintro ⟨after, status, ⟨_, _, ⟨rfl, rfl⟩, tail⟩, once⟩
      rcases caught_cancel.mp tail with ⟨sent, -⟩ | ⟨e, -, -, rfl⟩
      · refine Or.inr ⟨trivial, ?_⟩
        cases behind : failsBehind steps with
        | none => rfl
        | some e =>
          rw [behind] at sent
          cases sent
      · -- There are two answers.
        have two := congrArg List.length once
        simp only [List.length_append, List.length_cons, List.length_nil] at two
        omega
    · rintro (⟨_, other, -⟩ | ⟨-, behind⟩)
      · cases other
      · rw [behind]
        exact ⟨_, "ok".toList, ⟨_, _, ⟨rfl, rfl⟩, caught_cancel.mpr (Or.inl ⟨rfl, rfl⟩)⟩, rfl⟩

/-- The answer is the descriptor's, else it is `cancel`; behind the descriptor's nothing may fail. -/
theorem opentun_once {needed extra : Text} {s : State} :
    (∃ after status, Returns (do
        if ← sendTunFD steps needed extra then return ()
        else managmentCommand (needok needed "cancel".toList)) s () after ∧
      after.written = s.written ++ [needok needed status]) ↔ OpentunFine steps extra := by
  have cancel (t : State) (same : t.written = s.written) :
      ∃ after status, Returns (managmentCommand (needok needed "cancel".toList)) t () after ∧
        after.written = s.written ++ [needok needed status] :=
    ⟨_, _, returns_modify.mpr rfl, by rw [same]⟩
  unfold sendTunFD OpentunFine
  split
  next other =>
    simp only [pure_bind, Bool.false_eq_true, if_false]
    exact iff_of_true (cancel s rfl) (Or.inl other)
  next tun =>
    unfold openTun
    cases opened : steps.openTun with
    | null =>
      simp only [pure_bind, Bool.false_eq_true, if_false]
      exact iff_of_true (cancel s rfl) (Or.inr (Or.inl trivial))
    | establishFailed =>
      simp only [bind_assoc, pure_bind, reduceCtorEq, decide_false, Bool.false_eq_true, if_false]
      refine iff_of_true ?_ (Or.inr (Or.inr (Or.inl trivial)))
      obtain ⟨after, status, answered, once⟩ := cancel { s with mLocalIP := none } rfl
      exact ⟨after, status, returns_bind.mpr ⟨(), _, returns_modify.mpr rfl, answered⟩, once⟩
    | threw =>
      refine iff_of_false ?_ ?_
      · rintro ⟨after, status, returned, -⟩
        simp only [bind_assoc, returns_bind] at returned
        obtain ⟨_, _, threw, -⟩ := returned
        exact returns_throw threw
      · rintro (other | other | other | ⟨other, -⟩)
        · exact tun other
        all_goals cases other
    | pfd =>
      simp only [bind_assoc, pure_bind, decide_true, if_true, returns_bind, returns_modify, returns_run,
        exists_eq_left]
      generalize unset : ({ s with mLocalIP := none } : State) = t
      have same : s.written = t.written := by rw [← unset]
      simp only [exists_const, same]
      refine sendFD_once.trans ⟨fun fine => Or.inr (Or.inr (Or.inr ⟨trivial, fine⟩)), ?_⟩
      rintro (other | other | other | ⟨-, fine⟩)
      · exact absurd other tun
      · cases other
      · cases other
      · exact fine

/-! ### All requests -/

variable (steps) in
/-- What a request that is known has to be like. -/
def RequestFine (extra : Text) (mLocalIP : Option Text) (request : Request) : Prop :=
  if request = .OPENTUN then OpentunFine steps extra else PushFine steps mLocalIP (JavaText.split ' ' extra) request

private theorem answer_once {needed extra : Text} {found : Option Request} {s : State} :
    (∃ after status, Returns (answer steps needed extra found) s () after ∧
      after.written = s.written ++ [needok needed status]) ↔
    ∃ request, found = some request ∧ RequestFine steps extra s.mLocalIP request := by
  cases found with
  | none =>
    refine iff_of_false ?_ fun ⟨_, other, _⟩ => by cases other
    rintro ⟨after, status, returned, once⟩
    obtain ⟨-, rfl⟩ := returns_pure.mp returned
    have one := congrArg List.length once
    simp only [List.length_append, List.length_cons, List.length_nil] at one
    omega
  | some request =>
    simp only [Option.some.injEq, exists_eq_left']
    obtain ⟨final, silent, returns⟩ := @push_returns steps extra request s
    have pushed : (∃ after status, Returns (do
          push steps extra request
          managmentCommand (needok needed "ok".toList)) s () after ∧
            after.written = s.written ++ [needok needed status]) ↔
        PushFine steps s.mLocalIP (JavaText.split ' ' extra) request := by
      simp only [returns_bind, returns]
      constructor
      · rintro ⟨_, _, ⟨_, _, ⟨fine, -⟩, -⟩, -⟩
        exact fine
      · intro fine
        exact ⟨_, "ok".toList, ⟨(), final, ⟨fine, rfl⟩, returns_modify.mpr rfl⟩, by rw [silent]⟩
    cases request with
    | OPENTUN => exact opentun_once
    | PERSIST_TUN_ACTION => exact iff_of_true ⟨_, _, returns_modify.mpr rfl, rfl⟩ trivial
    | _ => exact pushed

variable (steps) in
/-- The request is answered once with its name, and the thread goes on. -/
def OneAnswer (argument : Text) (s : State) : Prop :=
  ∃ after needed status, handle steps argument s = (.ok (), after) ∧ quoted argument = .ok needed ∧
    after.written = s.written ++ [needok needed status]

variable (steps) in
/-- The request is well formed and known, and its arguments are fine for it. -/
def Fine (argument : Text) (mLocalIP : Option Text) : Prop :=
  ∃ needed extra request, quoted argument = .ok needed ∧ afterColon argument = .ok extra ∧
    Request.ofText needed = some request ∧ RequestFine steps extra mLocalIP request

end Steps

/-- Exactly the known requests with fine arguments are answered once. -/
theorem one_answer_iff (steps : Steps) (argument : Text) (s : State) :
    OneAnswer steps argument s ↔ Fine steps argument s.mLocalIP := by
  have returned (after : State) : handle steps argument s = (.ok (), after) ↔
      ∃ needed extra, quoted argument = .ok needed ∧ afterColon argument = .ok extra ∧
        Returns (answer steps needed extra (Request.ofText needed)) s () after := by
    change Returns (processNeedCommand steps argument) s () after ↔ _
    simp only [processNeedCommand, returns_bind, returns_runtime]
    constructor
    · rintro ⟨needed, s, ⟨name, rfl⟩, extra, s, ⟨colon, rfl⟩, answered⟩
      exact ⟨needed, extra, name, colon, answered⟩
    · rintro ⟨needed, extra, name, colon, answered⟩
      exact ⟨needed, s, ⟨name, rfl⟩, extra, s, ⟨colon, rfl⟩, answered⟩
  constructor
  · rintro ⟨after, needed, status, handled, name, once⟩
    obtain ⟨_, extra, same, colon, answered⟩ := (returned after).mp handled
    cases name.symm.trans same
    obtain ⟨request, known, fine⟩ := answer_once.mp ⟨after, status, answered, once⟩
    exact ⟨needed, extra, request, name, colon, known, fine⟩
  · rintro ⟨needed, extra, request, name, colon, known, fine⟩
    obtain ⟨after, status, answered, once⟩ := answer_once.mpr ⟨request, known, fine⟩
    exact ⟨after, needed, status, (returned after).mpr ⟨needed, extra, name, colon, answered⟩, name, once⟩

/-! ### The lines of OpenVPN -/

def room (command : Text) : Nat := 93 - command.length

private theorem androidControl_eq {command : Text} (msg : Text) (short : command.length ≤ 20) :
    androidControl command msg =
      "Need '".toList ++ (command ++ ("' confirmation MSG:".toList ++ msg.take (room command))) := by
  have front : (">NEED-OK:Need '".toList ++ command ++ "' confirmation MSG:".toList).length =
      command.length + 34 := by
    simp
  have left : alertSize - 1 - (command.length + 34) = room command := by
    rw [alertSize, room]
    omega
  rw [androidControl, List.take_append, List.take_of_length_le (by rw [front, alertSize]; omega), front, left]
  simp only [List.append_assoc]
  rfl

private theorem quoted_android {command : Text} (msg : Text) (short : command.length ≤ 20) (plain : '\'' ∉ command) :
    quoted (androidControl command msg) = .ok command := by
  have before (rest : Text) : (command ++ '\'' :: rest).takeWhile (· ≠ '\'') = command := by
    rw [List.takeWhile_append_of_pos]
    · simp
    · intro c member
      exact decide_eq_true fun same => plain (same ▸ member)
  have quotes (rest : Text) : quoted ("Need '".toList ++ (command ++ '\'' :: rest)) = .ok command := by
    have opening : ("Need '".toList ++ (command ++ '\'' :: rest)).dropWhile (· ≠ '\'') =
        '\'' :: (command ++ '\'' :: rest) := rfl
    simp only [quoted, opening]
    rw [if_pos (by simp), before]
  rw [androidControl_eq msg short]
  exact quotes _

private theorem afterColon_android {command : Text} (msg : Text) (short : command.length ≤ 20)
    (plain : ':' ∉ command) :
    afterColon (androidControl command msg) = .ok (msg.take (room command)) := by
  have skipped (rest : Text) : (command ++ rest).dropWhile (· ≠ ':') = rest.dropWhile (· ≠ ':') := by
    rw [List.dropWhile_append_of_pos]
    intro c member
    exact decide_eq_true fun same => plain (same ▸ member)
  have colon (rest : Text) : ("Need '".toList ++ (command ++ ("' confirmation MSG:".toList ++ rest))).dropWhile
      (· ≠ ':') =
      ':' :: rest := skipped ("' confirmation MSG:".toList ++ rest)
  rw [androidControl_eq msg short, afterColon, colon]

/-- The message of a request is what its arguments are read from. -/
theorem android_fine {steps : Steps} {request : Request × String} (sent : request ∈ Request.all) (msg : Text)
    (mLocalIP : Option Text) :
    Fine steps (androidControl request.2.toList msg) mLocalIP ↔
      RequestFine steps (msg.take (room request.2.toList)) mLocalIP request.1 := by
  have names : ∀ request ∈ Request.all, request.2.toList.length ≤ 20 ∧ '\'' ∉ request.2.toList ∧
      ':' ∉ request.2.toList ∧
      Request.ofText request.2.toList = some request.1 := by decide
  obtain ⟨short, noQuote, noColon, known⟩ := names request sent
  simp only [Fine, quoted_android msg short noQuote, afterColon_android msg short noColon, Except.ok.injEq]
  constructor
  · rintro ⟨_, _, _, rfl, rfl, same, fine⟩
    cases known.symm.trans same
    exact fine
  · exact fun fine => ⟨_, _, _, rfl, rfl, known, fine⟩

/-- An answered descriptor whose own side cannot be closed is cancelled as well. -/
theorem opened_tunnel_is_cancelled :
    ¬ ∀ (steps : Steps) (request : Request × String) (msg : Text) (s : State), request ∈ Request.all →
      OneAnswer steps (androidControl request.2.toList msg) s := by
  intro claim
  obtain ⟨after, needed, status, handled, -, once⟩ :=
    claim { close := some .IOException } (.OPENTUN, "OPENTUN") "tun".toList {} (by decide)
  have twice : handle { close := some .IOException } (androidControl "OPENTUN".toList "tun".toList) {} =
      (.ok (), { written := [needok "OPENTUN".toList "ok".toList, needok "OPENTUN".toList "cancel".toList] }) := by
        rfl
  cases handled.symm.trans twice
  have one := congrArg List.length once
  cases one

end RRoadVpn.Proofs.NeedOkAnswers
