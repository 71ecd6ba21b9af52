import RRoadVpn.ConnectionUpdates
import RRoadVpn.Library.Runs

/-! Which requests name an open record. While the record of the present connection
exists, the preference has its id until a successful close; when it was not created,
the preference has nothing or the id of a connection before. -/

namespace RRoadVpn.Proofs.OpenRecords
open RRoadVpn.Library RRoadVpn.UsersAPIService RRoadVpn.ConnectionUpdates
open JavaText (Text)

/-- The id that the last `createConnection` returned, if it returned one. -/
def latest (calls : List Call) : Option String :=
  calls.foldl (fun last call =>
    match call with
    | .created connectionUuid => some connectionUuid
    | .notCreated => none
    | .updateConnection .. => last) none

/-- The record of the last connection, under an id that is not empty and that no connection had before. -/
def present (calls : List Call) : Option String :=
  (latest calls).filter fun connectionUuid => connectionUuid ≠ "" && calls.count (.created connectionUuid) = 1

/-- A close request for the record has succeeded. -/
def Closed (calls : List Call) (connectionUuid : String) : Prop :=
  .updateConnection connectionUuid (some false) true ∈ calls

/-- The record is that of the last connection and has not been closed. -/
structure Open (calls : List Call) (connectionUuid : String) : Prop where
  present : present calls = some connectionUuid
  unclosed : ¬ Closed calls connectionUuid

/-- A request names an open record. -/
def NamesOpen (before : List Call) (call : Call) : Prop :=
  ∀ connectionUuid isConnected succeeded, call = .updateConnection connectionUuid isConnected succeeded →
    Open before connectionUuid

/-- A request is sent only when the last connection has a record of its own, and by a traffic update only while
that is open. -/
def Sound (s : State) : Event → Prop
  | .task _ => (∃ connectionUuid, s.task = some (.read connectionUuid)) → (present s.calls).isSome
  | .updateTraffic _ => ∃ connectionUuid, present s.calls = some connectionUuid ∧ ¬ Closed s.calls connectionUuid
  | _ => True

/-! ### Calls -/

section
variable (calls : List Call) (connectionUuid : String) (isConnected : Option Bool) (succeeded : Bool)

private theorem present_created {other : String} :
    present (calls ++ [.created connectionUuid]) = some other ↔
      other = connectionUuid ∧ connectionUuid ≠ "" ∧ .created connectionUuid ∉ calls := by
  have last : latest (calls ++ [.created connectionUuid]) = some connectionUuid := by simp [latest]
  have once : (calls ++ [Call.created connectionUuid]).count (Call.created connectionUuid) = 1 ↔
      Call.created connectionUuid ∉ calls := by
    rw [List.count_append, List.count_singleton_self, Nat.add_eq_right, List.count_eq_zero]
  rw [present, last, Option.filter_some, Option.ite_none_right_eq_some, Bool.and_eq_true, decide_eq_true_iff,
    decide_eq_true_iff, once, Option.some.injEq, eq_comm (a := connectionUuid) (b := other), and_comm]

@[simp] theorem present_notCreated : present (calls ++ [.notCreated]) = none := by simp [present, latest]

@[simp] theorem present_update : present (calls ++ [.updateConnection connectionUuid isConnected succeeded]) =
    present calls := by
  have last : latest (calls ++ [.updateConnection connectionUuid isConnected succeeded]) = latest calls := by
    simp [latest]
  simp [present, last, List.count_append]

private theorem closed_append (call : Call) :
    Closed (calls ++ [call]) connectionUuid ↔
      Closed calls connectionUuid ∨ call = .updateConnection connectionUuid (some false) true := by
  simp [Closed, eq_comm]

end

private theorem always_update {calls : List Call} {connectionUuid : String} {isConnected : Option Bool}
    {succeeded : Bool}
    (always : Always NamesOpen calls) :
    Always NamesOpen (calls ++ [.updateConnection connectionUuid isConnected succeeded]) ↔
      Open calls connectionUuid := by
  rw [always_snoc, and_iff_right always]
  constructor
  · intro names
    exact names _ _ _ rfl
  · intro «open» uuid flag done same
    cases same
    exact «open»

private theorem createConnection_cases (answer : Option RESTResponse) (p : PreferencesService) :
    (∃ uuid, createConnection answer p = (.ok uuid, p.save .CONNECTION_UUID uuid)) ∨
      ∃ e, createConnection answer p = (.error e, p) := by
  cases answer with
  | none => exact Or.inr ⟨_, rfl⟩
  | some ur =>
    by_cases refused : ur.code ≠ HTTP_CREATED ∨ ur.status ≠ "success"
    · refine Or.inr ⟨.UserService "we can't create connection", ?_⟩
      simp only [createConnection, if_pos refused]
    · rcases location : ur.header "Location" with _ | ⟨_ | ⟨locationUrl, rest⟩⟩
      · exact Or.inr ⟨.UserService "there is no Location header in response",
          by simp only [createConnection, if_neg refused, location]⟩
      · exact Or.inr ⟨.IndexOutOfBounds, by simp only [createConnection, if_neg refused, location]⟩
      · exact Or.inl ⟨lastPart locationUrl, by simp only [createConnection, if_neg refused, location]⟩

/-- What `onConnect` does: nothing, or a connection with or without a record begins. -/
theorem onConnect_cases (s : State) (status : Text) (answer : Option RESTResponse) :
    s.onConnect status answer = s ∨
      (∃ uuid, s.onConnect status answer =
        { s with
          WAS_CONNECTED := true
          preferencesService := (s.preferencesService.save .CONNECTION_UUID uuid).save .CONNECTION_UUID uuid
          calls := s.calls ++ [.created uuid] }) ∨
      ∃ on, s.onConnect status answer = { s with WAS_CONNECTED := on, calls := s.calls ++ [.notCreated] } := by
  unfold State.onConnect
  split
  · exact Or.inl rfl
  · split
    · exact Or.inr (Or.inr ⟨s.WAS_CONNECTED, rfl⟩)
    · rcases createConnection_cases answer s.preferencesService with ⟨uuid, result⟩ | ⟨e, result⟩
      · exact Or.inr (Or.inl ⟨uuid, by rw [State.afterConnectedToVPN, result]⟩)
      · exact Or.inr (Or.inr ⟨true, by rw [State.afterConnectedToVPN, result]⟩)

/-! ### The slot and the last record -/

/-- An id that requests can carry is empty or was given by the server. -/
def Known (calls : List Call) (connectionUuid : String) : Prop :=
  connectionUuid = "" ∨ .created connectionUuid ∈ calls

/-- What ties the slot, the task and a traffic update to the record that was created last. -/
structure Tied (s : State) : Prop where
  slot : Known s.calls s.connectionUuid
  read : ∀ uuid, s.task = some (.read uuid) → Known s.calls uuid
  updating : ∀ uuid, s.updating = some uuid → Known s.calls uuid
  sent : ∀ uuid isConnected succeeded, .updateConnection uuid isConnected succeeded ∈ s.calls → Known s.calls uuid
  same : ∀ uuid, present s.calls = some uuid → s.connectionUuid = uuid ∨ (s.connectionUuid = "" ∧ Closed s.calls uuid)
  connected : s.WAS_CONNECTED = true → s.task = none ∧ ∀ uuid, present s.calls = some uuid → ¬ Closed s.calls uuid
  executed : s.task = some .executed → ∀ uuid, present s.calls = some uuid → ¬ Closed s.calls uuid
  reads : ∀ id, s.task = some (.read id) → ∀ uuid, present s.calls = some uuid → id = uuid ∧ ¬ Closed s.calls uuid
  updated : s.task = some .updated → ∀ uuid, present s.calls = some uuid → Closed s.calls uuid
  updates : ∀ id, s.updating = some id → ∀ uuid, present s.calls = some uuid → id = uuid

private theorem Known.append {calls : List Call} {connectionUuid : String} (known : Known calls connectionUuid)
    (call : Call) :
    Known (calls ++ [call]) connectionUuid := known.imp id (List.mem_append_left _)

namespace Tied

variable {s s' : State}

private theorem initial : Tied {} := by
  constructor <;> simp [Known, present, latest, State.connectionUuid, PreferencesService.getString]

theorem like (tied : Tied s) (slot : s'.connectionUuid = s.connectionUuid) (task : s'.task = s.task)
    (updating : s'.updating = s.updating) (calls : s'.calls = s.calls)
    (connected : s'.WAS_CONNECTED = true → s.WAS_CONNECTED = true) : Tied s' := by
  obtain ⟨a, b, c, d, f, g, h, i, j, k⟩ := tied
  constructor <;> simp only [slot, task, updating, calls] <;> first | assumption | exact fun on => g (connected on)

theorem created (tied : Tied s) (task : s.task = none) (updating : s.updating = none) {uuid : String}
    {p : PreferencesService} (slot : p.getString .CONNECTION_UUID = uuid) :
    Tied { s with WAS_CONNECTED := true, preferencesService := p, calls := s.calls ++ [.created uuid] } := by
  have unclosed (other : String) (given : present (s.calls ++ [.created uuid]) = some other) :
      ¬ Closed (s.calls ++ [.created uuid]) other := by
    obtain ⟨rfl, nonempty, fresh⟩ := (present_created _ _).mp given
    rw [closed_append]
    rintro (closed | same)
    · exact (tied.sent _ _ _ closed).elim nonempty fresh
    · cases same
  exact {
    slot := Or.inr (by simp [State.connectionUuid, slot])
    read := fun _ at' => by cases task.symm.trans at'
    updating := fun _ reads => by cases updating.symm.trans reads
    sent := fun other flag done member => by
      rcases List.mem_append.mp member with old | new
      · exact (tied.sent _ _ _ old).append _
      · simp at new
    same := fun other given => Or.inl (slot.trans ((present_created _ _).mp given).1.symm)
    connected := fun _ => ⟨task, unclosed⟩
    executed := fun at' => by cases task.symm.trans at'
    reads := fun _ at' => by cases task.symm.trans at'
    updated := fun at' => by cases task.symm.trans at'
    updates := fun _ reads => by cases updating.symm.trans reads }

theorem notCreated (tied : Tied s) (task : s.task = none) (updating : s.updating = none) (on : Bool) :
    Tied { s with WAS_CONNECTED := on, calls := s.calls ++ [.notCreated] } := by
  have none (other : String) : present (s.calls ++ [.notCreated]) ≠ some other := by simp
  exact {
    slot := tied.slot.append _
    read := fun _ at' => by cases task.symm.trans at'
    updating := fun _ reads => by cases updating.symm.trans reads
    sent := fun other flag done member => by
      rcases List.mem_append.mp member with old | new
      · exact (tied.sent _ _ _ old).append _
      · simp at new
    same := fun other given => absurd given (none other)
    connected := fun _ => ⟨task, fun other given => absurd given (none other)⟩
    executed := fun at' => by cases task.symm.trans at'
    reads := fun _ at' => by cases task.symm.trans at'
    updated := fun at' => by cases task.symm.trans at'
    updates := fun _ reads => by cases updating.symm.trans reads }

private theorem onConnect (tied : Tied s) (task : s.task = none) (updating : s.updating = none) (status : Text)
    (answer : Option RESTResponse) : Tied (s.onConnect status answer) := by
  rcases onConnect_cases s status answer with same | ⟨uuid, same⟩ | ⟨on, same⟩
  · rw [same]
    exact tied
  · rw [same]
    exact tied.created task updating (PreferencesService.getString_save ..)
  · rw [same]
    exact tied.notCreated task updating on

private theorem onDisconnect (tied : Tied s) : Tied s.onDisconnect := by
  cases on : s.WAS_CONNECTED with
  | false =>
    have same : s.onDisconnect = { s with WAS_CONNECTED := false } := by simp [State.onDisconnect, on]
    rw [same]
    exact tied.like rfl rfl rfl rfl fun impossible => by cases impossible
  | true =>
    have same : s.onDisconnect = { s with WAS_CONNECTED := false, task := some .executed } := by
      simp [State.onDisconnect, on]
    rw [same]
    obtain ⟨-, unclosed⟩ := tied.connected on
    exact {
      slot := tied.slot
      read := fun _ impossible => by cases impossible
      updating := tied.updating
      sent := tied.sent
      same := tied.same
      connected := fun impossible => by cases impossible
      executed := fun _ => unclosed
      reads := fun _ impossible => by cases impossible
      updated := fun impossible => by cases impossible
      updates := tied.updates }

theorem send (tied : Tied s) {uuid : String} (known : Known s.calls uuid) {isConnected : Option Bool}
    {succeeded : Bool}
    (slot : s'.connectionUuid = s.connectionUuid)
    (calls : s'.calls = s.calls ++ [.updateConnection uuid isConnected succeeded])
    (updating : s'.updating = none ∨ s'.updating = s.updating)
    (kept : (s'.task = s.task ∧ s'.WAS_CONNECTED = s.WAS_CONNECTED ∧ isConnected ≠ some false) ∨
      (s'.WAS_CONNECTED = false ∧ (s'.task = none ∨
        s'.task = some .updated ∧ isConnected = some false ∧ succeeded = true ∧ ∀ last, present s.calls = some last →
          uuid = last))) :
    Tied s' := by
  have old (other : String) (closed : Closed s.calls other) : Closed s'.calls other := by
    rw [calls, closed_append]
    exact Or.inl closed
  have new (other : String) (open' : isConnected ≠ some false)
      (unclosed : ¬ Closed s.calls other) : ¬ Closed s'.calls other := by
    rw [calls, closed_append]
    rintro (closed | same)
    · exact unclosed closed
    · cases same
      exact open' rfl
  have last : present s'.calls = present s.calls := by rw [calls, present_update]
  have wider (other : String) (known : Known s.calls other) : Known s'.calls other := calls ▸ known.append _
  have task (t : AfterDisconnectVPNTask) (at' : s'.task = some t) (other : t ≠ .updated) :
      s.task = some t ∧ isConnected ≠ some false := by
    rcases kept with ⟨same, -, flag⟩ | ⟨-, none | ⟨done, -⟩⟩
    · exact ⟨same ▸ at', flag⟩
    · cases none.symm.trans at'
    · cases done.symm.trans at'
      exact absurd rfl other
  constructor
  · exact slot ▸ wider _ tied.slot
  · intro id at'
    exact wider _ (tied.read id (task _ at' (by simp)).1)
  · intro id reads
    rcases updating with none | same
    · cases none.symm.trans reads
    · exact wider _ (tied.updating id (same ▸ reads))
  · intro other flag done member
    rw [calls] at member
    rcases List.mem_append.mp member with before | now
    · exact wider _ (tied.sent _ _ _ before)
    · cases List.mem_singleton.mp now
      exact wider _ known
  · intro other given
    rw [slot]
    exact (tied.same other (last ▸ given)).imp id (And.imp_right (old other))
  · intro on
    rcases kept with ⟨same, was, flag⟩ | ⟨off, -⟩
    · obtain ⟨none, unclosed⟩ := tied.connected (was ▸ on)
      exact ⟨same.trans none, fun other given => new other flag (unclosed other (last ▸ given))⟩
    · cases off.symm.trans on
  · intro at' other given
    obtain ⟨same, flag⟩ := task _ at' (by simp)
    exact new other flag (tied.executed same other (last ▸ given))
  · intro id at' other given
    obtain ⟨same, flag⟩ := task _ at' (by simp)
    obtain ⟨equal, unclosed⟩ := tied.reads id same other (last ▸ given)
    exact ⟨equal, new other flag unclosed⟩
  · intro at' other given
    rcases kept with ⟨same, -, flag⟩ | ⟨-, none | ⟨-, flag, done, equal⟩⟩
    · exact old other (tied.updated (same ▸ at') other (last ▸ given))
    · cases none.symm.trans at'
    · rw [calls, closed_append, flag, done, equal other (last ▸ given)]
      exact Or.inr rfl
  · intro id reads other given
    rcases updating with none | same
    · cases none.symm.trans reads
    · exact tied.updates id (same ▸ reads) other (last ▸ given)

private theorem afterDisconnectVPN (tied : Tied s) {answer : Option RESTResponse} {task : AfterDisconnectVPNTask}
    (pending : s.task = some task) : Tied (s.afterDisconnectVPN answer task) := by
  have off : s.WAS_CONNECTED = false := by
    apply Bool.eq_false_iff.mpr
    intro on
    cases (tied.connected on).1.symm.trans pending
  cases task with
  | executed =>
    have unclosed := tied.executed pending
    exact {
      slot := tied.slot
      read := fun _ same => by cases same; exact tied.slot
      updating := tied.updating
      sent := tied.sent
      same := tied.same
      connected := fun on => by cases off.symm.trans on
      executed := fun impossible => by cases impossible
      reads := fun _ same uuid given => by
        cases same
        exact ⟨(tied.same uuid given).resolve_right fun closed => unclosed uuid given closed.2, unclosed uuid given⟩
      updated := fun impossible => by cases impossible
      updates := tied.updates }
  | read uuid =>
    unfold State.afterDisconnectVPN
    rcases updateConnection answer with e | _
    · exact tied.send (tied.read uuid pending) rfl rfl (Or.inr rfl) (Or.inr ⟨off, Or.inl rfl⟩)
    · refine tied.send (tied.read uuid pending) rfl rfl (Or.inr rfl) (Or.inr ⟨off, Or.inr ⟨rfl, rfl, rfl, ?_⟩⟩)
      intro last given
      exact (tied.reads uuid pending last given).1
  | updated =>
    have closed := tied.updated pending
    have empty : (s.afterDisconnectVPN answer .updated).connectionUuid = "" := by
      simp [State.afterDisconnectVPN, State.connectionUuid]
    exact {
      slot := Or.inl empty
      read := fun _ impossible => by cases impossible
      updating := tied.updating
      sent := tied.sent
      same := fun uuid given => Or.inr ⟨empty, closed uuid given⟩
      connected := fun on => by cases off.symm.trans on
      executed := fun impossible => by cases impossible
      reads := fun _ impossible => by cases impossible
      updated := fun impossible => by cases impossible
      updates := tied.updates }

private theorem updateByteCount (tied : Tied s) (diffIn diffOut : Int) : Tied (s.updateByteCount diffIn diffOut) := by
  unfold State.updateByteCount
  split
  · split
    · exact tied
    next named =>
      exact { tied with
        updating := fun _ same => by cases same; exact tied.slot
        updates := fun _ same uuid given => by
          cases same
          exact (tied.same uuid given).resolve_right fun empty => named (Or.inl empty.1) }
  · exact tied

private theorem updateTraffic (tied : Tied s) {answer : Option RESTResponse} {uuid : String}
    (reads : s.updating = some uuid) :
    Tied (s.updateTraffic answer uuid) :=
  tied.send (tied.updating uuid reads) rfl rfl (Or.inl rfl) (Or.inl ⟨rfl, rfl, by simp⟩)

end Tied

/-! ### Steps -/

/-- A step sends no request that does not name an open record exactly when it is sound. -/
theorem step_exact {s s' : State} {e : Event} (tied : Tied s) (taken : step s e = some s') :
    Tied s' ∧ (Always NamesOpen s.calls → (Always NamesOpen s'.calls ↔ Sound s e)) := by
  cases e with
  | onConnect status answer =>
    simp only [step] at taken
    split at taken <;> cases taken
    next free =>
      refine ⟨tied.onConnect free.1 free.2 status answer, fun always => iff_of_true ?_ trivial⟩
      rcases onConnect_cases s status answer with same | ⟨uuid, same⟩ | ⟨on, same⟩
      · rwa [same]
      · rw [same, always_snoc]
        exact ⟨always, by simp [NamesOpen]⟩
      · rw [same, always_snoc]
        exact ⟨always, by simp [NamesOpen]⟩
  | onDisconnect =>
    simp only [step] at taken
    split at taken <;> cases taken
    refine ⟨tied.onDisconnect, fun always => iff_of_true ?_ trivial⟩
    have calls : s.onDisconnect.calls = s.calls := by
      unfold State.onDisconnect
      split <;> rfl
    rwa [calls]
  | task answer =>
    obtain ⟨task, pending, rfl⟩ := Option.map_eq_some_iff.mp taken
    refine ⟨tied.afterDisconnectVPN pending, fun always => ?_⟩
    cases task with
    | executed =>
      refine iff_of_true always ?_
      rintro ⟨uuid, reads⟩
      cases pending.symm.trans reads
    | updated =>
      refine iff_of_true always ?_
      rintro ⟨uuid, reads⟩
      cases pending.symm.trans reads
    | read uuid =>
      have sent : ∃ succeeded, (s.afterDisconnectVPN answer (.read uuid)).calls =
          s.calls ++ [.updateConnection uuid (some false) succeeded] := by
        unfold State.afterDisconnectVPN
        rcases updateConnection answer with e | _
        · exact ⟨false, rfl⟩
        · exact ⟨true, rfl⟩
      obtain ⟨succeeded, calls⟩ := sent
      rw [calls, always_update always]
      constructor
      · intro named _
        rw [named.present]
        rfl
      · intro sound
        obtain ⟨last, given⟩ := Option.isSome_iff_exists.mp (sound ⟨uuid, pending⟩)
        obtain ⟨rfl, unclosed⟩ := tied.reads uuid pending last given
        exact ⟨given, unclosed⟩
  | updateByteCount diffIn diffOut =>
    simp only [step] at taken
    split at taken <;> cases taken
    refine ⟨tied.updateByteCount diffIn diffOut, fun always => iff_of_true ?_ trivial⟩
    have calls : (s.updateByteCount diffIn diffOut).calls = s.calls := by
      unfold State.updateByteCount
      split
      · split <;> rfl
      · rfl
    rwa [calls]
  | updateTraffic answer =>
    obtain ⟨uuid, reads, rfl⟩ := Option.map_eq_some_iff.mp taken
    refine ⟨tied.updateTraffic reads, fun always => ?_⟩
    refine (always_update always).trans ⟨fun named => ⟨uuid, named.present, named.unclosed⟩, ?_⟩
    rintro ⟨last, given, unclosed⟩
    have same := tied.updates uuid reads last given
    subst same
    exact ⟨given, unclosed⟩
  | save prefLabel value =>
    simp only [step] at taken
    split at taken <;> cases taken
    next other =>
      refine ⟨tied.like ?_ rfl rfl rfl id, fun always => iff_of_true always trivial⟩
      exact PreferencesService.getString_save_of_ne _ _ _ (Ne.symm other)

/-! ### Runs -/

/-- All requests of a run name an open record exactly when each of its steps is sound. -/
theorem requests_name_open_iff {events : List Event} {s : State} (run : Run step Free {} events s) :
    (∀ earlier later state, earlier ++ later = events → Run step Free {} earlier state →
      Always NamesOpen state.calls) ↔
      Run step Sound {} events s :=
  Run.allowed_iff_always Tied.initial always_nil (fun _ _ _ tied taken => (step_exact tied taken).1)
    (fun _ _ _ tied always taken => (step_exact tied taken).2 always) run

def newRecord (locationUrl : String) : Option RESTResponse :=
  some { code := HTTP_CREATED, headers := [("Location", [locationUrl])] }

def fine : Option RESTResponse := some { code := HTTP_OK }

def status : Text := "Connected: SUCCESS,10.8.0.2,1.2.3.4".toList

/-- A connection with a traffic update, and one whose first close fails. -/
def twoConnections : List Event :=
  [.save .USER_UUID "u", .save .SERVER_UUID "s", .save .USER_DEVICE_UUID "d",
    .onConnect status (newRecord "https://host/c/1"),
    .updateByteCount 1000000 0, .updateTraffic fine, .onDisconnect, .task none, .task none,
    .onConnect status (newRecord "https://host/c/2"), .onDisconnect, .task none, .task fine, .task none]

theorem requests_name_open_iff_two_connections : ∃ s, Run step Free {} twoConnections s ∧
    ((∀ earlier later state, earlier ++ later = twoConnections → Run step Free {} earlier state →
      Always NamesOpen state.calls) ↔ Run step Sound {} twoConnections s) :=
  ⟨_, Run.of_exec rfl, requests_name_open_iff (Run.of_exec rfl)⟩

/-- The record is not created, and the disconnect asks the server to close the record "". -/
theorem empty_id_is_closed :
    ¬ ∀ (events : List Event) (s : State), Run step Free {} events s → Always NamesOpen s.calls := by
  intro claimed
  have always := claimed [.onConnect status none, .onDisconnect, .task none, .task fine] _ (Run.of_exec rfl)
  have named := always [.notCreated] (.updateConnection "" (some false) true) [] rfl _ _ _ rfl
  exact absurd named.present (by decide)

end RRoadVpn.Proofs.OpenRecords
