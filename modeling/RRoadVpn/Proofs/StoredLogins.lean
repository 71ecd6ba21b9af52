import RRoadVpn.Library.Runs
import RRoadVpn.LogIns

/-! Which log-ins leave a stored login complete. The token and the device's id are
saved only where the answer has their headers, and a log-in that fails half-way
leaves what it has saved before beside the rest of an earlier one. -/

namespace RRoadVpn.Proofs.StoredLogins
open RRoadVpn.Library RRoadVpn.UsersAPIService RRoadVpn.LogIns

/-- Where the VPN screen is opened, the rest of the login is there and of the token's log-in. -/
def Complete (p : PreferencesService) : Prop :=
  opensVPN p = true → ∀ prefLabel ∈ [.USER_UUID, .USER_DEVICE_UUID, .DEVICE_ID],
    p.getString prefLabel ≠ "" ∧ p.storedBy prefLabel = p.storedBy .DEVICE_TOKEN

/-- The pin is right and belongs to this user. -/
def Accepts (answer : Option RESTResponse) (uuid : String) : Prop :=
  ∃ ur email, answer = some ur ∧ ur.isOk = true ∧ ur.data = .object (some uuid) (some email)

/-- The device is created and the answer has a token. -/
def Grants (answer : Option RESTResponse) (token : String) : Prop :=
  ∃ ur rest, answer = some ur ∧ ur.code = HTTP_CREATED ∧ ur.status = "success" ∧
    ur.header "x-device-token" = some (token :: rest)

/-- The answer says where the device is. -/
def Locates (answer : Option RESTResponse) (userDeviceUuid : String) : Prop :=
  ∃ ur locationUrl rest, answer = some ur ∧ ur.header "Location" = some (locationUrl :: rest) ∧
    userDeviceUuid = lastPart locationUrl

/-- A token comes with the user's and the device's id, and without one there is none from before. -/
structure Fitting (uuid : String) (answer : Option RESTResponse) (p : PreferencesService) : Prop where
  whole : ∀ token, Grants answer token → token ≠ "" →
    uuid ≠ "" ∧ ∃ userDeviceUuid, Locates answer userDeviceUuid ∧ userDeviceUuid ≠ ""
  unmixed : (¬ ∃ token, Grants answer token) → opensVPN p = false

/-- Where the pin is accepted, the device's answer fits. -/
def Sound (s : State) : Event → Prop
  | .logIn _ pinAnswer deviceAnswer =>
    ∀ uuid, Accepts pinAnswer uuid → Fitting uuid deviceAnswer s.preferencesService
  | .logOut _ => True

/-! ### What the calls save -/

private theorem getUserByPinCode_cases (answer : Option RESTResponse) (p : PreferencesService) :
    (∃ uuid email, Accepts answer uuid ∧ getUserByPinCode answer p =
      (.ok ⟨uuid, email⟩, (p.save .USER_UUID uuid).save .USER_EMAIL email)) ∨
    ((¬ ∃ uuid, Accepts answer uuid) ∧ ∃ e, getUserByPinCode answer p = (.error e, p)) := by
  unfold getUserByPinCode
  split
  next =>
    refine Or.inr ⟨?_, _, rfl⟩
    rintro ⟨uuid, ur, email, none, -⟩
    cases none
  next ur =>
    by_cases ok : ur.isOk = true
    · rw [if_pos ok]
      split
      next uuid email data => exact Or.inl ⟨uuid, email, ⟨ur, email, rfl, ok, data⟩, rfl⟩
      next _ _ missing data =>
        refine Or.inr ⟨?_, _, rfl⟩
        rintro ⟨uuid, ur, email, same, -, given⟩
        cases same
        cases data.symm.trans given
        exact missing uuid email rfl rfl
      next data =>
        refine Or.inr ⟨?_, _, rfl⟩
        rintro ⟨uuid, ur, email, same, -, given⟩
        cases same
        cases data.symm.trans given
      next data =>
        refine Or.inr ⟨?_, _, rfl⟩
        rintro ⟨uuid, ur, email, same, -, given⟩
        cases same
        cases data.symm.trans given
    · rw [if_neg ok]
      refine Or.inr ⟨?_, _, rfl⟩
      rintro ⟨uuid, ur, email, same, fine, -⟩
      cases same
      exact ok fine

theorem saveHeader_cases (values : Option (List String)) (prefLabel : VPNAppPreferences) (read : String → String)
    (p : PreferencesService) :
    (∃ value rest, values = some (value :: rest) ∧
      saveHeader values prefLabel read p = (.ok (), p.save prefLabel (read value))) ∨
    ((∀ value rest, values ≠ some (value :: rest)) ∧ (saveHeader values prefLabel read p).2 = p) := by
  rcases values with _ | ⟨_ | ⟨value, rest⟩⟩
  · exact Or.inr ⟨by simp, rfl⟩
  · exact Or.inr ⟨by simp, rfl⟩
  · exact Or.inl ⟨value, rest, rfl, rfl⟩

private theorem createUserDevice_cases (answer : Option RESTResponse) (p : PreferencesService) :
    (∃ token, Grants answer token ∧
      ((∃ uuid, Locates answer uuid ∧
        (UsersAPIService.createUserDevice answer p).2 = (p.save .DEVICE_TOKEN token).save .USER_DEVICE_UUID uuid) ∨
       ((¬ ∃ uuid, Locates answer uuid) ∧
        (UsersAPIService.createUserDevice answer p).2 = p.save .DEVICE_TOKEN token))) ∨
    ((¬ ∃ token, Grants answer token) ∧
      ((UsersAPIService.createUserDevice answer p).2 = p ∨
        ∃ uuid, (UsersAPIService.createUserDevice answer p).2 = p.save .USER_DEVICE_UUID uuid)) := by
  unfold UsersAPIService.createUserDevice
  split
  next =>
    refine Or.inr ⟨?_, Or.inl rfl⟩
    rintro ⟨token, ur, rest, none, -⟩
    cases none
  next ur =>
    by_cases refused : ur.code ≠ HTTP_CREATED ∨ ur.status ≠ "success"
    · rw [if_pos refused]
      refine Or.inr ⟨?_, Or.inl rfl⟩
      rintro ⟨token, ur, rest, same, code, status, -⟩
      cases same
      exact refused.elim (· code) (· status)
    · rw [if_neg refused]
      simp only [not_or, not_not] at refused
      have located (p : PreferencesService) := saveHeader_cases (ur.header "Location") .USER_DEVICE_UUID lastPart p
      rcases given : ur.header "x-device-token" with _ | ⟨_ | ⟨token, rest⟩⟩
      · have absent : ¬ ∃ token, Grants (some ur) token := by
          rintro ⟨token, ur, rest, same, -, -, header⟩
          cases same
          cases given.symm.trans header
        refine Or.inr ⟨absent, ?_⟩
        rcases located p with ⟨url, rest, -, saved⟩ | ⟨-, saved⟩
        · exact Or.inr ⟨lastPart url, congrArg Prod.snd saved⟩
        · exact Or.inl saved
      · refine Or.inr ⟨?_, Or.inl rfl⟩
        rintro ⟨token, ur, rest, same, -, -, header⟩
        cases same
        cases given.symm.trans header
      · refine Or.inl ⟨token, ⟨ur, rest, rfl, refused.1, refused.2, given⟩, ?_⟩
        rcases located (p.save .DEVICE_TOKEN token) with ⟨url, rest, location, saved⟩ | ⟨none, saved⟩
        · exact Or.inl ⟨lastPart url, ⟨ur, url, rest, rfl, location, rfl⟩, congrArg Prod.snd saved⟩
        · refine Or.inr ⟨?_, saved⟩
          rintro ⟨uuid, ur, url, rest, same, location, -⟩
          cases same
          exact none url rest location

private theorem Accepts.unique {answer : Option RESTResponse} {first second : String} (left : Accepts answer first)
    (right : Accepts answer second) : first = second := by
  obtain ⟨ur, email, rfl, -, data⟩ := left
  obtain ⟨ur', email', same, -, data'⟩ := right
  cases same
  cases data.symm.trans data'
  rfl

private theorem Grants.unique {answer : Option RESTResponse} {first second : String} (left : Grants answer first)
    (right : Grants answer second) : first = second := by
  obtain ⟨ur, rest, rfl, -, -, header⟩ := left
  obtain ⟨ur', rest', same, -, -, header'⟩ := right
  cases same
  cases header.symm.trans header'
  rfl

private theorem Locates.unique {answer : Option RESTResponse} {first second : String} (left : Locates answer first)
    (right : Locates answer second) : first = second := by
  obtain ⟨ur, url, rest, rfl, header, rfl⟩ := left
  obtain ⟨ur', url', rest', same, header', rfl⟩ := right
  cases same
  cases header.symm.trans header'
  rfl

/-! ### One log-in -/

def Dated (p : PreferencesService) : Prop := ∀ prefLabel, p.storedBy prefLabel ≤ p.logIn

private theorem Dated.save {p : PreferencesService} (dated : Dated p) (prefLabel : VPNAppPreferences)
    (value : String) :
    Dated (p.save prefLabel value) := by
  intro other
  by_cases same : other = prefLabel
  · subst same
    simp
  · simpa [same] using dated other

variable {p : PreferencesService} {uuid email token userDeviceUuid : String} {deviceId : Nat}

/-- What a log-in with an accepted pin has saved before it has a device. -/
def begun (uuid email : String) (deviceId : Nat) (p : PreferencesService) : PreferencesService :=
  ((p.save .USER_UUID uuid).save .USER_EMAIL email).save .DEVICE_ID (toString deviceId)

/-- Without a new token the old one is left with the new user. -/
theorem complete_without_token_iff (earlier : ∀ prefLabel, p.storedBy prefLabel < p.logIn) {p' : PreferencesService}
    (token : p'.getString .DEVICE_TOKEN = p.getString .DEVICE_TOKEN)
    (kept : p'.storedBy .DEVICE_TOKEN = p.storedBy .DEVICE_TOKEN)
    (user : p'.storedBy .USER_UUID = p.logIn) : Complete p' ↔ opensVPN p = false := by
  have same : opensVPN p' = opensVPN p := by simp only [opensVPN, token]
  constructor
  · intro complete
    apply Bool.eq_false_iff.mpr
    intro opens
    have mixed := (complete (same.trans opens) .USER_UUID (by simp)).2
    have before := earlier .DEVICE_TOKEN
    omega
  · intro closed opens
    rw [same, closed] at opens
    cases opens

theorem complete_with_device_iff :
    Complete (((begun uuid email deviceId p).save .DEVICE_TOKEN token).save .USER_DEVICE_UUID userDeviceUuid) ↔
      (token ≠ "" → uuid ≠ "" ∧ userDeviceUuid ≠ "") := by
  simp [Complete, opensVPN, begun]

theorem complete_without_device_iff (earlier : ∀ prefLabel, p.storedBy prefLabel < p.logIn) :
    Complete ((begun uuid email deviceId p).save .DEVICE_TOKEN token) ↔ token = "" := by
  constructor
  · intro complete
    apply Classical.byContradiction
    intro some
    have mixed := (complete (by simpa [opensVPN] using some) .USER_DEVICE_UUID (by simp)).2
    have before := earlier .USER_DEVICE_UUID
    simp [begun] at mixed
    omega
  · rintro rfl opens
    simp [opensVPN] at opens

private theorem device_exact (deviceAnswer : Option RESTResponse)
    (earlier : ∀ prefLabel, p.storedBy prefLabel < p.logIn) :
    Dated (UsersAPIService.createUserDevice deviceAnswer (begun uuid email deviceId p)).2 ∧
      (Complete (UsersAPIService.createUserDevice deviceAnswer (begun uuid email deviceId p)).2 ↔
        Fitting uuid deviceAnswer p) := by
  have later : Dated p := fun prefLabel => Nat.le_of_lt (earlier prefLabel)
  have started : Dated (begun uuid email deviceId p) := ((later.save _ _).save _ _).save _ _
  rcases createUserDevice_cases deviceAnswer (begun uuid email deviceId p) with
    ⟨token, grants, ⟨device, locates, result⟩ | ⟨nowhere, result⟩⟩ | ⟨refuses, result⟩
  · rw [result]
    refine ⟨(started.save _ _).save _ _, complete_with_device_iff.trans ⟨fun complete => ?_, fun fitting some => ?_⟩⟩
    · refine ⟨fun other also some => ?_, fun none => absurd ⟨token, grants⟩ none⟩
      rw [also.unique grants] at some
      exact ⟨(complete some).1, device, locates, (complete some).2⟩
    · obtain ⟨user, other, also, there⟩ := fitting.whole token grants some
      exact ⟨user, locates.unique also ▸ there⟩
  · rw [result]
    refine ⟨started.save _ _, (complete_without_device_iff earlier).trans ⟨fun empty => ?_, fun fitting => ?_⟩⟩
    · refine ⟨fun other also some => ?_, fun none => absurd ⟨token, grants⟩ none⟩
      exact absurd ((also.unique grants).trans empty) some
    · apply Classical.byContradiction
      intro some
      obtain ⟨-, device, locates, -⟩ := fitting.whole token grants some
      exact nowhere ⟨device, locates⟩
  · have fitting_iff : opensVPN p = false ↔ Fitting uuid deviceAnswer p :=
      ⟨fun closed => ⟨fun token grants => absurd ⟨token, grants⟩ refuses, fun _ => closed⟩,
        fun fitting => fitting.unmixed refuses⟩
    rw [← fitting_iff]
    rcases result with result | ⟨device, result⟩ <;> rw [result]
    · exact ⟨started, complete_without_token_iff earlier (by simp [begun]) (by simp [begun]) (by simp [begun])⟩
    · exact ⟨started.save _ _,
        complete_without_token_iff earlier (by simp [begun]) (by simp [begun]) (by simp [begun])⟩

private theorem step_exact {s s' : State} {e : Event} (dated : Dated s.preferencesService)
    (taken : step s e = some s') :
    Dated s'.preferencesService ∧ (Complete s.preferencesService → (Complete s'.preferencesService ↔ Sound s e)) := by
  cases e with
  | logIn deviceId pinAnswer deviceAnswer =>
    cases taken
    generalize counted : { s.preferencesService with logIn := s.preferencesService.logIn + 1 } = p
    have earlier (prefLabel : VPNAppPreferences) : p.storedBy prefLabel < p.logIn := by
      subst counted
      exact Nat.lt_succ_of_le (dated prefLabel)
    rcases getUserByPinCode_cases pinAnswer p with ⟨uuid, email, accepts, pin⟩ | ⟨rejects, e, pin⟩
    · simp only [processUserPincode, checkPinCode, pin]
      obtain ⟨dated, complete⟩ := device_exact deviceAnswer earlier
      refine ⟨dated, fun _ => complete.trans ⟨fun fitting other also => ?_, fun sound => ?_⟩⟩
      · subst counted
        rw [also.unique accepts]
        exact ⟨fitting.whole, fitting.unmixed⟩
      · subst counted
        exact ⟨(sound uuid accepts).whole, (sound uuid accepts).unmixed⟩
    · simp only [processUserPincode, checkPinCode, pin]
      refine ⟨fun prefLabel => Nat.le_of_lt (earlier prefLabel), fun complete => iff_of_true ?_ ?_⟩
      · subst counted
        exact complete
      · exact fun uuid accepts => absurd ⟨uuid, accepts⟩ rejects
  | logOut answer =>
    cases taken
    refine ⟨fun _ => Nat.zero_le _, fun _ => iff_of_true ?_ trivial⟩
    intro opens
    cases opens

/-! ### Runs -/

/-- The stored login is complete after every log-in and log-out of a run exactly when each of them is sound. -/
theorem stored_logins_iff {events : List Event} {s : State} (run : Run step Free {} events s) :
    (∀ earlier later state, earlier ++ later = events → Run step Free {} earlier state →
      Complete state.preferencesService) ↔ Run step Sound {} events s :=
  Run.allowed_iff_always (fun _ => Nat.le_refl 0) (fun opens => absurd opens (by decide))
    (fun _ _ _ dated taken => (step_exact dated taken).1)
    (fun _ _ _ dated complete taken => (step_exact dated taken).2 complete) run

def rightPin (uuid : String) : Option RESTResponse :=
  some { code := HTTP_OK, data := .object (some uuid) (some "a@b.net") }

def newDevice (headers : List (String × List String)) : Option RESTResponse := some { code := HTTP_CREATED, headers }

def twice : List Event :=
  [.logIn 123456 (rightPin "u1")
    (newDevice [("x-device-token", ["t1"]), ("Location", ["https://host/u1/devices/d1"])]),
    .logOut none,
    .logIn 654321 (rightPin "u2")
      (newDevice [("x-device-token", ["t2"]), ("Location", ["https://host/u2/devices/d2"])])]

theorem stored_logins_iff_twice : ∃ s, Run step Free {} twice s ∧
    ((∀ earlier later state, earlier ++ later = twice → Run step Free {} earlier state →
      Complete state.preferencesService) ↔ Run step Sound {} twice s) :=
  ⟨_, Run.of_exec rfl, stored_logins_iff (Run.of_exec rfl)⟩

/-- The device is created but its `Location` is missing. -/
def unlocated : List Event := [.logIn 123456 (rightPin "u1") (newDevice [("x-device-token", ["t1"])])]

theorem token_without_device :
    ¬ ∀ (events : List Event) (s : State), Run step Free {} events s → Complete s.preferencesService := by
  intro claimed
  have complete := claimed unlocated _ (Run.of_exec rfl)
  exact absurd (complete (by decide) .USER_DEVICE_UUID (by decide)).1 (by decide)

end RRoadVpn.Proofs.StoredLogins
