import Mathlib.Data.List.Monad
import RRoadVpn.DeviceCheck
import RRoadVpn.Library.Passes

/-! What the two tasks make of an answer about the user's device. The exception for a device
that is not found ends in the catch clause for any exception, below the one that is for it. -/

namespace RRoadVpn.Proofs.DeviceStatus
open Library DeviceCheck
open JavaText (Text)

variable (json : JSONLibrary)

/-! ### The answer -/

/-- A body with the record of a device. -/
def HasRecord (responseBodyString : Text) (userDevice : UserDevice) : Prop :=
  ∃ jsonObj status data, json.parse responseBodyString = some jsonObj ∧
    find jsonObj "status" = some (.string status) ∧
    (∀ name ∈ ["limit", "offset"], ∀ value, find jsonObj name = some value → ∃ n, value = .integer n) ∧
    find jsonObj "data" = some (.object data) ∧ UserDevice.ofJSON json data = .ok userDevice

/-- The server answered successfully, with the record of a device. -/
def Answered (exchange : Exchange) (userDevice : UserDevice) : Prop :=
  ∃ code responseBodyString, exchange = .response code (.text responseBodyString) ∧ isSuccessful code = true ∧
    HasRecord json responseBodyString userDevice

private theorem orJSONException_ok {α : Type} {found : Option α} {value : α} :
    orJSONException found = .ok value ↔ found = some value := by
  cases found <;> simp [orJSONException]

private theorem castString_ok {fields : JSONObject} {name : String} {text : Text} :
    castString fields name = .ok text ↔ find fields name = some (.string text) := by
  unfold castString
  split
  next value found => simp [found]
  next value other found => simpa [found] using other text
  next absent => simp [absent]

private theorem castInteger_ok {fields : JSONObject} {name : String} : (∃ n, castInteger fields name = .ok n) ↔
    ∀ value, find fields name = some value → ∃ n, value = .integer n := by
  unfold castInteger
  split
  next absent => simp [absent]
  next value found => simp [found]
  next value other found =>
    simp only [found, reduceCtorEq, exists_false, Option.some.injEq, false_iff, not_forall, exists_prop]
    refine ⟨value, rfl, ?_⟩
    rintro ⟨n, rfl⟩
    exact other n rfl

private theorem parseResponse_data {code : Int} {responseBodyString : Text} {data : Option Json} :
    (∃ ur, parseResponse json code true responseBodyString = .ok ur ∧ ur.data = data) ↔
      ∃ jsonObj status, json.parse responseBodyString = some jsonObj ∧ find jsonObj "status" = some (.string status) ∧
        (∀ name ∈ ["limit", "offset"], ∀ value, find jsonObj name = some value → ∃ n, value = .integer n) ∧
        find jsonObj "data" = data := by
  simp only [parseResponse, exceptBind_ok, if_true, orJSONException_ok, castString_ok, pure, Except.pure,
    Except.ok.injEq]
  constructor
  · rintro ⟨ur, ⟨jsonObj, parsed, status, found, limit, limit_, offset, offset_, rfl⟩, rfl⟩
    refine ⟨jsonObj, status, parsed, found, ?_, rfl⟩
    rw [List.forall_mem_cons, List.forall_mem_singleton, ← castInteger_ok, ← castInteger_ok]
    exact ⟨⟨limit, limit_⟩, offset, offset_⟩
  · rintro ⟨jsonObj, status, parsed, found, integers, rfl⟩
    rw [List.forall_mem_cons, List.forall_mem_singleton, ← castInteger_ok, ← castInteger_ok] at integers
    obtain ⟨⟨limit, limit_⟩, offset, offset_⟩ := integers
    exact ⟨_, ⟨jsonObj, parsed, status, found, limit, limit_, offset, offset_, rfl⟩, rfl⟩

theorem parseResponse_code {code : Int} {isOk : Bool} {responseBodyString : Text} {ur : RESTResponse}
    (parsed : parseResponse json code isOk responseBodyString = .ok ur) : ur.code = code ∧ ur.isOk = isOk := by
  simp only [parseResponse, exceptBind_ok] at parsed
  obtain ⟨jsonObj, -, status, -, rest⟩ := parsed
  cases isOk with
  | true =>
    simp only [if_true, exceptBind_ok, pure, Except.pure, Except.ok.injEq] at rest
    obtain ⟨limit, -, offset, -, rfl⟩ := rest
    exact ⟨rfl, rfl⟩
  | false =>
    rw [if_neg Bool.false_ne_true] at rest
    split at rest
    next absent =>
      cases rest
      exact ⟨rfl, rfl⟩
    next errors found =>
      obtain ⟨read, -, rest⟩ := exceptBind_ok.mp rest
      cases rest
      exact ⟨rfl, rfl⟩
    next => cases rest

private theorem get_ok {exchange : Exchange} {ur : RESTResponse} : DeviceCheck.get json exchange = .ok ur ↔
    ∃ code responseBodyString, exchange = .response code (.text responseBodyString) ∧
      parseResponse json code (isSuccessful code) responseBodyString = .ok ur := by
  unfold DeviceCheck.get
  split
  next => simp
  next => simp
  next => simp
  next => simp
  next code responseBodyString =>
    constructor
    · intro returned
      split at returned
      next => cases returned
      next => exact ⟨code, responseBodyString, rfl, returned⟩
    · rintro ⟨_, _, same, parsed⟩
      cases same
      rw [parsed]

/-! ### The tasks -/

/-- The device is returned exactly when the server answered with its record. -/
theorem requestUserDevice_ok {exchange : Exchange} {userDevice : UserDevice} :
    requestUserDevice json exchange = .ok userDevice ↔ Answered json exchange userDevice := by
  unfold requestUserDevice
  constructor
  · intro returned
    split at returned
    next => cases returned
    next => cases returned
    next ur answered =>
      obtain ⟨code, responseBodyString, rfl, parsed⟩ := (get_ok json).mp answered
      obtain ⟨rfl, isOk⟩ := parseResponse_code json parsed
      rw [← isOk] at parsed
      split at returned
      next => cases returned
      next =>
        split at returned
        next success =>
          rw [success] at parsed
          split at returned
          next data found =>
            split at returned
            next => cases returned
            next =>
              obtain ⟨jsonObj, status, object, string, integers, data_⟩ :=
                (parseResponse_data json).mp ⟨ur, parsed, found⟩
              exact ⟨_, responseBodyString, rfl, isOk ▸ success, jsonObj, status, data, object, string, integers,
                data_, returned⟩
          next => cases returned
          next => cases returned
        next => cases returned
  · rintro ⟨code, responseBodyString, rfl, success, jsonObj, status, data, object, string, integers, found, record⟩
    obtain ⟨ur, parsed, data_⟩ := (@parseResponse_data json code _ _).mpr
      ⟨jsonObj, status, object, string, integers, found⟩
    obtain ⟨rfl, isOk⟩ := parseResponse_code json parsed
    have answered := (@get_ok json _ ur).mpr ⟨ur.code, responseBodyString, rfl, success ▸ parsed⟩
    have known : ur.code ≠ 404 := by
      intro missing
      rw [missing] at success
      cases success
    simp only [answered, if_neg known, isOk, if_true, data_, record]

/-- Every failure below is taken for a device that is not active. -/
theorem isUserDeviceActive_failed {exchange : Exchange} (never : ∀ userDevice, ¬ Answered json exchange userDevice) :
    isUserDeviceActive json exchange = .ok false := by
  unfold isUserDeviceActive getUserDevice
  cases requested : requestUserDevice json exchange with
  | ok userDevice => exact absurd ((requestUserDevice_ok json).mp requested) (never userDevice)
  | error e => rfl

private theorem isUserDeviceActive_answered {exchange : Exchange} {userDevice : UserDevice}
    (answered : Answered json exchange userDevice) : isUserDeviceActive json exchange = .ok userDevice.isActive := by
  rw [isUserDeviceActive, getUserDevice, (requestUserDevice_ok json).mpr answered]

theorem answered_unique {exchange : Exchange} {first second : UserDevice} (answered : Answered json exchange first)
    (answered' : Answered json exchange second) : first = second := by
  have returned := (requestUserDevice_ok json).mpr answered
  rw [(requestUserDevice_ok json).mpr answered'] at returned
  exact (Except.ok.inj returned).symm

private theorem answered_found {body : Body} {userDevice : UserDevice} :
    ¬ Answered json (.response 404 body) userDevice := by
  rintro ⟨code, responseBodyString, same, success, -⟩
  cases same
  cases success

/-- The two ends that are about the device come from the answer only. -/
structure Classified (exchange : Exchange) (result : Except Throwable Int) : Prop where
  deleted : result = .ok USER_DEVICE_DELETED_ERROR_CODE ↔ ∃ body, exchange = .response 404 body
  notActive : result = .ok USER_DEVICE_NOT_ACTIVE_ERROR_CODE ↔
    ∃ userDevice, Answered json exchange userDevice ∧ userDevice.isActive = false

theorem classified_iff {exchange : Exchange} {result : Except Throwable Int}
    (inactive : isUserDeviceActive json exchange = .ok false → result = .ok USER_DEVICE_NOT_ACTIVE_ERROR_CODE)
    (active : isUserDeviceActive json exchange = .ok true → result ≠ .ok USER_DEVICE_NOT_ACTIVE_ERROR_CODE ∧
      result ≠ .ok USER_DEVICE_DELETED_ERROR_CODE) :
    Classified json exchange result ↔ ∃ userDevice, Answered json exchange userDevice := by
  constructor
  · intro classified
    by_contra never
    have failed := isUserDeviceActive_failed json (not_exists.mp never)
    obtain ⟨userDevice, answered, -⟩ := classified.notActive.mp (inactive failed)
    exact never ⟨userDevice, answered⟩
  · rintro ⟨userDevice, answered⟩
    have checked := isUserDeviceActive_answered json answered
    have found : ¬ ∃ body, exchange = .response 404 body := by
      rintro ⟨body, rfl⟩
      exact answered_found json answered
    have own : (∃ other, Answered json exchange other ∧ other.isActive = false) ↔ userDevice.isActive = false := by
      constructor
      · rintro ⟨other, answered', off⟩
        rw [answered_unique json answered answered']
        exact off
      · exact fun off => ⟨userDevice, answered, off⟩
    cases state : userDevice.isActive with
    | true =>
      obtain ⟨notInactive, notDeleted⟩ := active (state ▸ checked)
      exact ⟨iff_of_false notDeleted found, iff_of_false notInactive
        (by rw [own, state]; exact Bool.true_eq_false_eq_False)⟩
    | false =>
      rw [inactive (state ▸ checked)]
      exact ⟨iff_of_false (by decide) found, iff_of_true rfl (own.mpr state)⟩

/-- Both tasks classify the answer exactly when it has the record of a device. -/
theorem device_classified_exact (exchange : Exchange) (profile : Except Throwable Unit) (isOk : Bool) :
    (Classified json exchange (connectVPNTask json exchange profile isOk) ↔
      ∃ userDevice, Answered json exchange userDevice) ∧
    (Classified json exchange (checkUserDeviceTask json true exchange) ↔
      ∃ userDevice, Answered json exchange userDevice) := by
  constructor <;> refine classified_iff json (fun inactive => ?_) fun active => ?_
  · unfold connectVPNTask
    rw [inactive]
  · unfold connectVPNTask
    rw [active]
    dsimp only
    split
    · decide
    · decide
    · cases isOk <;> decide
  · rw [checkUserDeviceTask, inactive]
    rfl
  · rw [checkUserDeviceTask, active]
    decide

/-- A reader of an answer that says that there is an error. -/
def errorReader : JSONLibrary where
  parse text :=
    if text = "\x7b\"status\":\"error\"\x7d".toList then some [("status".toList, .string "error".toList)] else none
  toText _ := none
  toInteger _ := none
  toBoolean _ := none

/-- A device that was deleted and a network that is down are both taken for a device that is not active. -/
theorem deleted_not_recognised :
    let notFound : Exchange := .response 404 (.text "\x7b\"status\":\"error\"\x7d".toList)
    (∀ exchange ∈ [notFound, .failed],
      connectVPNTask errorReader exchange (.ok ()) true = .ok USER_DEVICE_NOT_ACTIVE_ERROR_CODE ∧
      checkUserDeviceTask errorReader true exchange = .ok USER_DEVICE_NOT_ACTIVE_ERROR_CODE) ∧
    ¬ Classified errorReader notFound (checkUserDeviceTask errorReader true notFound) := by
  refine ⟨by decide +kernel, fun classified => ?_⟩
  have deleted := classified.deleted.mpr ⟨_, rfl⟩
  revert deleted
  decide +kernel

end RRoadVpn.Proofs.DeviceStatus
