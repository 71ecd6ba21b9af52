import RRoadVpn.JavaText

/-! The check of the user's device: the request of `RESTService`, the layers above it with
their catch clauses, and the two tasks. The HTTP client's part is given as what it ends in,
and the reader of JSON is a parameter. -/

namespace RRoadVpn.DeviceCheck
open JavaText (Text)

/-- The exceptions, as far as the catch clauses tell them apart. -/
inductive Throwable where
  | RuntimeException (message : Text)
  | ClassCastException
  | JSONException
  | RESTException
  | UserServiceException (message : Text)
  | UserServiceExceptionBy (cause : Throwable)
  | UserDeviceNotFoundException (message : Text)
  | UserPolicyException (cause : Throwable)
  deriving DecidableEq, Repr

/-- The constructors of `RESTException` throw this, so no such exception is ever made. -/
def newRESTException : Throwable := .RuntimeException "Stub!".toList

/-! ### JSON -/

inductive Json where
  | null
  | boolean (value : Bool)
  | integer (value : Int)
  | number (text : Text)
  | string (value : Text)
  | array (elements : List Json)
  | object (fields : List (Text × Json))

abbrev JSONObject := List (Text × Json)

/-- The reader of `org.json` and its conversions. -/
structure JSONLibrary where
  parse : Text → Option JSONObject
  toText : Json → Option Text
  toInteger : Json → Option Int
  toBoolean : Json → Option Bool

variable (json : JSONLibrary)

def find (fields : JSONObject) (name : String) : Option Json := fields.lookup name.toList

def orJSONException {α : Type} : Option α → Except Throwable α
  | some value => .ok value
  | none => .error .JSONException

def getString (fields : JSONObject) (name : String) : Except Throwable Text :=
  orJSONException ((find fields name).bind json.toText)

def getInt (fields : JSONObject) (name : String) : Except Throwable Int :=
  orJSONException ((find fields name).bind json.toInteger)

def getBoolean (fields : JSONObject) (name : String) : Except Throwable Bool :=
  orJSONException ((find fields name).bind json.toBoolean)

/-! ### The answer -/

structure RESTError where
  code : Text
  message : Text
  developer_message : Text
  deriving DecidableEq, Repr

def RESTError.ofJSON : Json → Except Throwable RESTError
  | .object errorJson => do
    return { code := ← getString json errorJson "code", message := ← getString json errorJson "message",
             developer_message := ← getString json errorJson "developer_message" }
  | _ => .error .JSONException

structure RESTResponse where
  isOk : Bool
  status : Text
  code : Int
  data : Option Json := none
  limit : Option Int := none
  errors : Option (List RESTError) := none

def castString (fields : JSONObject) (name : String) : Except Throwable Text :=
  match find fields name with
  | some (.string value) => .ok value
  | some _ => .error .ClassCastException
  | none => .error .JSONException

/-- `(Integer) jsonObj.get(name)` where the name is there. -/
def castInteger (fields : JSONObject) (name : String) : Except Throwable (Option Int) :=
  match find fields name with
  | none => .ok none
  | some (.integer value) => .ok (some value)
  | some _ => .error .ClassCastException

/-- The offset is stored as the limit. -/
def parseResponse (responseCode : Int) (isOk : Bool) (responseBodyString : Text) : Except Throwable RESTResponse := do
  let jsonObj ← orJSONException (json.parse responseBodyString)
  let status ← castString jsonObj "status"
  if isOk then
    let limit ← castInteger jsonObj "limit"
    let offset ← castInteger jsonObj "offset"
    return { isOk, status, code := responseCode, data := find jsonObj "data", limit := offset.or limit }
  else
    match find jsonObj "errors" with
    | none => return { isOk, status, code := responseCode }
    | some (.array errorsJson) =>
      return { isOk, status, code := responseCode, errors := some (← errorsJson.mapM (RESTError.ofJSON json)) }
    | some _ => .error .JSONException

inductive Body where
  | absent
  | unreadable
  | text (responseBodyString : Text)
  deriving DecidableEq, Repr

inductive Exchange where
  | unchecked (message : Text)
  | failed
  | response (code : Int) (body : Body)
  deriving DecidableEq, Repr

def isSuccessful (code : Int) : Bool := 200 ≤ code && code < 300

def get : Exchange → Except Throwable RESTResponse
  | .unchecked message => .error (.RuntimeException message)
  | .failed => .error newRESTException
  | .response _ .absent => .error newRESTException
  | .response _ .unreadable => .error newRESTException
  | .response code (.text responseBodyString) =>
    match parseResponse json code (isSuccessful code) responseBodyString with
    | .error .JSONException => .error newRESTException
    | result => result

/-! ### The device -/

structure UserDevice where
  uuid : Text
  userUuid : Text
  platformId : Int
  vpnTypeId : Int
  deviceId : Text
  location : Text
  isActive : Bool
  modifyReason : Text
  deriving DecidableEq, Repr

def UserDevice.ofJSON (userDeviceJson : JSONObject) : Except Throwable UserDevice := do
  let uuid ← getString json userDeviceJson "uuid"
  let userUuid ← getString json userDeviceJson "user_uuid"
  let platformId ← getInt json userDeviceJson "platform_id"
  let vpnTypeId ← getInt json userDeviceJson "vpn_type_id"
  let deviceId ← getString json userDeviceJson "device_id"
  let location ← getString json userDeviceJson "location"
  let isActive ← getBoolean json userDeviceJson "is_active"
  let modifyReason ← getString json userDeviceJson "modify_reason"
  return { uuid, userUuid, platformId, vpnTypeId, deviceId, location, isActive, modifyReason }

def requestUserDevice (exchange : Exchange) : Except Throwable UserDevice :=
  match get json exchange with
  | .error .RESTException => .error (.UserServiceExceptionBy .RESTException)
  | .error e => .error e
  | .ok ur =>
    if ur.code = 404 then .error (.UserDeviceNotFoundException "user device WAS NOT found".toList)
    else if ur.isOk then
      match ur.data with
      | some (.object data) =>
        match UserDevice.ofJSON json data with
        | .error .JSONException => .error (.UserServiceExceptionBy .JSONException)
        | result => result
      | some (.array _) => .error (.UserServiceException "got MORE THAN ONE user device by uuid".toList)
      | _ => .error (.UserServiceException "unknown type of data".toList)
    else .error (.UserServiceException "user device IS NOT OK".toList)

/-- `UserVPNPolicy.getUserDevice`: what is not a `UserServiceException` is an `Exception`. -/
def getUserDevice (exchange : Exchange) : Except Throwable UserDevice :=
  match requestUserDevice json exchange with
  | .ok userDevice => .ok userDevice
  | .error e => .error (.UserPolicyException e)

/-- Both catch clauses return false. -/
def isUserDeviceActive (exchange : Exchange) : Except Throwable Bool :=
  match getUserDevice json exchange with
  | .ok userDevice => .ok userDevice.isActive
  | .error _ => .ok false

/-! ### The tasks -/

def CONNECT_UNKNOWN_ERROR_CODE : Int := 101

def CONNECT_NO_NETWORK_ERROR_CODE : Int := 102

def CONNECT_PREPARE_ERROR_CODE : Int := 103

def CONNECT_NO_ERROR_CODE : Int := 99

def USER_DEVICE_NO_ERROR_CODE : Int := 200

def USER_DEVICE_NOT_ACTIVE_ERROR_CODE : Int := 201

def USER_DEVICE_DELETED_ERROR_CODE : Int := 202

/-- `ConnectVPNTask.doInBackground`; what it does after the check either throws or ends, and then
the connection can be prepared or not. -/
def connectVPNTask (exchange : Exchange) (profile : Except Throwable Unit) (isOk : Bool) : Except Throwable Int :=
  match isUserDeviceActive json exchange with
  | .ok false => .ok USER_DEVICE_NOT_ACTIVE_ERROR_CODE
  | .error (.UserDeviceNotFoundException _) => .ok USER_DEVICE_DELETED_ERROR_CODE
  | .error e => .error e
  | .ok true =>
    match profile with
    | .error (.UserPolicyException _) => .ok CONNECT_UNKNOWN_ERROR_CODE
    | .error _ => .ok CONNECT_NO_NETWORK_ERROR_CODE
    | .ok () => .ok (if isOk then CONNECT_NO_ERROR_CODE else CONNECT_PREPARE_ERROR_CODE)

/-- `CheckUserDeviceTask.doInBackground`. -/
def checkUserDeviceTask (isVPNConnected : Bool) (exchange : Exchange) : Except Throwable Int :=
  if !isVPNConnected then .ok USER_DEVICE_NO_ERROR_CODE
  else
    match isUserDeviceActive json exchange with
    | .ok true => .ok USER_DEVICE_NO_ERROR_CODE
    | .ok false => .ok USER_DEVICE_NOT_ACTIVE_ERROR_CODE
    | .error (.UserDeviceNotFoundException _) => .ok USER_DEVICE_DELETED_ERROR_CODE
    | .error e => .error e

end RRoadVpn.DeviceCheck
