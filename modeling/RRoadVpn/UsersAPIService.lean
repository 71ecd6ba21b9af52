import Mathlib.Logic.Function.Basic

/-! The app's preferences and the calls of `UsersAPIService` and `UserVPNPolicy` that
read and write them. The answer of the server to a call is given, none for a call
that `RESTService` cannot complete or whose answer it cannot read. -/

namespace RRoadVpn.UsersAPIService

inductive VPNAppPreferences where
  | USER_UUID
  | USER_EMAIL
  | DEVICE_ID
  | DEVICE_TOKEN
  | USER_DEVICE_UUID
  | SERVER_UUID
  | CONNECTION_UUID
  deriving DecidableEq, Repr

/-- The strings that are stored, each with the number of the log-in during which it was. -/
structure PreferencesService where
  strings : VPNAppPreferences → String := fun _ => ""
  storedBy : VPNAppPreferences → Nat := fun _ => 0
  logIn : Nat := 0

namespace PreferencesService

def getString (p : PreferencesService) (prefLabel : VPNAppPreferences) : String := p.strings prefLabel

def save (p : PreferencesService) (prefLabel : VPNAppPreferences) (value : String) : PreferencesService :=
  { p with
    strings := Function.update p.strings prefLabel value
    storedBy := Function.update p.storedBy prefLabel p.logIn }

def clear (p : PreferencesService) : PreferencesService := { p with strings := fun _ => "", storedBy := fun _ => 0 }

variable (p : PreferencesService) (prefLabel : VPNAppPreferences) (value : String)

@[simp] theorem getString_save : (p.save prefLabel value).getString prefLabel = value := Function.update_self ..

@[simp] theorem getString_save_of_ne {other : VPNAppPreferences} (ne : other ≠ prefLabel) :
    (p.save prefLabel value).getString other = p.getString other := Function.update_of_ne ne ..

@[simp] theorem storedBy_save : (p.save prefLabel value).storedBy prefLabel = p.logIn := Function.update_self ..

@[simp] theorem storedBy_save_of_ne {other : VPNAppPreferences} (ne : other ≠ prefLabel) :
    (p.save prefLabel value).storedBy other = p.storedBy other := Function.update_of_ne ne ..

@[simp] theorem logIn_save : (p.save prefLabel value).logIn = p.logIn := rfl

end PreferencesService

/-- The `data` of an answer; an object has the strings that are looked for in it. -/
inductive Data where
  | object (uuid email : Option String)
  | array
  | other
  deriving DecidableEq, Repr

structure RESTResponse where
  isOk : Bool := true
  code : Int
  status : String := "success"
  data : Data := .other
  headers : List (String × List String) := []
  deriving DecidableEq, Repr

def HTTP_OK : Int := 200

def HTTP_CREATED : Int := 201

def RESTResponse.header (ur : RESTResponse) (name : String) : Option (List String) :=
  (ur.headers.find? fun header => header.1 == name).map (·.2)

inductive Exception where
  | REST
  | UserService (message : String)
  | IndexOutOfBounds
  deriving DecidableEq, Repr

/-- `locationUrl.substring(locationUrl.lastIndexOf("/") + 1)`. -/
def lastPart (locationUrl : String) : String :=
  String.ofList (locationUrl.toList.reverse.takeWhile (· ≠ '/')).reverse

structure User where
  uuid : String
  email : String
  deriving DecidableEq, Repr

/-- What a call returns or throws, and the preferences it leaves. -/
abbrev Call (α : Type) := Except Exception α × PreferencesService

def getUserByPinCode (answer : Option RESTResponse) (p : PreferencesService) : Call User :=
  match answer with
  | none => (.error .REST, p)
  | some ur =>
    if ur.isOk then
      match ur.data with
      | .object (some uuid) (some email) => (.ok ⟨uuid, email⟩, (p.save .USER_UUID uuid).save .USER_EMAIL email)
      | .object _ _ => (.error (.UserService "JSON parse exception"), p)
      | .array => (.error (.UserService "got more than one user by pincode"), p)
      | .other => (.error (.UserService "got bad body"), p)
    else (.error (.UserService "user is not OK"), p)

/-- `values.get(0)` of a header is saved where the header is there. -/
def saveHeader (values : Option (List String)) (prefLabel : VPNAppPreferences) (read : String → String)
    (p : PreferencesService) : Call Unit :=
  match values with
  | none => (.ok (), p)
  | some [] => (.error .IndexOutOfBounds, p)
  | some (value :: _) => (.ok (), p.save prefLabel (read value))

def createUserDevice (answer : Option RESTResponse) (p : PreferencesService) : Call Unit :=
  match answer with
  | none => (.error .REST, p)
  | some ur =>
    if ur.code ≠ HTTP_CREATED ∨ ur.status ≠ "success" then (.error (.UserService "we can't create user device"), p)
    else
      match saveHeader (ur.header "x-device-token") .DEVICE_TOKEN id p with
      | (.error e, p) => (.error e, p)
      | (.ok _, p) => saveHeader (ur.header "Location") .USER_DEVICE_UUID lastPart p

def createConnection (answer : Option RESTResponse) (p : PreferencesService) : Call String :=
  match answer with
  | none => (.error .REST, p)
  | some ur =>
    if ur.code ≠ HTTP_CREATED ∨ ur.status ≠ "success" then (.error (.UserService "we can't create connection"), p)
    else
      match ur.header "Location" with
      | none => (.error (.UserService "there is no Location header in response"), p)
      | some [] => (.error .IndexOutOfBounds, p)
      | some (locationUrl :: _) =>
        (.ok (lastPart locationUrl), p.save .CONNECTION_UUID (lastPart locationUrl))

def updateConnection (answer : Option RESTResponse) : Except Exception Unit :=
  match answer with
  | none => .error .REST
  | some ur =>
    if ur.code ≠ HTTP_OK ∨ ur.status ≠ "success" then .error (.UserService "we can't update connection") else .ok ()

def deleteUserDevice (answer : Option RESTResponse) : Except Exception Unit :=
  match answer with
  | none => .error .REST
  | some ur =>
    if ur.code ≠ HTTP_OK ∨ ur.status ≠ "success" then .error (.UserService "we can't delete user device") else .ok ()

end RRoadVpn.UsersAPIService
