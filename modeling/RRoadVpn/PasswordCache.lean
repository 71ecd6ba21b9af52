import RRoadVpn.Uuid
import RRoadVpn.VpnProfile

/-! Passwords that the user enters while a connection starts: the one `PasswordCache` of
the process, and the getters of `VpnProfile` that empty it. -/

namespace RRoadVpn
open JavaText (Text)

structure PasswordCache where
  mUuid : UUID
  mKeyOrPkcs12Password : Option Text := none
  mAuthPassword : Option Text := none
  deriving DecidableEq, Repr

namespace PasswordCache

def PCKS12ORCERTPASSWORD : Int := 2

def AUTHPASSWORD : Int := 3

def getInstance (uuid : UUID) : Option PasswordCache → PasswordCache
  | none => { mUuid := uuid }
  | some mInstance => if mInstance.mUuid = uuid then mInstance else { mUuid := uuid }

def getPKCS12orCertificatePassword (uuid : UUID) (resetPw : Bool) (mInstance : Option PasswordCache) :
    Option Text × PasswordCache :=
  let instance_ := getInstance uuid mInstance
  (instance_.mKeyOrPkcs12Password, if resetPw then { instance_ with mKeyOrPkcs12Password := none } else instance_)

def getAuthPassword (uuid : UUID) (resetPW : Bool) (mInstance : Option PasswordCache) : Option Text × PasswordCache :=
  let instance_ := getInstance uuid mInstance
  (instance_.mAuthPassword, if resetPW then { instance_ with mAuthPassword := none } else instance_)

/-- `none` is the exception of `UUID.fromString`. -/
def setCachedPassword (uuid : Text) (type : Int) (password : Option Text) (mInstance : Option PasswordCache) :
    Option PasswordCache := do
  let instance_ := getInstance (← UUID.fromString uuid) mInstance
  if type = PCKS12ORCERTPASSWORD then return { instance_ with mKeyOrPkcs12Password := password }
  else if type = AUTHPASSWORD then return { instance_ with mAuthPassword := password }
  else return instance_

end PasswordCache

/-- The fields of a profile that its passwords need. -/
structure LoginProfile extends VpnProfile where
  mUuid : UUID
  mPKCS12Password : Option Text := none
  mKeyPassword : Option Text := none

namespace LoginProfile
open PasswordCache

/-- With the cache afterwards. -/
def getPasswordPrivateKey (p : LoginProfile) (mInstance : Option PasswordCache) : Option Text × PasswordCache :=
  let (cachedPw, mInstance) := getPKCS12orCertificatePassword p.mUuid true mInstance
  match cachedPw with
  | some pw => (some pw, mInstance)
  | none =>
    match p.mAuthenticationType with
    | .PKCS12 | .USERPASS_PKCS12 => (p.mPKCS12Password, mInstance)
    | .CERTIFICATES | .USERPASS_CERTIFICATES => (p.mKeyPassword, mInstance)
    | _ => (none, mInstance)

def getPasswordAuth (p : LoginProfile) (mInstance : Option PasswordCache) : Option Text × PasswordCache :=
  let (cachedPw, mInstance) := getAuthPassword p.mUuid true mInstance
  match cachedPw with
  | some pw => (some pw, mInstance)
  | none => (some p.mPassword, mInstance)

end LoginProfile

namespace PasswordCache

/-- What the process does with the cache: a password that the user entered, and the
questions of OpenVPN for the profile it runs. -/
inductive Access where
  | setCachedPassword (uuid : Text) (type : Int) (password : Option Text)
  | getPasswordPrivateKey (p : LoginProfile)
  | getPasswordAuth (p : LoginProfile)

/-- `mInstance` afterwards; an exception leaves it. -/
def access (mInstance : Option PasswordCache) : Access → Option PasswordCache
  | .setCachedPassword uuid type password => (setCachedPassword uuid type password mInstance).or mInstance
  | .getPasswordPrivateKey p => some (p.getPasswordPrivateKey mInstance).2
  | .getPasswordAuth p => some (p.getPasswordAuth mInstance).2

/-- `mInstance` behind a run of the process. -/
def accesses (run : List Access) : Option PasswordCache := run.foldl access none

end PasswordCache

end RRoadVpn
