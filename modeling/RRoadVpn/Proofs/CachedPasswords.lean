import RRoadVpn.PasswordCache

/-! Which password the cache gives to a profile: the last one the user entered for it,
once, and never one entered for another. -/

namespace RRoadVpn.Proofs.CachedPasswords
open JavaText (Text)
open PasswordCache

/-- The two kinds of password in the cache. -/
inductive Kind where
  | key
  | auth
  deriving DecidableEq, Repr

def Kind.type : Kind → Int
  | .key => PCKS12ORCERTPASSWORD
  | .auth => AUTHPASSWORD

def held (kind : Kind) (mInstance : PasswordCache) : Option Text :=
  match kind with
  | .key => mInstance.mKeyOrPkcs12Password
  | .auth => mInstance.mAuthPassword

def store (kind : Kind) (password : Option Text) (mInstance : PasswordCache) : PasswordCache :=
  match kind with
  | .key => { mInstance with mKeyOrPkcs12Password := password }
  | .auth => { mInstance with mAuthPassword := password }

/-- What a getter of the profile would find in the cache. -/
def cached (kind : Kind) (uuid : UUID) (mInstance : Option PasswordCache) : Option Text :=
  held kind (getInstance uuid mInstance)

@[simp] theorem getInstance_mUuid (uuid : UUID) (mInstance : Option PasswordCache) :
    (getInstance uuid mInstance).mUuid = uuid := by
  cases mInstance with
  | none => rfl
  | some instance_ =>
    rw [getInstance]
    split
    next same => exact same
    · rfl

private theorem cached_some (kind : Kind) (uuid : UUID) (mInstance : PasswordCache) :
    cached kind uuid (some mInstance) = if mInstance.mUuid = uuid then held kind mInstance else none := by
  rw [cached, getInstance]
  split
  · rfl
  · cases kind <;> rfl

private theorem cached_store (kind stored : Kind) (uuid u : UUID) (password : Option Text)
    (mInstance : Option PasswordCache) :
    cached kind uuid (some (store stored password (getInstance u mInstance))) =
      if u = uuid then (if stored = kind then password else cached kind uuid mInstance) else none := by
  have same : (store stored password (getInstance u mInstance)).mUuid = u := by cases stored <;> simp [store]
  rw [cached_some, same]
  by_cases here : u = uuid
  · subst here
    rw [if_pos rfl, if_pos rfl]
    cases stored <;> cases kind <;> rfl
  · rw [if_neg here, if_neg here]

private theorem access_set {text : Text} {u : UUID} (parsed : UUID.fromString text = some u) (type : Int)
    (password : Option Text)
    (mInstance : Option PasswordCache) :
    access mInstance (.setCachedPassword text type password) =
      some (if type = Kind.key.type then store .key password (getInstance u mInstance)
        else if type = Kind.auth.type then store .auth password (getInstance u mInstance)
        else getInstance u mInstance) := by
  rw [access, setCachedPassword, parsed]
  by_cases key : type = PCKS12ORCERTPASSWORD
  · simp [key, Kind.type, store]
  · by_cases auth : type = AUTHPASSWORD
    · simp [auth, Kind.type, store, PCKS12ORCERTPASSWORD, AUTHPASSWORD]
    · simp [key, auth, Kind.type]

private theorem access_key (p : LoginProfile) (mInstance : Option PasswordCache) :
    access mInstance (.getPasswordPrivateKey p) = some (store .key none (getInstance p.mUuid mInstance)) := by
  simp only [access, LoginProfile.getPasswordPrivateKey, getPKCS12orCertificatePassword, if_true]
  cases (getInstance p.mUuid mInstance).mKeyOrPkcs12Password with
  | some pw => rfl
  | none => cases p.mAuthenticationType <;> rfl

private theorem access_auth (p : LoginProfile) (mInstance : Option PasswordCache) :
    access mInstance (.getPasswordAuth p) = some (store .auth none (getInstance p.mUuid mInstance)) := by
  simp only [access, LoginProfile.getPasswordAuth, getAuthPassword, if_true]
  cases (getInstance p.mUuid mInstance).mAuthPassword <;> rfl

def Enters (kind : Kind) (uuid : UUID) (password : Option Text) : Access → Prop
  | .setCachedPassword text type entered => UUID.fromString text = some uuid ∧ type = kind.type ∧ entered = password
  | _ => False

/-- An access that leaves the password of a profile in the cache: an entry that fails, or one
for the same profile that is neither an entry of this kind nor a question for it. -/
def Keeps (kind : Kind) (uuid : UUID) : Access → Prop
  | .setCachedPassword text type _ => ∀ u, UUID.fromString text = some u → u = uuid ∧ type ≠ kind.type
  | .getPasswordPrivateKey p => p.mUuid = uuid ∧ Kind.key ≠ kind
  | .getPasswordAuth p => p.mUuid = uuid ∧ Kind.auth ≠ kind

private theorem Enters.unique {kind : Kind} {uuid : UUID} {first second : Option Text} {a : Access}
    (enters : Enters kind uuid first a) (again : Enters kind uuid second a) : first = second := by
  cases a with
  | setCachedPassword => exact enters.2.2.symm.trans again.2.2
  | getPasswordPrivateKey => exact enters.elim
  | getPasswordAuth => exact enters.elim

private theorem Enters.not_keeps {kind : Kind} {uuid : UUID} {password : Option Text} {a : Access}
    (enters : Enters kind uuid password a) : ¬ Keeps kind uuid a := by
  intro keeps
  cases a with
  | setCachedPassword => exact (keeps uuid enters.1).2 enters.2.1
  | getPasswordPrivateKey => exact enters.elim
  | getPasswordAuth => exact enters.elim

theorem access_cases (kind : Kind) (uuid : UUID) (mInstance : Option PasswordCache) (a : Access) :
    (∃ password, Enters kind uuid password a ∧ cached kind uuid (access mInstance a) = password) ∨
    (Keeps kind uuid a ∧ cached kind uuid (access mInstance a) = cached kind uuid mInstance) ∨
    (¬ Keeps kind uuid a ∧ (∀ password, ¬ Enters kind uuid password a) ∧
      cached kind uuid (access mInstance a) = none) := by
  -- A getter empties one place of the profile it is called for.
  have getter (asked : Kind) (p : LoginProfile) (a : Access) (isGetter : ∀ password, ¬ Enters kind uuid password a)
      (keeps : Keeps kind uuid a ↔ p.mUuid = uuid ∧ asked ≠ kind)
      (after : access mInstance a = some (store asked none (getInstance p.mUuid mInstance))) :
      (Keeps kind uuid a ∧ cached kind uuid (access mInstance a) = cached kind uuid mInstance) ∨
      (¬ Keeps kind uuid a ∧ (∀ password, ¬ Enters kind uuid password a) ∧
        cached kind uuid (access mInstance a) = none) := by
    rw [after, cached_store, keeps]
    by_cases same : p.mUuid = uuid
    · by_cases mine : asked = kind
      · exact .inr ⟨fun ⟨_, other⟩ => other mine, isGetter, by simp [same, mine]⟩
      · exact .inl ⟨⟨same, mine⟩, by simp [same, mine]⟩
    · exact .inr ⟨fun ⟨here, _⟩ => same here, isGetter, by simp [same]⟩
  cases a with
  | getPasswordPrivateKey p => exact .inr (getter .key p _ (fun _ => id) Iff.rfl (access_key p mInstance))
  | getPasswordAuth p => exact .inr (getter .auth p _ (fun _ => id) Iff.rfl (access_auth p mInstance))
  | setCachedPassword text type password =>
    cases parsed : UUID.fromString text with
    | none =>
      refine .inr (.inl ⟨fun u there => ?_, ?_⟩)
      · rw [parsed] at there
        cases there
      · simp [access, setCachedPassword, parsed]
    | some u =>
      have keeps : Keeps kind uuid (.setCachedPassword text type password) ↔ u = uuid ∧ type ≠ kind.type := by
        simp only [Keeps, parsed, Option.some.injEq, forall_eq']
      have other : type ≠ kind.type → cached kind uuid (access mInstance (.setCachedPassword text type password)) =
          if u = uuid then cached kind uuid mInstance else none := by
        intro mine
        rw [access_set parsed]
        split
        next key =>
          have differs : Kind.key ≠ kind := fun same => mine (by rw [key, same])
          rw [cached_store, if_neg differs]
        · split
          next auth =>
            have differs : Kind.auth ≠ kind := fun same => mine (by rw [auth, same])
            rw [cached_store, if_neg differs]
          · rw [cached_some, getInstance_mUuid]
            split
            next here => rw [here]; rfl
            · rfl
      by_cases same : u = uuid
      · by_cases mine : type = kind.type
        · refine .inl ⟨password, ⟨by rw [parsed, same], mine, rfl⟩, ?_⟩
          rw [access_set parsed, mine]
          cases kind with
          | key => rw [if_pos rfl, cached_store, if_pos same, if_pos rfl]
          | auth => rw [if_neg (by decide), if_pos rfl, cached_store, if_pos same, if_pos rfl]
        · exact .inr (.inl ⟨keeps.mpr ⟨same, mine⟩, by rw [other mine, if_pos same]⟩)
      · refine .inr (.inr ⟨fun kept => same (keeps.mp kept).1, fun _ enters => ?_, ?_⟩)
        · have there := enters.1
          rw [parsed] at there
          exact same (Option.some.inj there)
        · by_cases mine : type = kind.type
          · rw [access_set parsed]
            split <;> [skip; split] <;> [rw [cached_store]; rw [cached_store]; rw [cached_some,
              getInstance_mUuid]] <;>
              rw [if_neg same]
          · rw [other mine, if_neg same]

/-- The user entered this password for the profile, and nothing since was a question for it,
another entry of the kind or an access for another profile. -/
def Outstanding (kind : Kind) (uuid : UUID) (run : List Access) (pw : Text) : Prop :=
  ∃ before entry after, run = before ++ entry :: after ∧ Enters kind uuid (some pw) entry ∧ ∀ a ∈ after,
    Keeps kind uuid a

private theorem cached_iff (kind : Kind) (uuid : UUID) (run : List Access) (pw : Text) :
    cached kind uuid (accesses run) = some pw ↔ Outstanding kind uuid run pw := by
  induction run using List.reverseRecOn with
  | nil =>
    refine ⟨fun found => ?_, ?_⟩
    · cases kind <;> cases found
    · rintro ⟨before, entry, after, empty, -⟩
      simp at empty
  | append_singleton run a ih =>
    have step : accesses (run ++ [a]) = access (accesses run) a := by simp [accesses]
    rw [step]
    -- Where the last access is the entry, or the entry is before it.
    have parts : Outstanding kind uuid (run ++ [a]) pw ↔
        Enters kind uuid (some pw) a ∨ (Keeps kind uuid a ∧ Outstanding kind uuid run pw) := by
      constructor
      · rintro ⟨before, entry, after, same, enters, keeps⟩
        rcases List.eq_nil_or_concat after with rfl | ⟨front, last, rfl⟩
        · obtain ⟨rfl, one⟩ := List.append_inj' same rfl
          cases one
          exact .inl enters
        · rw [List.concat_eq_append] at same keeps
          rw [← List.cons_append, ← List.append_assoc] at same
          obtain ⟨rfl, one⟩ := List.append_inj' same rfl
          cases one
          exact .inr ⟨keeps a (by simp), before, entry, front, rfl, enters,
            fun b member => keeps b (List.mem_append_left _ member)⟩
      · rintro (enters | ⟨keeps, before, entry, after, rfl, enters, others⟩)
        · exact ⟨run, a, [], rfl, enters, by simp⟩
        · refine ⟨before, entry, after ++ [a], by simp, enters, fun b member => ?_⟩
          rcases List.mem_append.mp member with old | new
          · exact others b old
          · rw [List.mem_singleton.mp new]
            exact keeps
    rw [parts, ← ih]
    rcases access_cases kind uuid (accesses run) a with ⟨password, enters, after⟩ | ⟨keeps, after⟩ |
      ⟨loses, never, after⟩
    · rw [after]
      constructor
      · rintro rfl
        exact .inl enters
      · rintro (again | ⟨kept, -⟩)
        · exact enters.unique again
        · exact absurd kept enters.not_keeps
    · rw [after]
      refine ⟨fun found => .inr ⟨keeps, found⟩, ?_⟩
      rintro (enters | ⟨-, found⟩)
      · exact absurd keeps enters.not_keeps
      · exact found
    · rw [after]
      refine ⟨fun found => absurd found (Option.some_ne_none pw).symm, ?_⟩
      rintro (enters | ⟨kept, -⟩)
      · exact absurd enters (never _)
      · exact absurd kept loses

def storedKey (p : LoginProfile) : Option Text :=
  match p.mAuthenticationType with
  | .PKCS12 | .USERPASS_PKCS12 => p.mPKCS12Password
  | .CERTIFICATES | .USERPASS_CERTIFICATES => p.mKeyPassword
  | _ => none

theorem getPasswordPrivateKey_eq (p : LoginProfile) (mInstance : Option PasswordCache) :
    (p.getPasswordPrivateKey mInstance).1 = (cached .key p.mUuid mInstance).or (storedKey p) := by
  simp only [LoginProfile.getPasswordPrivateKey, getPKCS12orCertificatePassword, if_true, cached, held, storedKey]
  cases (getInstance p.mUuid mInstance).mKeyOrPkcs12Password with
  | some pw => rfl
  | none => cases p.mAuthenticationType <;> rfl

theorem getPasswordAuth_eq (p : LoginProfile) (mInstance : Option PasswordCache) :
    (p.getPasswordAuth mInstance).1 = (cached .auth p.mUuid mInstance).or (some p.mPassword) := by
  simp only [LoginProfile.getPasswordAuth, getAuthPassword, if_true, cached, held]
  cases (getInstance p.mUuid mInstance).mAuthPassword <;> rfl

theorem or_eq_some {found stored : Option Text} {pw : Text} :
    found.or stored = some pw ↔ found = some pw ∨ (∀ other, found ≠ some other) ∧ stored = some pw := by
  cases found <;> simp

/-- OpenVPN is told the password that is outstanding for the profile and the kind it asks
for, or else what the profile stores. An entry is used at most once and for no other profile. -/
theorem passwords_told (p : LoginProfile) (run : List Access) (pw : Text) :
    ((p.getPasswordPrivateKey (accesses run)).1 = some pw ↔
      Outstanding .key p.mUuid run pw ∨ (∀ other, ¬ Outstanding .key p.mUuid run other) ∧ storedKey p = some pw) ∧
    ((p.getPasswordAuth (accesses run)).1 = some pw ↔
      Outstanding .auth p.mUuid run pw ∨ (∀ other, ¬ Outstanding .auth p.mUuid run other) ∧ p.mPassword = pw) := by
  refine ⟨?_, ?_⟩
  · rw [getPasswordPrivateKey_eq, or_eq_some]
    simp only [ne_eq, cached_iff]
  · rw [getPasswordAuth_eq, or_eq_some]
    simp only [ne_eq, cached_iff, Option.some.injEq]

end RRoadVpn.Proofs.CachedPasswords
