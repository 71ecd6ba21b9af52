import RRoadVpn.AppRestrictions
import RRoadVpn.Proofs.UuidTexts

/-! The stores of profiles, by what this process and others do to them. Reading the files
again makes one whose files hold what its map holds. -/

namespace RRoadVpn.Proofs.ProfileStores
open RRoadVpn.ConfigParser
open JavaText (Text)
open ProfileManager (TEMPORARY_PROFILE_FILENAME)

/-- Every profile is under its own name, in memory and on file. -/
structure Named (pm : ProfileManager) : Prop where
  own : ∀ {k p}, pm.profiles.lookup k = some p → k = p.mUuid.toText
  file : ∀ {k p}, pm.files.lookup k = some p → k ≠ TEMPORARY_PROFILE_FILENAME → k = p.mUuid.toText

/-- Every profile is under its own name and in the list, and the files are what is in memory. -/
structure Synced (pm : ProfileManager) : Prop where
  own : ∀ {k p}, pm.profiles.lookup k = some p → k = p.mUuid.toText
  listed : ∀ {k p}, pm.profiles.lookup k = some p → k ∈ pm.vpnlist
  saved : ∀ {k}, k ∈ pm.vpnlist → k ≠ TEMPORARY_PROFILE_FILENAME → pm.files.lookup k = pm.profiles.lookup k
  temporary : ∀ {p}, pm.files.lookup TEMPORARY_PROFILE_FILENAME = some p → pm.tmpprofile = some p

/-- The same profiles in memory, the others the same too. -/
structure Same (pm pm' : ProfileManager) : Prop where
  profiles : ∀ k, pm'.profiles.lookup k = pm.profiles.lookup k
  tmpprofile : pm'.tmpprofile = pm.tmpprofile
  vpnlist : pm'.vpnlist = pm.vpnlist
  files : pm'.files = pm.files

namespace Same

theorem refl (pm : ProfileManager) : Same pm pm := ⟨fun _ => rfl, rfl, rfl, rfl⟩

theorem trans {pm middle pm' : ProfileManager} (first : Same pm middle) (second : Same middle pm') : Same pm pm' where
  profiles k := (second.profiles k).trans (first.profiles k)
  tmpprofile := second.tmpprofile.trans first.tmpprofile
  vpnlist := second.vpnlist.trans first.vpnlist
  files := second.files.trans first.files

private theorem synced {pm pm' : ProfileManager} (same : Same pm pm') (synced : Synced pm) : Synced pm' where
  own present := synced.own ((same.profiles _).symm.trans present)
  listed present := same.vpnlist ▸ synced.listed ((same.profiles _).symm.trans present)
  saved member other := by
    rw [same.files, same.profiles]
    exact synced.saved (same.vpnlist ▸ member) other
  temporary present := by
    rw [same.tmpprofile]
    exact synced.temporary (same.files ▸ present)

theorem named {pm pm' : ProfileManager} (same : Same pm pm') (named : Named pm) : Named pm' where
  own present := named.own ((same.profiles _).symm.trans present)
  file present other := named.file (same.files ▸ present) other

theorem find {pm pm' : ProfileManager} (same : Same pm pm') (key : Text) : pm'.find key = pm.find key := by
  simp only [ProfileManager.find, same.tmpprofile, same.profiles]

end Same

/-! ### Names -/

private theorem digits_length (n val : Nat) : (UUID.digits n val).length = n := by
  induction n generalizing val with
  | zero => rfl
  | succ n ih => rw [UUID.digits, List.length_append, ih, List.length_singleton]

private theorem joined_length (a b c d e : Text) :
    (['-'].intercalate [a, b, c, d, e]).length = a.length + b.length + c.length + d.length + e.length + 4 := by
  simp only [List.intercalate_cons_cons, List.intercalate_singleton, List.length_append, List.length_singleton]
  omega

private theorem toText_length (u : UUID) : u.toText.length = 36 := by
  rw [UUID.toText, joined_length]
  simp only [digits_length]

/-- The name of the temporary profile is not the name of another. -/
theorem toText_ne_temporary (u : UUID) : u.toText ≠ TEMPORARY_PROFILE_FILENAME := by
  intro same
  have length := congrArg List.length same
  rw [toText_length] at length
  exact absurd length (by decide)

theorem toText_injective {u v : UUID} (same : u.toText = v.toText) : u = v := by
  have read := UuidTexts.fromString_toText v
  rw [← same, UuidTexts.fromString_toText] at read
  exact Option.some.inj read

theorem getUUIDString_eq (p : Profile) : p.getUUIDString = p.mUuid.toText := UuidTexts.toText_lower p.mUuid

theorem Synced.name {pm : ProfileManager} (synced : Synced pm) {k : Text} {p : Profile}
    (present : pm.profiles.lookup k = some p) :
    k ≠ TEMPORARY_PROFILE_FILENAME := by
  rw [synced.own present]
  exact toText_ne_temporary p.mUuid

/-! ### Loading -/

variable {pm : ProfileManager}

private theorem loadProfile_frame (vpnentry : Text) :
    (pm.loadProfile vpnentry).vpnlist = pm.vpnlist ∧ (pm.loadProfile vpnentry).files = pm.files := by
  unfold ProfileManager.loadProfile
  split
  · exact ⟨rfl, rfl⟩
  · split <;> exact ⟨rfl, rfl⟩

private theorem loadProfile_tmpprofile (vpnentry : Text) : (pm.loadProfile vpnentry).tmpprofile =
    if vpnentry = TEMPORARY_PROFILE_FILENAME then (pm.files.lookup vpnentry).or pm.tmpprofile
    else pm.tmpprofile := by
  unfold ProfileManager.loadProfile
  cases pm.files.lookup vpnentry with
  | none => simp
  | some vp =>
    dsimp only
    split <;> rfl

private theorem loadProfile_profiles (named : Named pm) (vpnentry k : Text) :
    (pm.loadProfile vpnentry).profiles.lookup k =
      if k = vpnentry ∧ k ≠ TEMPORARY_PROFILE_FILENAME then (pm.files.lookup k).or (pm.profiles.lookup k)
      else pm.profiles.lookup k := by
  unfold ProfileManager.loadProfile
  cases file : pm.files.lookup vpnentry with
  | none =>
    dsimp only
    split
    next here => rw [here.1, file, Option.none_or]
    next => rfl
  | some vp =>
    by_cases temporary : vpnentry = TEMPORARY_PROFILE_FILENAME
    · rw [if_neg fun here => here.2 (here.1.trans temporary)]
      simp only [if_pos temporary]
    · simp only [if_neg temporary, ← named.file file temporary]
      by_cases here : k = vpnentry
      · rw [if_pos ⟨here, here ▸ temporary⟩, here, AList.lookup_insert, file, Option.some_or]
      · rw [if_neg fun both => here both.1, AList.lookup_insert_ne here]

private theorem loadProfile_named (named : Named pm) (vpnentry : Text) : Named (pm.loadProfile vpnentry) where
  own {k p} present := by
    rw [loadProfile_profiles named] at present
    split at present
    next here =>
      exact (Option.or_eq_some_iff.mp present).elim (fun file => named.file file here.2) fun old => named.own old.2
    next => exact named.own present
  file present other := named.file ((loadProfile_frame vpnentry).2 ▸ present) other

/-- What reading the files of some names finds. -/
theorem loadProfiles (named : Named pm) (names : List Text) :
    Named (names.foldl ProfileManager.loadProfile pm) ∧
      (names.foldl ProfileManager.loadProfile pm).vpnlist = pm.vpnlist ∧
      (names.foldl ProfileManager.loadProfile pm).files = pm.files ∧
      (names.foldl ProfileManager.loadProfile pm).tmpprofile =
        (if TEMPORARY_PROFILE_FILENAME ∈ names then (pm.files.lookup TEMPORARY_PROFILE_FILENAME).or pm.tmpprofile
        else pm.tmpprofile) ∧
      ∀ k, (names.foldl ProfileManager.loadProfile pm).profiles.lookup k =
        if k ∈ names ∧ k ≠ TEMPORARY_PROFILE_FILENAME then (pm.files.lookup k).or (pm.profiles.lookup k)
        else pm.profiles.lookup k := by
  induction names generalizing pm with
  | nil => exact ⟨named, rfl, rfl, by simp, fun k => by simp⟩
  | cons name names ih =>
    obtain ⟨vpnlist, files⟩ := @loadProfile_frame pm name
    obtain ⟨final, vpnlist', files', tmpprofile, profiles⟩ := ih (loadProfile_named named name)
    refine ⟨final, vpnlist'.trans vpnlist, files'.trans files, ?_, fun k => ?_⟩
    · rw [List.foldl_cons, tmpprofile, files, loadProfile_tmpprofile]
      by_cases here : name = TEMPORARY_PROFILE_FILENAME
      · subst here
        simp [← Option.or_assoc]
      · simp [here, Ne.symm here]
    · rw [List.foldl_cons, profiles, files, loadProfile_profiles named]
      by_cases here : k = name
      · subst here
        by_cases temporary : k = TEMPORARY_PROFILE_FILENAME
        · simp [temporary]
        · simp [temporary, ← Option.or_assoc]
      · simp [here]

theorem loadVPNList_spec (named : Named pm) : Named pm.loadVPNList ∧ pm.loadVPNList.vpnlist = pm.vpnlist ∧
    pm.loadVPNList.files = pm.files ∧
    pm.loadVPNList.tmpprofile = (pm.files.lookup TEMPORARY_PROFILE_FILENAME).or pm.tmpprofile ∧
    ∀ k, pm.loadVPNList.profiles.lookup k =
      if k ∈ pm.vpnlist ∧ k ≠ TEMPORARY_PROFILE_FILENAME then pm.files.lookup k else none := by
  have start : Named { pm with profiles := ∅ } :=
    ⟨fun absent => (Option.some_ne_none _ absent.symm).elim, fun present other => named.file present other⟩
  obtain ⟨final, vpnlist, files, tmpprofile, profiles⟩ :=
    loadProfiles start (pm.vpnlist ++ [TEMPORARY_PROFILE_FILENAME])
  refine ⟨final, vpnlist, files, ?_, fun k => ?_⟩
  · rw [if_pos (by simp)] at tmpprofile
    exact tmpprofile
  · refine (profiles k).trans ?_
    by_cases temporary : k = TEMPORARY_PROFILE_FILENAME
    · simp [temporary]
    · simp [temporary]

/-- Behind a load the files hold what is in memory. -/
theorem loadVPNList_synced (named : Named pm) : Synced pm.loadVPNList := by
  obtain ⟨final, vpnlist, files, tmpprofile, profiles⟩ := loadVPNList_spec named
  refine ⟨final.own, fun {k p} present => ?_, fun {k} member other => ?_, fun {p} file => ?_⟩
  · rw [profiles] at present
    split at present
    next here => exact vpnlist ▸ here.1
    next => cases present
  · rw [files, profiles, if_pos ⟨vpnlist ▸ member, other⟩]
  · rw [files] at file
    rw [tmpprofile, file, Option.some_or]

theorem loadVPNList_same (named : Named pm) (synced : Synced pm) : Same pm pm.loadVPNList := by
  obtain ⟨-, vpnlist, files, tmpprofile, profiles⟩ := loadVPNList_spec named
  refine ⟨fun k => ?_, ?_, vpnlist, files⟩
  · rw [profiles]
    by_cases listed : k ∈ pm.vpnlist ∧ k ≠ TEMPORARY_PROFILE_FILENAME
    · rw [if_pos listed, synced.saved listed.1 listed.2]
    · rw [if_neg listed]
      cases present : pm.profiles.lookup k with
      | none => rfl
      | some p => exact absurd ⟨synced.listed present, synced.name present⟩ listed
  · rw [tmpprofile]
    cases file : pm.files.lookup TEMPORARY_PROFILE_FILENAME with
    | none => rfl
    | some tmp => rw [Option.some_or, synced.temporary file]

/-- Looking for a profile may load the same profiles again. -/
theorem getLoop_same (named : Named pm) (synced : Synced pm) (key : Text) (version : Int) (tries : Nat) :
    (pm.getLoop key version tries).1 = pm.find key ∧ Same pm (pm.getLoop key version tries).2 := by
  induction tries generalizing pm with
  | zero => exact ⟨rfl, Same.refl pm⟩
  | succ tries ih =>
    rw [ProfileManager.getLoop]
    split
    · have same := loadVPNList_same named synced
      obtain ⟨found, later⟩ := ih (same.named named) (same.synced synced)
      exact ⟨found.trans (same.find key), same.trans later⟩
    · exact ⟨rfl, Same.refl pm⟩

private theorem get_eq (key : Text) : pm.get key =
    if (pm.find key).any fun profile => 0 ≤ profile.mVersion.toInt then (pm.find key, pm)
    else pm.loadVPNList.getLoop key 0 9 := by
  have turn : pm.get key =
      if (pm.find key).all fun profile => profile.mVersion.toInt < 0 then pm.loadVPNList.getLoop key 0 9
      else (pm.find key, pm) := rfl
  rw [turn]
  cases pm.find key with
  | none => rfl
  | some profile =>
    by_cases low : profile.mVersion.toInt < 0
    · have later : ¬ 0 ≤ profile.mVersion.toInt := by omega
      simp [low, later]
    · have enough : 0 ≤ profile.mVersion.toInt := by omega
      simp [low, enough]

theorem get_found {key : Text} (found : (pm.find key).any (fun profile => 0 ≤ profile.mVersion.toInt) = true) :
    pm.get key = (pm.find key, pm) := by
  rw [get_eq, if_pos found]

/-- Where `get` does not find a profile in memory, it finds what the files hold. -/
theorem get_reread (named : Named pm) {key : Text}
    (missing : (pm.find key).any (fun profile => 0 ≤ profile.mVersion.toInt) = false) :
    (pm.get key).1 = pm.loadVPNList.find key ∧ Same pm.loadVPNList (pm.get key).2 := by
  rw [get_eq, if_neg (by rw [missing]; decide)]
  exact getLoop_same (loadVPNList_spec named).1 (loadVPNList_synced named) key 0 9

/-! ### Adding and removing -/

def store (pm : ProfileManager) (vp : Profile) : ProfileManager := ((pm.addProfile vp).saveProfile vp).saveProfileList

def saved (vp : Profile) : Profile := { vp with mVersion := vp.mVersion + 1 }

theorem store_profiles (vp : Profile) (k : Text) :
    (store pm vp).profiles.lookup k = if k = vp.mUuid.toText then some (saved vp) else pm.profiles.lookup k := by
  change ((pm.profiles.insert vp.mUuid.toText vp).insert vp.mUuid.toText (saved vp)).lookup k = _
  rw [AList.insert_insert]
  split
  next here => rw [here, AList.lookup_insert]
  next other => rw [AList.lookup_insert_ne other]

theorem store_files (vp : Profile) (k : Text) :
    (store pm vp).files.lookup k = if k = vp.mUuid.toText then some (saved vp) else pm.files.lookup k := by
  change (pm.files.insert vp.mUuid.toText (saved vp)).lookup k = _
  split
  next here => rw [here, AList.lookup_insert]
  next other => rw [AList.lookup_insert_ne other]

theorem mem_keys_iff {m : HashMap Profile} {k : Text} : k ∈ m.keys ↔ ∃ p, m.lookup k = some p := by
  rw [← AList.mem_keys, ← AList.lookup_isSome, Option.isSome_iff_exists]

theorem store_named (named : Named pm) (vp : Profile) : Named (store pm vp) where
  own {k p} present := by
    rw [store_profiles] at present
    split at present
    next here =>
      cases present
      exact here
    next => exact named.own present
  file {k p} present other := by
    rw [store_files] at present
    split at present
    next here =>
      cases present
      exact here
    next => exact named.file present other

private theorem removeProfile_profiles (vp : Profile) (k : Text) :
    (pm.removeProfile vp).profiles.lookup k = if k = vp.mUuid.toText then none else pm.profiles.lookup k := by
  change (pm.profiles.erase vp.mUuid.toText).lookup k = _
  split
  next here => rw [here, AList.lookup_erase]
  next other => rw [AList.lookup_erase_ne other]

private theorem removeProfile_files (vp : Profile) (k : Text) :
    (pm.removeProfile vp).files.lookup k = if k = vp.mUuid.toText then none else pm.files.lookup k := by
  change (pm.files.erase vp.mUuid.toText).lookup k = _
  split
  next here => rw [here, AList.lookup_erase]
  next other => rw [AList.lookup_erase_ne other]

private theorem removeProfile_synced (synced : Synced pm) (vp : Profile) : Synced (pm.removeProfile vp) where
  own {k p} present := by
    rw [removeProfile_profiles] at present
    split at present
    next => cases present
    next => exact synced.own present
  listed {k p} present := mem_keys_iff.mpr ⟨p, present⟩
  saved {k} member other := by
    obtain ⟨p, present⟩ := mem_keys_iff.mp member
    change (pm.removeProfile vp).profiles.lookup k = some p at present
    rw [removeProfile_profiles] at present
    rw [removeProfile_files, removeProfile_profiles]
    split
    next => rfl
    next apart =>
      rw [if_neg apart] at present
      exact synced.saved (synced.listed present) other
  temporary {p} present := by
    rw [removeProfile_files, if_neg (toText_ne_temporary vp.mUuid).symm] at present
    exact synced.temporary present

private theorem removeProfile_named (named : Named pm) (vp : Profile) : Named (pm.removeProfile vp) where
  own {k p} present := by
    rw [removeProfile_profiles] at present
    split at present
    next => cases present
    next => exact named.own present
  file {k p} present other := by
    rw [removeProfile_files] at present
    split at present
    next => cases present
    next => exact named.file present other

theorem removeProfiles (named : Named pm) (removed : List Profile) :
    Named (removed.foldl ProfileManager.removeProfile pm) ∧
      (Synced pm → Synced (removed.foldl ProfileManager.removeProfile pm)) ∧
      (removed.foldl ProfileManager.removeProfile pm).tmpprofile = pm.tmpprofile ∧
      ∀ k, (removed.foldl ProfileManager.removeProfile pm).profiles.lookup k =
          (if k ∈ removed.map (·.mUuid.toText) then none else pm.profiles.lookup k) ∧
        (removed.foldl ProfileManager.removeProfile pm).files.lookup k =
          if k ∈ removed.map (·.mUuid.toText) then none else pm.files.lookup k := by
  induction removed generalizing pm with
  | nil => exact ⟨named, id, rfl, fun k => ⟨rfl, rfl⟩⟩
  | cons vp removed ih =>
    obtain ⟨final, keeps, temporary, lookups⟩ := ih (removeProfile_named named vp)
    refine ⟨final, fun synced => keeps (removeProfile_synced synced vp), temporary, fun k => ?_⟩
    obtain ⟨profiles, files⟩ := lookups k
    rw [List.foldl_cons, profiles, files, removeProfile_profiles, removeProfile_files, List.map_cons]
    by_cases here : k = vp.mUuid.toText
    · simp [here]
    · simp [here]

/-! ### What happens to a store -/

/-- What this process does with its profiles, which it can change in memory before it saves
them, and what another process does with the files. -/
inductive Operation where
  | restart
  | get (key : Text)
  | addProfile (vp : Profile)
  | saveProfile (vp : Profile)
  | saveProfileList
  | removeProfile (vp : Profile)
  | setTemporaryProfile (tmp : Profile)
  | changeTemporary (tmp : Profile)
  | writeFile (vp : Profile)
  | writeTemporary (tmp : Profile)
  | deleteFile (name : Text)
  | writeList (vpnlist : List Text)

def perform (pm : ProfileManager) : Operation → ProfileManager
  | .restart => { pm with profiles := ∅, tmpprofile := none }.loadVPNList
  | .get key => (pm.get key).2
  | .addProfile vp => pm.addProfile vp
  | .saveProfile vp => pm.saveProfile vp
  | .saveProfileList => pm.saveProfileList
  | .removeProfile vp => pm.removeProfile vp
  | .setTemporaryProfile tmp => pm.setTemporaryProfile tmp
  | .changeTemporary tmp => { pm with tmpprofile := some tmp }
  | .writeFile vp => { pm with files := pm.files.insert vp.mUuid.toText vp }
  | .writeTemporary tmp => { pm with files := pm.files.insert TEMPORARY_PROFILE_FILENAME tmp }
  | .deleteFile name => { pm with files := pm.files.erase name }
  | .writeList vpnlist => { pm with vpnlist }

theorem own_insert {m : HashMap Profile} {q : Profile} {k : Text} {p : Profile}
    (present : (m.insert q.mUuid.toText q).lookup k = some p) : k = p.mUuid.toText ∨ m.lookup k = some p := by
  by_cases here : k = q.mUuid.toText
  · rw [here, AList.lookup_insert] at present
    cases present
    exact .inl here
  · rw [AList.lookup_insert_ne here] at present
    exact .inr present

private theorem perform_named (named : Named pm) (operation : Operation) : Named (perform pm operation) := by
  have added (q : Profile) {k : Text} {p : Profile}
      (present : (pm.profiles.insert q.mUuid.toText q).lookup k = some p) : k = p.mUuid.toText :=
    (own_insert present).elim id named.own
  have written (q : Profile) {k : Text} {p : Profile} (present : (pm.files.insert q.mUuid.toText q).lookup k = some p)
      (other : k ≠ TEMPORARY_PROFILE_FILENAME) : k = p.mUuid.toText :=
    (own_insert present).elim id fun old => named.file old other
  have temporary (tmp : Profile) {k : Text} {p : Profile}
      (present : (pm.files.insert TEMPORARY_PROFILE_FILENAME tmp).lookup k = some p)
      (other : k ≠ TEMPORARY_PROFILE_FILENAME) : k = p.mUuid.toText := by
    rw [AList.lookup_insert_ne other] at present
    exact named.file present other
  cases operation with
  | restart =>
    have start : Named { pm with profiles := ∅, tmpprofile := none } :=
      ⟨fun absent => (Option.some_ne_none _ absent.symm).elim, named.file⟩
    exact (loadVPNList_spec start).1
  | get key =>
    by_cases found : (pm.find key).any (fun profile => 0 ≤ profile.mVersion.toInt) = true
    · rw [perform, get_found found]
      exact named
    · exact (get_reread named (Bool.eq_false_iff.mpr found)).2.named (loadVPNList_spec named).1
  | addProfile vp => exact ⟨added vp, named.file⟩
  | saveProfile vp => exact ⟨added (saved vp), written (saved vp)⟩
  | saveProfileList => exact ⟨named.own, named.file⟩
  | removeProfile vp => exact removeProfile_named named vp
  | setTemporaryProfile tmp => exact ⟨named.own, temporary (saved tmp)⟩
  | changeTemporary tmp => exact ⟨named.own, named.file⟩
  | writeFile vp => exact ⟨named.own, written vp⟩
  | writeTemporary tmp => exact ⟨named.own, temporary tmp⟩
  | deleteFile name =>
    refine ⟨named.own, fun {k p} present other => ?_⟩
    change (pm.files.erase name).lookup k = some p at present
    by_cases here : k = name
    · rw [here, AList.lookup_erase] at present
      cases present
    · rw [AList.lookup_erase_ne here] at present
      exact named.file present other
  | writeList vpnlist => exact ⟨named.own, named.file⟩

/-- Whatever is done with a new store, its profiles are under their own names. -/
theorem performed_named (operations : List Operation) : Named (operations.foldl perform {}) := by
  have empty : Named {} :=
    ⟨fun absent => (Option.some_ne_none _ absent.symm).elim, fun absent => (Option.some_ne_none _ absent.symm).elim⟩
  exact List.foldlRecOn operations perform empty fun _ named operation _ => perform_named named operation

end RRoadVpn.Proofs.ProfileStores
