import RRoadVpn.Proofs.AppliedRestrictions
import RRoadVpn.Proofs.ImportFrames

/-! The managed profiles after the restrictions are applied. An entry is looked for under the
name it gives, stored under the name of its UUID, and kept under its name in small letters. -/

namespace RRoadVpn.Proofs.ManagedProfiles
open RRoadVpn.ConfigParser RRoadVpn.AppRestrictions RRoadVpn.Proofs.ProfileStores RRoadVpn.Proofs.AppliedRestrictions
open JavaText (Text)

/-- A profile does not get older and keeps its alias. -/
structure Survives (p q : Profile) : Prop where
  version : p.mVersion.toInt ≤ q.mVersion.toInt
  keyAlias : ∀ a, p.mAlias = some a → q.mAlias = some a

private theorem Survives.refl (p : Profile) : Survives p p := ⟨le_refl _, fun _ given => given⟩

/-- What applying a list is for. -/
structure Reconciled (hashConfig : Text → Text) (entries : List Entry)
    (apply : ProfileManager → Except ImportError ProfileManager) (pm pm' : ProfileManager) : Prop where
  managed : ∀ k p, pm'.profiles.lookup k = some p → isManaged p → ∃ e ∈ entries, k = key e
  listed : ∀ e ∈ entries, ∃ p, pm'.profiles.lookup (key e) = some p ∧ isManaged p ∧ Hashed hashConfig e p
  untouched : ∀ k p, pm.profiles.lookup k = some p → ¬ isManaged p → (∀ e ∈ entries, k ≠ key e) →
    pm'.profiles.lookup k = some p ∧ pm'.files.lookup k = pm.files.lookup k
  survives : ∀ k p q, pm.profiles.lookup k = some p → pm'.profiles.lookup k = some q → Survives p q
  again : ∃ pm'', apply pm' = .ok pm'' ∧ pm''.tmpprofile = pm'.tmpprofile ∧
    ∀ k, pm''.profiles.lookup k = pm'.profiles.lookup k ∧ pm''.files.lookup k = pm'.files.lookup k

/-- An entry gives the name as it is stored or in capital letters. Where it finds no profile, the
one that was under that name had no alias and the first version; where it finds one with the
hash, the one that stays under the name is a managed one with the hash and survives; where it
finds one with another hash, what replaces it is as new and has its alias. -/
def Settles (hashConfig : Text → Text) (e : Entry) (before found there : Option Profile) : Prop :=
  UUID.toLowerCase e.uuid = key e ∧
    match found with
    | none => ∀ p, before = some p → p.mVersion.toInt ≤ 1 ∧ p.mAlias = none
    | some found =>
      if Hashed hashConfig e found then
        ∃ q, there = some q ∧ isManaged q ∧ Hashed hashConfig e q ∧ ∀ p, before = some p → Survives p q
      else
        ∀ p, before = some p →
          p.mVersion.toInt ≤ (found.mVersion + 2).toInt ∧ ∀ a, p.mAlias = some a → found.mAlias = some a

section Apply

variable {entrySet : EntrySet} {hashConfig : Text → Text} {pm : ProfileManager} {entries : List Entry}

private theorem replacement_none {e : Entry} (imports : ∃ vp, importConfig entrySet e.name e.ovpn = .ok vp) :
    (replacement entrySet hashConfig e none).mVersion = 1 ∧
      (replacement entrySet hashConfig e none).mAlias = none := by
  obtain ⟨vp, imported⟩ := imports
  refine ⟨rfl, ?_⟩
  simp only [replacement, saved, AppRestrictions.managed, imported, Except.toOption, Option.getD_some,
    Option.elim_none]
  exact ImportFrames.importConfig_alias entrySet imported

private theorem replacement_some (e : Entry) (found : Profile) :
    (replacement entrySet hashConfig e (some found)).mVersion = found.mVersion + 2 ∧
      (replacement entrySet hashConfig e (some found)).mAlias = found.mAlias := by
  refine ⟨?_, rfl⟩
  change found.mVersion + 1 + 1 = found.mVersion + 2
  rw [BitVec.add_assoc]
  rfl

/-- What an entry does to the profile under its name is right. -/
structure Kept (hashConfig : Text → Text) (e : Entry) (before after : Option Profile) : Prop where
  listed : ∃ p, after = some p ∧ isManaged p ∧ Hashed hashConfig e p
  survives : ∀ p, before = some p → ∀ q, after = some q → Survives p q

private theorem kept_some {e : Entry} {before : Option Profile} {q : Profile}
    (listed : isManaged q ∧ Hashed hashConfig e q) :
    Kept hashConfig e before (some q) ↔ ∀ p, before = some p → Survives p q := by
  constructor
  · intro kept p there
    exact kept.survives p there q rfl
  · intro survives
    refine ⟨⟨q, rfl, listed⟩, fun p there q' same => ?_⟩
    cases same
    exact survives p there

private theorem kept_iff {e : Entry} (imports : ∃ vp, importConfig entrySet e.name e.ovpn = .ok vp)
    (lower : UUID.toLowerCase e.uuid = key e) (before found there : Option Profile) :
    Kept hashConfig e before ((stored entrySet hashConfig e found).or there) ↔
      Settles hashConfig e before found there := by
  unfold Settles
  cases found with
  | none =>
    have new : stored entrySet hashConfig e none = some (replacement entrySet hashConfig e none) := rfl
    obtain ⟨version, noAlias⟩ := @replacement_none entrySet hashConfig _ imports
    rw [new, Option.some_or, kept_some (stored_some new), and_iff_right lower]
    refine forall₂_congr fun p _ => ⟨fun survives => ⟨?_, ?_⟩, fun first => ⟨?_, fun a given => ?_⟩⟩
    · have newer := survives.version
      rw [version] at newer
      exact newer
    · cases given : p.mAlias with
      | none => rfl
      | some a => exact absurd (noAlias.symm.trans (survives.keyAlias a given)) (Option.some_ne_none a).symm
    · rw [version]
      exact first.1
    · exact absurd (first.2.symm.trans given) (Option.some_ne_none a).symm
  | some old =>
    by_cases hash : Hashed hashConfig e old
    · have nothing : stored entrySet hashConfig e (some old) = none := if_pos (decide_eq_true hash)
      rw [nothing, Option.none_or, and_iff_right lower]
      simp only [if_pos hash]
      constructor
      · rintro ⟨⟨q, here, ours, same⟩, survives⟩
        exact ⟨q, here, ours, same, fun p was => survives p was q here⟩
      · rintro ⟨q, here, ours, same, survives⟩
        rw [here]
        exact (kept_some ⟨ours, same⟩).mpr survives
    · have new : stored entrySet hashConfig e (some old) = some (replacement entrySet hashConfig e (some old)) :=
        if_neg fun same => hash (decide_eq_true_eq.mp same)
      obtain ⟨version, kept⟩ := @replacement_some entrySet hashConfig e old
      rw [new, Option.some_or, kept_some (stored_some new), and_iff_right lower]
      simp only [if_neg hash]
      refine forall₂_congr fun p _ => ⟨fun survives => ?_, fun newer => ⟨?_, ?_⟩⟩
      · exact ⟨version ▸ survives.version, kept ▸ survives.keyAlias⟩
      · rw [version]
        exact newer.1
      · rw [kept]
        exact newer.2

variable (entrySet hashConfig)

/-- Every entry settles. The profiles that the list does not name are the same when the files have
been read again, or they are managed ones; and a temporary profile in the place of one has the
hash, or would be stored as the one that is there. -/
structure Settled (pm : ProfileManager) (entries : List Entry) : Prop where
  settles : ∀ e ∈ entries, Settles hashConfig e (pm.profiles.lookup (key e))
    ((seen hashConfig pm entries e).find e.uuid) ((base hashConfig pm entries).profiles.lookup (key e))
  untouched : ∀ k p, pm.profiles.lookup k = some p → (∀ e ∈ entries, k ≠ key e) → ¬ isManaged p →
    (base hashConfig pm entries).profiles.lookup k = some p
  survives : ∀ k p q, pm.profiles.lookup k = some p → (∀ e ∈ entries, k ≠ key e) →
    (base hashConfig pm entries).profiles.lookup k = some q → ¬ isManaged q → Survives p q
  temporary : ∀ e ∈ entries, ∀ tmp, (base hashConfig pm entries).tmpprofile = some tmp →
    tmp.getUUIDString = e.uuid → Hashed hashConfig e tmp ∨
      (stored entrySet hashConfig e ((seen hashConfig pm entries e).find e.uuid)).or
        ((base hashConfig pm entries).profiles.lookup (key e)) = some (replacement entrySet hashConfig e (some tmp))

variable {entrySet hashConfig}

private theorem find_temporary {tmp : Profile} {k : Text} (there : pm.tmpprofile = some tmp)
    (same : tmp.getUUIDString = k) :
    pm.find k = some tmp := by
  simp only [ProfileManager.find, there, if_pos same]

private theorem find_profiles {k : Text} (other : ∀ tmp, pm.tmpprofile = some tmp → tmp.getUUIDString ≠ k) :
    pm.find k = pm.profiles.lookup k := by
  unfold ProfileManager.find
  cases there : pm.tmpprofile with
  | none => rfl
  | some tmp => exact if_neg (other tmp there)

private theorem stored_temporary {e : Entry} {tmp : Profile} (other : ¬ Hashed hashConfig e tmp) :
    stored entrySet hashConfig e (some tmp) = some (replacement entrySet hashConfig e (some tmp)) :=
  if_neg fun same => other (decide_eq_true_eq.mp same)

private theorem seen_early (none_ : late pm entries = []) {e : Entry} (member : e ∈ entries) :
    e ∈ early pm entries ∧ seen hashConfig pm entries e = pm ∧ base hashConfig pm entries = pm := by
  have inside : e ∈ early pm entries := by
    have whole := early_append_late pm entries
    rw [none_, List.append_nil] at whole
    exact whole.symm ▸ member
  exact ⟨inside, if_pos inside, if_pos none_⟩

section Twice

variable {pm' : ProfileManager} (named : Named pm) (provision : Provision entrySet entries)
  (applied : Applied (base hashConfig pm entries) (stores entrySet hashConfig pm entries) entries pm')
  (settled : Settled entrySet hashConfig pm entries)

include applied provision in
/-- What an entry does to its profile is right exactly if it settles. -/
theorem settles_iff {e : Entry} (member : e ∈ entries) (lower : UUID.toLowerCase e.uuid = key e) :
    Kept hashConfig e (pm.profiles.lookup (key e)) (pm'.profiles.lookup (key e)) ↔
      Settles hashConfig e (pm.profiles.lookup (key e)) ((seen hashConfig pm entries e).find e.uuid)
        ((base hashConfig pm entries).profiles.lookup (key e)) := by
  rw [(applied.listed e member lower).1]
  exact kept_iff (provision.imports e member) lower _ _ _

include applied provision settled in
private theorem settled_kept {e : Entry} (member : e ∈ entries) :
    Kept hashConfig e (pm.profiles.lookup (key e)) (pm'.profiles.lookup (key e)) :=
  (settles_iff provision applied member (settled.settles e member).1).mpr (settled.settles e member)

include named applied provision settled in
/-- Where all profiles were in memory they still are, and no older. -/
theorem present_again (none_ : late pm entries = []) {e : Entry} (member : e ∈ entries) : present pm' e = true := by
  obtain ⟨inside, -, based⟩ := @seen_early hashConfig _ _ none_ e member
  have before := early_present inside
  by_cases temporary : ∃ tmp, pm.tmpprofile = some tmp ∧ tmp.getUUIDString = e.uuid
  · obtain ⟨tmp, there, same⟩ := temporary
    rw [present, find_temporary there same] at before
    rw [present, find_temporary ((applied.tmpprofile.trans (by rw [based])).trans there) same]
    exact before
  · have other : ∀ tmp, pm.tmpprofile = some tmp → tmp.getUUIDString ≠ e.uuid :=
      fun tmp there same => temporary ⟨tmp, there, same⟩
    have own : e.uuid = key e := by
      by_contra different
      rw [present, find_other named different] at before
      cases before
    rw [present, find_profiles other, own, Option.any_eq_true] at before
    obtain ⟨p, was, version⟩ := before
    have kept := settled_kept provision applied settled member
    obtain ⟨q, now, -⟩ := kept.listed
    have newer := (kept.survives p was q now).version
    have tmpprofile : pm'.tmpprofile = pm.tmpprofile := applied.tmpprofile.trans (by rw [based])
    rw [present, find_profiles (tmpprofile ▸ other), own, now]
    have enough := of_decide_eq_true version
    exact decide_eq_true (by omega)

include named applied provision settled in
/-- Applied again, an entry stores what is there, or nothing. -/
theorem written_again (synced : late pm entries ≠ [] → Synced pm') {e : Entry} (member : e ∈ entries) {q : Profile}
    (new : written entrySet hashConfig pm' e = some q) :
    pm'.profiles.lookup (key e) = some q ∧ pm'.files.lookup (key e) = some q := by
  have lower := (settled.settles e member).1
  obtain ⟨profiles, files⟩ := applied.listed e member lower
  by_cases temporary : ∃ tmp, (base hashConfig pm entries).tmpprofile = some tmp ∧ tmp.getUUIDString = e.uuid
  · obtain ⟨tmp, there, same⟩ := temporary
    rw [written, find_temporary (applied.tmpprofile.trans there) same] at new
    have other : ¬ Hashed hashConfig e tmp := by
      intro hash
      have nothing : stored entrySet hashConfig e (some tmp) = none := if_pos (decide_eq_true hash)
      rw [nothing] at new
      cases new
    have present : pm'.profiles.lookup (key e) = some q := by
      rw [profiles, ← new, stored_temporary other]
      exact (settled.temporary e member tmp there same).resolve_left other
    refine ⟨present, ?_⟩
    by_cases none_ : late pm entries = []
    · obtain ⟨-, whole, based⟩ := @seen_early hashConfig _ _ none_ e member
      rw [based] at there
      rw [files, stores, written, whole, find_temporary there same, new, Option.some_or]
    · have saved := synced none_
      rw [saved.saved (saved.listed present) (saved.name present), present]
  · have other : ∀ tmp, pm'.tmpprofile = some tmp → tmp.getUUIDString ≠ e.uuid :=
      fun tmp there same => temporary ⟨tmp, applied.tmpprofile.symm.trans there, same⟩
    by_cases own : e.uuid = key e
    · obtain ⟨p, here, -, hash⟩ := (settled_kept provision applied settled member).listed
      have nothing : stored entrySet hashConfig e (some p) = none := if_pos (decide_eq_true hash)
      rw [written, find_profiles other, own, here, nothing] at new
      cases new
    · rw [written_other applied.named own] at new
      have first : stores entrySet hashConfig pm entries e = some q :=
        (written_other (seen_named named entries e) own).trans new
      rw [profiles, files, first]
      exact ⟨rfl, rfl⟩

end Twice

private theorem applied_again {pm' pm'' : ProfileManager} {before : ProfileManager} {w : Entry → Option Profile}
    (first : Applied before w entries pm') (second : Applied pm' (written entrySet hashConfig pm') entries pm'')
    (same : ∀ e ∈ entries, ∀ q, written entrySet hashConfig pm' e = some q →
      pm'.profiles.lookup (key e) = some q ∧ pm'.files.lookup (key e) = some q) (k : Text) :
    pm''.profiles.lookup k = pm'.profiles.lookup k ∧ pm''.files.lookup k = pm'.files.lookup k := by
  by_cases inside : ∃ e ∈ entries, k = key e
  · obtain ⟨e, member, rfl⟩ := inside
    by_cases lower : UUID.toLowerCase e.uuid = key e
    · obtain ⟨profiles, files⟩ := second.listed e member lower
      rw [profiles, files]
      cases new : written entrySet hashConfig pm' e with
      | none => exact ⟨Option.none_or, Option.none_or⟩
      | some q => exact ⟨(same e member q new).1.symm, (same e member q new).2.symm⟩
    · obtain ⟨profiles, files⟩ := first.lost e member lower
      obtain ⟨profiles', files'⟩ := second.lost e member lower
      rw [profiles', files', profiles, files]
      exact ⟨rfl, rfl⟩
  · have unlisted : ∀ e ∈ entries, k ≠ key e := fun e member same => inside ⟨e, member, same⟩
    obtain ⟨profiles, -⟩ := first.others k unlisted
    obtain ⟨profiles', files'⟩ := second.others k unlisted
    have gone : ¬ (pm'.profiles.lookup k).any isManaged = true := by
      rw [profiles]
      split
      next => simp
      next kept => exact kept
    rw [profiles', files', if_neg gone, if_neg gone]
    exact ⟨rfl, rfl⟩

/-! ### Reconciliation -/

variable {restrictions : Restrictions} {profileList : List Bundle}

private theorem settled_of_reconciled (version : JavaText.parseInt restrictions.version = some CONFIG_VERSION)
    (list : restrictions.vpn_configuration_list = some profileList)
    (provision : Provision entrySet (profileList.filterMap Bundle.entry)) {pm' : ProfileManager}
    (applied : Applied (base hashConfig pm (profileList.filterMap Bundle.entry))
      (stores entrySet hashConfig pm (profileList.filterMap Bundle.entry)) (profileList.filterMap Bundle.entry) pm')
    (synced : late pm (profileList.filterMap Bundle.entry) ≠ [] → Synced pm')
    (reconciled : Reconciled hashConfig (profileList.filterMap Bundle.entry)
      (applyRestrictions entrySet hashConfig restrictions) pm pm') :
    Settled entrySet hashConfig pm (profileList.filterMap Bundle.entry) := by
  refine ⟨fun e member => ?_, fun k p before unlisted foreign => ?_, fun k p q before unlisted there foreign => ?_,
    fun e member tmp there same => ?_⟩
  · have lower : UUID.toLowerCase e.uuid = key e := by
      by_contra other
      obtain ⟨p, there, -⟩ := reconciled.listed e member
      exact absurd ((applied.lost e member other).1.symm.trans there) (Option.some_ne_none p).symm
    refine (settles_iff provision applied member lower).mp ⟨reconciled.listed e member, ?_⟩
    exact fun p before q after => reconciled.survives (key e) p q before after
  · have after := (applied.others k unlisted).1.symm.trans (reconciled.untouched k p before foreign unlisted).1
    split at after
    next => cases after
    next => exact after
  · have stays : ¬ ((base hashConfig pm (profileList.filterMap Bundle.entry)).profiles.lookup k).any isManaged =
        true := by
      rw [there]
      exact foreign
    have after := (applied.others k unlisted).1
    rw [if_neg stays, there] at after
    exact reconciled.survives k p q before after
  · by_cases hash : Hashed hashConfig e tmp
    · exact .inl hash
    refine .inr ?_
    by_cases none_ : late pm (profileList.filterMap Bundle.entry) = []
    · obtain ⟨-, whole, based⟩ := @seen_early hashConfig _ _ none_ e member
      rw [based] at there
      rw [whole, find_temporary there same, stored_temporary hash, Option.some_or]
    · -- The list applied again stores the temporary profile.
      obtain ⟨pm'', run, second⟩ := @applyRestrictions_steady entrySet hashConfig pm' _ _ version list provision
        applied.named fun _ _ => .inl (synced none_)
      obtain ⟨final, run', -, lookups⟩ := reconciled.again
      cases run.symm.trans run'
      have lower : UUID.toLowerCase e.uuid = key e := by
        by_contra other
        obtain ⟨p, there, -⟩ := reconciled.listed e member
        exact absurd ((applied.lost e member other).1.symm.trans there) (Option.some_ne_none p).symm
      have now := (second.listed e member lower).1
      rw [(lookups (key e)).1, written, find_temporary (applied.tmpprofile.trans there) same, stored_temporary hash,
        Option.some_or, (applied.listed e member lower).1] at now
      exact now

private theorem reconciled_of_settled (version : JavaText.parseInt restrictions.version = some CONFIG_VERSION)
    (list : restrictions.vpn_configuration_list = some profileList)
    (provision : Provision entrySet (profileList.filterMap Bundle.entry)) (named : Named pm) {pm' : ProfileManager}
    (applied : Applied (base hashConfig pm (profileList.filterMap Bundle.entry))
      (stores entrySet hashConfig pm (profileList.filterMap Bundle.entry)) (profileList.filterMap Bundle.entry) pm')
    (synced : late pm (profileList.filterMap Bundle.entry) ≠ [] → Synced pm')
    (settled : Settled entrySet hashConfig pm (profileList.filterMap Bundle.entry)) :
    Reconciled hashConfig (profileList.filterMap Bundle.entry)
      (applyRestrictions entrySet hashConfig restrictions) pm pm' := by
  have kept (e : Entry) (member : e ∈ profileList.filterMap Bundle.entry) :=
    settled_kept provision applied settled member
  have steady : ∀ e ∈ profileList.filterMap Bundle.entry, Synced pm' ∨ present pm' e = true := by
    intro e member
    by_cases none_ : late pm (profileList.filterMap Bundle.entry) = []
    · exact .inr (present_again named provision applied settled none_ member)
    · exact .inl (synced none_)
  obtain ⟨pm'', run, second⟩ :=
    @applyRestrictions_steady entrySet hashConfig pm' _ _ version list provision applied.named steady
  refine ⟨fun k p after ours => ?_, fun e member => (kept e member).listed, fun k p before foreign unlisted => ?_,
    fun k p q before after => ?_, pm'', run, second.tmpprofile,
    applied_again applied second fun e member q new =>
      written_again named provision applied settled synced member new⟩
  · by_contra inside
    have there := (applied.others k fun e member same => inside ⟨e, member, same⟩).1
    rw [after] at there
    split at there
    next => cases there
    next foreign =>
      rw [← there] at foreign
      exact foreign ours
  · obtain ⟨profiles, files⟩ := applied.others k unlisted
    have there := settled.untouched k p before unlisted foreign
    have stays : ¬ ((base hashConfig pm (profileList.filterMap Bundle.entry)).profiles.lookup k).any isManaged =
        true := by
      rw [there]
      exact foreign
    rw [if_neg stays] at profiles files
    exact ⟨profiles.trans there, files.trans (base_files named _ k)⟩
  · by_cases inside : ∃ e ∈ profileList.filterMap Bundle.entry, k = key e
    · obtain ⟨e, member, rfl⟩ := inside
      exact (kept e member).survives p before q after
    · have unlisted : ∀ e ∈ profileList.filterMap Bundle.entry, k ≠ key e :=
        fun e member same => inside ⟨e, member, same⟩
      have there := (applied.others k unlisted).1.symm.trans after
      split at there
      next => cases there
      next foreign => exact settled.survives k p q before unlisted there (by rwa [there] at foreign)

end Apply

/-! ### Examples -/

def oneEntry (e : Entry) : Restrictions where
  version := ['1']
  vpn_configuration_list := some [⟨some e.uuid, some e.ovpn, some e.name⟩]

private theorem oneEntry_provision {e : Entry} (read : (UUID.fromString e.uuid).isSome)
    (imports : (importConfig default e.name e.ovpn).toOption.isSome) :
    Provision default ([Bundle.mk (some e.uuid) (some e.ovpn) (some e.name)].filterMap Bundle.entry) := by
  change Provision default [e]
  refine ⟨List.forall_mem_singleton.mpr read, List.nodup_singleton _, List.forall_mem_singleton.mpr ?_⟩
  cases imported : importConfig default e.name e.ovpn with
  | error e =>
    rw [imported] at imports
    cases imports
  | ok vp => exact ⟨vp, rfl⟩

def office : Entry :=
  { uuid := "00000001-0002-0003-0004-000000000005".toList, ovpn := "remote a".toList, name := "office".toList }

private def oldOffice : Profile :=
  { mUuid := target office, mAlias := some "key".toList, mProfileCreator := some PROFILE_CREATOR,
    importedProfileHash := some "remote b".toList }

/-- A profile of the user, which is changed after it was saved. -/
private def home : Profile := { mUuid := ⟨1, 1⟩, mVersion := 3 }

private def storeWithHome : List Operation :=
  [.saveProfile oldOffice, .saveProfile home, .saveProfileList, .addProfile { home with mVersion := 5 }]

def shortOffice : Entry := { office with uuid := "1-2-3-4-5".toList }

end RRoadVpn.Proofs.ManagedProfiles
