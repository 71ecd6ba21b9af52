import Mathlib.Data.List.TakeWhile
import RRoadVpn.Proofs.ProfileStores

/-! What applying a list of restrictions does to any store. The entries are looked up in memory
until one is not found there; from then on they are looked up in what the files hold. -/

namespace RRoadVpn.Proofs.AppliedRestrictions
open RRoadVpn.ConfigParser RRoadVpn.AppRestrictions RRoadVpn.Proofs.ProfileStores
open JavaText (Text)
open ProfileManager (TEMPORARY_PROFILE_FILENAME)

def target (e : Entry) : UUID := (UUID.fromString e.uuid).getD ⟨0, 0⟩

def key (e : Entry) : Text := (target e).toText

/-- Every name can be read, all are for different profiles, and every config can be imported. -/
structure Provision (entrySet : EntrySet) (entries : List Entry) : Prop where
  read : ∀ e ∈ entries, (UUID.fromString e.uuid).isSome
  distinct : (entries.map fun e => UUID.fromString e.uuid).Nodup
  imports : ∀ e ∈ entries, ∃ vp, importConfig entrySet e.name e.ovpn = .ok vp

section Names

variable {entrySet : EntrySet} {entries : List Entry}

private theorem fromString_target {e : Entry} (read : (UUID.fromString e.uuid).isSome) :
    UUID.fromString e.uuid = some (target e) := by
  obtain ⟨u, found⟩ := Option.isSome_iff_exists.mp read
  rw [target, found, Option.getD_some]

theorem key_of_text {e : Entry} {u : UUID} (text : UUID.toLowerCase e.uuid = u.toText) : key e = u.toText := by
  have read : UUID.fromString e.uuid = some u := by
    rw [← UuidTexts.fromString_toLowerCase, text, UuidTexts.fromString_toText]
  rw [key, target, read, Option.getD_some]

private theorem key_injective (provision : Provision entrySet entries) {e e' : Entry} (member : e ∈ entries)
    (member' : e' ∈ entries) (same : key e = key e') : e = e' := by
  refine List.inj_on_of_nodup_map provision.distinct member member' ?_
  rw [fromString_target (provision.read e member), fromString_target (provision.read e' member'),
    toText_injective same]

theorem Provision.append {first second : List Entry} (provision : Provision entrySet (first ++ second)) :
    Provision entrySet first ∧ Provision entrySet second ∧ ∀ e ∈ first, ∀ e' ∈ second, key e ≠ key e' := by
  obtain ⟨read, distinct, imports⟩ := provision
  have parts := distinct
  rw [List.map_append, List.nodup_append] at parts
  obtain ⟨here, there, apart⟩ := parts
  refine ⟨⟨fun e member => read e (List.mem_append_left _ member), here,
      fun e member => imports e (List.mem_append_left _ member)⟩,
    ⟨fun e member => read e (List.mem_append_right _ member), there,
      fun e member => imports e (List.mem_append_right _ member)⟩, fun e member e' member' same => ?_⟩
  refine apart _ (List.mem_map_of_mem member) _ (List.mem_map_of_mem member') ?_
  rw [fromString_target (read e (List.mem_append_left _ member)),
    fromString_target (read e' (List.mem_append_right _ member')), toText_injective same]

theorem uuid_ne_key {e e' : Entry} (apart : key e ≠ key e') : e'.uuid ≠ key e := by
  intro same
  refine apart.symm ?_
  have text := UuidTexts.toText_lower (target e)
  rw [← key, ← same] at text
  exact key_of_text (text.trans same)

end Names

/-! ### Stores -/

def Hashed (hashConfig : Text → Text) (e : Entry) (p : Profile) : Prop :=
  some (hashConfig e.ovpn) = p.importedProfileHash

instance (hashConfig : Text → Text) (e : Entry) : DecidablePred (Hashed hashConfig e) :=
  fun p => inferInstanceAs (Decidable (some (hashConfig e.ovpn) = p.importedProfileHash))

section Apply

variable (entrySet : EntrySet) (hashConfig : Text → Text)

def replacement (e : Entry) (vpnProfile : Option Profile) : Profile :=
  saved (managed hashConfig ((importConfig entrySet e.name e.ovpn).toOption.getD {}) (target e) e vpnProfile)

/-- What an entry stores that finds such a profile: nothing if it has the hash. -/
def stored (e : Entry) (found : Option Profile) : Option Profile :=
  if found.any fun profile => Hashed hashConfig e profile then none
  else some (replacement entrySet hashConfig e found)

def written (pm : ProfileManager) (e : Entry) : Option Profile := stored entrySet hashConfig e (pm.find e.uuid)

def news (w : Entry → Option Profile) (entries : List Entry) (k : Text) : Option Profile :=
  (entries.find? fun e => key e = k).bind w

variable {entrySet hashConfig} {entries : List Entry} {w : Entry → Option Profile}

theorem stored_some {e : Entry} {found : Option Profile} {q : Profile}
    (new : stored entrySet hashConfig e found = some q) : isManaged q ∧ Hashed hashConfig e q := by
  unfold stored at new
  split at new <;> cases new
  exact ⟨by simp [isManaged, replacement, saved, managed], rfl⟩

private theorem news_key (provision : Provision entrySet entries) {e : Entry} (member : e ∈ entries) :
    news w entries (key e) = w e := by
  have there : (entries.find? fun e' => key e' = key e).isSome := List.find?_isSome.mpr ⟨e, member, by simp⟩
  obtain ⟨e', found⟩ := Option.isSome_iff_exists.mp there
  have same : key e' = key e := by simpa using List.find?_some found
  rw [news, found, key_injective provision (List.mem_of_find?_eq_some found) member same, Option.bind_some]

private theorem news_none {k : Text} (other : ∀ e ∈ entries, key e ≠ k) : news w entries k = none := by
  have missing : entries.find? (fun e => key e = k) = none :=
    List.find?_eq_none.mpr fun e member same => other e member (decide_eq_true_eq.mp same)
  rw [news, missing, Option.bind_none]

private theorem news_some {k : Text} {q : Profile} (new : news w entries k = some q) :
    ∃ e ∈ entries, key e = k ∧ w e = some q := by
  obtain ⟨e, found, here⟩ := Option.bind_eq_some_iff.mp new
  exact ⟨e, List.mem_of_find?_eq_some found, by simpa using List.find?_some found, here⟩

private theorem news_congr {w' : Entry → Option Profile} (same : ∀ e ∈ entries, w e = w' e) :
    news w entries = news w' entries := by
  funext k
  unfold news
  cases found : entries.find? fun e => key e = k with
  | none => rfl
  | some e => exact same e (List.mem_of_find?_eq_some found)

theorem news_append {first second : List Entry} (apart : ∀ e ∈ first, ∀ e' ∈ second, key e ≠ key e') (k : Text) :
    (news w second k).or (news w first k) = news w (first ++ second) k := by
  unfold news
  rw [List.find?_append]
  cases found : first.find? fun e => key e = k with
  | none => simp
  | some e =>
    have here : key e = k := by simpa using List.find?_some found
    have missing : second.find? (fun e => key e = k) = none := by
      refine List.find?_eq_none.mpr fun e' member same => ?_
      exact apart e (List.mem_of_find?_eq_some found) e' member (here.trans (decide_eq_true_eq.mp same).symm)
    simp [missing]

/-- Some profiles are replaced or added. -/
structure Changed (pm pm' : ProfileManager) (new : Text → Option Profile) : Prop where
  named : Named pm'
  tmpprofile : pm'.tmpprofile = pm.tmpprofile
  profiles : ∀ k, pm'.profiles.lookup k = (new k).or (pm.profiles.lookup k)
  files : ∀ k, pm'.files.lookup k = (new k).or (pm.files.lookup k)

def Lists (pm pm' : ProfileManager) (new : Text → Option Profile) : Prop :=
  (∀ k, new k = none) ∧ pm'.vpnlist = pm.vpnlist ∨
    (∃ k q, new k = some q) ∧ ∀ k, k ∈ pm'.vpnlist ↔ ∃ p, pm'.profiles.lookup k = some p

namespace Changed

variable {pm middle pm' : ProfileManager} {new new' : Text → Option Profile}

private theorem refl (named : Named pm) : Changed pm pm fun _ => none :=
  ⟨named, rfl, fun _ => (Option.none_or).symm, fun _ => (Option.none_or).symm⟩

private theorem trans (first : Changed pm middle new) (second : Changed middle pm' new') :
    Changed pm pm' fun k => (new' k).or (new k) where
  named := second.named
  tmpprofile := second.tmpprofile.trans first.tmpprofile
  profiles k := by rw [second.profiles, first.profiles, Option.or_assoc]
  files k := by rw [second.files, first.files, Option.or_assoc]

private theorem name (changed : Changed pm pm' new) {k : Text} {q : Profile} (there : new k = some q) :
    k ≠ TEMPORARY_PROFILE_FILENAME := by
  have present : pm'.profiles.lookup k = some q := by rw [changed.profiles, there, Option.some_or]
  rw [changed.named.own present]
  exact toText_ne_temporary q.mUuid

theorem find (changed : Changed pm pm' new) {k : Text} (other : new k = none) : pm'.find k = pm.find k := by
  simp only [ProfileManager.find, changed.tmpprofile, changed.profiles, other, Option.none_or]

private theorem temporary (changed : Changed pm pm' new) :
    pm'.files.lookup TEMPORARY_PROFILE_FILENAME = pm.files.lookup TEMPORARY_PROFILE_FILENAME := by
  rw [changed.files]
  cases there : new TEMPORARY_PROFILE_FILENAME with
  | none => rw [Option.none_or]
  | some q => exact absurd rfl (changed.name there)

private theorem synced (changed : Changed pm pm' new) (lists : Lists pm pm' new) (synced : Synced pm) :
    Synced pm' where
  own := changed.named.own
  listed {k p} present := by
    rcases lists with ⟨nothing, same⟩ | ⟨-, members⟩
    · rw [changed.profiles, nothing, Option.none_or] at present
      exact same ▸ synced.listed present
    · exact (members k).mpr ⟨p, present⟩
  saved {k} member other := by
    rcases lists with ⟨nothing, same⟩ | ⟨-, members⟩
    · rw [changed.files, changed.profiles, nothing, Option.none_or, Option.none_or]
      exact synced.saved (same ▸ member) other
    · obtain ⟨p, present⟩ := (members k).mp member
      rw [changed.profiles] at present
      rw [changed.files, changed.profiles]
      cases there : new k with
      | some q => rfl
      | none =>
        rw [there, Option.none_or] at present
        exact synced.saved (synced.listed present) other
  temporary {p} file := by
    rw [changed.temporary] at file
    rw [changed.tmpprofile]
    exact synced.temporary file

end Changed

private theorem Lists.trans {pm middle pm' : ProfileManager} {new new' : Text → Option Profile}
    (first : Lists pm middle new)
    (second : Lists middle pm' new') (changed : Changed middle pm' new') :
    Lists pm pm' fun k => (new' k).or (new k) := by
  rcases second with ⟨nothing', same'⟩ | ⟨⟨k, q, there⟩, members⟩
  · rcases first with ⟨nothing, same⟩ | ⟨⟨k, q, there⟩, members⟩
    · exact .inl ⟨fun k => by simp only [nothing, nothing', Option.none_or], same'.trans same⟩
    · refine .inr ⟨⟨k, q, by simp only [nothing', there, Option.none_or]⟩, fun k => ?_⟩
      rw [same', members, changed.profiles, nothing', Option.none_or]
  · exact .inr ⟨⟨k, q, by simp only [there, Option.some_or]⟩, members⟩

/-! ### Entries -/

/-- An entry's profile is in memory, and `get` returns it at once. -/
def present (pm : ProfileManager) (e : Entry) : Bool := (pm.find e.uuid).any fun profile => 0 ≤ profile.mVersion.toInt

variable {pm : ProfileManager}

/-- Where the files are what is in memory, or the profile is in memory, the store is what `get` sees. -/
theorem get_steady (named : Named pm) {e : Entry} (steady : Synced pm ∨ present pm e = true) :
    (pm.get e.uuid).1 = pm.find e.uuid ∧ Same pm (pm.get e.uuid).2 := by
  by_cases here : present pm e = true
  · rw [get_found here]
    exact ⟨rfl, Same.refl pm⟩
  · obtain ⟨found, reread⟩ := get_reread named (Bool.eq_false_iff.mpr here)
    have same := loadVPNList_same named (steady.resolve_right here)
    exact ⟨found.trans (same.find e.uuid), same.trans reread⟩

private theorem applyEntry_changed {base : ProfileManager} (named : Named base) {e : Entry}
    (found : (pm.get e.uuid).1 = base.find e.uuid) (same : Same base (pm.get e.uuid).2)
    (read : (UUID.fromString e.uuid).isSome) (imports : ∃ vp, importConfig entrySet e.name e.ovpn = .ok vp) :
    ∃ pm', applyEntry entrySet hashConfig pm e = .ok pm' ∧
      Changed base pm' (news (written entrySet hashConfig base) [e]) ∧
      Lists base pm' (news (written entrySet hashConfig base) [e]) := by
  obtain ⟨vp, imported⟩ := imports
  have alone (k : Text) : news (written entrySet hashConfig base) [e] k =
      if k = key e then written entrySet hashConfig base e else none := by
    by_cases here : k = key e
    · simp [news, here]
    · simp [news, here, Ne.symm here]
  unfold applyEntry
  simp only [found]
  by_cases unchanged : (base.find e.uuid).any (fun profile => Hashed hashConfig e profile) = true
  · have nothing : written entrySet hashConfig base e = none := if_pos unchanged
    have none_ (k : Text) : news (written entrySet hashConfig base) [e] k = none := by rw [alone, nothing, ite_self]
    refine ⟨_, if_pos unchanged, ⟨same.named named, same.tmpprofile, fun k => ?_, fun k => ?_⟩,
      .inl ⟨none_, same.vpnlist⟩⟩
    · rw [none_, Option.none_or, same.profiles]
    · rw [none_, Option.none_or, same.files]
  · have new : written entrySet hashConfig base e = some (replacement entrySet hashConfig e (base.find e.uuid)) :=
      if_neg unchanged
    have adds : AppRestrictions.addProfile entrySet hashConfig (pm.get e.uuid).2 e (base.find e.uuid) =
        .ok (ProfileStores.store (pm.get e.uuid).2 (managed hashConfig vp (target e) e (base.find e.uuid))) := by
      simp only [AppRestrictions.addProfile, imported, fromString_target read, ProfileStores.store]
    have as_saved : saved (managed hashConfig vp (target e) e (base.find e.uuid)) =
        replacement entrySet hashConfig e (base.find e.uuid) := by
      rw [replacement, imported]
      rfl
    refine ⟨_, (if_neg unchanged).trans adds, ⟨store_named (same.named named) _, same.tmpprofile, fun k => ?_,
      fun k => ?_⟩,
      .inr ⟨⟨key e, _, by rw [alone, if_pos rfl, new]⟩, fun k => mem_keys_iff⟩⟩
    · rw [store_profiles, same.profiles, alone, new, as_saved]
      change (if k = key e then _ else _) = _
      split <;> rfl
    · rw [store_files, same.files, alone, new, as_saved]
      change (if k = key e then _ else _) = _
      split <;> rfl

theorem applyEntries_cons {base middle final : ProfileManager} {e : Entry}
    (provision : Provision entrySet ([e] ++ entries))
    (first : Changed base middle (news (written entrySet hashConfig base) [e]))
    (rest : Changed middle final (news (written entrySet hashConfig middle) entries))
    (lists : Lists base middle (news (written entrySet hashConfig base) [e]))
    (lists' : Lists middle final (news (written entrySet hashConfig middle) entries)) :
    Changed base final (news (written entrySet hashConfig base) ([e] ++ entries)) ∧
      Lists base final (news (written entrySet hashConfig base) ([e] ++ entries)) := by
  obtain ⟨-, -, apart⟩ := provision.append
  have same : news (written entrySet hashConfig middle) entries =
      news (written entrySet hashConfig base) entries := by
    refine news_congr fun e' member => ?_
    rw [written, written, first.find (news_none fun e there => (uuid_ne_key (apart e there e' member)).symm)]
  rw [same] at rest lists'
  have both := funext (news_append apart (w := written entrySet hashConfig base))
  rw [← both]
  exact ⟨first.trans rest, lists.trans lists' rest⟩

theorem applyEntries_steady (named : Named pm) (provision : Provision entrySet entries)
    (steady : ∀ e ∈ entries, Synced pm ∨ present pm e = true) :
    ∃ pm', entries.foldlM (applyEntry entrySet hashConfig) pm = .ok pm' ∧
      Changed pm pm' (news (written entrySet hashConfig pm) entries) ∧
      Lists pm pm' (news (written entrySet hashConfig pm) entries) := by
  induction entries generalizing pm with
  | nil => exact ⟨pm, rfl, Changed.refl named, .inl ⟨fun _ => rfl, rfl⟩⟩
  | cons e entries ih =>
    have parts : Provision entrySet ([e] ++ entries) := provision
    obtain ⟨-, others, apart⟩ := parts.append
    obtain ⟨here, later⟩ := List.forall_mem_cons.mp steady
    obtain ⟨found, same⟩ := get_steady named here
    obtain ⟨middle, applied, first, lists⟩ := @applyEntry_changed entrySet hashConfig pm pm named e found same
      (provision.read e List.mem_cons_self) (provision.imports e List.mem_cons_self)
    have steady' : ∀ e' ∈ entries, Synced middle ∨ present middle e' = true := by
      intro e' member
      refine (later e' member).imp (first.synced lists) fun there => ?_
      rwa [present, first.find (news_none fun e there => (uuid_ne_key (apart e there e' member)).symm)]
    obtain ⟨final, run, rest, lists'⟩ := ih first.named others steady'
    obtain ⟨changed, all⟩ := applyEntries_cons parts first rest lists lists'
    refine ⟨final, ?_, changed, all⟩
    rw [List.foldlM_cons, applied]
    exact run

/-- Where the first entry is not in memory the files are read, and hold what is in memory from then on. -/
theorem applyEntries_late (named : Named pm) {e : Entry} (provision : Provision entrySet ([e] ++ entries))
    (missing : present pm e = false) :
    ∃ pm', ([e] ++ entries).foldlM (applyEntry entrySet hashConfig) pm = .ok pm' ∧
      Changed pm.loadVPNList pm' (news (written entrySet hashConfig pm.loadVPNList) ([e] ++ entries)) ∧
        Synced pm' := by
  have spec := get_reread named missing
  have loaded := (loadVPNList_spec named).1
  obtain ⟨-, others, -⟩ := provision.append
  obtain ⟨middle, applied, first, lists⟩ := @applyEntry_changed entrySet hashConfig pm _ loaded e spec.1 spec.2
    (provision.read e List.mem_cons_self) (provision.imports e List.mem_cons_self)
  have synced := first.synced lists (loadVPNList_synced named)
  obtain ⟨final, run, rest, lists'⟩ :=
    @applyEntries_steady entrySet hashConfig entries middle first.named others fun _ _ => .inl synced
  obtain ⟨changed, -⟩ := applyEntries_cons provision first rest lists lists'
  refine ⟨final, ?_, changed, rest.synced lists' synced⟩
  rw [List.singleton_append, List.foldlM_cons, applied]
  exact run

/-! ### The whole list -/

/-- The entries that are looked up before the files are read. -/
def early (pm : ProfileManager) (entries : List Entry) : List Entry := entries.takeWhile (present pm)

/-- The first entry that is not in memory, and those behind it. -/
def late (pm : ProfileManager) (entries : List Entry) : List Entry := entries.dropWhile (present pm)

def changes (hashConfig : Text → Text) (pm : ProfileManager) (e : Entry) : Bool :=
  !(pm.find e.uuid).any fun profile => Hashed hashConfig e profile

/-- The store when its files are read again: by the names in memory where the list of names has
been saved with an early entry. -/
def reread (hashConfig : Text → Text) (pm : ProfileManager) (entries : List Entry) : ProfileManager :=
  { pm with
    vpnlist := if (early pm entries).any (changes hashConfig pm) then pm.profiles.keys else pm.vpnlist }.loadVPNList

def base (hashConfig : Text → Text) (pm : ProfileManager) (entries : List Entry) : ProfileManager :=
  if late pm entries = [] then pm else reread hashConfig pm entries

/-- The store in which an entry of the list is looked up. -/
def seen (hashConfig : Text → Text) (pm : ProfileManager) (entries : List Entry) (e : Entry) : ProfileManager :=
  if e ∈ early pm entries then pm else base hashConfig pm entries

def stores (entrySet : EntrySet) (hashConfig : Text → Text) (pm : ProfileManager) (entries : List Entry) (e : Entry) :
    Option Profile := written entrySet hashConfig (seen hashConfig pm entries e) e

theorem early_present {e : Entry} (member : e ∈ early pm entries) :
    present pm e = true := List.mem_takeWhile_imp member

theorem early_append_late (pm : ProfileManager) (entries : List Entry) :
    early pm entries ++ late pm entries = entries :=
  List.takeWhile_append_dropWhile

private theorem late_head {e : Entry} {others : List Entry} (first : late pm entries = e :: others) :
    present pm e = false := by
  have head := List.head?_dropWhile_not (present pm) entries
  rw [late] at first
  rw [first] at head
  exact head

theorem written_isSome (e : Entry) : (written entrySet hashConfig pm e).isSome = changes hashConfig pm e := by
  unfold written stored changes
  cases (pm.find e.uuid).any fun profile => Hashed hashConfig e profile <;> rfl

private theorem reread_spec (named : Named pm) (entries : List Entry) :
    Named (reread hashConfig pm entries) ∧ (reread hashConfig pm entries).files = pm.files ∧
      (reread hashConfig pm entries).tmpprofile =
        (pm.files.lookup TEMPORARY_PROFILE_FILENAME).or pm.tmpprofile ∧
      ∀ k, (reread hashConfig pm entries).profiles.lookup k =
        if (k ∈ if (early pm entries).any (changes hashConfig pm) then pm.profiles.keys else pm.vpnlist) ∧
          k ≠ TEMPORARY_PROFILE_FILENAME then pm.files.lookup k else none := by
  have relisted : Named { pm with
      vpnlist := if (early pm entries).any (changes hashConfig pm) then pm.profiles.keys else pm.vpnlist } :=
    ⟨named.own, named.file⟩
  obtain ⟨loaded, -, files, tmpprofile, profiles⟩ := loadVPNList_spec relisted
  exact ⟨loaded, files, tmpprofile, profiles⟩

/-- When the early entries have been stored, reading the files finds them among what it finds else. -/
theorem reread_changed (named : Named pm) (provision : Provision entrySet (early pm entries))
    {stopped : ProfileManager}
    (changed : Changed pm stopped (news (written entrySet hashConfig pm) (early pm entries)))
    (lists : Lists pm stopped (news (written entrySet hashConfig pm) (early pm entries))) :
    Changed (reread hashConfig pm entries) stopped.loadVPNList
      (news (written entrySet hashConfig pm) (early pm entries)) := by
  obtain ⟨-, files, tmpprofile, profiles⟩ := @reread_spec hashConfig pm named entries
  obtain ⟨loaded, -, files', tmpprofile', profiles'⟩ := loadVPNList_spec changed.named
  -- A name is on the list of the one exactly if it is on that of the other, or has been stored.
  have member (k : Text) (nothing : news (written entrySet hashConfig pm) (early pm entries) k = none) :
      k ∈ stopped.vpnlist ↔
        k ∈ if (early pm entries).any (changes hashConfig pm) then pm.profiles.keys else pm.vpnlist := by
    rcases lists with ⟨none_, same⟩ | ⟨⟨k', q, there⟩, members⟩
    · have quiet : ¬ (early pm entries).any (changes hashConfig pm) = true := by
        rw [List.any_eq_true]
        rintro ⟨e, inside, alters⟩
        rw [← @written_isSome entrySet hashConfig pm e] at alters
        obtain ⟨q, new⟩ := Option.isSome_iff_exists.mp alters
        have stored := none_ (key e)
        rw [news_key provision inside, new] at stored
        cases stored
      rw [if_neg quiet, same]
    · obtain ⟨e, inside, -, new⟩ := news_some there
      have alters : (early pm entries).any (changes hashConfig pm) = true := by
        rw [List.any_eq_true]
        exact ⟨e, inside, by rw [← @written_isSome entrySet hashConfig pm e, new]; rfl⟩
      rw [if_pos alters, members, changed.profiles, nothing, Option.none_or]
      exact mem_keys_iff.symm
  refine ⟨loaded, ?_, fun k => ?_, fun k => ?_⟩
  · rw [tmpprofile', changed.temporary, changed.tmpprofile]
    exact tmpprofile.symm
  · rw [profiles', profiles]
    cases new : news (written entrySet hashConfig pm) (early pm entries) k with
    | some q =>
      have listed : k ∈ stopped.vpnlist := by
        rcases lists with ⟨none_, -⟩ | ⟨-, members⟩
        · rw [none_] at new
          cases new
        · exact (members k).mpr ⟨q, by rw [changed.profiles, new, Option.some_or]⟩
      rw [if_pos ⟨listed, changed.name new⟩, changed.files, new, Option.some_or, Option.some_or]
    | none =>
      rw [Option.none_or, changed.files, new, Option.none_or]
      simp only [member k new]
  · rw [files', changed.files, files]

theorem applyEntries_changed (named : Named pm) (provision : Provision entrySet entries) :
    ∃ pm', entries.foldlM (applyEntry entrySet hashConfig) pm = .ok pm' ∧
      Changed (base hashConfig pm entries) pm' (news (stores entrySet hashConfig pm entries) entries) ∧
      (late pm entries ≠ [] → Synced pm') := by
  have whole := early_append_late pm entries
  obtain ⟨provision', others, apart⟩ := Provision.append (whole ▸ provision)
  obtain ⟨stopped, run, changed, lists⟩ := @applyEntries_steady entrySet hashConfig _ pm named provision'
    fun e member => .inr (early_present member)
  have first : news (written entrySet hashConfig pm) (early pm entries) =
      news (stores entrySet hashConfig pm entries) (early pm entries) :=
    news_congr fun e member => by rw [stores, seen, if_pos member]
  cases split : late pm entries with
  | nil =>
    have all := whole
    rw [split, List.append_nil] at all
    refine ⟨stopped, all ▸ run, ?_, fun some_ => absurd rfl some_⟩
    have same := first.trans (congrArg (news (stores entrySet hashConfig pm entries)) all)
    rw [base, if_pos split, ← same]
    exact changed
  | cons e rest =>
    have some_ : late pm entries ≠ [] := by simp [split]
    have untold : ∀ e' ∈ late pm entries, news (written entrySet hashConfig pm) (early pm entries) e'.uuid = none :=
      fun e' member => news_none fun e there => (uuid_ne_key (apart e there e' member)).symm
    have missing : present stopped e = false := by
      rw [present, changed.find (untold e (by simp [split]))]
      exact late_head split
    rw [split] at others
    obtain ⟨final, run', changed', synced⟩ :=
      @applyEntries_late entrySet hashConfig _ _ changed.named e others missing
    rw [List.singleton_append, ← split] at run' changed'
    have again := reread_changed named provision' changed lists
    have second : news (written entrySet hashConfig stopped.loadVPNList) (late pm entries) =
        news (stores entrySet hashConfig pm entries) (late pm entries) := by
      refine news_congr fun e' member => ?_
      have not_early : e' ∉ early pm entries := fun inside => apart e' inside e' member rfl
      rw [stores, seen, if_neg not_early, base, if_neg some_, written, written, again.find (untold e' member)]
    refine ⟨final, ?_, ?_, fun _ => synced⟩
    · rw [← whole, List.foldlM_append, run]
      exact run'
    · rw [base, if_neg some_]
      rw [second] at changed'
      rw [first] at again
      have together := funext (news_append apart (w := stores entrySet hashConfig pm entries))
      rw [← congrArg (news (stores entrySet hashConfig pm entries)) whole, ← together]
      exact again.trans changed'

/-! ### What is removed -/

def stale (provisionedUuids : List Text) (k : Text) (vp : Profile) : Bool :=
  isManaged vp && !provisionedUuids.contains k

private theorem removeOthers_lookups (named : Named pm) (provisionedUuids : List Text) :
    Named (removeOthers provisionedUuids pm) ∧ (Synced pm → Synced (removeOthers provisionedUuids pm)) ∧
      (removeOthers provisionedUuids pm).tmpprofile = pm.tmpprofile ∧
      ∀ k, (removeOthers provisionedUuids pm).profiles.lookup k =
          (if (pm.profiles.lookup k).any (stale provisionedUuids k) then none else pm.profiles.lookup k) ∧
        (removeOthers provisionedUuids pm).files.lookup k =
          if (pm.profiles.lookup k).any (stale provisionedUuids k) then none else pm.files.lookup k := by
  obtain ⟨final, keeps, temporary, lookups⟩ := removeProfiles named
    ((pm.profiles.entries.map Sigma.snd).filter fun vp => isManaged vp && !provisionedUuids.contains vp.getUUIDString)
  refine ⟨final, keeps, temporary, fun k => ?_⟩
  have removed : k ∈ ((pm.profiles.entries.map Sigma.snd).filter fun vp =>
        isManaged vp && !provisionedUuids.contains vp.getUUIDString).map (·.mUuid.toText) ↔
      (pm.profiles.lookup k).any (stale provisionedUuids k) = true := by
    simp only [List.mem_map, List.mem_filter, Option.any_eq_true]
    constructor
    · rintro ⟨vp, ⟨⟨⟨k', vp⟩, member, rfl⟩, out⟩, rfl⟩
      have present := AList.mem_lookup_iff.mpr member
      rw [named.own present] at present
      rw [getUUIDString_eq] at out
      exact ⟨vp, present, out⟩
    · rintro ⟨vp, present, out⟩
      have own := named.own present
      refine ⟨vp, ⟨⟨⟨k, vp⟩, AList.mem_lookup_iff.mp present, rfl⟩, ?_⟩, own.symm⟩
      rw [getUUIDString_eq, ← own]
      exact out
  have lookups := lookups k
  simp only [removed] at lookups
  exact lookups

/-- What is stored under a name when the list has been applied, where its entries have stored
this in such a store: a profile in the list stays when its entry gives the name as it is stored, or
in capital letters. -/
structure Applied (before : ProfileManager) (w : Entry → Option Profile) (entries : List Entry)
    (pm' : ProfileManager) :
    Prop where
  named : Named pm'
  tmpprofile : pm'.tmpprofile = before.tmpprofile
  listed : ∀ e ∈ entries, UUID.toLowerCase e.uuid = key e →
    pm'.profiles.lookup (key e) = (w e).or (before.profiles.lookup (key e)) ∧
      pm'.files.lookup (key e) = (w e).or (before.files.lookup (key e))
  lost : ∀ e ∈ entries, UUID.toLowerCase e.uuid ≠ key e →
    pm'.profiles.lookup (key e) = none ∧ pm'.files.lookup (key e) = none
  others : ∀ k, (∀ e ∈ entries, k ≠ key e) →
    pm'.profiles.lookup k = (if (before.profiles.lookup k).any isManaged then none else before.profiles.lookup k) ∧
      pm'.files.lookup k = if (before.profiles.lookup k).any isManaged then none else before.files.lookup k

theorem find_other (named : Named pm) {e : Entry} (other : e.uuid ≠ key e) : pm.find e.uuid = none := by
  have noText (u : UUID) : u.toText ≠ e.uuid := by
    intro same
    have lower : UUID.toLowerCase e.uuid = u.toText := by rw [← same, UuidTexts.toText_lower]
    exact other (same.symm.trans (key_of_text lower).symm)
  have stored : pm.profiles.lookup e.uuid = none := by
    cases present : pm.profiles.lookup e.uuid with
    | none => rfl
    | some p => exact absurd (named.own present).symm (noText p.mUuid)
  unfold ProfileManager.find
  cases pm.tmpprofile with
  | none => exact stored
  | some tmp =>
    simp only [getUUIDString_eq, if_neg (noText tmp.mUuid)]
    exact stored

theorem written_other (named : Named pm) {e : Entry} (other : e.uuid ≠ key e) :
    written entrySet hashConfig pm e = some (replacement entrySet hashConfig e none) := by
  rw [written, find_other named other]
  rfl

private theorem removeOthers_applied {before middle : ProfileManager} (provision : Provision entrySet entries)
    (own : ∀ {k p}, before.profiles.lookup k = some p → k = p.mUuid.toText)
    (changed : Changed before middle (news w entries))
    (lost : ∀ e ∈ entries, e.uuid ≠ key e → ∃ q, w e = some q ∧ isManaged q) :
    Applied before w entries (removeOthers (entries.map fun e => UUID.toLowerCase e.uuid) middle) := by
  obtain ⟨final, -, temporary, lookups⟩ :=
    removeOthers_lookups changed.named (entries.map fun e => UUID.toLowerCase e.uuid)
  refine ⟨final, temporary.trans changed.tmpprofile, ?_, ?_, ?_⟩
  · intro e member lower
    have provisioned : key e ∈ entries.map fun e => UUID.toLowerCase e.uuid := List.mem_map.mpr ⟨e, member, lower⟩
    have stays : ¬ (middle.profiles.lookup (key e)).any
        (stale (entries.map fun e => UUID.toLowerCase e.uuid) (key e)) = true := by
      rw [Option.any_eq_true]
      rintro ⟨p, -, out⟩
      simp [stale, provisioned] at out
    obtain ⟨profiles, files⟩ := lookups (key e)
    rw [profiles, files, if_neg stays, if_neg stays, changed.profiles, changed.files, news_key provision member]
    exact ⟨rfl, rfl⟩
  · intro e member other
    have apart : e.uuid ≠ key e := fun same => other (by rw [same]; exact UuidTexts.toText_lower (target e))
    have absent : key e ∉ entries.map fun e => UUID.toLowerCase e.uuid := by
      intro inside
      obtain ⟨e', member', lower⟩ := List.mem_map.mp inside
      have same := key_injective provision member' member (key_of_text lower)
      exact other (same ▸ lower)
    obtain ⟨q, stores, managed⟩ := lost e member apart
    have there : middle.profiles.lookup (key e) = some q := by
      rw [changed.profiles, news_key provision member, stores, Option.some_or]
    obtain ⟨profiles, files⟩ := lookups (key e)
    rw [profiles, files, there]
    simp [stale, managed, absent]
  · intro k unlisted
    obtain ⟨profiles, files⟩ := lookups k
    have nothing : news w entries k = none := news_none fun e member => (unlisted e member).symm
    have kept : middle.profiles.lookup k = before.profiles.lookup k := by
      rw [changed.profiles, nothing, Option.none_or]
    have out : (before.profiles.lookup k).any (stale (entries.map fun e => UUID.toLowerCase e.uuid) k) =
        (before.profiles.lookup k).any isManaged := by
      cases present : before.profiles.lookup k with
      | none => rfl
      | some p =>
        have absent : k ∉ entries.map fun e => UUID.toLowerCase e.uuid := by
          intro inside
          obtain ⟨e, member, lower⟩ := List.mem_map.mp inside
          rw [own present] at lower
          exact unlisted e member ((own present).trans (key_of_text lower).symm)
        simp [stale, absent]
    rw [profiles, files, kept, out, changed.files, nothing, Option.none_or]
    exact ⟨rfl, rfl⟩

/-! ### The list applied -/

private theorem base_named (named : Named pm) (entries : List Entry) : Named (base hashConfig pm entries) := by
  unfold base
  split
  · exact named
  · exact (reread_spec named entries).1

theorem base_files (named : Named pm) (entries : List Entry) (k : Text) :
    (base hashConfig pm entries).files.lookup k = pm.files.lookup k := by
  unfold base
  split
  · rfl
  · rw [(reread_spec named entries).2.1]

theorem seen_named (named : Named pm) (entries : List Entry) (e : Entry) : Named (seen hashConfig pm entries e) := by
  unfold seen
  split
  · exact named
  · exact base_named named entries

private theorem applyRestrictions_eq {restrictions : Restrictions} {profileList : List Bundle}
    (version : JavaText.parseInt restrictions.version = some CONFIG_VERSION)
    (list : restrictions.vpn_configuration_list = some profileList) {middle : ProfileManager}
    (run : (profileList.filterMap Bundle.entry).foldlM (applyEntry entrySet hashConfig) pm = .ok middle) :
    applyRestrictions entrySet hashConfig restrictions pm = .ok
      (removeOthers ((profileList.filterMap Bundle.entry).map fun e => UUID.toLowerCase e.uuid) middle) := by
  unfold applyRestrictions
  rw [if_neg (not_not.mpr version), list]
  simp only [run]
  rfl

variable {restrictions : Restrictions} {profileList : List Bundle}

theorem applyRestrictions_applied (version : JavaText.parseInt restrictions.version = some CONFIG_VERSION)
    (list : restrictions.vpn_configuration_list = some profileList)
    (provision : Provision entrySet (profileList.filterMap Bundle.entry)) (named : Named pm) :
    ∃ pm', applyRestrictions entrySet hashConfig restrictions pm = .ok pm' ∧
      Applied (base hashConfig pm (profileList.filterMap Bundle.entry))
        (stores entrySet hashConfig pm (profileList.filterMap Bundle.entry))
          (profileList.filterMap Bundle.entry) pm' ∧
      (late pm (profileList.filterMap Bundle.entry) ≠ [] → Synced pm') := by
  obtain ⟨middle, run, changed, synced⟩ := @applyEntries_changed entrySet hashConfig _ pm named provision
  have based := @base_named hashConfig pm named (profileList.filterMap Bundle.entry)
  refine ⟨_, applyRestrictions_eq version list run, removeOthers_applied provision based.own changed ?_, ?_⟩
  · intro e _ other
    have new : stores entrySet hashConfig pm (profileList.filterMap Bundle.entry) e = _ :=
      written_other (seen_named named (profileList.filterMap Bundle.entry) e) other
    exact ⟨_, new, (stored_some new).1⟩
  · intro some_
    exact (removeOthers_lookups changed.named _).2.1 (synced some_)

theorem applyRestrictions_steady (version : JavaText.parseInt restrictions.version = some CONFIG_VERSION)
    (list : restrictions.vpn_configuration_list = some profileList)
    (provision : Provision entrySet (profileList.filterMap Bundle.entry)) (named : Named pm)
    (steady : ∀ e ∈ profileList.filterMap Bundle.entry, Synced pm ∨ present pm e = true) :
    ∃ pm', applyRestrictions entrySet hashConfig restrictions pm = .ok pm' ∧
      Applied pm (written entrySet hashConfig pm) (profileList.filterMap Bundle.entry) pm' := by
  obtain ⟨middle, run, changed, -⟩ := @applyEntries_steady entrySet hashConfig _ pm named provision steady
  refine ⟨_, applyRestrictions_eq version list run, removeOthers_applied provision named.own changed ?_⟩
  exact fun e _ other => ⟨_, written_other named other, (stored_some (written_other named other)).1⟩

end Apply

end RRoadVpn.Proofs.AppliedRestrictions
