import RRoadVpn.AllowedApps

/-! Packages of the profile that are not installed any more. They are removed from the set
that is being traversed. -/

namespace RRoadVpn.Proofs.UninstalledApps
open Library AllowedApps
open JavaText (Text)

variable (packages : Packages)

/-! ### A turn -/

section Turn

variable (s : State) (pkg : Text)

private theorem addPackage_elements (other : Text) :
    other ∈ (addPackage packages false s pkg).profile.mAllowedAppsVpn.elements ↔
      other ∈ s.profile.mAllowedAppsVpn.elements ∧ (other = pkg → packages.installed other = true) := by
  have forgets : packages.installed pkg = false → (other ∈ (s.forget pkg).profile.mAllowedAppsVpn.elements ↔
      other ∈ s.profile.mAllowedAppsVpn.elements ∧ (other = pkg → packages.installed other = true)) := by
    intro missing
    rw [State.forget, State.log, CountedSet.mem_remove, and_comm]
    refine and_congr_right fun _ => ⟨fun apart same => absurd same apart, ?_⟩
    rintro found rfl
    rw [found rfl] at missing
    cases missing
  have stays : packages.installed pkg = true → (other ∈ s.profile.mAllowedAppsVpn.elements ↔
      other ∈ s.profile.mAllowedAppsVpn.elements ∧ (other = pkg → packages.installed other = true)) :=
    fun found => ⟨fun member => ⟨member, fun same => same ▸ found⟩, And.left⟩
  cases found : packages.installed pkg <;> cases mode : s.profile.mAllowedAppsVpnAreDisallowed <;>
    simp [addPackage, found, mode, ← stays, ← forgets]

/-- A package that is installed leaves the set as it was; one that is not is a change of it. -/
theorem addPackage_changes : (packages.installed pkg = true →
      (addPackage packages false s pkg).profile.mAllowedAppsVpn.changes = s.profile.mAllowedAppsVpn.changes) ∧
    (packages.installed pkg = false → pkg ∈ s.profile.mAllowedAppsVpn.elements →
      (addPackage packages false s pkg).profile.mAllowedAppsVpn.changes = s.profile.mAllowedAppsVpn.changes + 1) := by
  constructor
  · intro found
    cases mode : s.profile.mAllowedAppsVpnAreDisallowed <;> simp [addPackage, found, mode]
  · intro missing member
    have changed := CountedSet.remove_changes member
    cases mode : s.profile.mAllowedAppsVpnAreDisallowed <;> simp [addPackage, missing, mode, State.forget, State.log,
      changed]

theorem addPackage_given :
    (addPackage packages false s pkg).profile.mAllowedAppsVpnAreDisallowed = s.profile.mAllowedAppsVpnAreDisallowed ∧
    (addPackage packages false s pkg).disallowed =
      s.disallowed ++ (if s.profile.mAllowedAppsVpnAreDisallowed then [pkg].filter packages.installed else []) ∧
    (addPackage packages false s pkg).allowed =
      s.allowed ++ (if s.profile.mAllowedAppsVpnAreDisallowed then [] else [pkg].filter packages.installed) ∧
    (addPackage packages false s pkg).atLeastOneAllowedApp =
      (s.atLeastOneAllowedApp || !s.profile.mAllowedAppsVpnAreDisallowed && packages.installed pkg) := by
  cases found : packages.installed pkg <;> cases mode : s.profile.mAllowedAppsVpnAreDisallowed <;>
    simp [addPackage, found, mode, State.forget, State.log]

end Turn

/-! ### The loop -/

section Loop

variable (l : List Text) (s : State)

private theorem loop_elements (other : Text) :
    other ∈ (l.foldl (addPackage packages false) s).profile.mAllowedAppsVpn.elements ↔
      other ∈ s.profile.mAllowedAppsVpn.elements ∧ (other ∈ l → packages.installed other = true) := by
  induction l generalizing s with
  | nil => simp
  | cons pkg l ih =>
    rw [List.foldl_cons, ih, addPackage_elements, and_assoc, List.mem_cons, or_imp]

private theorem loop_given :
    let s' := l.foldl (addPackage packages false) s
    s'.profile.mAllowedAppsVpnAreDisallowed = s.profile.mAllowedAppsVpnAreDisallowed ∧
    s'.disallowed =
      s.disallowed ++ (if s.profile.mAllowedAppsVpnAreDisallowed then l.filter packages.installed else []) ∧
    s'.allowed = s.allowed ++ (if s.profile.mAllowedAppsVpnAreDisallowed then [] else l.filter packages.installed) ∧
    s'.atLeastOneAllowedApp =
      (s.atLeastOneAllowedApp || !s.profile.mAllowedAppsVpnAreDisallowed && l.any packages.installed) := by
  induction l generalizing s with
  | nil => simp
  | cons pkg l ih =>
    obtain ⟨mode, disallowed, allowed, atLeastOne⟩ := addPackage_given packages s pkg
    obtain ⟨mode', disallowed', allowed', atLeastOne'⟩ := ih (addPackage packages false s pkg)
    simp only [List.foldl_cons, mode', disallowed', allowed', atLeastOne', mode, disallowed, allowed, atLeastOne]
    cases s.profile.mAllowedAppsVpnAreDisallowed <;> simp [← List.filter_append, Bool.or_assoc]

end Loop

/-- The packages that are still to be visited are in the set. -/
def Waiting (l : List Text) (s : State) : Prop := ∀ pkg ∈ l, pkg ∈ s.profile.mAllowedAppsVpn.elements

private theorem steady (pkg : Text) (rest : List Text) (s : State) (waiting : Waiting (pkg :: rest) s)
    (found : packages.installed pkg = true) : Waiting rest (addPackage packages false s pkg) ∧
      (addPackage packages false s pkg).profile.mAllowedAppsVpn.changes = s.profile.mAllowedAppsVpn.changes := by
  refine ⟨fun other member => ?_, (addPackage_changes packages s pkg).1 found⟩
  rw [addPackage_elements]
  exact ⟨waiting other (List.mem_cons_of_mem pkg member), fun same => same ▸ found⟩

private theorem moves (pkg : Text) (rest : List Text) (s : State) (waiting : Waiting (pkg :: rest) s)
    (missing : ¬ packages.installed pkg = true) :
    (addPackage packages false s pkg).profile.mAllowedAppsVpn.changes ≠ s.profile.mAllowedAppsVpn.changes := by
  rw [(addPackage_changes packages s pkg).2 (Bool.eq_false_iff.mpr missing) (waiting pkg (List.mem_cons_self ..))]
  exact Nat.succ_ne_self _

/-! ### Main result -/

variable (profile : Profile)

def Installed (pkg : Text) : Prop := pkg ∈ profile.mAllowedAppsVpn.elements ∧ packages.installed pkg = true

/-- The set-up completes, gives the builder the installed packages, and leaves them in the set. -/
def Tolerates : Prop :=
  ∃ s, setAllowedVpnPackages packages profile = some s ∧
    (∀ pkg, pkg ∈ s.profile.mAllowedAppsVpn.elements ↔ Installed packages profile pkg) ∧
    (profile.mAllowedAppsVpnAreDisallowed = true → s.allowed = [] ∧
      ∀ pkg, pkg ∈ s.disallowed ↔ Installed packages profile pkg) ∧
    (profile.mAllowedAppsVpnAreDisallowed = false → s.disallowed = [] ∧
      ∀ pkg, pkg ∈ s.allowed ↔ Installed packages profile pkg ∨
        pkg = packages.packageName ∧ ∀ other, ¬ Installed packages profile other)

variable {profile}

private theorem setAllowedVpnPackages_direct (direct : usesOrBot profile = false) :
    setAllowedVpnPackages packages profile =
    (traverse (·.profile.mAllowedAppsVpn.changes) (addPackage packages false) profile.mAllowedAppsVpn.changes
      profile.mAllowedAppsVpn.elements { profile }).map (addOwn packages) := by
  simp only [setAllowedVpnPackages, direct, addOrbot, Bool.and_false, Bool.false_eq_true, if_false,
    Option.bind_eq_bind,
    Option.pure_def]
  exact Option.map_eq_bind.symm

private theorem addOwn_given (s : State) : (addOwn packages s).profile = s.profile ∧
    (addOwn packages s).disallowed = s.disallowed ∧
    (addOwn packages s).allowed = s.allowed ++
      (if s.profile.mAllowedAppsVpnAreDisallowed = false ∧ s.atLeastOneAllowedApp = false ∧
        packages.installed packages.packageName = true then [packages.packageName] else []) := by
  cases mode : s.profile.mAllowedAppsVpnAreDisallowed <;> cases allowed : s.atLeastOneAllowedApp <;>
    cases own : packages.installed packages.packageName <;> simp [addOwn, mode, allowed, own, State.log]

theorem looped_elements (pkg : Text) : pkg ∈ (profile.mAllowedAppsVpn.elements.foldl (addPackage packages false)
    { profile }).profile.mAllowedAppsVpn.elements ↔ Installed packages profile pkg := by
  rw [loop_elements, Installed]
  exact and_congr_right fun member => ⟨fun found => found member, fun found _ => found⟩

private theorem any_installed : profile.mAllowedAppsVpn.elements.any packages.installed = false ↔
    ∀ pkg, ¬ Installed packages profile pkg := by
  simp [Installed]

/-- The packages that are allowed, with the app's own one where there would be none. -/
theorem allowed_exact (allowed : List Text)
    (given : allowed = profile.mAllowedAppsVpn.elements.filter packages.installed ++
      (if profile.mAllowedAppsVpn.elements.any packages.installed = false ∧
        packages.installed packages.packageName = true then [packages.packageName] else [])) :
    (∀ pkg, pkg ∈ allowed ↔ Installed packages profile pkg ∨
      pkg = packages.packageName ∧ ∀ other, ¬ Installed packages profile other) ↔
    (∃ pkg, Installed packages profile pkg) ∨ packages.installed packages.packageName = true := by
  have member (pkg : Text) : pkg ∈ allowed ↔ Installed packages profile pkg ∨
      (∀ other, ¬ Installed packages profile other) ∧
      packages.installed packages.packageName = true ∧ pkg = packages.packageName := by
    rw [given, List.mem_append, List.mem_filter, ← any_installed]
    refine or_congr Iff.rfl ?_
    split
    next own => simp [own]
    next own =>
      refine iff_of_false List.not_mem_nil ?_
      rintro ⟨none_, found, -⟩
      exact own ⟨none_, found⟩
  simp only [member]
  constructor
  · intro each
    by_contra neither
    obtain ⟨none_, missing⟩ := not_or.mp neither
    have own := (each packages.packageName).mpr (Or.inr ⟨rfl, not_exists.mp none_⟩)
    rcases own with found | ⟨-, found, -⟩
    · exact none_ ⟨_, found⟩
    · exact missing found
  · rintro (⟨pkg, found⟩ | found) other
    · exact or_congr Iff.rfl ⟨fun own => absurd found (own.1 pkg), fun own => absurd found (own.2 pkg)⟩
    · exact or_congr Iff.rfl ⟨fun own => ⟨own.2.2, own.1⟩, fun own => ⟨own.2, found, own.1⟩⟩

/-- The set-up tolerates packages that are not installed exactly when none but the last one of
the iteration is missing, and the app's own package is there in case it is needed. -/
theorem tolerates_exact (direct : ∀ c ∈ profile.mConnections, c.mProxyType ≠ .ORBOT) : Tolerates packages profile ↔
    (∀ pkg ∈ profile.mAllowedAppsVpn.elements.dropLast, packages.installed pkg = true) ∧
      (profile.mAllowedAppsVpnAreDisallowed = true ∨ (∃ pkg, Installed packages profile pkg) ∨
        packages.installed packages.packageName = true) := by
  have plain : usesOrBot profile = false := by simpa [usesOrBot] using direct
  have waiting : Waiting profile.mAllowedAppsVpn.elements { profile } := fun pkg member => member
  rw [Tolerates, setAllowedVpnPackages_direct packages plain]
  by_cases each : ∀ pkg ∈ profile.mAllowedAppsVpn.elements.dropLast, packages.installed pkg = true
  · rw [traverse_completes (steady packages) waiting each, iff_true_intro each, true_and]
    obtain ⟨mode, disallowed, allowed, atLeastOne⟩ := loop_given packages profile.mAllowedAppsVpn.elements { profile }
    obtain ⟨kept, disallowed', allowed'⟩ := addOwn_given packages
      (profile.mAllowedAppsVpn.elements.foldl (addPackage packages false) { profile })
    simp only [Option.map_some, Option.some.injEq, exists_eq_left', kept, disallowed', allowed', looped_elements,
      implies_true,
      true_and, mode, disallowed, allowed, atLeastOne, List.nil_append, Bool.false_or]
    have own := @allowed_exact packages profile _ rfl
    cases profile.mAllowedAppsVpnAreDisallowed with
    | true => simp [Installed]
    | false =>
      simpa only [Bool.false_eq_true, false_imp_iff, if_false, true_and, Bool.not_false, Bool.true_and, forall_const,
        false_or] using own
  · rw [traverse_fails (steady packages) (moves packages) waiting each, Option.map_none]
    constructor
    · rintro ⟨s, impossible, -⟩
      cases impossible
    · exact fun conditions => absurd conditions.1 each

/-- Two packages of which the second one is not installed. -/
theorem tolerates_exact_last : Tolerates ⟨(· == ['a']), ['o']⟩ ⟨[], ⟨[['a'], ['b']], 0, by decide⟩, false⟩ :=
  (tolerates_exact ⟨(· == ['a']), ['o']⟩ (List.forall_mem_nil _)).mpr
    ⟨by simp, Or.inr (Or.inl ⟨['a'], by simp [Installed]⟩)⟩

/-- The same packages in the other order of iteration. -/
theorem first_package_throws :
    (setAllowedVpnPackages ⟨(· == ['a']), ['o']⟩ ⟨[], ⟨[['b'], ['a']], 0, by decide⟩, false⟩).isNone = true ∧
      ¬ Tolerates ⟨(· == ['a']), ['o']⟩ ⟨[], ⟨[['b'], ['a']], 0, by decide⟩, false⟩ := by
  have throws : setAllowedVpnPackages ⟨(· == ['a']), ['o']⟩ ⟨[], ⟨[['b'], ['a']], 0, by decide⟩, false⟩ = none := rfl
  refine ⟨rfl, ?_⟩
  rintro ⟨s, completes, -⟩
  rw [throws] at completes
  cases completes

end RRoadVpn.Proofs.UninstalledApps
