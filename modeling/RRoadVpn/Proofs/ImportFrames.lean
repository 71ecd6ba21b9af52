import RRoadVpn.Proofs.ImportSteps

/-! What the steps of an import leave alone in the profile. -/

namespace RRoadVpn.Proofs.ImportFrames
open RRoadVpn.Library RRoadVpn.ConfigParser RRoadVpn.Proofs.ImportSteps
open JavaText (Text)

variable {γ δ : Type}

def Frames (observe : δ → γ) (pass : δ → Import δ) : Prop :=
  ∀ np options final rest, pass np options = .ok (final, rest) → observe final = observe np

private theorem option_frames {observe : δ → γ} {name : String} {minarg maxarg : Nat} {set : δ → Args → δ}
    (kept : ∀ np args, observe (set np args) = observe np) : Frames observe (option name minarg maxarg set) := by
  intro np options final rest done
  obtain ⟨found, middle, -, same⟩ := stateBind_ok.mp done
  obtain ⟨rfl, -⟩ := statePure_ok.mp same
  cases found with
  | none => rfl
  | some args => exact kept np args

private theorem checkedOption_frames {observe : δ → γ} {name : String} {minarg maxarg : Nat}
    {set : δ → Args → Except ImportError δ}
    (kept : ∀ np args final, set np args = .ok final → observe final = observe np) :
    Frames observe (checkedOption name minarg maxarg set) := by
  intro np options final rest done
  obtain ⟨found, middle, -, done⟩ := stateBind_ok.mp done
  cases found with
  | none =>
    obtain ⟨rfl, -⟩ := statePure_ok.mp done
    rfl
  | some args => exact kept np args final (checked_ok.mp done).1

private theorem allOptions_frames {observe : δ → γ} {name : String} {minarg maxarg : Nat}
    {set : δ → List Args → Except ImportError δ}
    (kept : ∀ np lines final, set np lines = .ok final → observe final = observe np) :
    Frames observe (allOptions name minarg maxarg set) := by
  intro np options final rest done
  obtain ⟨found, middle, -, done⟩ := stateBind_ok.mp done
  cases found with
  | none =>
    obtain ⟨rfl, -⟩ := statePure_ok.mp done
    rfl
  | some lines => exact kept np lines final (checked_ok.mp done).1

private theorem runPasses_frames {observe : δ → γ} {passes : List (δ → Import δ)}
    (each : ∀ pass ∈ passes, Frames observe pass) :
    Frames observe (runPasses passes) :=
  fun _ _ _ _ run => runPasses_observe observe (fun pass member => each pass member) run

theorem foldl_kept {α β : Type} {observe : β → γ} {f : β → α → β} (kept : ∀ b a, observe (f b a) = observe b)
    (l : List α) (b : β) :
    observe (l.foldl f b) = observe b := by
  induction l generalizing b with
  | nil => rfl
  | cons a l ih => exact (ih (f b a)).trans (kept b a)

private theorem dev_frames (observe : Draft → γ) : Frames observe dev := by
  intro np options final rest done
  obtain ⟨_, _, -, done⟩ := stateBind_ok.mp done
  obtain ⟨_, _, -, done⟩ := stateBind_ok.mp done
  split at done
  · obtain ⟨rfl, -⟩ := statePure_ok.mp done
    rfl
  · cases (checked_ok.mp done).1

/-! ### Settings -/

/-- The settings that have few passes of their own. -/
structure Carried where
  mAlias : Option Text
  mServerName : Text
  mCustomRoutes : Option Text
  mExcludedRoutes : Option Text
  mUseDefaultRoute : Bool
  mOverrideDNS : Bool
  mDNS1 : Text
  mDNS2 : Text
  mCheckRemoteCN : Bool
  mRemoteCN : Text
  mX509AuthType : X509AuthType
  mExpectTLSCert : Bool
  mCrlFilename : Option Text
  mCustomConfigOptions : Text

def carried (p : VpnProfile) : Carried where
  mAlias := p.mAlias
  mServerName := p.mServerName
  mCustomRoutes := p.mCustomRoutes
  mExcludedRoutes := p.mExcludedRoutes
  mUseDefaultRoute := p.mUseDefaultRoute
  mOverrideDNS := p.mOverrideDNS
  mDNS1 := p.mDNS1
  mDNS2 := p.mDNS2
  mCheckRemoteCN := p.mCheckRemoteCN
  mRemoteCN := p.mRemoteCN
  mX509AuthType := p.mX509AuthType
  mExpectTLSCert := p.mExpectTLSCert
  mCrlFilename := p.mCrlFilename
  mCustomConfigOptions := p.mCustomConfigOptions

def draftCarried (np : Draft) : Carried := carried np.toVpnProfile

private theorem tlsauth_carried (np : Draft) (line : Args) : draftCarried (tlsauth np line) = draftCarried np := by
  unfold tlsauth
  split <;> split <;> rfl

private theorem authuser_carried (np : Draft) (line : Args) : draftCarried (authuser np line) = draftCarried np := by
  unfold authuser
  by_cases file : line.length > 1
  · rw [if_pos file]
    by_cases inside : VpnProfile.INLINE_TAG <+: arg line 1 <;> simp only [inside, if_true, if_false] <;>
      cases userAuth (arg line 1) <;> rfl
  · rw [if_neg file]
    rfl

private theorem mssfix_carried (np : Draft) (line : Args) (final : Draft) (set : mssfix np line = .ok final) :
    draftCarried final = draftCarried np := by
  unfold mssfix intArgument at set
  split at set
  · cases read : JavaText.parseInt (arg line 1) <;> simp only [read] at set <;> cases set
    rfl
  · cases set
    rfl

private theorem tunmtu_carried (np : Draft) (line : Args) (final : Draft) (set : tunmtu np line = .ok final) :
    draftCarried final = draftCarried np := by
  unfold tunmtu intArgument at set
  cases read : JavaText.parseInt (arg line 1) <;> simp only [read] at set <;> cases set
  rfl

private theorem mode_carried (np : Draft) (line : Args) (final : Draft) (set : mode np line = .ok final) :
    draftCarried final = draftCarried np := by
  unfold mode at set
  split at set <;> cases set
  rfl

private theorem ifconfig_carried (np : Draft) (line : Args) (final : Draft) (set : ifconfig np line = .ok final) :
    draftCarried final = draftCarried np := by
  unfold ifconfig at set
  split at set <;> cases set
  rfl

private theorem authretry_carried (np : Draft) (line : Args) (final : Draft) (set : authretry np line = .ok final) :
    draftCarried final = draftCarried np := by
  unfold authretry at set
  repeat' split at set
  all_goals cases set
  all_goals rfl

theorem settings_carried : ∀ pass ∈ settings.take 2 ++ ((settings.drop 3).take 5 ++ ((settings.drop 9).take 5 ++
      ((settings.drop 15).take 11 ++ ((settings.drop 28).take 7 ++ (settings.drop 36).take 2)))),
      Frames draftCarried pass := by
  have client : Frames draftCarried fun np => do
      let client ← removeOption "client"
      let pull ← removeOption "pull"
      return if client || pull then { np with mUsePull := true } else np := by
    intro np options final rest done
    obtain ⟨client, _, -, done⟩ := stateBind_ok.mp done
    obtain ⟨pull, _, -, done⟩ := stateBind_ok.mp done
    obtain ⟨rfl, -⟩ := statePure_ok.mp done
    split <;> rfl
  have all {name : String} {minarg maxarg : Nat} {set : Draft → List Args → Draft}
      (kept : ∀ np lines, draftCarried (set np lines) = draftCarried np) :
      Frames draftCarried (allOptions name minarg maxarg fun np lines => .ok (set np lines)) :=
    allOptions_frames fun np lines final done => by cases done; exact kept np lines
  simp only [settings, List.drop_succ_cons, List.drop_zero, List.take_succ_cons, List.take_zero, List.cons_append,
    List.nil_append, List.forall_mem_cons]
  refine ⟨client, ?_⟩
  repeat' apply And.intro
  all_goals first
    | exact option_frames fun _ _ => rfl
    | exact all fun _ _ => rfl
    | exact all fun np lines => foldl_kept tlsauth_carried lines np
    | exact dev_frames _
    | exact checkedOption_frames mssfix_carried
    | exact checkedOption_frames tunmtu_carried
    | exact checkedOption_frames mode_carried
    | exact checkedOption_frames ifconfig_carried
    | exact option_frames authuser_carried
    | exact checkedOption_frames authretry_carried
    | exact List.forall_mem_nil _

section Observe

variable {observe : Carried → γ}

theorem Frames.of_carried {pass : Draft → Import Draft} (frames : Frames draftCarried pass) :
    Frames (fun np => observe (draftCarried np)) pass :=
  fun np options final rest done => congrArg observe (frames np options final rest done)

theorem routes_frames
    (free : ∀ c routes excluded, observe { c with mCustomRoutes := routes, mExcludedRoutes := excluded } =
    observe c) :
    Frames (fun np => observe (draftCarried np)) (allOptions "route" 1 4 routes) := by
  refine allOptions_frames fun np lines final done => ?_
  unfold routes at done
  cases read : lines.mapM route with
  | error e =>
    rw [read] at done
    cases done
  | ok cidrs =>
    rw [read] at done
    cases done
    exact free (draftCarried np) _ _

theorem redirect_frames (free : ∀ c flag, observe { c with mUseDefaultRoute := flag } = observe c) :
    Frames (fun np => observe (draftCarried np)) (allOptions "redirect-gateway" 0 7 fun np defgw =>
      .ok (checkRedirectParameters np defgw)) := by
  refine allOptions_frames fun np lines final done => ?_
  cases done
  have parameters : draftCarried ((lines.flatMap List.tail).foldl redirectParameter np) = draftCarried np := by
    refine foldl_kept (fun np parameter => ?_) _ np
    unfold redirectParameter
    repeat' split
    all_goals rfl
  unfold checkRedirectParameters
  simp only
  split
  · rw [parameters]
  · exact (free (draftCarried _) true).trans (congrArg observe parameters)

theorem dhcpoption_frames (free : ∀ c override dns1 dns2,
      observe { c with mOverrideDNS := override, mDNS1 := dns1, mDNS2 := dns2 } = observe c) :
    Frames (fun np => observe (draftCarried np)) (allOptions "dhcp-option" 2 2 fun np dhcpoptions =>
      .ok (dhcpoptions.foldl dhcpoption np)) := by
  refine allOptions_frames fun np lines final done => ?_
  cases done
  refine @foldl_kept _ _ _ (fun np => observe (draftCarried np)) _ (fun np line => ?_) lines np
  unfold dhcpoption
  split
  · rfl
  · split
    · split
      · exact free (draftCarried np) true _ np.mDNS2
      · exact free (draftCarried np) true np.mDNS1 _
    · rfl

private theorem tlsremote_frames (free : ∀ c check name type,
      observe { c with mCheckRemoteCN := check, mRemoteCN := name, mX509AuthType := type } = observe c) :
    Frames (fun np => observe (draftCarried np)) tlsremote := by
  intro np options final rest done
  obtain ⟨compatnames, _, -, done⟩ := stateBind_ok.mp done
  obtain ⟨nonameremapping, _, -, done⟩ := stateBind_ok.mp done
  obtain ⟨line, _, -, done⟩ := stateBind_ok.mp done
  cases line with
  | none =>
    obtain ⟨rfl, -⟩ := statePure_ok.mp done
    rfl
  | some line =>
    obtain ⟨rfl, -⟩ := statePure_ok.mp done
    split
    · exact free (draftCarried np) true _ _
    · exact free (draftCarried np) true _ _

private theorem verifyx509name_frames (free : ∀ c check name type,
      observe { c with mCheckRemoteCN := check, mRemoteCN := name, mX509AuthType := type } = observe c) :
    Frames (fun np => observe (draftCarried np)) (checkedOption "verify-x509-name" 1 2 verifyx509name) := by
  refine checkedOption_frames fun np line final done => ?_
  unfold verifyx509name at done
  simp only at done
  repeat' split at done
  all_goals cases done
  all_goals exact free (draftCarried np) true _ _

private theorem remotetls_frames (free : ∀ c flag, observe { c with mExpectTLSCert := flag } = observe c) :
    Frames (fun np => observe (draftCarried np)) remotetls := by
  intro np options final rest done
  obtain ⟨lines, _, -, done⟩ := stateBind_ok.mp done
  cases lines with
  | none =>
    obtain ⟨rfl, -⟩ := statePure_ok.mp done
    rfl
  | some lines =>
    simp only at done
    split at done
    · obtain ⟨rfl, -⟩ := statePure_ok.mp done
      exact free (draftCarried np) true
    · obtain ⟨-, _, -, done⟩ := stateBind_ok.mp done
      obtain ⟨rfl, -⟩ := statePure_ok.mp done
      rfl

private theorem crlfile_frames
    (free : ∀ c file options, observe { c with mCrlFilename := file, mCustomConfigOptions := options } = observe c) :
    Frames (fun np => observe (draftCarried np)) (option "crl-verify" 1 2 crlfile) := by
  refine option_frames fun np line => ?_
  unfold crlfile
  split
  · exact free (draftCarried np) np.mCrlFilename _
  · exact free (draftCarried np) _ np.mCustomConfigOptions

end Observe

/-! ### The import -/

variable (entrySet : EntrySet)

private theorem connections_carried : Frames draftCarried (connections entrySet) := by
  intro np options final rest done
  obtain ⟨conns, _, -, done⟩ := stateBind_ok.mp done
  obtain ⟨blocks, _, -, done⟩ := stateBind_ok.mp done
  cases blocks with
  | none =>
    obtain ⟨rfl, -⟩ := statePure_ok.mp done
    rfl
  | some blocks =>
    simp only at done
    split at done
    · cases (checked_ok.mp done).1
    · obtain ⟨connections, _, -, done⟩ := stateBind_ok.mp done
      obtain ⟨rfl, -⟩ := statePure_ok.mp done
      rfl

private theorem protoforce_carried (np : Draft) (line : Args) (final : Draft) (set : protoforce np line = .ok final) :
    draftCarried final = draftCarried np := by
  unfold protoforce at set
  simp only at set
  repeat' split at set
  all_goals cases set
  all_goals rfl

theorem others_carried : ∀ pass ∈ (steps entrySet).drop 39, Frames draftCarried pass := by
  have behind : (steps entrySet).drop 39 = [connections entrySet, option "remote-random" 0 0 fun np _ =>
      { np with mRemoteRandom := true },
      checkedOption "proto-force" 1 1 protoforce] := rfl
  rw [behind]
  simp only [List.forall_mem_cons]
  exact ⟨connections_carried entrySet, option_frames fun _ _ => rfl, checkedOption_frames protoforce_carried,
    List.forall_mem_nil _⟩

private theorem checkIgnore_frames {observe : Carried → γ}
    (free : ∀ c options, observe { c with mCustomConfigOptions := options } = observe c) :
    Frames (fun np => observe (draftCarried np)) (checkIgnoreAndInvalidOptions entrySet) := by
  intro np options final rest done
  unfold checkIgnoreAndInvalidOptions at done
  split at done
  · cases done
  · simp only at done
    split at done
    · cases done
      rfl
    · cases done
      exact free (draftCarried np) _

theorem settings_split : settings = settings.take 2 ++ allOptions "route" 1 4 routes :: ((settings.drop 3).take 5 ++
    (allOptions "redirect-gateway" 0 7 fun np defgw => .ok (checkRedirectParameters np defgw)) ::
      ((settings.drop 9).take 5 ++ (allOptions "dhcp-option" 2 2 fun np dhcpoptions =>
        .ok (dhcpoptions.foldl dhcpoption np)) :: settings.drop 15)) := rfl

theorem plain_frames (observe : Carried → γ) :
    (∀ pass ∈ settings.take 2, Frames (fun np => observe (draftCarried np)) pass) ∧
      (∀ pass ∈ (settings.drop 3).take 5, Frames (fun np => observe (draftCarried np)) pass) ∧
        ∀ pass ∈ (settings.drop 9).take 5, Frames (fun np => observe (draftCarried np)) pass := by
  have others := fun pass member => @Frames.of_carried _ observe pass (settings_carried pass member)
  simp only [List.forall_mem_append] at others
  obtain ⟨first, second, third, -, -, -⟩ := others
  exact ⟨first, second, third⟩

theorem later_frames {observe : Carried → γ}
    (name : ∀ c check name type,
      observe { c with mCheckRemoteCN := check, mRemoteCN := name, mX509AuthType := type } = observe c)
    (usage : ∀ c flag, observe { c with mExpectTLSCert := flag } = observe c)
    (crl : ∀ c file options, observe { c with mCrlFilename := file, mCustomConfigOptions := options } = observe c) :
    ∀ pass ∈ settings.drop 15, Frames (fun np => observe (draftCarried np)) pass := by
  have others := fun pass member => @Frames.of_carried _ observe pass (settings_carried pass member)
  simp only [List.forall_mem_append] at others
  obtain ⟨-, -, -, fourth, fifth, sixth⟩ := others
  have split : settings.drop 15 = (settings.drop 15).take 11 ++
      tlsremote :: checkedOption "verify-x509-name" 1 2 verifyx509name :: ((settings.drop 28).take 7 ++
        remotetls :: ((settings.drop 36).take 2 ++ [option "crl-verify" 1 2 crlfile])) := rfl
  rw [split]
  simp only [List.forall_mem_append, List.forall_mem_cons]
  exact ⟨fourth, tlsremote_frames name, verifyx509name_frames name, fifth, remotetls_frames usage, sixth,
    crlfile_frames crl, List.forall_mem_nil _⟩

/-- What an accepted config was made from. -/
theorem importConfig_ok {profileName config : Text} {vp : VpnProfile}
    (imported : importConfig entrySet profileName config = .ok vp) :
    ∃ parsed np np' final left rest, parseConfig config = .ok parsed ∧
      runPasses (steps entrySet) (newProfile profileName) parsed.options = .ok (np, left) ∧
        draftCarried np' = draftCarried np ∧
        checkIgnoreAndInvalidOptions entrySet np' left = .ok (final, rest) ∧ vp = fixup final.toVpnProfile := by
  unfold importConfig at imported
  cases parse : parseConfig config with
  | error e =>
    rw [parse] at imported
    cases imported
  | ok parsed =>
    rw [parse] at imported
    simp only [convertProfile] at imported
    obtain ⟨⟨final, rest⟩, converted, same⟩ := exceptBind_ok.mp imported
    obtain ⟨np, left, ran, converted⟩ := stateBind_ok.mp converted
    refine ⟨parsed, np, _, final, left, rest, rfl, ran, ?_, converted, ?_⟩
    · cases metaArgument parsed.metas "FRIENDLY_NAME" <;> cases metaArgument parsed.metas "USERNAME" <;> rfl
    · cases same
      rfl

theorem settings_part {observe : Draft → γ} {k : Nat} {part rest : List (Draft → Import Draft)}
    (split : settings = settings.take k ++ (part ++ rest)) (before : ∀ pass ∈ settings.take k, Frames observe pass)
    (after : ∀ pass ∈ rest, Frames observe pass) (behind : ∀ pass ∈ (steps entrySet).drop 39, Frames observe pass)
    {d np : Draft} {options left : Options} (ran : runPasses (steps entrySet) d options = .ok (np, left)) :
    ∃ middle final : Draft, ∃ reached kept : Options, observe middle = observe d ∧
      (∀ key : String, (∀ needs ∈ settingsNeeds.take k, key ∉ needs.names) →
        reached.lookup key.toList = options.lookup key.toList) ∧
        runPasses part middle reached = .ok (final, kept) ∧ observe np = observe final := by
  have all : steps entrySet = settings.take k ++ (part ++ (rest ++ (steps entrySet).drop 39)) := by
    have whole : steps entrySet = settings ++ (steps entrySet).drop 39 := rfl
    calc steps entrySet = settings ++ (steps entrySet).drop 39 := whole
      _ = (settings.take k ++ (part ++ rest)) ++ (steps entrySet).drop 39 := congrArg (· ++ _) split
      _ = _ := by simp only [List.append_assoc]
  rw [all] at ran
  obtain ⟨middle, reached, first, ran⟩ := runPasses_append_ok.mp ran
  obtain ⟨final, kept, second, third⟩ := runPasses_append_ok.mp ran
  refine ⟨middle, final, reached, kept, runPasses_frames before _ _ _ _ first, ?_, second, ?_⟩
  · exact fun key other => runPasses_keeps (List.forall₂_take k settings_read) other first
  · exact runPasses_frames (List.forall_mem_append.mpr ⟨after, behind⟩) _ _ _ _ third

private theorem runPasses_one {pass : Draft → Import Draft} {d final : Draft} {options rest : Options} :
    runPasses [pass] d options = .ok (final, rest) ↔ pass d options = .ok (final, rest) := by
  rw [runPasses_cons, stateBind_ok]
  constructor
  · rintro ⟨a, between, here, done⟩
    obtain ⟨rfl, rfl⟩ := statePure_ok.mp done
    exact here
  · exact fun here => ⟨final, rest, here, statePure_ok.mpr ⟨rfl, rfl⟩⟩

theorem settings_allOptions {observe : Draft → γ} {k : Nat} {name : String} {minarg maxarg : Nat}
    {set : Draft → List Args → Except ImportError Draft} {rest : List (Draft → Import Draft)}
    (split : settings = settings.take k ++ ([allOptions name minarg maxarg set] ++ rest))
    (before : ∀ pass ∈ settings.take k, Frames observe pass) (after : ∀ pass ∈ rest, Frames observe pass)
    (behind : ∀ pass ∈ (steps entrySet).drop 39, Frames observe pass)
    (unread : ∀ needs ∈ settingsNeeds.take k, name ∉ needs.names)
    {d np : Draft} {options left : Options} (ran : runPasses (steps entrySet) d options = .ok (np, left)) :
    ∃ middle final, observe middle = observe d ∧ observe np = observe final ∧
      (options.lookup name.toList = none → final = middle) ∧
        ∀ lines, options.lookup name.toList = some lines → set middle lines = .ok final := by
  obtain ⟨middle, final, reached, kept, started, found, here, ended⟩ :=
    settings_part entrySet split before after behind ran
  obtain ⟨read, rest, seen, done⟩ := stateBind_ok.mp (runPasses_one.mp here)
  obtain ⟨rfl, -, -⟩ := getAllOption_ok.mp seen
  rw [found name unread] at done
  refine ⟨middle, final, started, ended, ?_, ?_⟩
  · intro absent
    rw [absent] at done
    exact (statePure_ok.mp done).1.symm
  · intro lines present
    rw [present] at done
    exact (checked_ok.mp done).1

/-- What the end of an import leaves as the steps have made it. -/
theorem importConfig_observe {observe : Carried → γ}
    (custom : ∀ c options, observe { c with mCustomConfigOptions := options } = observe c)
    (name : ∀ c remote, observe { c with mRemoteCN := remote } = observe c) {profileName config : Text}
    {vp : VpnProfile}
    (imported : importConfig entrySet profileName config = .ok vp) :
    ∃ parsed np left, parseConfig config = .ok parsed ∧
      runPasses (steps entrySet) (newProfile profileName) parsed.options = .ok (np, left) ∧
        observe (carried vp) = observe (draftCarried np) := by
  obtain ⟨parsed, np, np', final, left, rest, parse, ran, same, checked, rfl⟩ := importConfig_ok entrySet imported
  have kept : observe (draftCarried final) = observe (draftCarried np') :=
    checkIgnore_frames entrySet custom np' left final rest checked
  refine ⟨parsed, np, left, parse, ran, ?_⟩
  have fixed : observe (carried (fixup final.toVpnProfile)) = observe (draftCarried final) := by
    unfold fixup
    split
    · exact name (draftCarried final) []
    · rfl
  calc observe (carried (fixup final.toVpnProfile)) = observe (draftCarried final) := fixed
    _ = observe (draftCarried np') := kept
    _ = observe (draftCarried np) := congrArg observe same

theorem importConfig_alias {profileName config : Text} {vp : VpnProfile}
    (imported : importConfig entrySet profileName config = .ok vp) :
    vp.mAlias = none := by
  obtain ⟨parsed, np, left, -, ran, same⟩ :=
    @importConfig_observe _ entrySet Carried.mAlias (fun _ _ => rfl) (fun _ _ => rfl) _ _ _ imported
  have frames : ∀ pass ∈ steps entrySet, Frames (fun np => Carried.mAlias (draftCarried np)) pass := by
    have own : ∀ pass ∈ settings, Frames (fun np => Carried.mAlias (draftCarried np)) pass := by
      obtain ⟨first, second, third⟩ := plain_frames Carried.mAlias
      rw [settings_split]
      simp only [List.forall_mem_append, List.forall_mem_cons]
      exact ⟨first, routes_frames fun _ _ _ => rfl, second, redirect_frames fun _ _ => rfl, third,
        dhcpoption_frames fun _ _ _ _ => rfl, later_frames (fun _ _ _ _ => rfl) (fun _ _ => rfl) fun _ _ _ => rfl⟩
    have all : steps entrySet = settings ++ (steps entrySet).drop 39 := rfl
    rw [all, List.forall_mem_append]
    exact ⟨own, fun pass member => (others_carried entrySet pass member).of_carried⟩
  calc vp.mAlias = (draftCarried np).mAlias := same
    _ = (draftCarried (newProfile profileName)).mAlias := runPasses_frames frames _ _ _ _ ran
    _ = none := rfl

/-! ### Import and export of a config -/

def phone : Device := ⟨[], [], [], 26, none, [], [], true⟩

def configWith (lines : String) : Text := ("remote a\n" ++ lines).toList

theorem import_export {β : Type} (observe : Parsed → β) {config : Text} {found : β}
    (parses : (parseConfig config).toOption.map observe = some found)
    (exports : ((importConfig default [] config).toOption.bind (VpnProfile.getConfigFile phone false)).isSome) :
    ∃ parsed vp text, parseConfig config = .ok parsed ∧ observe parsed = found ∧
      importConfig default [] config = .ok vp ∧ VpnProfile.getConfigFile phone false vp = some text := by
  cases parse : parseConfig config with
  | error e =>
    rw [parse] at parses
    cases parses
  | ok parsed =>
    rw [parse] at parses
    cases imported : importConfig default [] config with
    | error e =>
      rw [imported] at exports
      cases exports
    | ok vp =>
      rw [imported] at exports
      obtain ⟨text, written⟩ := Option.isSome_iff_exists.mp exports
      exact ⟨parsed, vp, text, rfl, Option.some.inj parses, rfl, written⟩

end RRoadVpn.Proofs.ImportFrames
