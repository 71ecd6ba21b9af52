import RRoadVpn.Proofs.ImportErrors

/-! An import fails in a declared way exactly when the four options whose argument can make it
fail otherwise are fine wherever the import comes to them. -/

namespace RRoadVpn.Proofs.ImportDeclared
open RRoadVpn.Library RRoadVpn.ConfigParser RRoadVpn.Proofs.ImportSteps RRoadVpn.Proofs.ImportErrors
open JavaText (Text)

/-! ### Passes that fail as declared -/

private theorem allOptions_failsWith (name : String) (minarg maxarg : Nat) (set : Draft → List Args → Draft)
    (np : Draft) :
    FailsWith Declared (allOptions name minarg maxarg (fun np lines => .ok (set np lines)) np) := by
  refine (getAllOption_failsWith name minarg maxarg).bind fun lines => ?_
  cases lines with
  | none => exact FailsWith.pure np
  | some lines => exact checked_failsWith fun e failed => by cases failed

private theorem dev_failsWith (np : Draft) : FailsWith Declared (dev np) := by
  refine (getOption_failsWith "dev" 1 1).bind fun dev => (getOption_failsWith "dev-type" 1 1).bind fun devtype => ?_
  split
  · exact FailsWith.pure np
  · refine checked_failsWith fun e failed => ?_
    cases failed
    exact declared_parseError _

private theorem tlsremote_failsWith (np : Draft) : FailsWith Declared (tlsremote np) := by
  refine (getOption_failsWith "compat-names" 1 2).bind fun compatnames =>
    (getOption_failsWith "no-name-remapping" 1 1).bind fun nonameremapping =>
      (getOption_failsWith "tls-remote" 1 1).bind fun tlsremote => ?_
  cases tlsremote with
  | none => exact FailsWith.pure np
  | some tlsremote => exact FailsWith.pure _

private theorem remotetls_failsWith (np : Draft) : FailsWith Declared (remotetls np) := by
  refine (getAllOption_failsWith "remote-cert-tls" 1 1).bind fun lines => ?_
  cases lines with
  | none => exact FailsWith.pure np
  | some lines =>
    simp only
    split
    · exact FailsWith.pure _
    · intro options e failed
      cases failed

private theorem client_failsWith (np : Draft) : FailsWith Declared (do
    let client ← removeOption "client"
    let pull ← removeOption "pull"
    return if client || pull then { np with mUsePull := true } else np : Import Draft) := by
  intro options e failed
  cases failed

private theorem intArgument_error {message : String} {line : Args} {set : Int → Draft} {e : ImportError}
    (failed : (do let size ← intArgument message (arg line 1); return set size : Except ImportError Draft) =
    .error e) :
    Declared e := by
  cases read : JavaText.parseInt (arg line 1) with
  | none =>
    simp only [intArgument, read] at failed
    cases failed
    exact declared_parseError _
  | some size =>
    simp only [intArgument, read] at failed
    cases failed

private theorem mssfix_error (np : Draft) (line : Args) (e : ImportError) (failed : mssfix np line = .error e) :
    Declared e := by
  unfold mssfix at failed
  split at failed
  · exact intArgument_error failed
  · cases failed

private theorem mode_error (np : Draft) (line : Args) (e : ImportError) (failed : mode np line = .error e) :
    Declared e := by
  unfold mode at failed
  split at failed
  · cases failed
  · cases failed
    exact declared_parseError _

private theorem verifyx509name_error (np : Draft) (line : Args) (e : ImportError)
    (failed : verifyx509name np line = .error e) :
    Declared e := by
  simp only [verifyx509name] at failed
  repeat' split at failed
  all_goals cases failed
  exact declared_parseError _

private theorem protoforce_error (np : Draft) (line : Args) (e : ImportError)
    (failed : protoforce np line = .error e) :
    Declared e := by
  simp only [protoforce] at failed
  repeat' split at failed
  all_goals cases failed
  exact declared_parseError _

theorem settings_failsWith : ∀ pass ∈ settings.take 2 ++
    ((settings.drop 3).take 12 ++ ((settings.drop 16).take 21 ++ settings.drop 38)),
    ∀ np, FailsWith Declared (pass np) := by
  simp only [settings, List.drop_succ_cons, List.drop_zero, List.take_succ_cons, List.take_zero, List.cons_append,
    List.nil_append, List.forall_mem_cons]
  refine ⟨client_failsWith, ?_⟩
  repeat' apply And.intro
  all_goals first
    | exact option_failsWith _ _ _ _
    | exact allOptions_failsWith _ _ _ _
    | exact dev_failsWith
    | exact tlsremote_failsWith
    | exact remotetls_failsWith
    | exact fun np => checkedOption_failsWith _ _ _ (mssfix_error np)
    | exact fun np => checkedOption_failsWith _ _ _ fun line e failed => intArgument_error failed
    | exact fun np => checkedOption_failsWith _ _ _ (mode_error np)
    | exact fun np => checkedOption_failsWith _ _ _ (verifyx509name_error np)
    | exact List.forall_mem_nil _

private theorem checkIgnoreAndInvalidOptions_failsWith (entrySet : EntrySet) (np : Draft) :
    FailsWith Declared (checkIgnoreAndInvalidOptions entrySet np) := by
  intro options e failed
  unfold checkIgnoreAndInvalidOptions at failed
  split at failed
  · cases failed
    exact declared_parseError _
  · simp only at failed
    split at failed <;> cases failed

/-! ### The import -/

/-- The settings before the one with a number are accepted. -/
def AcceptedUpTo (k : Nat) (options : Options) : Prop := ∀ needs ∈ settingsNeeds.take k, needs.accepts options

theorem reached_iff {k : Nat} {np : Draft} {options : Options} {P : Options → Prop} (key : String)
    (other : ∀ needs ∈ settingsNeeds.take k, key ∉ needs.names)
    (own : ∀ left : Options, left.lookup key.toList = options.lookup key.toList → (P left ↔ P options)) :
    (∀ middle left, runPasses (settings.take k) np options = .ok (middle, left) → P left) ↔
      (AcceptedUpTo k options → P options) := by
  have kept (middle : Draft) (left : Options) (ran : runPasses (settings.take k) np options = .ok (middle, left)) :=
    own left (runPasses_keeps (List.forall₂_take k settings_read) other ran)
  constructor
  · intro holds accepted
    obtain ⟨middle, left, ran⟩ := (settings_accepted k np options).mpr accepted
    exact (kept middle left ran).mp (holds middle left ran)
  · intro holds middle left ran
    exact (kept middle left ran).mpr (holds ((settings_accepted k np options).mp ⟨middle, left, ran⟩))

section Convert

variable (entrySet : EntrySet)

/-- The four options that can fail in another way are fine where the import comes to them. -/
def ArgumentsFine (profileName : Text) (options : Options) : Prop :=
  (AcceptedUpTo 2 options → RoutesEnd options) ∧ (AcceptedUpTo 15 options → IfconfigRead options) ∧
    (AcceptedUpTo 37 options → AuthRetryRead options) ∧
      ∀ np left, runPasses settings (newProfile profileName) options = .ok (np, left) → BlocksEmbedded entrySet left

variable {entrySet}

theorem routes_reached {np : Draft} {options : Options} :
    (∀ middle left, runPasses (settings.take 2) np options = .ok (middle, left) →
      FailsAt Declared (allOptions "route" 1 4 routes middle) left) ↔
        (AcceptedUpTo 2 options → RoutesEnd options) := by
  simp only [routes_declared]
  exact reached_iff "route" (by decide) fun left same => by simp only [RoutesEnd, same]

private theorem ifconfig_reached {np : Draft} {options : Options} :
    (∀ middle left, runPasses (settings.take 15) np options = .ok (middle, left) →
      FailsAt Declared (checkedOption "ifconfig" 2 2 ifconfig middle) left) ↔
        (AcceptedUpTo 15 options → IfconfigRead options) := by
  simp only [checkedOption_failsAt, ifconfig_declared]
  exact reached_iff "ifconfig" (by decide) fun left same => by simp only [same]

private theorem authretry_reached {np : Draft} {options : Options} :
    (∀ middle left, runPasses (settings.take 37) np options = .ok (middle, left) →
      FailsAt Declared (checkedOption "auth-retry" 1 1 authretry middle) left) ↔
        (AcceptedUpTo 37 options → AuthRetryRead options) := by
  have known (middle : Draft) (left : Options) :
      FailsAt Declared (checkedOption "auth-retry" 1 1 authretry middle) left ↔ AuthRetryRead left := by
    rw [checkedOption_failsAt]
    refine forall₂_congr fun lines line => forall₃_congr fun present inRange last => ?_
    have one := inRange line (List.mem_of_getLast? last)
    exact authretry_declared (by omega)
  simp only [known]
  exact reached_iff "auth-retry" (by decide) fun left same => by simp only [AuthRetryRead, same]

private theorem steps_declared {profileName : Text} {options : Options} :
    FailsAt Declared (runPasses (steps entrySet) (newProfile profileName)) options ↔
      ArgumentsFine entrySet profileName options := by
  obtain ⟨early, middle, late, crl⟩ : (∀ pass ∈ settings.take 2, ∀ np, FailsWith Declared (pass np)) ∧
      (∀ pass ∈ (settings.drop 3).take 12, ∀ np, FailsWith Declared (pass np)) ∧
        (∀ pass ∈ (settings.drop 16).take 21, ∀ np, FailsWith Declared (pass np)) ∧
          ∀ pass ∈ settings.drop 38, ∀ np, FailsWith Declared (pass np) := by
    simpa only [List.forall_mem_append] using settings_failsWith
  have last : ∀ pass ∈ (steps entrySet).drop 40, ∀ np, FailsWith Declared (pass np) :=
    List.forall_mem_cons.mpr ⟨option_failsWith _ _ _ _, List.forall_mem_cons.mpr
      ⟨fun np => checkedOption_failsWith _ _ _ (protoforce_error np), List.forall_mem_nil _⟩⟩
  rw [ArgumentsFine]
  generalize newProfile profileName = np
  have start : FailsAt Declared (runPasses (steps entrySet) np) options ↔
      ∀ middle left, runPasses (settings.take 0) np options = .ok (middle, left) →
        FailsAt Declared (runPasses (steps entrySet) middle) left := by
    constructor
    · intro fails middle left ran
      obtain ⟨rfl, rfl⟩ := statePure_ok.mp ran
      exact fails
    · exact fun fails => fails np options rfl
  have routes : _ ↔ _ ∧ (∀ middle left, runPasses (settings.take 3) np options = .ok (middle, left) →
        FailsAt Declared (runPasses ((steps entrySet).drop 3) middle) left) :=
    @runPasses_failsAt _ _ _ Declared (settings.take 0) (settings.take 2) ((steps entrySet).drop 3)
      (allOptions "route" 1 4 routes) np options early
  have ifconfig : _ ↔ _ ∧ (∀ middle left, runPasses (settings.take 16) np options = .ok (middle, left) →
        FailsAt Declared (runPasses ((steps entrySet).drop 16) middle) left) :=
    @runPasses_failsAt _ _ _ Declared (settings.take 3) ((settings.drop 3).take 12) ((steps entrySet).drop 16)
      (checkedOption "ifconfig" 2 2 ifconfig) np options middle
  have authretry : _ ↔ _ ∧ (∀ middle left, runPasses (settings.take 38) np options = .ok (middle, left) →
        FailsAt Declared (runPasses ((steps entrySet).drop 38) middle) left) :=
    @runPasses_failsAt _ _ _ Declared (settings.take 16) ((settings.drop 16).take 21) ((steps entrySet).drop 38)
      (checkedOption "auth-retry" 1 1 authretry) np options late
  have connections : _ ↔ _ ∧ (∀ middle left, runPasses ((steps entrySet).take 40) np options = .ok (middle, left) →
        FailsAt Declared (runPasses ((steps entrySet).drop 40) middle) left) :=
    @runPasses_failsAt _ _ _ Declared (settings.take 38) (settings.drop 38) ((steps entrySet).drop 40)
      (connections entrySet) np options crl
  have blocks : (∀ middle left, runPasses settings np options = .ok (middle, left) →
        FailsAt Declared (ConfigParser.connections entrySet middle) left) ↔
      ∀ middle left, runPasses settings np options = .ok (middle, left) → BlocksEmbedded entrySet left :=
    forall₃_congr fun _ _ _ => connections_declared
  have rest : ∀ middle left, runPasses ((steps entrySet).take 40) np options = .ok (middle, left) →
      FailsAt Declared (runPasses ((steps entrySet).drop 40) middle) left :=
    fun middle left _ => (runPasses_failsWith last middle).at left
  exact start.trans <| routes.trans <| and_congr routes_reached <| ifconfig.trans <| and_congr ifconfig_reached <|
    authretry.trans <| and_congr authretry_reached <| connections.trans <| (and_iff_left rest).trans blocks

private theorem convertProfile_declared {profileName : Text} {parsed : Parsed} :
    (∀ e, convertProfile entrySet profileName parsed = .error e → Declared e) ↔
      ArgumentsFine entrySet profileName parsed.options := by
  rw [← steps_declared]
  have convert (e : ImportError) : convertProfile entrySet profileName parsed = .error e ↔
      (do
        let np ← runPasses (steps entrySet) (newProfile profileName)
        let np := (metaArgument parsed.metas "FRIENDLY_NAME").elim np fun name => { np with mName := name }
        let np := (metaArgument parsed.metas "USERNAME").elim np fun name => { np with mUsername := some name }
        checkIgnoreAndInvalidOptions entrySet np : Import Draft) parsed.options = .error e := by
    delta convertProfile
    simp only
    generalize (do
        let np ← runPasses (steps entrySet) (newProfile profileName)
        let np := (metaArgument parsed.metas "FRIENDLY_NAME").elim np fun name => { np with mName := name }
        let np := (metaArgument parsed.metas "USERNAME").elim np fun name => { np with mUsername := some name }
        checkIgnoreAndInvalidOptions entrySet np : Import Draft) = import'
    cases import' parsed.options <;> simp [bind, Except.bind, pure, Except.pure]
  have tail (np : Draft) : FailsWith Declared (do
        let np := (metaArgument parsed.metas "FRIENDLY_NAME").elim np fun name => { np with mName := name }
        let np := (metaArgument parsed.metas "USERNAME").elim np fun name => { np with mUsername := some name }
        checkIgnoreAndInvalidOptions entrySet np : Import Draft) := checkIgnoreAndInvalidOptions_failsWith entrySet _
  simp only [convert]
  exact failsAt_bind.trans (and_iff_left fun np left _ => (tail np).at left)

end Convert

/-- An import fails as declared only if the arguments of four options are fine. -/
theorem import_declared_iff (entrySet : EntrySet) (profileName config : Text) :
    (∀ e, importConfig entrySet profileName config = .error e → Declared e) ↔
      ∀ parsed, parseConfig config = .ok parsed → ArgumentsFine entrySet profileName parsed.options := by
  rw [importConfig]
  cases parseConfig config with
  | error e =>
    refine iff_of_true (fun e failed => ?_) (fun parsed other => by cases other)
    cases failed
    exact ⟨_, rfl⟩
  | ok parsed =>
    simp only [Except.ok.injEq, forall_eq']
    exact convertProfile_declared

/-- An unknown argument of `auth-retry` is not reported, but the argument behind it is looked for. -/
theorem unknown_auth_retry_escapes :
    ¬ ∀ (entrySet : EntrySet) (profileName config : Text) (e : ImportError),
      importConfig entrySet profileName config = .error e → Declared e := by
  intro claim
  have raised : (importConfig default [] "client\nauth-retry sometimes".toList).map (fun _ => ()) =
      .error (.runtime .ArrayIndexOutOfBounds) := by decide +kernel
  cases failed : importConfig default [] "client\nauth-retry sometimes".toList with
  | ok np =>
    rw [failed] at raised
    cases raised
  | error e =>
    rw [failed] at raised
    cases raised
    obtain ⟨d, other⟩ := claim _ _ _ _ failed
    cases other

end RRoadVpn.Proofs.ImportDeclared
