import RRoadVpn.Proofs.QueriesComplete

/-! Queries one after another: whatever OpenVPN asks for next, and however its reads and the
steps of the thread mix, the results are what the app has, in the order of the queries. -/

namespace RRoadVpn.Proofs.ServedSessions
open Library Manage ManageQueries ManagementChannel ReplyTexts WrittenLines LoopCompletes QueriesComplete
open CachedPasswords (Kind cached storedKey)
open JavaText (Text)
open ManRead (bufLen readSize)
open ManagementReplies (Thread Surroundings)

variable {callbacks : Callbacks} {admits : Surroundings → Prop}

theorem idle_step {s after : Channel} (idle : Idle s) {e : ManagementChannel.Event} (serving : Serving admits e)
    (taken : ManagementChannel.step callbacks s e = some after) :
    Idle after ∧ after.thread = s.thread ∧ after.openvpn = s.openvpn := by
  cases e with
  | processCommand env =>
    rw [step_processCommand _ fun text member => (idle.unread text member).fits] at taken
    split at taken
    next line there =>
      simp only [Option.ite_none_right_eq_some, Option.some.injEq] at taken
      obtain ⟨-, rfl⟩ := taken
      obtain ⟨inside, same⟩ := List.getElem?_eq_some_iff.mp there
      have member : line ∈ s.openvpn.man.out.drop s.seen :=
        List.mem_drop_iff_getElem.mpr ⟨0, by omega, by simpa using same⟩
      have kept := (idle.unread line member).same env s.thread
      refine ⟨{ idle with seen := inside, unread := fun other later => ?_, running := ?_, outbox := ?_ }, kept, rfl⟩
      · have further : s.openvpn.man.out.drop (s.seen + 1) = (s.openvpn.man.out.drop s.seen).drop 1 := by
          rw [List.drop_drop]
        rw [further] at later
        exact idle.unread other (List.mem_of_mem_drop later)
      · rw [kept]
        exact idle.running
      · rw [kept]
        exact idle.outbox
    · cases taken
  | write =>
    simp only [ManagementChannel.step, idle.outbox] at taken
    cases taken
  | read n =>
    simp only [ManagementChannel.step, idle.socket, List.length_nil, Option.ite_none_right_eq_some] at taken
    omega
  | _ => exact serving.elim

/-! ### Sessions -/

section Sessions

variable (callbacks) (admits) (serves : Thread → Prop) (expects : ManagementChannel.Event → Option Result)

/-- The thread serves the queries with the results that are expected. -/
structure Service : Prop where
  serving : ∀ e, Serving admits e → expects e = none
  main : ∀ s e r after, expects e = some r → ManagementChannel.step callbacks s e = some after →
    s.openvpn.wait = .main
  completes : ∀ s e r, expects e = some r → Idle s → serves s.thread →
    ∃ thread, serves thread ∧ Completes callbacks admits s e thread r

/-- The channel between two queries or in one, where so much has been asked. -/
inductive Served (asked : List Result) : Channel → Prop where
  | idle {s} (idle : Idle s) (thread : serves s.thread) (results : s.openvpn.results = asked) : Served asked s
  | query {s e thread result begun events state earlier} (completes : Completes callbacks admits s e thread result)
      (serves : serves thread) (before : s.openvpn.results = earlier) (more : asked = earlier ++ [result])
      (taken : ManagementChannel.step callbacks s e = some begun)
      (run : Run (ManagementChannel.step callbacks) (fun _ => Serving admits) begun events state)
      (wait : state.openvpn.wait ≠ .main) : Served asked state

end Sessions

variable {serves : Thread → Prop} {expects : ManagementChannel.Event → Option Result}

/-- Where a run of serving steps leads behind a query. -/
theorem served_of_run {s : Channel} {e : ManagementChannel.Event} {thread : Thread} {result : Result}
    {begun state : Channel}
    {events : List ManagementChannel.Event} (completes : Completes callbacks admits s e thread result)
    (thread_ : serves thread) (taken : ManagementChannel.step callbacks s e = some begun)
    (run : Run (ManagementChannel.step callbacks) (fun _ => Serving admits) begun events state) :
    Served callbacks admits serves (s.openvpn.results ++ [result]) state := by
  obtain ⟨begun', taken', bound, always⟩ := completes
  obtain rfl : begun = begun' := Option.some.inj (taken.symm.trans taken')
  rcases (always events state run).2 with ⟨wait, -, -⟩ | ⟨idle, same, results⟩
  · exact .query ⟨begun, taken', bound, always⟩ thread_ rfl rfl taken run wait
  · exact .idle idle (same ▸ thread_) results

private theorem served_step (service : Service callbacks admits serves expects) {asked : List Result}
    {state after : Channel}
    (served : Served callbacks admits serves asked state) {e : ManagementChannel.Event}
    (allowed : Serving admits e ∨ (expects e).isSome)
    (taken : ManagementChannel.step callbacks state e = some after) :
    Served callbacks admits serves (asked ++ (expects e).toList) after := by
  rcases allowed with serving | expected
  · rw [service.serving e serving, Option.toList_none, List.append_nil]
    cases served with
    | idle idle thread results =>
      obtain ⟨still, same, openvpn⟩ := idle_step idle serving taken
      exact .idle still (same ▸ thread) (openvpn ▸ results)
    | query completes thread before more begun run wait =>
      rw [more, ← before]
      exact served_of_run completes thread begun (.snoc run serving taken)
  · obtain ⟨r, there⟩ := Option.isSome_iff_exists.mp expected
    have main := service.main state e r after there taken
    cases served with
    | idle idle thread results =>
      obtain ⟨thread', thread_, completes⟩ := service.completes state e r there idle thread
      rw [there, Option.toList_some, ← results]
      exact served_of_run completes thread_ taken .nil
    | query _ _ _ _ _ _ wait => exact absurd main wait

/-- In every run the results are the expected ones, in the order of the queries, and only the
last may be missing; where it is, a step is left. -/
theorem session_served (service : Service callbacks admits serves expects) {s final : Channel} (idle : Idle s)
    (thread : serves s.thread) {events : List ManagementChannel.Event}
    (run : Run (ManagementChannel.step callbacks) (fun _ e => Serving admits e ∨ (expects e).isSome) s events final) :
    s.openvpn.results ++ events.filterMap expects = final.openvpn.results ∧ Idle final ∨
      ∃ r, s.openvpn.results ++ events.filterMap expects = final.openvpn.results ++ [r] ∧
        ∃ e, Serving admits e ∧ (ManagementChannel.step callbacks final e).isSome := by
  have served : Served callbacks admits serves (s.openvpn.results ++ events.filterMap expects) final := by
    induction run with
    | nil => exact .idle idle thread (by simp)
    | @snoc events middle e final before allowed taken ih =>
      have next := served_step service ih allowed taken
      rw [List.append_assoc] at next
      rw [List.filterMap_append]
      cases there : expects e with
      | none => simpa [there] using next
      | some r => simpa [there] using next
  cases served with
  | idle idle _ results => exact .inl ⟨results.symm, idle⟩
  | @query s' e thread' result begun events' state earlier completes _ before more taken run wait =>
    obtain ⟨begun', taken', bound, always⟩ := completes
    obtain rfl : begun = begun' := Option.some.inj (taken.symm.trans taken')
    rcases (always _ _ run).2 with ⟨-, results, enabled⟩ | ⟨idle', -, -⟩
    · exact .inr ⟨result, by rw [more, results, before], enabled⟩
    · exact absurd idle'.main wait

/-! ### The profile's session -/

/-- What a profile and the keys of the device have for OpenVPN's queries, all of which fits. -/
structure Known (p : LoginProfile) (sign : Text → Option Text) (u pw key : Text) : Prop where
  username : p.mUsername = some u
  password : p.mPassword = pw
  storedKey : storedKey p = some key
  named : u ≠ []
  fitsName : Fits u
  fits : Fits pw
  fitsKey : Fits key
  blank : pw ≠ blankUp
  blankKey : key ≠ blankUp
  signs : ∀ data signed, sign data = some signed →
    (Word data ∧ data.length ≤ 1268) ∧
      Word signed ∧ signed ≠ [] ∧ signed ≠ "END".toList ∧ signed.length ≤ bufLen - readSize

def expected (sign : Text → Option Text) (u pw key : Text) : ManagementChannel.Event → Option Result
  | .query q =>
    if q = authQuery then
      some (.userPass authQuery (some { defined := true, username := bytesOf u, password := bytesOf pw }))
    else if q = keyQuery then some (.userPass keyQuery (some { defined := true, password := bytesOf key }))
    else none
  | .pkSig b64Data => (sign b64Data).map fun signed => .signature (some signed)
  | _ => none

/-- The thread runs the profile, and no password is cached for it. -/
def Serves (p : LoginProfile) (t : Thread) : Prop := t.mProfile = p ∧ ∀ kind, cached kind p.mUuid t.mInstance = none

private theorem serves_access {p : LoginProfile} {t : Thread} (serves : Serves p t) {a : PasswordCache.Access}
    (quiet : ∀ kind v, ¬ CachedPasswords.Enters kind p.mUuid (some v) a) :
    Serves p { t with mInstance := PasswordCache.access t.mInstance a } := by
  refine ⟨serves.1, fun kind => Option.eq_none_iff_forall_ne_some.mpr fun v found => ?_⟩
  rcases ChannelWrites.cached_access found with enters | old
  · exact quiet kind v enters
  · rw [serves.2 kind] at old
    cases old

private theorem service {p : LoginProfile} {sign : Text → Option Text} {u pw key : Text}
    (known : Known p sign u pw key) :
    Service callbacks (fun env => env.getSignedData = sign) (Serves p) (expected sign u pw key) := by
  have possible : ∃ env : Surroundings, env.getSignedData = sign := ⟨{ getSignedData := sign }, rfl⟩
  refine ⟨fun e serving => ?_, fun s e r after there taken => ?_, fun s e r there idle serves => ?_⟩
  · cases e <;> first | rfl | exact serving.elim
  · cases e with
    | query q =>
      obtain ⟨_, asked, -⟩ := Option.map_eq_some_iff.mp taken
      simp only [ManageQueries.step, Option.ite_none_right_eq_some] at asked
      exact asked.1.2.1
    | pkSig data =>
      obtain ⟨_, asked, -⟩ := Option.map_eq_some_iff.mp taken
      simp only [ManageQueries.step, Option.ite_none_right_eq_some] at asked
      exact asked.1.2
    | _ => cases there
  · cases e with
    | query q =>
      simp only [expected] at there
      split at there
      next same =>
        subst same
        cases there
        have cachedNone : cached .auth s.thread.mProfile.mUuid s.thread.mInstance = none := by
          rw [serves.1]; exact serves.2 .auth
        refine ⟨_, serves_access serves (a := .getPasswordAuth s.thread.mProfile) fun _ _ never => never.elim, ?_⟩
        refine login_completes callbacks idle (by rw [serves.1]; exact known.username) ?_ known.named known.fitsName
          known.fits known.blank possible
        rw [CachedPasswords.getPasswordAuth_eq, cachedNone, serves.1, known.password]
        rfl
      · split at there
        next same =>
          subst same
          cases there
          have cachedNone : cached .key s.thread.mProfile.mUuid s.thread.mInstance = none := by
            rw [serves.1]; exact serves.2 .key
          refine ⟨_, serves_access serves (a := .getPasswordPrivateKey s.thread.mProfile) fun _ _ never => never.elim,
            ?_⟩
          refine key_completes callbacks idle ?_ known.fitsKey known.blankKey possible
          rw [CachedPasswords.getPasswordPrivateKey_eq, cachedNone, serves.1, known.storedKey]
          rfl
        · cases there
    | pkSig data =>
      obtain ⟨signed, signs, rfl⟩ := Option.map_eq_some_iff.mp there
      obtain ⟨⟨word, size⟩, plain, nonempty, other, short⟩ := known.signs data signed signs
      exact ⟨s.thread, serves,
        signature_completes callbacks idle word size plain nonempty other short (fun env same => by rw [same, signs])
          possible⟩
    | _ => cases there

/-- A session of a profile that has what it is asked for: in every run of queries, reads,
writes and handled lines, OpenVPN gets for each query what the app has, in their order. -/
theorem session_answered (callbacks : Callbacks) {p : LoginProfile} {sign : Text → Option Text} {u pw key : Text}
    (known : Known p sign u pw key) {final : Channel} {events : List ManagementChannel.Event}
    (run : Run (ManagementChannel.step callbacks)
      (fun _ e => Serving (fun env => env.getSignedData = sign) e ∨ (expected sign u pw key e).isSome)
      (opened p) events final) :
    events.filterMap (expected sign u pw key) = final.openvpn.results ∧ Idle final ∨
      ∃ r, events.filterMap (expected sign u pw key) = final.openvpn.results ++ [r] ∧
        ∃ e, Serving (fun env => env.getSignedData = sign) e ∧ (ManagementChannel.step callbacks final e).isSome :=
  session_served (service known) (opened_idle p) ⟨rfl, fun kind => by cases kind <;> rfl⟩ run

/-- The password of a key and a login, asked for before the thread has read all that was said. -/
theorem session_answered_login :
    let p : LoginProfile :=
      { mUuid := ⟨0, 0⟩, mAuthenticationType := .USERPASS_CERTIFICATES, mUsername := some ['u'], mPassword := ['p'],
        mKeyPassword := some ['k'] }
    let sign : Text → Option Text := fun _ => none
    let events : List ManagementChannel.Event :=
      [.query keyQuery, .processCommand {}, .write, .read 25, .query authQuery]
    ∃ final, events.foldlM (ManagementChannel.step {}) (opened p) = some final ∧
      (events.filterMap (expected sign ['u'] ['p'] ['k']) = final.openvpn.results ∧ Idle final ∨
        ∃ r, events.filterMap (expected sign ['u'] ['p'] ['k']) = final.openvpn.results ++ [r] ∧
          ∃ e, Serving (fun env => env.getSignedData = sign) e ∧ (ManagementChannel.step {} final e).isSome) := by
  intro p sign events
  have runs : (events.foldlM (ManagementChannel.step {}) (opened p)).isSome = true := by decide +kernel
  obtain ⟨final, executed⟩ := Option.isSome_iff_exists.mp runs
  have fits : ∀ c ∈ ['u', 'p', 'k'], Fits [c] := by
    intro c member
    fin_cases member <;> exact ⟨by simp [printable], by decide +kernel, by simp⟩
  have known : Known p sign ['u'] ['p'] ['k'] :=
    ⟨rfl, rfl, rfl, by decide, fits _ (by decide), fits _ (by decide), fits _ (by decide), by decide, by decide,
      fun _ _ never => by cases never⟩
  refine ⟨final, executed, session_answered {} known ((Run.of_exec executed).members.weaken fun _ e member => ?_)⟩
  simp only [events, List.mem_cons, List.not_mem_nil, or_false] at member
  rcases member with rfl | rfl | rfl | rfl | rfl
  · exact .inr (by decide)
  · exact .inl rfl
  · exact .inl trivial
  · exact .inl trivial
  · exact .inr (by decide)

end RRoadVpn.Proofs.ServedSessions
