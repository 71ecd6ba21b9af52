import RRoadVpn.Library.Runs
import RRoadVpn.Proofs.LogCacheSteps

/-! When the idle handler leaves file and buffer in agreement. A trim writes the items
of the buffer whose messages wait behind it, and these messages write them again. -/

namespace RRoadVpn.Proofs.LogCacheAgrees
open RRoadVpn.Library RRoadVpn.Proofs.LogCacheSteps
open StatusService (LogObject)
open RRoadVpn.LogCache

/-- The file has one record for every item of the buffer that was logged since
`initLogCache`, in the buffer's order, and none for a cleared item. -/
structure Agrees (s : State) : Prop where
  file : ∃ contents, s.mLogFile = some contents ∧
    LogFileHandler.writeLogItems (s.records.map LogObject.item) = .ok contents
  once : ∀ obj ∈ s.logbuffer, obj ∈ s.logged → s.records.count obj = 1
  ordered : s.records.filter (fun obj => obj ∈ s.logbuffer ∧ obj ∈ s.logged) = s.logbuffer.filter (· ∈ s.logged)
  cleared : ∀ obj ∈ s.cleared, obj ∉ s.records

def Trims (s : State) : Prop := ∃ rest, s.messages = .TRIM_LOG_FILE :: rest

/-- The handler is about to trim the file while items wait to be written. -/
def Doubles (s : State) : Prop := ∃ rest, s.messages = .TRIM_LOG_FILE :: rest ∧ queued rest ≠ []

section Trace

variable (caught : Message → LogItem.MarschalError → List LogItem) (start : State)

/-- A trim with items behind it is followed by another trim. -/
def Repaired (events : List Event) : Prop :=
  ∀ before after r, events = before ++ .handleMessage :: after → Run (step caught) Free start before r → Doubles r →
    ∃ middle rest r', after = middle ++ .handleMessage :: rest ∧
      Run (step caught) Free start (before ++ .handleMessage :: middle) r' ∧ Trims r'

variable {caught start}

theorem repaired_trim {events : List Event} {s : State} (run : Run (step caught) Free start events s)
    (trims : Trims s) :
    Repaired caught start (events ++ [.handleMessage]) ↔ ¬ Doubles s := by
  constructor
  · intro repaired doubles
    obtain ⟨middle, rest, _, absent, _⟩ := repaired events [] s rfl run doubles
    simp at absent
  · intro clean before after r split reached doubles
    rcases snoc_eq_split split with ⟨rfl, rfl, _⟩ | ⟨rest, rfl, rfl⟩
    · exact absurd (run.deterministic reached ▸ doubles) clean
    · exact ⟨rest, [], s, rfl, run, trims⟩

theorem repaired_other {events : List Event} {event : Event} {s : State} (run : Run (step caught) Free start events s)
    (other : event = .handleMessage → ¬ Trims s) :
    Repaired caught start (events ++ [event]) ↔ Repaired caught start events := by
  constructor
  · intro repaired before after r split reached doubles
    obtain ⟨middle, rest, r', found, reached', trims⟩ :=
      repaired before (after ++ [event]) r (by simp [split]) reached doubles
    rcases snoc_eq_split found with ⟨rfl, rfl, same⟩ | ⟨rest, rfl, rfl⟩
    · subst split
      exact absurd (run.deterministic reached' ▸ trims) (other same.symm)
    · exact ⟨middle, rest, r', rfl, reached', trims⟩
  · intro repaired before after r split reached doubles
    rcases snoc_eq_split split with ⟨rfl, rfl, same⟩ | ⟨rest, rfl, rfl⟩
    · have trims : Trims r := ⟨doubles.choose, doubles.choose_spec.1⟩
      exact absurd (run.deterministic reached ▸ trims) (other same.symm)
    · obtain ⟨middle, rest, r', rfl, reached', trims⟩ := repaired before rest r rfl reached doubles
      exact ⟨middle, rest ++ [event], r', by simp, reached', trims⟩

end Trace

/-! ### Buffer, file and queue -/

/-- Behind the last trim in the queue are the messages of the end of the buffer. -/
def Pending (messages : List Message) (logbuffer : List LogObject) : Prop :=
  ∀ earlier later, messages = earlier ++ .TRIM_LOG_FILE :: later → .TRIM_LOG_FILE ∉ later →
    ∃ older, logbuffer = older ++ queued later

private theorem Pending.tail {message : Message} {messages : List Message} {logbuffer : List LogObject}
    (pending : Pending (message :: messages) logbuffer) : Pending messages logbuffer :=
  fun earlier later split last => pending (message :: earlier) later (by rw [split]; rfl) last

theorem pending_trim (messages : List Message) (logbuffer : List LogObject) :
    Pending (messages ++ [.TRIM_LOG_FILE]) logbuffer := by
  intro earlier later split last
  rcases snoc_eq_split split with ⟨rfl, _⟩ | ⟨rest, rfl, _⟩
  · exact ⟨logbuffer, by simp [queued]⟩
  · simp at last

private theorem Pending.send {messages : List Message} {logbuffer : List LogObject}
    (pending : Pending messages logbuffer)
    {message : Message} (other : message ≠ .TRIM_LOG_FILE) :
    Pending (messages ++ [message]) (logbuffer ++ queued [message]) := by
  intro earlier later split last
  rcases snoc_eq_split split with ⟨_, _, same⟩ | ⟨rest, rfl, rfl⟩
  · exact absurd same.symm other
  · obtain ⟨older, rfl⟩ := pending earlier rest rfl (fun inside => last (List.mem_append_left _ inside))
    exact ⟨older, by rw [queued_append, List.append_assoc]⟩

private theorem Pending.restore {messages : List Message} {logbuffer : List LogObject}
    (pending : Pending messages logbuffer)
    (obj : LogObject) : Pending messages (obj :: logbuffer) := by
  intro earlier later split last
  obtain ⟨older, rfl⟩ := pending earlier later split last
  exact ⟨obj :: older, rfl⟩

/-- Written or still to be written is the buffer without items of earlier days. -/
def Clean (s : State) : Prop :=
  ∃ older, s.logbuffer = older ++ (s.records ++ queued s.messages) ∧ ∀ obj ∈ older, obj ∉ s.logged

/-- A stretch of the buffer is written or to be written twice. -/
def Doubled (s : State) : Prop :=
  s.mLogFile ≠ none ∧ ∃ older twice newer, s.logbuffer = older ++ twice ++ newer ∧
    s.records ++ queued s.messages = older ++ twice ++ twice ++ newer ∧ twice ≠ [] ∧ ∀ obj ∈ twice, obj ∈ s.logged

private theorem Clean.agrees {s : State} (clean : Clean s) (sound : Sound s) (idle : s.messages = []) : Agrees s := by
  obtain ⟨older, buffer, earlier⟩ := clean
  have buffer : s.logbuffer = older ++ s.records := by simpa [idle, queued] using buffer
  have nodup : (older ++ s.records).Nodup := buffer ▸ sound.logbuffer.1
  have inside : ∀ obj ∈ s.records, obj ∈ s.logbuffer := fun obj member => buffer ▸ List.mem_append_right older member
  obtain ⟨contents, file⟩ := sound.file (by simp [idle])
  refine ⟨⟨contents, file, sound.written contents file⟩, ?_, ?_, ?_⟩
  · intro obj member logged
    have written : obj ∈ s.records := by
      rw [buffer] at member
      exact (List.mem_append.mp member).resolve_left (fun old => earlier obj old logged)
    rw [nodup.of_append_right.count, if_pos written]
  · have none : older.filter (· ∈ s.logged) = [] := by simpa using earlier
    rw [buffer, List.filter_append, none, List.nil_append, ← buffer]
    apply List.filter_congr
    intro obj member
    simp [inside obj member]
  · intro obj member written
    exact (sound.cleared obj member).2 (inside obj written)

private theorem Doubled.not_agrees {s : State} (doubled : Doubled s) (idle : s.messages = []) : ¬ Agrees s := by
  obtain ⟨-, older, twice, newer, buffer, records, some, logged⟩ := doubled
  intro agrees
  obtain ⟨obj, member⟩ := List.exists_mem_of_ne_nil twice some
  have once := agrees.once obj (by simp [buffer, member]) (logged obj member)
  have records : s.records = older ++ twice ++ twice ++ newer := by simpa [idle, queued] using records
  have positive := List.count_pos_iff.mpr member
  simp only [records, List.count_append] at once
  omega

/-! ### What the steps keep -/

/-- What the queue and the buffer look like along a run. -/
structure Settled (s : State) (repaired : Prop) : Prop where
  sound : Sound s
  pending : Pending s.messages s.logbuffer
  decided : .TRIM_LOG_FILE ∉ s.messages → (Clean s ∧ repaired) ∨ (Doubled s ∧ ¬ repaired)

private theorem settled_start {logged : List LogItem} (fit : ∀ logItem ∈ logged, Fits logItem) (repaired : Prop)
    (initially : repaired) : Settled (initLogCache logged) repaired := by
  refine ⟨sound_start fit, ?_, fun _ => Or.inl ⟨⟨(initLogCache logged).logbuffer, ?_, fun _ _ none => by cases none⟩,
    initially⟩⟩
  · intro earlier later split last
    have member : Message.TRIM_LOG_FILE ∈ (initLogCache logged).messages := by simp [split]
    cases List.mem_singleton.mp member
  · simp [initLogCache, queued]

private theorem Settled.newLogItem {s : State} {repaired : Prop} (settled : Settled s repaired) {logItem : LogItem}
    (fits : Fits logItem) : Settled (newLogItem logItem false s) repaired := by
  obtain ⟨sound, pending, decided⟩ := settled
  obtain ⟨logbuffer, sent, outcome, -, ending⟩ := newLogItem_live logItem s
  refine ⟨sound.newLogItem fits, ?_, ?_⟩
  · rw [outcome]
    rcases ending with ⟨rfl, rfl⟩ | rfl
    · rw [List.append_nil]
      exact pending.send fun same => by cases same
    · exact pending_trim _ _
  · rw [outcome]
    intro none
    rcases ending with ⟨rfl, rfl⟩ | rfl
    · have last : queued (s.messages ++ [.LOG_MESSAGE ⟨s.objects, logItem⟩] ++ []) =
          queued s.messages ++ [⟨s.objects, logItem⟩] := by simp [queued]
      rcases decided (by simpa using none) with ⟨clean, held⟩ | ⟨doubled, held⟩
      · obtain ⟨older, buffer, earlier⟩ := clean
        refine Or.inl ⟨⟨older, ?_, ?_⟩, held⟩
        · rw [last, buffer, List.append_assoc, List.append_assoc]
        · intro obj member logged
          rcases List.mem_append.mp logged with logged | logged
          · exact earlier obj member logged
          · have smaller := sound.logbuffer.2 obj (buffer ▸ List.mem_append_left _ member)
            rw [List.mem_singleton.mp logged] at smaller
            exact Nat.lt_irrefl _ smaller
      · obtain ⟨file, older, twice, newer, buffer, records, some, logged⟩ := doubled
        refine Or.inr ⟨⟨file, older, twice, newer ++ [⟨s.objects, logItem⟩], ?_, ?_, some, ?_⟩, held⟩
        · simp only [buffer, List.append_assoc]
        · rw [last, ← List.append_assoc, records, List.append_assoc _ newer]
        · exact fun obj member => List.mem_append_left _ (logged obj member)
    · simp at none

private theorem Settled.restoreLogItem {s : State} {repaired : Prop} (settled : Settled s repaired)
    {logItem : LogItem}
    (fits : Fits logItem) (opening : s.messages.head? = some .LOG_INIT) :
    Settled (LogCache.newLogItem logItem true s) repaired := by
  obtain ⟨sound, pending, decided⟩ := settled
  obtain ⟨logbuffer, sent, outcome, -, ending⟩ := newLogItem_cached logItem s
  refine ⟨sound.restoreLogItem fits, ?_, ?_⟩
  · rw [outcome]
    rcases ending with ⟨rfl, rfl⟩ | rfl
    · rw [List.append_nil]
      exact pending.restore _
    · exact pending_trim _ _
  · rw [outcome]
    intro none
    rcases ending with ⟨rfl, rfl⟩ | rfl
    · rw [List.append_nil] at none
      rcases decided none with ⟨⟨older, buffer, earlier⟩, held⟩ | ⟨⟨file, -⟩, -⟩
      · refine Or.inl ⟨⟨⟨s.objects, logItem⟩ :: older, ?_, ?_⟩, held⟩
        · simp only [buffer, List.append_nil, List.cons_append]
        · intro obj member logged
          rcases List.mem_cons.mp member with rfl | member
          · exact Nat.lt_irrefl _ (sound.logged _ logged)
          · exact earlier obj member logged
      · exact absurd (List.mem_of_mem_head? opening) (sound.opened file)
    · simp at none

private theorem Settled.clearLog {s : State} {repaired : Prop} (settled : Settled s repaired) {information : LogItem}
    (fits : Fits information) : Settled (clearLog information s) repaired :=
  ⟨settled.sound.clearLog fits, pending_trim _ _, fun none =>
    absurd (List.mem_append_right _ List.mem_cons_self) none⟩

private theorem Settled.flushLog {s : State} {repaired : Prop} (settled : Settled s repaired) :
    Settled { s with messages := s.messages ++ [.FLUSH_TO_DISK] } repaired := by
  obtain ⟨sound, pending, decided⟩ := settled
  have last : queued (s.messages ++ [.FLUSH_TO_DISK]) = queued s.messages := by simp [queued]
  refine ⟨sound.send (Or.inr rfl), ?_, ?_⟩
  · have other : Message.FLUSH_TO_DISK ≠ .TRIM_LOG_FILE := fun same => by cases same
    simpa [queued] using pending.send other
  · intro none
    simp only [Clean, Doubled, last]
    exact decided fun inside => none (List.mem_append_left _ inside)

section Handler

variable {caught : Message → LogItem.MarschalError → List LogItem}

/-- A trim leaves the file clean or an item doubled. -/
theorem Settled.trim {before after : State} {repaired : Prop} (settled : Settled before repaired)
    (trims : Trims before)
    (taken : step caught before .handleMessage = some after) : Settled after (¬ Doubles before) := by
  obtain ⟨sound, pending, -⟩ := settled
  obtain ⟨rest, queue⟩ := trims
  have kept := sound.handleMessage taken
  rcases handleMessage_cases sound taken with ⟨_, first, rfl⟩ | ⟨_, _, _, _, first, _, _, rfl⟩ |
    ⟨_, _, first, _, rfl⟩ |
    ⟨_, first, rfl⟩
  all_goals
    rw [queue] at first
    cases first
  refine ⟨kept, (queue ▸ pending).tail, ?_⟩
  intro none
  obtain ⟨older, buffer⟩ := pending [] rest queue none
  by_cases waiting : queued rest = []
  · refine Or.inl ⟨⟨[], by simp [waiting], List.forall_mem_nil _⟩, ?_⟩
    rintro ⟨other, same, some⟩
    rw [queue] at same
    cases same
    exact some waiting
  · refine Or.inr ⟨⟨?_, older, queued rest, [], ?_, ?_, waiting, ?_⟩, fun clean => clean ⟨rest, queue, waiting⟩⟩
    · intro none
      cases none
    · rw [List.append_nil]
      exact buffer
    · simp only [buffer, List.append_nil]
    · exact fun obj member => (kept.queued obj member).2

/-- Another message moves an item from the queue to the file, or none. -/
theorem Settled.handle {before after : State} {repaired : Prop} (settled : Settled before repaired)
    (other : ¬ Trims before) (taken : step caught before .handleMessage = some after) : Settled after repaired := by
  obtain ⟨sound, pending, decided⟩ := settled
  have kept := sound.handleMessage taken
  have moved {records : List LogObject} (file : before.mLogFile ≠ none → after.mLogFile ≠ none)
      (same : after.records = before.records ++ records) (buffer : after.logbuffer = before.logbuffer)
      (logged : after.logged = before.logged) {message : Message}
        (queue : before.messages = message :: after.messages)
      (first : queued [message] = records) (plain : message ≠ .TRIM_LOG_FILE) : Settled after repaired := by
    have balance : after.records ++ queued after.messages = before.records ++ queued before.messages := by
      rw [queue, same, ← first, List.append_assoc, ← queued_append]
      rfl
    refine ⟨kept, buffer ▸ (queue ▸ pending).tail, ?_⟩
    intro none
    simp only [Clean, Doubled, balance, buffer, logged]
    rcases decided (by simp [queue, none, plain.symm]) with ⟨clean, held⟩ | ⟨⟨opened, doubled⟩, held⟩
    · exact Or.inl ⟨clean, held⟩
    · exact Or.inr ⟨⟨file opened, doubled⟩, held⟩
  rcases handleMessage_cases sound taken with ⟨_, queue, rfl⟩ | ⟨_, _, _, _, queue, _, _, rfl⟩ | ⟨rest, _, queue, _⟩ |
    ⟨_, queue, rfl⟩
  · exact moved (fun _ none => by cases none) (List.append_nil _).symm rfl rfl queue rfl fun same => by cases same
  · exact moved (fun _ none => by cases none) rfl rfl rfl queue rfl fun same => by cases same
  · exact absurd ⟨rest, queue⟩ other
  · exact moved id (List.append_nil _).symm rfl rfl queue rfl fun same => by cases same

private theorem settled_run {logged : List LogItem} (fit : ∀ logItem ∈ logged, Fits logItem) {events : List Event}
    {final : State}
    (run : Run (step caught) Fitting (initLogCache logged) events final) :
    Settled final (Repaired caught (initLogCache logged) events) := by
  induction run with
  | nil =>
    apply settled_start fit
    intro before after r split
    simp at split
  | @snoc events middle event final before fitting taken ih =>
    have quiet (other : event ≠ .handleMessage) {s : State}
        (settled : Settled s (Repaired caught (initLogCache logged) events)) :
        Settled s (Repaired caught (initLogCache logged) (events ++ [event])) := by
      rwa [repaired_other before.free fun same => absurd same other]
    cases event with
    | newLogItem logItem =>
      cases taken
      exact quiet (fun same => by cases same) (ih.newLogItem fitting)
    | clearLog information =>
      cases taken
      exact quiet (fun same => by cases same) (ih.clearLog fitting)
    | flushLog =>
      cases taken
      exact quiet (fun same => by cases same) ih.flushLog
    | restoreLogItem logItem =>
      simp only [step] at taken
      split at taken
      next opening =>
        cases taken
        exact quiet (fun same => by cases same) (ih.restoreLogItem fitting opening)
      · cases taken
    | handleMessage =>
      by_cases trims : Trims middle
      · rw [repaired_trim before.free trims]
        exact ih.trim trims taken
      · rw [repaired_other before.free fun _ => trims]
        exact ih.handle trims taken

/-- The idle handler leaves file and buffer in agreement exactly if every trim with items
behind it was followed by another trim. -/
theorem agrees_iff {logged : List LogItem} (fit : ∀ logItem ∈ logged, Fits logItem) {events : List Event}
    {final : State}
    (run : Run (step caught) Fitting (initLogCache logged) events final) (idle : final.messages = []) :
    Agrees final ↔ Repaired caught (initLogCache logged) events := by
  obtain ⟨sound, -, decided⟩ := settled_run fit run
  rcases decided (by simp [idle]) with ⟨clean, repaired⟩ | ⟨doubled, broken⟩
  · exact iff_of_true (clean.agrees sound idle) repaired
  · exact iff_of_false (doubled.not_agrees idle) broken

end Handler

private def entry : LogItem := { mRessourceId := 1, logtime := 0 }

private theorem entry_fits : Fits entry := ⟨_, rfl⟩

/-- Items wait behind the trim of the first `clearLog`, which that of the second repairs. -/
private def clearedTwice : List Event := [.handleMessage, .clearLog entry, .newLogItem entry, .clearLog entry,
  .handleMessage, .handleMessage, .handleMessage, .handleMessage, .handleMessage]

theorem agrees_iff_cleared_twice :
    ∃ final, Run (step fun _ _ => []) Fitting (initLogCache []) clearedTwice final ∧ final.messages = [] ∧
      (Agrees final ↔ Repaired (fun _ _ => []) (initLogCache []) clearedTwice) := by
  have runs : ∃ final, Run (step fun _ _ => []) Fitting (initLogCache []) clearedTwice final ∧ final.messages = [] :=
    ⟨_, .snoc (.snoc (.snoc (.snoc (.snoc (.snoc (.snoc (.snoc (.snoc .nil trivial rfl) entry_fits rfl) entry_fits rfl)
      entry_fits rfl) trivial rfl) trivial rfl) trivial rfl) trivial rfl) trivial rfl, rfl⟩
  obtain ⟨final, run, idle⟩ := runs
  exact ⟨final, run, idle, agrees_iff (by simp) run idle⟩

/-- An item is logged after `clearLog` and before the handler trims the file. -/
theorem item_written_twice :
    ∃ final, Run (step fun _ _ => []) Fitting (initLogCache []) [.handleMessage, .clearLog entry, .newLogItem entry,
        .handleMessage, .handleMessage, .handleMessage] final ∧
      final.messages = [] ∧ ¬ Agrees final := by
  refine ⟨_, .snoc (.snoc (.snoc (.snoc (.snoc (.snoc .nil trivial rfl) entry_fits rfl) entry_fits rfl) trivial rfl)
    trivial rfl) trivial rfl, rfl, ?_⟩
  intro agrees
  have once := agrees.once ⟨1, entry⟩ (by decide) (by decide)
  exact absurd once (by decide)

end RRoadVpn.Proofs.LogCacheAgrees
