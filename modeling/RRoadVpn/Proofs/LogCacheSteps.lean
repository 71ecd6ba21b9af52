import RRoadVpn.LogCache
import RRoadVpn.Proofs.StatusClient

/-! What the log calls and the handler do to the buffer, the queue and the file. The
trim that is sent last is followed in the queue by the end of the buffer. -/

namespace RRoadVpn.Proofs.LogCacheSteps
open LogFileHandler (MAXLOGENTRIES)
open StatusService (LogObject trim)
open StatusClient (Below numbered_start)
open RRoadVpn.LogCache

/-- The item's encoding fits the buffer. -/
def Fits (logItem : LogItem) : Prop := ∃ bytes, logItem.getMarschaledBytes = .ok bytes

def Fitting (_ : State) : Event → Prop
  | .newLogItem logItem => Fits logItem
  | .clearLog information => Fits information
  | .restoreLogItem logItem => Fits logItem
  | .flushLog => True
  | .handleMessage => True

def queued (messages : List Message) : List LogObject :=
  messages.filterMap fun
    | .LOG_MESSAGE obj => some obj
    | _ => none

theorem queued_append (first second : List Message) : queued (first ++ second) = queued first ++ queued second :=
  List.filterMap_append

/-! ### Writing -/

theorem writeLogItems_fits {objs : List LogObject} (fit : ∀ obj ∈ objs, Fits obj.item) {s : State}
    {contents : List UInt8}
    (file : s.mLogFile = some contents) :
    ∃ written, LogFileHandler.writeLogItems (objs.map LogObject.item) = .ok written ∧
      writeLogItems s objs = ({ s with mLogFile := some (contents ++ written), records := s.records ++ objs },
        none) := by
  induction objs generalizing s contents with
  | nil =>
    refine ⟨[], rfl, ?_⟩
    obtain ⟨_, _, _, mLogFile, _, _, _⟩ := s
    cases file
    simp [writeLogItems]
  | cons obj objs ih =>
    obtain ⟨bytes, marschaled⟩ := fit obj List.mem_cons_self
    have first : LogFileHandler.writeLogItemToDisk obj.item = .ok (LogFileHandler.writeEscapedBytes bytes) := by
      rw [LogFileHandler.writeLogItemToDisk, marschaled]
      rfl
    obtain ⟨written, encoded, rest⟩ := ih (fun other member => fit other (List.mem_cons_of_mem _ member))
      (s := { s with
        mLogFile := some (contents ++ LogFileHandler.writeEscapedBytes bytes), records := s.records ++ [obj] }) rfl
    refine ⟨LogFileHandler.writeEscapedBytes bytes ++ written, ?_, ?_⟩
    · rw [List.map_cons, LogFileHandler.writeLogItems, first, encoded]
      rfl
    · simp only [writeLogItems, first, file, Option.map_some, rest, List.append_assoc, List.singleton_append]

theorem writeLogItems_append {first second : List LogItem} {before after : List UInt8}
    (left : LogFileHandler.writeLogItems first = .ok before)
    (right : LogFileHandler.writeLogItems second = .ok after) :
    LogFileHandler.writeLogItems (first ++ second) = .ok (before ++ after) := by
  induction first generalizing before with
  | nil =>
    cases left
    exact right
  | cons li items ih =>
    rw [LogFileHandler.writeLogItems] at left
    rw [List.cons_append, LogFileHandler.writeLogItems]
    cases written : LogFileHandler.writeLogItemToDisk li with
    | error e =>
      rw [written] at left
      cases left
    | ok bytes =>
      rw [written] at left
      cases encoded : LogFileHandler.writeLogItems items with
      | error e =>
        rw [encoded] at left
        cases left
      | ok rest =>
        rw [encoded] at left
        cases left
        rw [ih encoded]
        simp only [bind, Except.bind, pure, Except.pure, List.append_assoc]

/-! ### Log calls -/

private theorem trim_sublist (objs : List LogObject) : (trim objs).Sublist objs := by
  unfold trim
  split
  · exact List.drop_sublist _ _
  · exact List.Sublist.refl _

/-- A log call appends the object and its message; if the buffer was shortened, a trim follows. -/
theorem newLogItem_live (logItem : LogItem) (s : State) :
    ∃ logbuffer sent, newLogItem logItem false s = { s with
        logbuffer, objects := s.objects + 1, messages := s.messages ++ [.LOG_MESSAGE ⟨s.objects, logItem⟩] ++ sent,
        logged := s.logged ++ [⟨s.objects, logItem⟩] } ∧
      logbuffer.Sublist (s.logbuffer ++ [⟨s.objects, logItem⟩]) ∧
      (sent = [] ∧ logbuffer = s.logbuffer ++ [⟨s.objects, logItem⟩] ∨ sent = [.TRIM_LOG_FILE]) := by
  by_cases full : (s.logbuffer ++ [(⟨s.objects, logItem⟩ : LogObject)]).length > MAXLOGENTRIES + MAXLOGENTRIES / 2
  · refine ⟨_, [.TRIM_LOG_FILE], ?_, trim_sublist _, Or.inr rfl⟩
    simp only [newLogItem, if_pos full, Bool.false_eq_true, if_false]
  · refine ⟨_, [], ?_, List.Sublist.refl _, Or.inl ⟨rfl, rfl⟩⟩
    simp only [newLogItem, trim, if_neg full, Bool.false_eq_true, if_false]

theorem newLogItem_cached (logItem : LogItem) (s : State) :
    ∃ logbuffer sent, newLogItem logItem true s = { s with
        logbuffer, objects := s.objects + 1, messages := s.messages ++ sent } ∧
      logbuffer.Sublist (⟨s.objects, logItem⟩ :: s.logbuffer) ∧
      (sent = [] ∧ logbuffer = ⟨s.objects, logItem⟩ :: s.logbuffer ∨ sent = [.TRIM_LOG_FILE]) := by
  by_cases full : ((⟨s.objects, logItem⟩ : LogObject) :: s.logbuffer).length > MAXLOGENTRIES + MAXLOGENTRIES / 2
  · refine ⟨_, [.TRIM_LOG_FILE], ?_, trim_sublist _, Or.inr rfl⟩
    simp only [newLogItem, if_pos full, if_true, List.append_nil]
  · refine ⟨_, [], ?_, List.Sublist.refl _, Or.inl ⟨rfl, rfl⟩⟩
    simp only [newLogItem, trim, if_neg full, if_true, List.append_nil]

/-! ### The log without its file -/

def erase (s : State) : VpnStatus where
  logbuffer := s.logbuffer.map LogObject.item
  mLogFileHandler := some (s.messages.filterMap fun
    | .LOG_MESSAGE obj => some (.logMessage obj.item)
    | .TRIM_LOG_FILE => some .trimLogFile
    | _ => none)

private theorem removeOldest_eq_drop (items : List LogItem) :
    VpnStatus.removeOldest items = items.drop (items.length - MAXLOGENTRIES) := by
  induction items with
  | nil => rfl
  | cons item items ih =>
    unfold VpnStatus.removeOldest
    split
    next many =>
      have longer : (item :: items).length - MAXLOGENTRIES = items.length - MAXLOGENTRIES + 1 := by
        simp only [List.length_cons] at many ⊢
        omega
      rw [ih, longer, List.drop_succ_cons]
    next few =>
      rw [Nat.sub_eq_zero_of_le (Nat.le_of_not_gt few), List.drop_zero]

/-- The objects follow `VpnStatus.newLogItem`. -/
theorem erase_newLogItem (logItem : LogItem) (cachedLine : Bool) (s : State) :
    erase (newLogItem logItem cachedLine s) = (erase s).newLogItem logItem cachedLine := by
  by_cases full : MAXLOGENTRIES + MAXLOGENTRIES / 2 < s.logbuffer.length + 1
  · cases cachedLine <;>
      simp [erase, newLogItem, VpnStatus.newLogItem, VpnStatus.sendMessage, trim, removeOldest_eq_drop, full]
  · cases cachedLine <;>
      simp [erase, newLogItem, VpnStatus.newLogItem, VpnStatus.sendMessage, trim, full]

/-! ### The state before the handler looks at it -/

structure Sound (s : State) : Prop where
  logbuffer : Below s.objects s.logbuffer
  logged : ∀ obj ∈ s.logged, obj.number < s.objects
  cleared : ∀ obj ∈ s.cleared, obj.number < s.objects ∧ obj ∉ s.logbuffer
  fits : ∀ obj ∈ s.logbuffer, Fits obj.item
  queued : ∀ obj ∈ queued s.messages, Fits obj.item ∧ obj ∈ s.logged
  written : ∀ contents, s.mLogFile = some contents →
    LogFileHandler.writeLogItems (s.records.map LogObject.item) = .ok contents
  opening : s.mLogFile = none → s.records = [] ∧ ∃ rest, s.messages = .LOG_INIT :: rest ∧ .LOG_INIT ∉ rest
  opened : s.mLogFile ≠ none → .LOG_INIT ∉ s.messages

theorem sound_start {logged : List LogItem} (fit : ∀ logItem ∈ logged, Fits logItem) :
    Sound (initLogCache logged) := by
  obtain ⟨logbuffer, -⟩ := numbered_start logged
  refine ⟨logbuffer, nofun, nofun, ?_, nofun, nofun, fun _ => ⟨rfl, [], rfl, nofun⟩, fun opened => absurd rfl opened⟩
  intro obj member
  obtain ⟨_, inside, rfl⟩ := List.mem_mapIdx.mp member
  exact fit _ (List.getElem_mem inside)

theorem Sound.newLogItem {s : State} (sound : Sound s) {logItem : LogItem} (fits : Fits logItem) :
    Sound (newLogItem logItem false s) := by
  obtain ⟨logbuffer, sent, outcome, part, ending⟩ := newLogItem_live logItem s
  have longer := sound.logbuffer.snoc logItem
  rw [outcome]
  refine ⟨longer.sublist part, ?_, ?_, ?_, ?_, sound.written, ?_, ?_⟩
  · intro obj member
    rcases List.mem_append.mp member with member | member
    · exact Nat.lt_succ_of_lt (sound.logged obj member)
    · rw [List.mem_singleton.mp member]
      exact Nat.lt_succ_self _
  · intro obj member
    obtain ⟨smaller, outside⟩ := sound.cleared obj member
    refine ⟨Nat.lt_succ_of_lt smaller, ?_⟩
    intro inside
    rcases List.mem_append.mp (part.subset inside) with inside | inside
    · exact outside inside
    · rw [List.mem_singleton.mp inside] at smaller
      exact Nat.lt_irrefl _ smaller
  · intro obj member
    rcases List.mem_append.mp (part.subset member) with member | member
    · exact sound.fits obj member
    · rw [List.mem_singleton.mp member]
      exact fits
  · intro obj member
    rw [queued_append, queued_append] at member
    have none : LogCacheSteps.queued sent = [] := by
      rcases ending with ⟨rfl, -⟩ | rfl <;> rfl
    rw [none, List.append_nil] at member
    rcases List.mem_append.mp member with member | member
    · obtain ⟨fits, logged⟩ := sound.queued obj member
      exact ⟨fits, List.mem_append_left _ logged⟩
    · rw [List.mem_singleton.mp member]
      exact ⟨fits, List.mem_append_right _ (List.mem_singleton.mpr rfl)⟩
  · intro file
    obtain ⟨records, rest, messages, absent⟩ := sound.opening file
    refine ⟨records, rest ++ [.LOG_MESSAGE ⟨s.objects, logItem⟩] ++ sent, by simp [messages], ?_⟩
    rcases ending with ⟨rfl, -⟩ | rfl <;> simpa using absent
  · intro file
    have absent := sound.opened file
    rcases ending with ⟨rfl, -⟩ | rfl <;> simpa using absent

theorem Sound.restoreLogItem {s : State} (sound : Sound s) {logItem : LogItem} (fits : Fits logItem) :
    Sound (LogCache.newLogItem logItem true s) := by
  obtain ⟨logbuffer, sent, outcome, part, ending⟩ := newLogItem_cached logItem s
  have longer := sound.logbuffer.cons logItem
  rw [outcome]
  refine ⟨longer.sublist part, fun obj member => Nat.lt_succ_of_lt (sound.logged obj member), ?_, ?_, ?_,
    sound.written,
    ?_, ?_⟩
  · intro obj member
    obtain ⟨smaller, outside⟩ := sound.cleared obj member
    refine ⟨Nat.lt_succ_of_lt smaller, ?_⟩
    intro inside
    rcases List.mem_cons.mp (part.subset inside) with rfl | inside
    · exact Nat.lt_irrefl _ smaller
    · exact outside inside
  · intro obj member
    rcases List.mem_cons.mp (part.subset member) with rfl | member
    · exact fits
    · exact sound.fits obj member
  · intro obj member
    have none : LogCacheSteps.queued sent = [] := by
      rcases ending with ⟨rfl, -⟩ | rfl <;> rfl
    rw [queued_append, none, List.append_nil] at member
    exact sound.queued obj member
  · intro file
    obtain ⟨records, rest, messages, absent⟩ := sound.opening file
    refine ⟨records, rest ++ sent, by simp [messages], ?_⟩
    rcases ending with ⟨rfl, -⟩ | rfl <;> simpa using absent
  · intro file
    have absent := sound.opened file
    rcases ending with ⟨rfl, -⟩ | rfl <;> simpa using absent

theorem Sound.send {s : State} (sound : Sound s) {message : Message}
    (plain : message = .TRIM_LOG_FILE ∨ message = .FLUSH_TO_DISK) :
    Sound { s with messages := s.messages ++ [message] } := by
  refine ⟨sound.logbuffer, sound.logged, sound.cleared, sound.fits, ?_, sound.written, ?_, ?_⟩
  · intro obj member
    have none : LogCacheSteps.queued [message] = [] := by
      rcases plain with rfl | rfl <;> rfl
    rw [queued_append, none, List.append_nil] at member
    exact sound.queued obj member
  · intro file
    obtain ⟨records, rest, messages, absent⟩ := sound.opening file
    refine ⟨records, rest ++ [message], by simp [messages], ?_⟩
    rcases plain with rfl | rfl <;> simpa using absent
  · intro file
    have absent := sound.opened file
    rcases plain with rfl | rfl <;> simpa using absent

theorem Sound.clearLog {s : State} (sound : Sound s) {information : LogItem} (fits : Fits information) :
    Sound (clearLog information s) := by
  have emptied : Sound { s with logbuffer := [], cleared := s.cleared ++ s.logbuffer } := by
    refine ⟨.nil, sound.logged, ?_, nofun, sound.queued, sound.written, sound.opening, sound.opened⟩
    intro obj member
    refine ⟨?_, List.not_mem_nil⟩
    rcases List.mem_append.mp member with member | member
    · exact (sound.cleared obj member).1
    · exact sound.logbuffer.2 obj member
  exact (emptied.newLogItem fits).send (Or.inl rfl)

/-! ### The handler -/

section Handler

variable {caught : Message → LogItem.MarschalError → List LogItem}

theorem Sound.file {s : State} (sound : Sound s) (other : s.messages.head? ≠ some .LOG_INIT) :
    ∃ contents, s.mLogFile = some contents := by
  apply Option.ne_none_iff_exists'.mp
  intro closed
  obtain ⟨-, _, first, -⟩ := sound.opening closed
  rw [first] at other
  exact other rfl

/-- What the handling of the first message does, when every item fits. -/
theorem handleMessage_cases {before after : State} (sound : Sound before)
    (taken : step caught before .handleMessage = some after) :
    (∃ rest, before.messages = .LOG_INIT :: rest ∧ after = { before with messages := rest, mLogFile := some [] }) ∨
    (∃ obj rest contents written, before.messages = .LOG_MESSAGE obj :: rest ∧ before.mLogFile = some contents ∧
      LogFileHandler.writeLogItems [obj.item] = .ok written ∧ after = { before with
        messages := rest, mLogFile := some (contents ++ written), records := before.records ++ [obj] }) ∨
    (∃ rest written, before.messages = .TRIM_LOG_FILE :: rest ∧
      LogFileHandler.writeLogItems (before.logbuffer.map LogObject.item) = .ok written ∧
        after = { before with messages := rest, mLogFile := some written, records := before.logbuffer }) ∨
    ∃ rest, before.messages = .FLUSH_TO_DISK :: rest ∧ after = { before with messages := rest } := by
  simp only [step] at taken
  split at taken
  · cases taken
  next message rest queue =>
    cases taken
    cases message with
    | LOG_INIT => exact Or.inl ⟨rest, queue, rfl⟩
    | LOG_MESSAGE obj =>
      refine Or.inr (Or.inl ?_)
      obtain ⟨contents, file⟩ := sound.file (by simp [queue])
      have fits : ∀ other ∈ [obj], Fits other.item := by
        intro other member
        rw [List.mem_singleton.mp member]
        exact (sound.queued obj (by simp [queued, queue])).1
      obtain ⟨written, encoded, outcome⟩ := writeLogItems_fits fits (s := { before with messages := rest }) file
      refine ⟨obj, rest, contents, written, queue, file, encoded, ?_⟩
      simp only [handleMessage]
      rw [if_neg (by simp [file]), outcome]
      rfl
    | TRIM_LOG_FILE =>
      obtain ⟨written, encoded, outcome⟩ := writeLogItems_fits sound.fits
        (s := { before with messages := rest, mLogFile := some [], records := [] }) rfl
      refine Or.inr (Or.inr (Or.inl ⟨rest, written, queue, encoded, ?_⟩))
      simp only [handleMessage, outcome, guarded, List.nil_append]
    | FLUSH_TO_DISK => exact Or.inr (Or.inr (Or.inr ⟨rest, queue, rfl⟩))

theorem Sound.handleMessage {before after : State} (sound : Sound before)
    (taken : step caught before .handleMessage = some after) : Sound after := by
  have file (other : before.messages.head? ≠ some .LOG_INIT) : before.mLogFile ≠ none :=
    Option.ne_none_iff_exists'.mpr (sound.file other)
  rcases handleMessage_cases sound taken with ⟨rest, queue, rfl⟩ | ⟨obj, rest, contents, written, queue, opened,
    encoded, rfl⟩ |
    ⟨rest, written, queue, encoded, rfl⟩ | ⟨rest, queue, rfl⟩
  · have closed : before.mLogFile = none := by
      apply Classical.byContradiction
      intro opened
      exact sound.opened opened (by simp [queue])
    obtain ⟨records, _, first, absent⟩ := sound.opening closed
    rw [queue] at first
    cases first
    refine ⟨sound.logbuffer, sound.logged, sound.cleared, sound.fits, ?_, ?_, nofun, fun _ => absent⟩
    · intro obj member
      apply sound.queued obj
      rw [queue]
      exact member
    · intro contents same
      cases same
      rw [records]
      rfl
  · have absent := sound.opened (file (by simp [queue]))
    refine ⟨sound.logbuffer, sound.logged, sound.cleared, sound.fits, ?_, ?_, nofun,
      fun _ inside => absent (by simp [queue, inside])⟩
    · intro other member
      apply sound.queued other
      rw [queue]
      exact List.mem_cons_of_mem obj member
    · intro whole same
      cases same
      rw [List.map_append]
      exact writeLogItems_append (sound.written contents opened) encoded
  · have absent := sound.opened (file (by simp [queue]))
    refine ⟨sound.logbuffer, sound.logged, sound.cleared, sound.fits, ?_, ?_, nofun,
      fun _ inside => absent (by simp [queue, inside])⟩
    · intro obj member
      apply sound.queued obj
      rw [queue]
      exact member
    · intro whole same
      cases same
      exact encoded
  · have opened := file (by simp [queue])
    have absent := sound.opened opened
    refine ⟨sound.logbuffer, sound.logged, sound.cleared, sound.fits, ?_, sound.written,
      fun closed => absurd closed opened,
      fun _ inside => absent (by simp [queue, inside])⟩
    intro obj member
    apply sound.queued obj
    rw [queue]
    exact member

end Handler

end RRoadVpn.Proofs.LogCacheSteps
