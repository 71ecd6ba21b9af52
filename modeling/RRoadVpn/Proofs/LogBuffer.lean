import RRoadVpn.Proofs.LogOrder

/-! The buffer of the log while live items come in at its end, restored ones at its front, and
it is cleared. It drops items at the front. -/

namespace RRoadVpn.Proofs.LogBuffer
open LogFileHandler VpnStatus LogOrder

def capacity : Nat := MAXLOGENTRIES + MAXLOGENTRIES / 2

inductive Operation where
  | live (logItem : LogItem)
  | restored (logItem : LogItem)
  | clearLog (information : LogItem)

def perform (status : VpnStatus) : Operation → VpnStatus
  | .live logItem => status.newLogItem logItem false
  | .restored logItem => status.newLogItem logItem true
  | .clearLog information => status.clearLog information

/-- The items since the log was last cleared, which is itself logged. -/
structure Since where
  live : List LogItem := []
  restored : List LogItem := []

def Since.after (since : Since) : Operation → Since
  | .live logItem => { since with live := since.live ++ [logItem] }
  | .restored logItem => { since with restored := since.restored ++ [logItem] }
  | .clearLog information => { live := [information] }

/-! ### The invariant -/

/-- Restored items, the newest first, and behind them the end of the live ones: all of them or a thousand. -/
structure Parts (since : Since) (buffer : List LogItem) : Prop where
  parts : ∃ older newest, buffer = older ++ newest ∧ older.Sublist since.restored.reverse ∧ newest <:+ since.live ∧
    (newest = since.live ∨ MAXLOGENTRIES ≤ newest.length)

variable {since : Since} {buffer : List LogItem}

private theorem Parts.live (invariant : Parts since buffer) (logItem : LogItem) :
    Parts (since.after (.live logItem)) (buffer ++ [logItem]) := by
  obtain ⟨older, newest, rfl, sub, suffix, enough⟩ := invariant.parts
  refine ⟨older, newest ++ [logItem], List.append_assoc .., sub, List.suffix_append_self_iff.mpr suffix, ?_⟩
  rcases enough with rfl | many
  · exact Or.inl rfl
  · rw [List.length_append]
    exact Or.inr (Nat.le_add_right_of_le many)

private theorem Parts.restored (invariant : Parts since buffer) (logItem : LogItem) :
    Parts (since.after (.restored logItem)) (logItem :: buffer) := by
  obtain ⟨older, newest, rfl, sub, suffix, enough⟩ := invariant.parts
  refine ⟨logItem :: older, newest, rfl, ?_, suffix, enough⟩
  rw [Since.after, List.reverse_append]
  exact sub.cons_cons logItem

theorem Parts.drop (invariant : Parts since buffer) {kept : List LogItem} (suffix : kept <:+ buffer)
    (many : MAXLOGENTRIES ≤ kept.length) : Parts since kept := by
  obtain ⟨older, newest, rfl, sub, newest_, enough⟩ := invariant.parts
  rcases List.suffix_or_suffix_of_suffix suffix (List.suffix_append older newest) with inside | ⟨older', rfl⟩
  · exact ⟨[], kept, rfl, List.nil_sublist _, inside.trans newest_, Or.inr many⟩
  · exact ⟨older', newest, rfl, (List.suffix_append_self_iff.mp suffix).sublist.trans sub, newest_, enough⟩

/-! ### The operations -/

/-- A new item stands at one end of the buffer, which then drops items if it is too long. -/
theorem newLogItem_logbuffer (status : VpnStatus) (logItem : LogItem) (cachedLine : Bool) :
    let buffer := if cachedLine then logItem :: status.logbuffer else status.logbuffer ++ [logItem]
    (status.newLogItem logItem cachedLine).logbuffer =
      if buffer.length > capacity then removeOldest buffer else buffer := by
  cases cachedLine <;> simp only [newLogItem, capacity, Bool.false_eq_true, if_false, if_true,
    apply_ite VpnStatus.logbuffer,
    sendMessage_logbuffer]

private theorem kept_parts (invariant : Parts since buffer) :
    Parts since (if buffer.length > capacity then removeOldest buffer else buffer) := by
  split
  next long =>
    have many : MAXLOGENTRIES ≤ buffer.length := by
      have order : MAXLOGENTRIES ≤ capacity := by decide
      omega
    exact invariant.drop (removeOldest_suffix buffer) (Nat.le_of_eq (removeOldest_length many).symm)
  next => exact invariant

private theorem kept_length (buffer : List LogItem) :
    (if buffer.length > capacity then removeOldest buffer else buffer).length ≤ capacity := by
  have order : MAXLOGENTRIES ≤ capacity := by decide
  split
  next long =>
    rw [removeOldest_length (by omega)]
    exact order
  next short => exact Nat.le_of_not_lt short

structure Buffered (since : Since) (status : VpnStatus) : Prop extends Parts since status.logbuffer where
  short : status.logbuffer.length ≤ capacity

private theorem Buffered.newLogItem {status : VpnStatus} (logItem : LogItem)
    (buffered : Parts since status.logbuffer) :
    Buffered (since.after (.live logItem)) (status.newLogItem logItem false) ∧
      Buffered (since.after (.restored logItem)) (status.newLogItem logItem true) := by
  refine ⟨⟨?_, ?_⟩, ⟨?_, ?_⟩⟩ <;> rw [newLogItem_logbuffer]
  · exact kept_parts (buffered.live logItem)
  · exact kept_length _
  · exact kept_parts (buffered.restored logItem)
  · exact kept_length _

private theorem Buffered.perform {status : VpnStatus} (buffered : Buffered since status) (operation : Operation) :
    Buffered (since.after operation) (perform status operation) := by
  cases operation with
  | live logItem => exact (Buffered.newLogItem logItem buffered.toParts).1
  | restored logItem => exact (Buffered.newLogItem logItem buffered.toParts).2
  | clearLog information =>
    have empty : Parts {} ({ status with logbuffer := [] } : VpnStatus).logbuffer :=
      ⟨[], [], rfl, List.nil_sublist _, List.suffix_rfl, Or.inl rfl⟩
    have logged := (Buffered.newLogItem information empty).1
    exact ⟨logged.toParts, logged.short⟩

private theorem buffered_run (status : VpnStatus) (empty : status.logbuffer = []) (operations : List Operation) :
    Buffered (operations.foldl Since.after {}) (operations.foldl LogBuffer.perform status) := by
  induction operations using List.reverseRecOn with
  | nil =>
    refine ⟨⟨[], [], ?_, List.nil_sublist _, List.suffix_rfl, Or.inl rfl⟩, ?_⟩ <;> rw [List.foldl_nil, empty]
    · rfl
    · exact Nat.zero_le _
  | append_singleton operations operation ih =>
    rw [List.foldl_append, List.foldl_append]
    exact ih.perform operation

/-- After any operations on an empty buffer: it has at most fifteen hundred items; it ends in the
last thousand live items since it was last cleared, or all of them; and what stands in front of
the live items was restored. -/
theorem buffer_bounded (status : VpnStatus) (empty : status.logbuffer = []) (operations : List Operation) :
    let since := operations.foldl Since.after {}
    let logbuffer := (operations.foldl LogBuffer.perform status).logbuffer
    logbuffer.length ≤ 1500 ∧ since.live.drop (since.live.length - 1000) <:+ logbuffer ∧
      ∃ older newest, logbuffer = older ++ newest ∧ older.Sublist since.restored.reverse ∧ newest <:+ since.live := by
  have buffered := buffered_run status empty operations
  obtain ⟨older, newest, parts, sub, suffix, enough⟩ := buffered.parts
  refine ⟨buffered.short, ?_, older, newest, parts, sub, suffix⟩
  have last : (operations.foldl Since.after {}).live.drop
      ((operations.foldl Since.after {}).live.length - 1000) <:+ newest := by
    rcases enough with all | many
    · rw [all]
      exact List.drop_suffix _ _
    · refine List.suffix_of_suffix_length_le (List.drop_suffix _ _) suffix ?_
      have thousand : MAXLOGENTRIES = 1000 := rfl
      rw [List.length_drop]
      omega
  rw [parts]
  exact last.trans (List.suffix_append older newest)

private def entry : LogItem := .ofMessage .info "entry" 0

/-- A live item, then a restored one in front of it. -/
theorem buffer_bounded_two :
    [entry].drop 0 <:+ ([.live entry, .restored entry].foldl LogBuffer.perform {}).logbuffer :=
  (buffer_bounded {} rfl [.live entry, .restored entry]).2.1

end RRoadVpn.Proofs.LogBuffer
