import RRoadVpn.Proofs.LogReread

/-! Restoring the log puts each cached line before the ones already there, so a
file's items come back newest first. They keep their order only when reversing
them changes nothing. -/

namespace RRoadVpn.Proofs.LogOrder
open Library LogFileHandler LogItem LogItemCodec LogFraming LogReread VpnStatus

/-! ### One item -/

@[simp] theorem sendMessage_logbuffer (status : VpnStatus) (message : Message) :
    (status.sendMessage message).logbuffer = status.logbuffer := rfl

theorem removeOldest_suffix (items : List LogItem) : removeOldest items <:+ items := by
  induction items with
  | nil => exact List.suffix_rfl
  | cons item items ih =>
    unfold removeOldest
    split
    · exact ih.trans (List.suffix_cons item items)
    · exact List.suffix_rfl

theorem removeOldest_length {items : List LogItem} (many : MAXLOGENTRIES ≤ items.length) :
    (removeOldest items).length = MAXLOGENTRIES := by
  induction items with
  | nil => exact absurd many (by decide)
  | cons item items ih =>
    unfold removeOldest
    split
    next more => exact ih (Nat.le_of_lt_succ more)
    next few => omega

private theorem newLogItem_cached {status : VpnStatus} (item : LogItem)
    (room : status.logbuffer.length < MAXLOGENTRIES + MAXLOGENTRIES / 2) :
    status.newLogItem item true = { status with logbuffer := item :: status.logbuffer } := by
  have few : ¬ status.logbuffer.length + 1 > MAXLOGENTRIES + MAXLOGENTRIES / 2 := by omega
  simp [newLogItem, few]

private theorem newLogItem_live {status : VpnStatus} (item : LogItem)
    (room : status.logbuffer.length < MAXLOGENTRIES + MAXLOGENTRIES / 2) :
    (status.newLogItem item false).logbuffer = status.logbuffer ++ [item] := by
  have few : ¬ status.logbuffer.length + 1 > MAXLOGENTRIES + MAXLOGENTRIES / 2 := by omega
  simp [newLogItem, few]

theorem logLive_logbuffer (status : VpnStatus) (item : LogItem) :
    (status.logLive item).logbuffer = status.logbuffer ++ [item] ∨
      (status.logLive item).logbuffer <:+ status.logbuffer ++ [item] ∧
        (status.logLive item).logbuffer.length = MAXLOGENTRIES := by
  by_cases room : status.logbuffer.length < MAXLOGENTRIES + MAXLOGENTRIES / 2
  · exact Or.inl (newLogItem_live item room)
  · have many : status.logbuffer.length + 1 > MAXLOGENTRIES + MAXLOGENTRIES / 2 := by omega
    have kept : (status.logLive item).logbuffer = removeOldest (status.logbuffer ++ [item]) := by
      simp [logLive, newLogItem, many]
    refine Or.inr ⟨kept ▸ removeOldest_suffix _, kept ▸ removeOldest_length ?_⟩
    rw [List.length_append, List.length_singleton]
    omega

/-- After a run of live items the buffer is the old one and the items after it,
or the newest thousand of them at least. -/
theorem live_run (status : VpnStatus) (live : List LogItem) :
    (live.foldl logLive status).logbuffer <:+ status.logbuffer ++ live ∧
      ((live.foldl logLive status).logbuffer = status.logbuffer ++ live ∨
        MAXLOGENTRIES ≤ (live.foldl logLive status).logbuffer.length) := by
  induction live generalizing status with
  | nil => simp
  | cons item live ih =>
    rw [List.foldl_cons, List.append_cons]
    obtain ⟨suffix, whole⟩ := ih (status.logLive item)
    rcases logLive_logbuffer status item with appended | ⟨dropped, full⟩
    · rw [appended] at suffix whole
      exact ⟨suffix, whole⟩
    · refine ⟨suffix.trans ((List.suffix_append_self_iff).mpr dropped), Or.inr ?_⟩
      rcases whole with same | many
      · rw [same, List.length_append, full]
        omega
      · exact many

/-! ### The lines of a file -/

variable (runtime : Runtime)

theorem logLines_restored (items : List LogItem) (lines : List (Line LogItem)) {status : VpnStatus} (k : Nat)
    (room : status.logbuffer.length + items.length ≤ MAXLOGENTRIES + MAXLOGENTRIES / 2) :
    logLines runtime status k (items.map Line.restored ++ lines) =
      logLines runtime { status with logbuffer := items.reverse ++ status.logbuffer } (k + items.length) lines := by
  induction items generalizing status k with
  | nil => rfl
  | cons item items ih =>
    rw [List.length_cons] at room ⊢
    rw [List.map_cons, List.cons_append, logLines, logLine, newLogItem_cached item (by omega),
      ih (k + 1) (by simp; omega), List.reverse_cons, List.append_assoc, Nat.add_assoc, Nat.add_comm 1]
    rfl

/-- A restored file of readable items: its items backwards and the reader's own line. -/
theorem initLogCache_readable {items : List LogItem} {contents : List UInt8} (few : items.length ≤ 1000)
    (written : writeLogItems items = .ok contents) (readable : ∀ item ∈ items, Readable item) :
    ∃ status own, initLogCache runtime {} (some contents) = some status ∧
      status.logbuffer = (items.map stored).reverse ++ [own] := by
  obtain ⟨encoded, rfl⟩ := writeLogItems_ok written
  have room : items.length ≤ 2 * MAXLOGENTRIES := Nat.le_trans few (by decide)
  have read := reread_whole (fun item member => accepts_readable (encoded item member) (readable item member)) room
    (by decide : ([] : List UInt8).length < 5)
  rw [List.append_nil] at read
  have restored : items.map (fun item => Line.restored (stored item)) = (items.map stored).map Line.restored := by
    rw [List.map_map]
    rfl
  have empty : (VpnStatus.mk [] (some [])).logbuffer.length + (items.map stored).length ≤
      MAXLOGENTRIES + MAXLOGENTRIES / 2 := by
    simp [MAXLOGENTRIES]
    omega
  simp only [initLogCache, readLogCache, read, restored, logLines_restored runtime (items.map stored) _ 0 empty]
  refine ⟨_, ofResource .debug runtime.reread_log [.integer (BitVec.ofNat 32 items.length)]
    (runtime.currentTimeMillis (0 + (items.map stored).length)), rfl, ?_⟩
  rw [logLines, logLines, logLine, newLogItem_live _ (by simp [MAXLOGENTRIES]; omega), List.append_nil]

/-! ### What any file leaves in the log -/

def AllShown (status : VpnStatus) : Prop := ∀ item ∈ status.logbuffer, Shown item

variable {runtime}

private theorem newLogItem_shown {status : VpnStatus} (all : AllShown status) {item : LogItem} (shown : Shown item)
    (cachedLine : Bool) : AllShown (status.newLogItem item cachedLine) := by
  have added : ∀ other ∈ status.logbuffer ++ [item], Shown other := by
    simp only [List.mem_append, List.mem_singleton]
    rintro other (old | rfl)
    · exact all other old
    · exact shown
  have either : ∀ other ∈ (status.newLogItem item cachedLine).logbuffer, other ∈ status.logbuffer ++ [item] := by
    intro other member
    unfold newLogItem at member
    cases cachedLine <;> simp only [Bool.false_eq_true, if_false, if_true] at member <;> split at member
    · exact (removeOldest_suffix _).subset member
    · exact member
    · have := (removeOldest_suffix _).subset member
      simp at this ⊢
      exact this.symm
    · simp at member ⊢
      exact member.symm
  exact fun other member => added other (either other member)

private theorem shown_ofMessage (level : LogLevel) (message : String) (logtime : BitVec 64) :
    Shown (ofMessage level message logtime) := by
  simp [Shown, ofMessage, verify]

private theorem shown_ofResource (level : LogLevel) {ressourceId : BitVec 32} (named : ressourceId ≠ 0)
    {args : List LogArg}
    (few : args.length ≤ 30) (logtime : BitVec 64) : Shown (ofResource level ressourceId args logtime) := by
  refine ⟨?_, fun list same => ?_⟩
  · rw [verify, if_neg (by simp [ofResource]), if_neg fun absent => named absent.2]
  · cases same
    exact few

private theorem logLine_shown {status : VpnStatus} (all : AllShown status) (k : Nat) {line : Line LogItem}
    (restored : ∀ item, line = .restored item → Shown item) : AllShown (logLine runtime status k line) := by
  cases line with
  | debug text => exact newLogItem_shown all (shown_ofMessage _ _ _) _
  | error text => exact newLogItem_shown all (shown_ofMessage _ _ _) _
  | rereadLog itemsRead => exact newLogItem_shown all (shown_ofResource _ runtime.reread_log_ne (by simp) _) _
  | restored li => exact newLogItem_shown all (restored li rfl) _

private theorem logLines_shown {lines : List (Line LogItem)} {status : VpnStatus} (all : AllShown status) (k : Nat)
    (restored : ∀ item, .restored item ∈ lines → Shown item) : AllShown (logLines runtime status k lines) := by
  induction lines generalizing status k with
  | nil => exact all
  | cons line lines ih =>
    refine ih (logLine_shown all k fun item same => restored item (by simp [same])) (k + 1) fun item member => ?_
    exact restored item (List.mem_cons_of_mem line member)

/-- Whatever the file holds, the handler fills the log with items that are shown. -/
theorem initLogCache_shown {contents : List UInt8} {status : VpnStatus}
    (filled : initLogCache runtime {} (some contents) = some status) : AllShown status := by
  obtain ⟨reread, read, own⟩ := readCacheContents_ends LogFileHandler.restoreLogItem contents
  have empty : AllShown { logbuffer := [], mLogFileHandler := some [] } := by simp [AllShown]
  have all : AllShown (logLines runtime { logbuffer := [], mLogFileHandler := some [] } 0 reread.lines) := by
    refine logLines_shown empty 0 fun item member => ?_
    obtain ⟨buf, len, restored⟩ := own item member
    exact restoreLogItem_restored restored
  simp only [initLogCache, readLogCache, read] at filled
  split at filled <;> cases filled
  · exact all
  · exact newLogItem_shown (newLogItem_shown all (shown_ofMessage _ _ _) _)
      (shown_ofResource _ runtime.unhandled_exception_ne (by simp) _) _

/-! ### Order -/

/-- The items stand in the buffer as the file has them, before the handler's own
lines, and stay before whatever is logged later. -/
def KeepsOrder (runtime : Runtime) (items : List LogItem) (contents : List UInt8) : Prop :=
  ∃ status own, initLogCache runtime {} (some contents) = some status ∧
    status.logbuffer = items.map stored ++ own ∧
    ∀ live, (live.foldl logLive status).logbuffer <:+ items.map stored ++ own ++ live ∧
      ((live.foldl logLive status).logbuffer = items.map stored ++ own ++ live ∨
        MAXLOGENTRIES ≤ (live.foldl logLive status).logbuffer.length)

private theorem keepsOrder_readable {items : List LogItem} {contents : List UInt8} (few : items.length ≤ 1000)
    (written : writeLogItems items = .ok contents) (readable : ∀ item ∈ items, Readable item) :
    KeepsOrder runtime items contents ↔ (items.map stored).reverse = items.map stored := by
  obtain ⟨status, line, filled, logbuffer⟩ := initLogCache_readable runtime few written readable
  constructor
  · rintro ⟨status, own, filled', ordered, -⟩
    rw [filled] at filled'
    cases filled'
    rw [logbuffer] at ordered
    exact List.append_inj_left ordered (by simp)
  · intro palindrome
    rw [palindrome] at logbuffer
    exact ⟨status, [line], filled, logbuffer, fun live => logbuffer ▸ live_run status live⟩

/-- The restored log keeps its order exactly when every item can be read and the
items are the same backwards. -/
theorem keepsOrder_iff (runtime : Runtime) {items : List LogItem} {contents : List UInt8} (few : items.length ≤ 1000)
    (written : writeLogItems items = .ok contents) :
    KeepsOrder runtime items contents ↔
      (∀ item ∈ items, Readable item) ∧ (items.map stored).reverse = items.map stored := by
  constructor
  · intro keeps
    obtain ⟨status, own, filled, ordered, -⟩ := id keeps
    have readable : ∀ item ∈ items, Readable item := by
      intro item member
      refine readable_of_shown (initLogCache_shown filled (stored item) ?_)
      rw [ordered]
      exact List.mem_append_left own (List.mem_map_of_mem member)
    exact ⟨readable, (keepsOrder_readable few written readable).mp keeps⟩
  · rintro ⟨readable, palindrome⟩
    exact (keepsOrder_readable few written readable).mpr palindrome

/-- The same line twice keeps its order. -/
theorem keepsOrder_iff_same_twice :
    ∃ (runtime : Runtime) (contents : List UInt8),
      writeLogItems [{ mRessourceId := 9, logtime := 1 }, { mRessourceId := 9, logtime := 1 }] = .ok contents ∧
        KeepsOrder runtime [{ mRessourceId := 9, logtime := 1 }, { mRessourceId := 9, logtime := 1 }] contents := by
  refine ⟨⟨fun _ => 0, 1, 2, fun _ => none, fun _ => "", by decide, by decide⟩, _, rfl, ?_⟩
  exact (keepsOrder_iff _ (by decide) rfl).mpr ⟨by simp [Readable, stored, verify, Option.filter], by decide⟩

/-- Two different lines come back newer first. -/
theorem newer_restored_first :
    ∃ contents, writeLogItems [{ mRessourceId := 9, logtime := 1 }, { mRessourceId := 9, logtime := 2 }] = .ok contents ∧
      ∀ runtime, ¬ KeepsOrder runtime
        [{ mRessourceId := 9, logtime := 1 }, { mRessourceId := 9, logtime := 2 }] contents := by
  refine ⟨_, rfl, fun runtime keeps => ?_⟩
  have readable : ∀ item ∈ [({ mRessourceId := 9, logtime := 1 } : LogItem), { mRessourceId := 9, logtime := 2 }],
      Readable item := by
    simp [Readable, stored, verify, Option.filter]
  exact absurd ((keepsOrder_readable (by decide) rfl readable).mp keeps) (by decide)

end RRoadVpn.Proofs.LogOrder
