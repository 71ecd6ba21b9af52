import Mathlib.Data.List.Monad
import RRoadVpn.LogSnapshot
import RRoadVpn.Proofs.LogItemCodec

/-! The whole log buffer reaches the client if and only if every item of it fits the
buffer it is marshalled into. -/

namespace RRoadVpn.Proofs.LogSnapshotDelivery
open RRoadVpn.Library RRoadVpn.LogItem RRoadVpn.LogSnapshot RRoadVpn.Proofs.LogItemCodec

/-! ### Items -/

/-- The item has a level, and its bytes fit. -/
def Fits (item : LogItem) : Prop := ∃ level, item.mLevel = some level ∧ (marschal item level).length ≤ bufferSize

instance (item : LogItem) : Decidable (Fits item) :=
  decidable_of_iff (∃ level ∈ item.mLevel, (marschal item level).length ≤ bufferSize) Iff.rfl

private theorem getMarschaledBytes_iff {item : LogItem} :
    (∃ bytes, item.getMarschaledBytes = .ok bytes) ↔ Fits item := by
  constructor
  · rintro ⟨bytes, written⟩
    obtain ⟨level, leveled, rfl, fits⟩ := getMarschaledBytes_ok written
    exact ⟨level, leveled, fits⟩
  · rintro ⟨level, leveled, fits⟩
    refine ⟨marschal item level, ?_⟩
    rw [getMarschaledBytes, leveled]
    exact if_neg (Nat.not_lt.mpr fits)

/-- The arguments of an item are not more than are read, and of kinds that are kept. -/
def Encodable (item : LogItem) : Prop := ∀ list, item.mArgs = some list → list.length ≤ 30 ∧ ∀ arg ∈ list, Typed arg

/-- The item up to empty and absent texts and argument lists. -/
def restored (item : LogItem) : LogItem :=
  { item with mMessage := item.mMessage.filter (· ≠ ""), mArgs := item.mArgs.filter (· ≠ []) }

/-! ### One item -/

theorem readShort_length {n : Nat} (fits : n ≤ bufferSize) :
    ∃ high low, writeShort n = [high, low] ∧ readShort high low = n := by
  have small : n < 256 ^ 2 := Nat.lt_of_le_of_lt fits (by decide)
  refine ⟨_, _, rfl, ?_⟩
  have value : ofBigEndian (bigEndian 2 n) = n := ofBigEndian_bigEndian_of_lt small
  have bound : n ≤ 16384 := fits
  change (BitVec.ofNat 16 (ofBigEndian (bigEndian 2 n))).toInt = n
  rw [value, BitVec.toInt_eq_toNat_of_lt] <;> rw [BitVec.toNat_ofNat, Nat.mod_eq_of_lt (by omega)]
  omega

private theorem readItems_item {item : LogItem} {bytes buf later : List UInt8} (encodable : Encodable item)
    (written : item.getMarschaledBytes = .ok bytes) :
    ∃ buf', readItems buf (writeShort bytes.length ++ bytes ++ later) =
      (readItems buf' later).cons (restored item) := by
  obtain ⟨-, -, -, fits⟩ := getMarschaledBytes_ok written
  obtain ⟨high, low, short, length⟩ := readShort_length fits
  refine ⟨bytes ++ buf.drop bytes.length, ?_⟩
  have noMark : ¬ (bytes.length : Int) = endMark := by
    have bound : bytes.length ≤ 16384 := fits
    have mark : endMark = 32767 := rfl
    omega
  have inside : ¬ (bytes ++ later).length < bytes.length := by
    rw [List.length_append]
    omega
  have item' : ofBytes (bytes ++ buf.drop bytes.length) bytes.length = .ok (restored item) :=
    round_trip _ encodable written
  rw [short]
  simp only [List.cons_append, List.nil_append]
  rw [readItems]
  simp only [length, Int.toNat_natCast]
  rw [if_neg noMark, if_neg (by omega), if_neg inside, List.take_left' rfl, item', List.drop_left' rfl]

private theorem readItems_endMark (buf later : List UInt8) :
    readItems buf (writeShort endMark ++ later) = ⟨[], .endMark, later⟩ := by
  have mark : writeShort endMark = [0x7f, 0xff] := by decide
  rw [mark]
  simp only [List.cons_append, List.nil_append]
  rw [readItems]
  exact if_pos (by decide)

/-! ### The buffer -/

/-- The writer ends normally exactly when all items fit. -/
theorem pushLogs_ends {logbuffer : List LogItem} : (pushLogs logbuffer).2 = none ↔ ∀ item ∈ logbuffer, Fits item := by
  induction logbuffer with
  | nil => exact iff_of_true rfl (List.forall_mem_nil _)
  | cons item logbuffer ih =>
    rw [List.forall_mem_cons, ← ih, ← getMarschaledBytes_iff, pushLogs]
    cases item.getMarschaledBytes with
    | error e => simp
    | ok bytes => simp

private theorem readItems_pushLogs {logbuffer : List LogItem} (encodable : ∀ item ∈ logbuffer, Encodable item)
    (fits : ∀ item ∈ logbuffer, Fits item) (buf : List UInt8) :
    readItems buf (pushLogs logbuffer).1 = ⟨logbuffer.map restored, .endMark, []⟩ := by
  induction logbuffer generalizing buf with
  | nil =>
    have read := readItems_endMark buf []
    rwa [List.append_nil] at read
  | cons item logbuffer ih =>
    obtain ⟨first, others⟩ := List.forall_mem_cons.mp encodable
    obtain ⟨here, later⟩ := List.forall_mem_cons.mp fits
    obtain ⟨bytes, written⟩ := getMarschaledBytes_iff.mpr here
    obtain ⟨buf', read⟩ := @readItems_item item bytes buf (pushLogs logbuffer).1 first written
    rw [pushLogs, written]
    simp only
    rw [read, ih others later]
    rfl

/-- The writer ends normally, and the client restores the items that fit, in order, up to the mark. -/
def Delivered (logbuffer : List LogItem) : Prop :=
  (pushLogs logbuffer).2 = none ∧
    readItems newBuffer (pushLogs logbuffer).1 = ⟨(logbuffer.filter (Fits ·)).map restored, .endMark, []⟩

/-- The log buffer is delivered exactly when each of its items fits. -/
theorem delivered_iff {logbuffer : List LogItem} (encodable : ∀ item ∈ logbuffer, Encodable item) :
    Delivered logbuffer ↔ ∀ item ∈ logbuffer, Fits item := by
  constructor
  · rintro ⟨ended, -⟩
    exact pushLogs_ends.mp ended
  · intro fits
    refine ⟨pushLogs_ends.mpr fits, ?_⟩
    have all : logbuffer.filter (Fits ·) = logbuffer :=
      List.filter_eq_self.mpr fun item member => decide_eq_true (fits item member)
    rw [all]
    exact readItems_pushLogs encodable fits newBuffer

theorem delivered_iff_text_and_number :
    Delivered [{ mMessage := some "up", logtime := 1 },
      { mArgs := some [.integer 7], mRessourceId := 9, logtime := 2 }] ↔
      ∀ item ∈ [({ mMessage := some "up", logtime := 1 } : LogItem),
        { mArgs := some [.integer 7], mRessourceId := 9, logtime := 2 }], Fits item :=
  delivered_iff (by simp [Encodable, Typed])

theorem text_fits {item : LogItem} {text : String} (texted : item.mMessage = some text) (fits : Fits item) :
    (utf8bytes text).length < bufferSize := by
  obtain ⟨level, -, inside⟩ := fits
  have message : (utf8bytes text).length ≤ (marschalMessage item.mMessage).length := by
    rw [texted, marschalMessage]
    split
    next empty =>
      subst empty
      decide
    · rw [marschalString, List.length_append]
      omega
  simp only [marschal, List.length_append, List.length_cons] at inside
  omega

private theorem long_text (n : Nat) : (utf8bytes (String.ofList (List.replicate n 'a'))).length = n := by
  have bytes : utf8bytes (String.ofList (List.replicate n 'a')) =
      (List.replicate n 'a').flatMap String.utf8EncodeChar := by
    rw [utf8bytes, String.toByteArray_ofList, List.utf8Encode, List.data_toByteArray]
  rw [bytes, List.flatMap_replicate]
  simp [String.utf8EncodeChar]

/-- One long text keeps the items behind it and the mark from the client. -/
theorem long_text_ends_writer :
    ¬ ∀ logbuffer : List LogItem, (∀ item ∈ logbuffer, Encodable item) → Delivered logbuffer := by
  intro claim
  have delivered := claim [{ mMessage := some (String.ofList (List.replicate bufferSize 'a')), logtime := 1 },
    { mMessage := some "up", logtime := 2 }] (by simp [Encodable])
  have fits := (List.forall_mem_cons.mp (pushLogs_ends.mp delivered.1)).1
  have shorter := text_fits rfl fits
  rw [long_text] at shorter
  exact Nat.lt_irrefl _ shorter

end RRoadVpn.Proofs.LogSnapshotDelivery
