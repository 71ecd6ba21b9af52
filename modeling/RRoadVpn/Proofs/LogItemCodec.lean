import RRoadVpn.LogItem

/-! A log item that fits its buffer is read back from it. Each `unmarschal` part
consumes exactly what the `marschal` part of the same name wrote. -/

namespace RRoadVpn.Proofs.LogItemCodec
open Library LogItem

private theorem get_bigEndian (n value : Nat) : Decodes (LogItem.get n) (bigEndian n value) (bigEndian n value) := by
  have read := Decodes.take UnmarschalError.bufferUnderflow (bigEndian n value)
  rwa [bigEndian_length] at read

theorem getChar_putChar {c : Char} (small : c.toNat < 65536) : Decodes LogItem.getChar (putChar c) c.toNat := by
  have read := Decodes.map ofBigEndian (get_bigEndian 2 c.toNat)
  rwa [ofBigEndian_bigEndian_of_lt (by omega)] at read

theorem getInt_putInt (value : BitVec 32) : Decodes LogItem.getInt (putInt value) value := by
  have small := value.isLt
  have read := Decodes.map (fun bytes => BitVec.ofNat 32 (ofBigEndian bytes)) (get_bigEndian 4 value.toNat)
  rwa [ofBigEndian_bigEndian_of_lt (by omega), BitVec.ofNat_toNat, BitVec.setWidth_eq] at read

theorem getLong_putLong (value : BitVec 64) : Decodes LogItem.getLong (putLong value) value := by
  have small := value.isLt
  have read := Decodes.map (fun bytes => BitVec.ofNat 64 (ofBigEndian bytes)) (get_bigEndian 8 value.toNat)
  rwa [ofBigEndian_bigEndian_of_lt (by omega), BitVec.ofNat_toNat, BitVec.setWidth_eq] at read

theorem newString_utf8bytes (str : String) : newString (utf8bytes str) = str := by
  have valid : String.fromUTF8? ⟨(utf8bytes str).toArray⟩ = some str := by
    simp [utf8bytes, String.fromUTF8?, String.fromUTF8, str.isValidUTF8]
  rw [newString, valid]

theorem toInt_size {n : Nat} (small : n < 2 ^ 31) : (BitVec.ofNat 32 n).toInt = n := by
  rw [BitVec.toInt_eq_toNat_of_lt] <;> simp <;> omega

theorem getArray_bytes {bytes : List UInt8} (small : bytes.length < 2 ^ 31) :
    Decodes (getArray (BitVec.ofNat 32 bytes.length)) bytes bytes := by
  have size : (BitVec.ofNat 32 bytes.length).toNat = bytes.length := by
    rw [BitVec.toNat_ofNat, Nat.mod_eq_of_lt (by omega)]
  unfold getArray
  rw [toInt_size small, if_neg (by omega), size]
  exact Decodes.take _ bytes

private theorem unmarschalString_marschalString {str : String} (small : (utf8bytes str).length < 2 ^ 31) :
    Decodes unmarschalString (marschalString str) str := by
  unfold unmarschalString marschalString
  refine (getInt_putInt _).bind ?_
  have read := (getArray_bytes small).map newString
  rwa [newString_utf8bytes] at read

private theorem utf8bytes_pos {str : String} (nonempty : str ≠ "") : 0 < (utf8bytes str).length := by
  have size : str.utf8ByteSize ≠ 0 := fun zero => nonempty (String.utf8ByteSize_eq_zero_iff.mp zero)
  rw [← String.size_toByteArray] at size
  exact Nat.pos_of_ne_zero (by simpa [utf8bytes] using size)

theorem size_ne_zero {n : Nat} (positive : 0 < n) (small : n < 2 ^ 32) : BitVec.ofNat 32 n ≠ 0 := by
  intro zero
  have := congrArg BitVec.toNat zero
  rw [BitVec.toNat_ofNat, Nat.mod_eq_of_lt small] at this
  exact Nat.ne_of_gt positive this

private theorem unmarschalMessage_marschalMessage {message : Option String}
    (small : ∀ text, message = some text → (utf8bytes text).length < 2 ^ 31) :
    Decodes unmarschalMessage (marschalMessage message) (message.filter (· ≠ "")) := by
  have absent : Decodes unmarschalMessage (putInt 0) none := by
    unfold unmarschalMessage
    rw [← List.append_nil (putInt 0)]
    exact (getInt_putInt 0).bind (Decodes.pure none)
  cases message with
  | none => exact absent
  | some text =>
    by_cases empty : text = ""
    · subst empty
      exact absent
    · have size := small text rfl
      have nonzero := size_ne_zero (utf8bytes_pos empty) (Nat.lt_trans size (by decide))
      have written : marschalMessage (some text) = marschalString text := if_neg empty
      have kept : (some text).filter (· ≠ "") = some text := by simp [empty]
      rw [written, kept]
      unfold unmarschalMessage marschalString
      refine (getInt_putInt _).bind ?_
      rw [if_neg nonzero]
      refine Decodes.remaining fun left enough => ?_
      rw [if_neg (by rw [toInt_size size]; omega)]
      have read := (getArray_bytes size).map fun bytes => some (newString bytes)
      rwa [newString_utf8bytes] at read

/-- An argument as its bytes have it: objects of other classes are their text. -/
def storedArg : LogArg → LogArg
  | .other text => .string text
  | arg => arg

private theorem unmarschalArg_marschalArg {arg : LogArg}
    (small : ∀ text, storedArg arg = .string text → (utf8bytes text).length < 2 ^ 31) :
    Decodes unmarschalArg (marschalArg arg) (storedArg arg) := by
  cases arg with
  | string value => exact (getChar_putChar (by decide)).bind ((unmarschalString_marschalString (small value rfl)).map _)
  | integer value => exact (getChar_putChar (by decide)).bind ((getInt_putInt value).map _)
  | float bits => exact (getChar_putChar (by decide)).bind ((getInt_putInt bits).map _)
  | double bits => exact (getChar_putChar (by decide)).bind ((getLong_putLong bits).map _)
  | long value => exact (getChar_putChar (by decide)).bind ((getLong_putLong value).map _)
  | null =>
    unfold unmarschalArg marschalArg
    rw [← List.append_nil (putChar '0')]
    exact (getChar_putChar (by decide)).bind (Decodes.pure _)
  | other text => exact (getChar_putChar (by decide)).bind ((unmarschalString_marschalString (small text rfl)).map _)

private theorem string_small {str : String} (bytes : List UInt8) (inside : (utf8bytes str).length ≤ bytes.length)
    (fits : bytes.length ≤ bufferSize) : (utf8bytes str).length < 2 ^ 31 :=
  Nat.lt_of_le_of_lt (Nat.le_trans inside fits) (by decide)

theorem unmarschalArg_fits {arg : LogArg} (fits : (marschalArg arg).length ≤ bufferSize) :
    Decodes unmarschalArg (marschalArg arg) (storedArg arg) := by
  refine unmarschalArg_marschalArg fun text same => ?_
  refine string_small (marschalArg arg) ?_ fits
  cases arg <;> cases same <;> simp [marschalArg, marschalString] <;> omega

theorem unmarschalMessage_fits {message : Option String} (fits : (marschalMessage message).length ≤ bufferSize) :
    Decodes unmarschalMessage (marschalMessage message) (message.filter (· ≠ "")) := by
  refine unmarschalMessage_marschalMessage fun text same => ?_
  by_cases empty : text = ""
  · subst empty
    decide
  · refine string_small (marschalMessage message) ?_ fits
    simp [same, marschalMessage, marschalString, empty]

private theorem unmarschalLoop_marschalArgs {args : List LogArg}
    (fits : (args.flatMap marschalArg).length ≤ bufferSize) :
    Decodes (unmarschalLoop args.length) (args.flatMap marschalArg) (args.map storedArg) := by
  induction args with
  | nil => exact Decodes.pure []
  | cons arg rest ih =>
    rw [List.flatMap_cons, List.length_append] at fits
    rw [List.flatMap_cons, List.length_cons]
    exact (unmarschalArg_fits (by omega)).bind ((ih (by omega)).map _)

def storedArgs (args : Option (List LogArg)) : Option (List LogArg) :=
  (args.filter (· ≠ [])).map (List.map storedArg)

private theorem unmarschalArgs_marschalArgs {args : Option (List LogArg)}
    (few : ∀ list, args = some list → list.length ≤ 30) (fits : (marschalArgs args).length ≤ bufferSize) :
    Decodes unmarschalArgs (marschalArgs args) (storedArgs args) := by
  have absent : Decodes unmarschalArgs (putInt 0) none := by
    unfold unmarschalArgs
    rw [← List.append_nil (putInt 0)]
    exact (getInt_putInt 0).bind (Decodes.pure none)
  cases args with
  | none => exact absent
  | some list =>
    by_cases empty : list = []
    · subst empty
      exact absent
    · have short := few list rfl
      have positive := List.length_pos_iff.mpr empty
      have written : marschalArgs (some list) = putInt (BitVec.ofNat 32 list.length) ++ list.flatMap marschalArg :=
        if_neg empty
      have kept : storedArgs (some list) = some (list.map storedArg) := by simp [storedArgs, empty]
      rw [written, List.length_append] at fits
      rw [written, kept]
      unfold unmarschalArgs
      refine (getInt_putInt _).bind ?_
      have size : (BitVec.ofNat 32 list.length).toNat = list.length := by
        rw [BitVec.toNat_ofNat, Nat.mod_eq_of_lt (by omega)]
      rw [toInt_size (by omega), if_neg (by omega), if_neg (size_ne_zero positive (by omega)), if_neg (by omega), size]
      exact (unmarschalLoop_marschalArgs (by omega)).map some

theorem getEnumByValue_getInt (level : LogLevel) :
    LogLevel.getEnumByValue (BitVec.ofInt 32 level.getInt).toInt = some level := by
  cases level <;> decide

/-- The item as its bytes have it: empty and absent texts and argument lists are one. -/
def stored (item : LogItem) : LogItem :=
  { item with mMessage := item.mMessage.filter (· ≠ ""), mArgs := storedArgs item.mArgs }

private theorem unmarschal_marschal {item : LogItem} {level : LogLevel} (leveled : item.mLevel = some level)
    (few : ∀ list, item.mArgs = some list → list.length ≤ 30) (fits : (marschal item level).length ≤ bufferSize) :
    Decodes unmarschal (marschal item level) (stored item) := by
  have message := unmarschalMessage_fits (by simp [marschal] at fits; omega : (marschalMessage item.mMessage).length ≤ bufferSize)
  have args : Decodes unmarschalArgs (marschalArgs item.mArgs) (storedArgs item.mArgs) := by
    refine unmarschalArgs_marschalArgs few (Nat.le_trans ?_ fits)
    simp [marschal]
    omega
  have version : Decodes (LogItem.get 1) [0] [0] := Decodes.take _ [0]
  have result : stored item = { stored item with
      mLevel := LogLevel.getEnumByValue (BitVec.ofInt 32 level.getInt).toInt } := by
    rw [getEnumByValue_getInt, ← leveled]
    rfl
  rw [result]
  unfold unmarschal marschal
  simp only [List.append_assoc]
  refine version.bind ((getLong_putLong _).bind ((getInt_putInt _).bind ((getInt_putInt _).bind
    ((getInt_putInt _).bind (message.bind ?_)))))
  exact args.map _

theorem getMarschaledBytes_ok {item : LogItem} {bytes : List UInt8} (written : item.getMarschaledBytes = .ok bytes) :
    ∃ level, item.mLevel = some level ∧ bytes = marschal item level ∧ bytes.length ≤ bufferSize := by
  unfold getMarschaledBytes at written
  split at written
  · cases written
  next level leveled =>
    split at written <;> cases written
    next fits => exact ⟨level, leveled, rfl, Nat.le_of_not_lt fits⟩

private theorem ofBytes_of_decodes {bytes rest : List UInt8} {item : LogItem}
    (decodes : Decodes unmarschal bytes item) :
    ofBytes (bytes ++ rest) bytes.length = .ok item := by
  have inside : ¬ ((bytes.length : Int) < 0 ∨ ((bytes ++ rest).length : Int) < bytes.length) := by
    rw [List.length_append]
    omega
  rw [ofBytes, if_neg inside, Int.toNat_natCast, List.take_left' rfl, decodes.whole]
  rfl

theorem ofBytes_getMarschaledBytes {item : LogItem} {bytes : List UInt8} (rest : List UInt8)
    (few : ∀ list, item.mArgs = some list → list.length ≤ 30) (written : item.getMarschaledBytes = .ok bytes) :
    ofBytes (bytes ++ rest) bytes.length = .ok (stored item) := by
  obtain ⟨level, leveled, rfl, fits⟩ := getMarschaledBytes_ok written
  exact ofBytes_of_decodes (unmarschal_marschal leveled few fits)

def Typed : LogArg → Prop
  | .other _ => False
  | _ => True

private theorem storedArg_typed {arg : LogArg} (typed : Typed arg) : storedArg arg = arg := by
  cases arg with
  | other text => exact typed.elim
  | _ => rfl

private theorem storedArgs_typed {args : Option (List LogArg)}
    (typed : ∀ list, args = some list → ∀ arg ∈ list, Typed arg) :
    storedArgs args = args.filter (· ≠ []) := by
  cases args with
  | none => rfl
  | some list =>
    have same : list.map storedArg = list := by
      conv_rhs => rw [← List.map_id list]
      exact List.map_congr_left fun arg mem => storedArg_typed (typed list rfl arg mem)
    by_cases empty : list = []
    · subst empty
      rfl
    · have kept : (some list).filter (· ≠ []) = some list := by simp [empty]
      rw [storedArgs, kept, Option.map_some, same]

/-- Decoding an item's bytes gives the item back, up to empty and absent texts
and argument lists, whatever the buffer holds after them. -/
theorem round_trip {item : LogItem} {bytes : List UInt8} (rest : List UInt8)
    (few : ∀ list, item.mArgs = some list → list.length ≤ 30 ∧ ∀ arg ∈ list, Typed arg)
    (written : item.getMarschaledBytes = .ok bytes) :
    ofBytes (bytes ++ rest) bytes.length =
      .ok { item with mMessage := item.mMessage.filter (· ≠ ""), mArgs := item.mArgs.filter (· ≠ []) } := by
  rw [ofBytes_getMarschaledBytes rest (fun list same => (few list same).1) written, stored,
    storedArgs_typed fun list same => (few list same).2]

theorem round_trip_warning :
    ofBytes ([0, 0, 0, 0, 0, 0, 0, 0, 7, 255, 255, 255, 255, 0, 0, 0, 1, 0, 0, 0, 9, 0, 0, 0, 0, 0, 0, 0, 1,
        0, 105, 255, 255, 255, 254] ++ [5]) 35 =
      .ok { mArgs := some [.integer (-2)], mRessourceId := 9, mLevel := some .warning, logtime := 7 } := by
  have written : getMarschaledBytes
      { mArgs := some [.integer (-2)], mRessourceId := 9, mLevel := some .warning, logtime := 7 } = .ok _ := rfl
  exact round_trip [5] (by simp [Typed]) written

private theorem unmarschalLoop_length (n : Nat) : Ensures (unmarschalLoop n) fun args => args.length = n := by
  induction n with
  | zero => exact Ensures.pure rfl
  | succ n ih =>
    unfold unmarschalLoop
    refine (Ensures.trivial _).bind fun arg _ => ih.bind fun rest length => Ensures.pure ?_
    rw [List.length_cons, length]

private theorem unmarschalArgs_few : Ensures unmarschalArgs fun args => ∀ list, args = some list →
    list.length ≤ 30 := by
  unfold unmarschalArgs
  refine (Ensures.trivial _).bind fun numArgs _ => ?_
  split
  · exact Ensures.fail _
  next few =>
    split
    · exact Ensures.pure (by simp)
    · split
      · exact Ensures.fail _
      next positive =>
        refine (unmarschalLoop_length _).bind fun args length => Ensures.pure ?_
        rintro _ ⟨⟩
        rw [length]
        have := BitVec.toInt_eq_toNat_cond numArgs
        omega

theorem unmarschal_few : Ensures unmarschal fun item => ∀ list, item.mArgs = some list → list.length ≤ 30 := by
  unfold unmarschal
  refine (Ensures.trivial _).bind fun _ _ => (Ensures.trivial _).bind fun _ _ => (Ensures.trivial _).bind fun _ _ =>
    (Ensures.trivial _).bind fun _ _ => (Ensures.trivial _).bind fun _ _ => (Ensures.trivial _).bind fun _ _ => ?_
  exact unmarschalArgs_few.bind fun args few => Ensures.pure few

theorem ofBytes_few {bytes : List UInt8} {length : Int} {item : LogItem} (read : ofBytes bytes length = .ok item) :
    ∀ list, item.mArgs = some list → list.length ≤ 30 := by
  unfold ofBytes at read
  split at read
  · cases read
  · split at read
    · cases read
    next found =>
      split at read <;> cases read
      exact unmarschal_few _ _ _ found

end RRoadVpn.Proofs.LogItemCodec
