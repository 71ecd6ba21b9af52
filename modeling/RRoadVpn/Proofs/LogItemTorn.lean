import RRoadVpn.Library.Torn
import RRoadVpn.Proofs.LogItemCodec

/-! An item whose last bytes were lost and read as 0xFF. Only its last argument
can be torn without an exception, as far as the argument still decodes. -/

namespace RRoadVpn.Proofs.LogItemTorn
open Library LogItem LogItemCodec

/-! ### Numbers -/

private theorem takes_getInt : Takes 4 LogItem.getInt := (Takes.take _ 4).map _

private theorem takes_getLong : Takes 8 LogItem.getLong := (Takes.take _ 8).map _

abbrev padByte : UInt8 := 0xff

private theorem pads_getArray {len : BitVec 32} {input : List UInt8} (small : input.length ≤ len.toNat) :
    Pads padByte (getArray len) input := by
  unfold getArray
  split
  · exact (Stops.fail _).pads
  · exact (Takes.take _ len.toNat).pads small

theorem bigEndian_small {n : Nat} (small : n < 65536) :
    bigEndian 4 n = [0, 0, UInt8.ofNat (n / 256), UInt8.ofNat n] := by
  have high : n / 256 / 256 = 0 := by omega
  simp [bigEndian, high]

/-- What a torn size reads as: negative, large, or with its last byte lost. -/
def TornSize (n : Nat) (part : List UInt8) (value : BitVec 32) : Prop :=
  part.length < 3 ∧ (value.toInt = -1 ∨ 65535 ≤ value.toNat ∧ value.toNat < 2 ^ 31) ∨
    part.length = 3 ∧ value.toNat = n / 256 * 256 + 255

private theorem getInt_torn {n : Nat} (small : n < 65536) {part : List UInt8} (torn : TornOff (bigEndian 4 n) part)
    (m : Nat) :
    (m < 4 - part.length ∧ Fails LogItem.getInt (part ++ List.replicate m padByte)) ∨
      ∃ value k, m = 4 - part.length + k ∧ TornSize n part value ∧
        LogItem.getInt (part ++ List.replicate m padByte) = .ok (value, List.replicate k padByte) := by
  have length := torn.length
  rw [bigEndian_length] at length
  rcases take_padded padByte UnmarschalError.bufferUnderflow (Nat.le_of_lt length) m with ⟨few, failed⟩ |
    ⟨k, same, read⟩
  · exact Or.inl ⟨few, failed.bind⟩
  · refine Or.inr ⟨_, k, same, ?_, bind_of_ok read⟩
    obtain ⟨lost, some_, split⟩ := torn
    rw [bigEndian_small small] at split
    match part, split with
    | [], _ => exact Or.inl (by decide)
    | [_], rfl => exact Or.inl (by decide)
    | [_, _], rfl => exact Or.inl (by decide)
    | [_, _, _], rfl =>
      have byte : padByte.toNat = 255 := rfl
      refine Or.inr ⟨rfl, ?_⟩
      simp [ofBigEndian, byte]
      omega

/-! ### Arguments -/

private theorem unmarschalArgs_torn {n : Nat} (small : n < 65536) {part : List UInt8}
    (torn : TornOff (bigEndian 4 n) part) :
    Stops padByte unmarschalArgs part := by
  intro m
  unfold unmarschalArgs
  rcases getInt_torn small torn m with ⟨-, failed⟩ | ⟨value, k, -, size, read⟩
  · exact failed.bind
  · refine Fails.after read ?_
    have signed := BitVec.toInt_eq_toNat_cond value
    by_cases many : value.toInt > 30
    · rw [if_pos many]
      exact ⟨_, rfl⟩
    · have negative : value.toInt < 0 := by
        rcases size with ⟨-, minus | large⟩ | ⟨-, last⟩ <;> omega
      have nonzero : value ≠ 0 := by
        rintro rfl
        exact absurd negative (by decide)
      rw [if_neg many, if_neg nonzero, if_pos negative]
      exact ⟨_, rfl⟩

private theorem unmarschalArgs_padding : Stops padByte unmarschalArgs [] :=
  unmarschalArgs_torn (n := 0) (by decide) ⟨bigEndian 4 0, by decide, rfl⟩

theorem unmarschalArg_tag {c : Char} (ascii : c.toNat < 256) {part : List UInt8} (torn : TornOff (putChar c) part) :
    Stops padByte unmarschalArg part := by
  intro m
  have length := torn.length
  rw [putChar, bigEndian_length] at length
  unfold unmarschalArg
  rcases take_padded padByte UnmarschalError.bufferUnderflow (Nat.le_of_lt length) m with ⟨-, failed⟩ | ⟨k, -, read⟩
  · exact failed.bind.bind
  · refine Fails.after (bind_of_ok read) ?_
    have unknown : 255 ≤ ofBigEndian (part ++ List.replicate (2 - part.length) padByte) := by
      obtain ⟨lost, some_, split⟩ := torn
      have high : c.toNat / 256 = 0 := by omega
      simp only [putChar, bigEndian, high, List.nil_append, List.cons_append] at split
      rcases part with _ | ⟨first, _ | ⟨second, part⟩⟩
      · decide
      · cases split
        decide
      · rw [List.length_cons, List.length_cons] at length
        omega
    rw [if_neg (by simp; omega), if_neg (by simp; omega), if_neg (by simp; omega), if_neg (by simp; omega),
      if_neg (by simp; omega), if_neg (by simp; omega)]
    exact ⟨_, rfl⟩

/-- How many of a text's last bytes can be lost: its length too, when that reads the same. -/
def spareText (str : String) : Nat :=
  if (utf8bytes str).length % 256 = 255 then (utf8bytes str).length + 1 else (utf8bytes str).length

private theorem getArray_short {len : BitVec 32} {input : List UInt8}
    (short : len.toInt < 0 ∨ input.length < len.toNat) :
    Fails (getArray len) input := by
  unfold getArray
  split
  · exact ⟨_, rfl⟩
  · refine ⟨_, if_neg ?_⟩
    omega

private theorem getArray_length {len : BitVec 32} {input : List UInt8} (size : len.toNat = input.length)
    (small : input.length < 2 ^ 31) : getArray len input = .ok (input, []) := by
  have same : len = BitVec.ofNat 32 input.length := by
    rw [← size, BitVec.ofNat_toNat, BitVec.setWidth_eq]
  rw [same]
  exact (getArray_bytes small).whole

private theorem marschalString_eq {str : String} (small : (utf8bytes str).length ≤ bufferSize) :
    marschalString str = bigEndian 4 (utf8bytes str).length ++ utf8bytes str := by
  have little : (utf8bytes str).length < 2 ^ 32 := Nat.lt_of_le_of_lt small (by decide)
  rw [marschalString, putInt, BitVec.toNat_ofNat, Nat.mod_eq_of_lt little]

theorem unmarschalString_torn {str : String} (small : (utf8bytes str).length ≤ bufferSize) {part : List UInt8}
    (torn : TornOff (bigEndian 4 (utf8bytes str).length) part) {m : Nat}
    (same : m = 4 - part.length + (utf8bytes str).length) :
    if m ≤ spareText str then ∃ value, unmarschalString (part ++ List.replicate m padByte) = .ok (value, [])
    else Fails unmarschalString (part ++ List.replicate m padByte) := by
  have little : (utf8bytes str).length < 65535 := Nat.lt_of_le_of_lt small (by decide)
  have length := torn.length
  rw [bigEndian_length] at length
  rcases getInt_torn (Nat.lt_succ_of_lt little) torn m with ⟨few, -⟩ | ⟨value, k, enough, size, read⟩
  · omega
  · have left : k = (utf8bytes str).length := by omega
    subst left
    have signed := BitVec.toInt_eq_toNat_cond value
    unfold spareText
    by_cases kept : part.length = 3 ∧ (utf8bytes str).length % 256 = 255
    · have whole : value.toNat = (utf8bytes str).length := by
        rcases size with ⟨early, -⟩ | ⟨-, last⟩ <;> omega
      rw [if_pos kept.2, if_pos (by omega)]
      have array := getArray_length
        (by rw [whole, List.length_replicate] : value.toNat = (List.replicate (utf8bytes str).length padByte).length)
        (by rw [List.length_replicate]; omega)
      exact ⟨_, (bind_of_ok read).trans (bind_of_ok array)⟩
    · have short : value.toInt < 0 ∨ (List.replicate (utf8bytes str).length padByte).length < value.toNat := by
        rw [List.length_replicate]
        rcases size with ⟨-, minus | large⟩ | ⟨last, value⟩ <;> omega
      rw [if_neg (by split <;> omega)]
      exact Fails.after read (getArray_short short).bind

private theorem spares_text {str : String} (small : (utf8bytes str).length ≤ bufferSize) :
    Spares padByte unmarschalString (marschalString str) (spareText str) fun _ => True := by
  have little : (utf8bytes str).length < 2 ^ 31 := Nat.lt_of_le_of_lt small (by decide)
  have size : (BitVec.ofNat 32 (utf8bytes str).length).toNat = (utf8bytes str).length := by
    rw [BitVec.toNat_ofNat, Nat.mod_eq_of_lt (by omega)]
  have header : Decodes LogItem.getInt (bigEndian 4 (utf8bytes str).length)
      (BitVec.ofNat 32 (utf8bytes str).length) := by
    have read := getInt_putInt (BitVec.ofNat 32 (utf8bytes str).length)
    rwa [putInt, size] at read
  rw [marschalString_eq small]
  have spare : (utf8bytes str).length ≤ spareText str ∧ spareText str ≤ (utf8bytes str).length + 1 := by
    unfold spareText
    split <;> omega
  refine ⟨by simp; omega, fun part torn => ?_, fun part torn few => ?_, fun part torn many => ?_⟩ <;>
    rcases torn.of_append with early | ⟨rest, rfl, late⟩
  · have short := early.length
    rw [bigEndian_length] at short
    exact (takes_getInt.pads (Nat.le_of_lt short)).bind fun len => (pads_getArray (Nat.zero_le _)).map newString
  · refine Pads.after header ((pads_getArray ?_).map newString)
    rw [size]
    exact Nat.le_of_lt late.length
  · have read :=
      unmarschalString_torn small early (m := (bigEndian 4 (utf8bytes str).length ++ utf8bytes str).length -
      part.length) (by have := early.length; simp at this ⊢; omega)
    rw [if_pos few] at read
    obtain ⟨value, read⟩ := read
    exact ⟨value, trivial, read⟩
  · simp only [List.length_append, Nat.add_sub_add_left, List.append_assoc]
    have whole : (rest ++ List.replicate ((utf8bytes str).length - rest.length) padByte).length =
        (utf8bytes str).length := by
      have := late.length
      simp
      omega
    have array := getArray_length (size.trans whole.symm) (by omega)
    exact ⟨_, trivial, (header.bind_eq _ _).trans (bind_of_ok array)⟩
  · have read :=
      unmarschalString_torn small early (m := (bigEndian 4 (utf8bytes str).length ++ utf8bytes str).length -
      part.length) (by have := early.length; simp at this ⊢; omega)
    rwa [if_neg (by omega)] at read
  · simp only [List.length_append, Nat.add_sub_add_left] at many
    omega

/-- How many of an argument's last bytes can be lost with the argument still read. -/
def spareArg : LogArg → Nat
  | .string text => spareText text
  | .integer _ => 4
  | .float _ => 4
  | .double _ => 8
  | .long _ => 8
  | .null => 0
  | .other text => spareText text

private theorem marschalString_le (str : String) : (utf8bytes str).length ≤ (marschalString str).length := by
  simp [marschalString]

private theorem spares_arg {arg : LogArg} (small : (marschalArg arg).length ≤ bufferSize) :
    Spares padByte unmarschalArg (marschalArg arg) (spareArg arg) fun _ => True := by
  have stops {c : Char} (ascii : c.toNat < 256) (part : List UInt8) (torn : TornOff (putChar c) part) :
      Stops padByte unmarschalArg part := unmarschalArg_tag ascii torn
  have number {n : Nat} {β : Type} {decoder : Unmarschal β} (takes : Takes n decoder) (wrap : β → LogArg)
      {payload : List UInt8} (length : payload.length = n) :
      Spares padByte (do return wrap (← decoder)) payload n fun _ => True := by
    subst length
    exact takes.spares.bind_pure fun _ _ => trivial
  have text {str : String} (inside : (marschalString str).length ≤ bufferSize) (wrap : String → LogArg) :
      Spares padByte (do return wrap (← unmarschalString)) (marschalString str) (spareText str) fun _ => True :=
    (spares_text (Nat.le_trans (marschalString_le str) inside)).bind_pure fun _ _ => trivial
  cases arg with
  | string value =>
    have inside : (marschalString value).length ≤ bufferSize := by
      simp [marschalArg] at small
      omega
    exact Spares.after (getChar_putChar (by decide)) (stops (by decide)) (text inside .string)
  | integer value =>
    exact Spares.after (getChar_putChar (by decide)) (stops (by decide))
      (number takes_getInt .integer (by simp [putInt]))
  | float bits =>
    exact Spares.after (getChar_putChar (by decide)) (stops (by decide))
      (number takes_getInt .float (by simp [putInt]))
  | double bits =>
    exact Spares.after (getChar_putChar (by decide)) (stops (by decide))
      (number takes_getLong .double (by simp [putLong]))
  | long value =>
    exact Spares.after (getChar_putChar (by decide)) (stops (by decide))
      (number takes_getLong .long (by simp [putLong]))
  | null => exact Spares.of_stops (stops (by decide))
  | other value =>
    have inside : (marschalString value).length ≤ bufferSize := by
      simp [marschalArg] at small
      omega
    exact Spares.after (getChar_putChar (by decide)) (stops (by decide)) (text inside .string)

/-! ### Items -/

private theorem unmarschalLoop_padding (n : Nat) : Stops padByte (unmarschalLoop (n + 1)) [] :=
  (unmarschalArg_tag (by decide : '0'.toNat < 256) ⟨putChar '0', by decide, rfl⟩).head

/-- Only the last argument can be torn and read: the next one finds no tag. -/
theorem spares_loop (init : List LogArg) {last : LogArg}
    (small : ((init ++ [last]).flatMap marschalArg).length ≤ bufferSize) :
    Spares padByte (unmarschalLoop (init ++ [last]).length) ((init ++ [last]).flatMap marschalArg) (spareArg last)
      fun _ => True := by
  induction init with
  | nil =>
    simp only [List.nil_append, List.flatMap_singleton, List.length_singleton] at small ⊢
    exact (spares_arg small).bind_pure fun _ _ => trivial
  | cons arg init ih =>
    rw [List.cons_append, List.flatMap_cons, List.length_append] at small
    have later := ih (by omega)
    rw [List.cons_append, List.flatMap_cons, List.length_cons]
    refine Spares.after (unmarschalArg_fits (by omega)) (fun part torn => ?_) (later.bind_pure fun _ _ => trivial)
    obtain ⟨n, more⟩ : ∃ n, (init ++ [last]).length = n + 1 := ⟨init.length, by simp⟩
    rw [more]
    exact Stops.bind ((spares_arg (by omega)).pads part torn) fun _ => (unmarschalLoop_padding n).head

/-- How many of the argument list's last bytes can be lost with the list still read. -/
def spareArgs : Option (List LogArg) → Nat
  | none => 0
  | some args => if args.length ≤ 30 then (args.getLast?.map spareArg).getD 0 else 0

private theorem length_le_args (args : List LogArg) : args.length ≤ (args.flatMap marschalArg).length := by
  induction args with
  | nil => exact Nat.le_refl _
  | cons arg args ih =>
    have tagged : 1 ≤ (marschalArg arg).length := by cases arg <;> simp [marschalArg, putChar] <;> omega
    rw [List.flatMap_cons, List.length_append, List.length_cons]
    omega

private theorem spares_args {args : Option (List LogArg)} (small : (marschalArgs args).length ≤ bufferSize) :
    Spares padByte unmarschalArgs (marschalArgs args) (spareArgs args) fun _ => True := by
  have absent : Spares padByte unmarschalArgs (putInt 0) 0 fun _ => True :=
    Spares.of_stops fun part torn => unmarschalArgs_torn (n := 0) (by decide) torn
  cases args with
  | none => exact absent
  | some list =>
    rcases List.eq_nil_or_concat list with rfl | ⟨init, last, rfl⟩
    · exact absent
    · rw [List.concat_eq_append] at small ⊢
      have written : marschalArgs (some (init ++ [last])) =
          putInt (BitVec.ofNat 32 (init ++ [last]).length) ++ (init ++ [last]).flatMap marschalArg := if_neg (by simp)
      have spare : spareArgs (some (init ++ [last])) = if (init ++ [last]).length ≤ 30 then spareArg last else 0 := by
        simp [spareArgs]
      rw [written, List.length_append] at small
      rw [written, spare]
      have fits : ((init ++ [last]).flatMap marschalArg).length ≤ 16384 := Nat.le_trans (Nat.le_add_left _ _) small
      have positive : 0 < (init ++ [last]).length := by simp
      have count := Nat.le_trans (length_le_args (init ++ [last])) fits
      generalize length : (init ++ [last]).length = n at *
      have size : (BitVec.ofNat 32 n).toNat = n := by
        rw [BitVec.toNat_ofNat, Nat.mod_eq_of_lt (by omega)]
      have header (part : List UInt8)
          (torn : TornOff (putInt (BitVec.ofNat 32 n)) part) : Stops padByte unmarschalArgs part := by
        rw [putInt, size] at torn
        exact unmarschalArgs_torn (by omega) torn
      by_cases few : n ≤ 30
      · rw [if_pos few]
        refine Spares.after (getInt_putInt _) header ?_
        rw [toInt_size (by omega), if_neg (by omega), if_neg (size_ne_zero positive (by omega)), if_neg (by omega),
          size]
        have loop := spares_loop init fits
        rw [length] at loop
        exact loop.bind_pure fun _ _ => trivial
      · rw [if_neg few]
        refine Spares.of_stops fun part torn => ?_
        rcases torn.of_append with early | ⟨rest, rfl, -⟩
        · exact header part early
        · refine Stops.after (getInt_putInt _) ?_
          rw [toInt_size (by omega), if_pos (by omega)]
          exact Stops.fail _

theorem unmarschalMessage_short {part : List UInt8} (short : part.length ≤ 4) :
    Pads padByte unmarschalMessage part := by
  unfold unmarschalMessage
  refine (takes_getInt.pads short).bind fun len => ?_
  split
  · exact Pads.pure none
  · refine Pads.remaining fun left => ?_
    split
    · exact (Stops.fail _).pads
    · exact (pads_getArray (Nat.zero_le _)).map _

theorem unmarschalMessage_torn {message : Option String} (small : (marschalMessage message).length ≤ bufferSize)
    {part : List UInt8} (torn : TornOff (marschalMessage message) part) : Pads padByte unmarschalMessage part := by
  by_cases short : part.length ≤ 4
  · exact unmarschalMessage_short short
  · have longer := torn.length
    obtain ⟨text, rfl, written⟩ : ∃ text, message = some text ∧ marschalMessage message = marschalString text := by
      cases message with
      | none => simp [marschalMessage, putInt] at longer; omega
      | some text =>
        by_cases empty : text = ""
        · simp [marschalMessage, empty, putInt] at longer
          omega
        · exact ⟨text, rfl, if_neg empty⟩
    rw [written] at torn small
    rcases torn.of_append with early | ⟨rest, rfl, late⟩
    · have := early.length
      simp [putInt] at this
      omega
    · have inside := marschalString_le text
      have size : (BitVec.ofNat 32 (utf8bytes text).length).toNat = (utf8bytes text).length := by
        rw [BitVec.toNat_ofNat, Nat.mod_eq_of_lt (Nat.lt_of_le_of_lt (Nat.le_trans inside small) (by decide))]
      unfold unmarschalMessage
      refine Pads.after (getInt_putInt _) ?_
      have nonzero : BitVec.ofNat 32 (utf8bytes text).length ≠ 0 := by
        intro zero
        rw [zero] at size
        exact absurd late.length (by rw [← size]; simp)
      rw [if_neg nonzero]
      refine Pads.remaining fun left => ?_
      split
      · exact (Stops.fail _).pads
      · refine (pads_getArray ?_).map _
        rw [size]
        exact Nat.le_of_lt late.length

/-- Only the last argument of an item can be torn and read, and the item verifies as it did. -/
theorem spares_item {item : LogItem} {level : LogLevel} (leveled : item.mLevel = some level)
    (small : (marschal item level).length ≤ bufferSize) :
    Spares padByte unmarschal (marschal item level) (spareArgs item.mArgs)
      fun read => read.verify = (stored item).verify := by
  have parts : (marschalMessage item.mMessage).length ≤ bufferSize ∧
      (marschalArgs item.mArgs).length ≤ bufferSize := by
    simp [marschal] at small
    omega
  have args {next : Option (List LogArg) → Unmarschal LogItem} : Stops padByte (unmarschalArgs >>= next) [] :=
    unmarschalArgs_padding.head
  have message {next : Option String → Option (List LogArg) → Unmarschal LogItem} :
      Stops padByte (unmarschalMessage >>= fun text => unmarschalArgs >>= next text) [] :=
    Stops.bind (unmarschalMessage_short (Nat.zero_le _)) fun _ => args
  have ressource {next : BitVec 32 → Option String → Option (List LogArg) → Unmarschal LogItem} : Stops padByte
      (LogItem.getInt >>= fun id => unmarschalMessage >>= fun text => unmarschalArgs >>= next id text) [] :=
    Stops.bind (takes_getInt.pads (Nat.zero_le _)) fun _ => message
  have logLevel {next : BitVec 32 → BitVec 32 → Option String → Option (List LogArg) → Unmarschal LogItem} :
      Stops padByte (LogItem.getInt >>= fun level => LogItem.getInt >>= fun id => unmarschalMessage >>= fun text =>
        unmarschalArgs >>= next level id text) [] :=
    Stops.bind (takes_getInt.pads (Nat.zero_le _)) fun _ => ressource
  have verbosity {next : BitVec 32 → BitVec 32 → BitVec 32 → Option String → Option (List LogArg) →
      Unmarschal LogItem} :
      Stops padByte (LogItem.getInt >>= fun verbosity => LogItem.getInt >>= fun level => LogItem.getInt >>= fun id =>
        unmarschalMessage >>= fun text => unmarschalArgs >>= next verbosity level id text) [] :=
    Stops.bind (takes_getInt.pads (Nat.zero_le _)) fun _ => logLevel
  unfold unmarschal marschal
  simp only [List.append_assoc]
  refine Spares.after_takes (Decodes.take _ [0]) (Takes.take _ 1)
    (fun _ => Stops.bind (takes_getLong.pads (Nat.zero_le _)) fun _ => verbosity) ?_
  refine Spares.after_takes (getLong_putLong _) (by simpa [putLong] using takes_getLong) (fun _ => verbosity) ?_
  refine Spares.after_takes (getInt_putInt _) (by simpa [putInt] using takes_getInt) (fun _ => logLevel) ?_
  refine Spares.after_takes (getInt_putInt _) (by simpa [putInt] using takes_getInt) (fun _ => ressource) ?_
  refine Spares.after_takes (getInt_putInt _) (by simpa [putInt] using takes_getInt) (fun _ => message) ?_
  refine Spares.after (unmarschalMessage_fits parts.1)
    (fun part torn => Stops.bind (unmarschalMessage_torn parts.1 torn) fun _ => args) ?_
  refine (spares_args parts.2).bind_pure fun read _ => ?_
  rw [getEnumByValue_getInt]
  simp [verify, stored, leveled]

/-- The bytes of an item whose last `lost` bytes read as padding. -/
theorem ofBytes_torn {item : LogItem} {bytes : List UInt8} (written : item.getMarschaledBytes = .ok bytes) {j : Nat}
    (torn : j < bytes.length) (rest : List UInt8) :
    if bytes.length - j ≤ spareArgs item.mArgs then
      ∃ read, read.verify = (stored item).verify ∧
        ofBytes (bytes.take j ++ List.replicate (bytes.length - j) padByte ++ rest) bytes.length = .ok read
    else ∃ error, ofBytes (bytes.take j ++ List.replicate (bytes.length - j) padByte ++ rest) bytes.length =
      .error error := by
  obtain ⟨level, leveled, rfl, fits⟩ := getMarschaledBytes_ok written
  have spares := spares_item leveled fits
  generalize whole : marschal item level = bytes at *
  have part : TornOff bytes (bytes.take j) := by
    refine ⟨bytes.drop j, ?_, (List.take_append_drop j bytes).symm⟩
    intro none_
    exact absurd (List.drop_eq_nil_iff.mp none_) (by omega)
  have length : (bytes.take j).length = j := List.length_take_of_le (by omega)
  have size : (bytes.take j ++ List.replicate (bytes.length - j) padByte).length = bytes.length := by
    simp
    omega
  have inside : ¬ ((bytes.length : Int) < 0 ∨
      ((bytes.take j ++ List.replicate (bytes.length - j) padByte ++ rest).length : Int) < bytes.length) := by
    rw [List.length_append, size]
    omega
  have front := spares.spared (bytes.take j) part
  have back := spares.lost (bytes.take j) part
  rw [length] at front back
  simp only [ofBytes, if_neg inside, Int.toNat_natCast, List.take_left' size]
  split
  next few =>
    obtain ⟨read, same, decoded⟩ := front few
    exact ⟨read, same, by rw [decoded]; rfl⟩
  next many =>
    obtain ⟨error, failed⟩ := back (by omega)
    exact ⟨error, by rw [failed]⟩

end RRoadVpn.Proofs.LogItemTorn
