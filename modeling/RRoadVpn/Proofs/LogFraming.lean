import RRoadVpn.Library.Torn
import RRoadVpn.LogFile

/-! The log cache reader finds the records that the writer framed. One lemma says
what the reader does with a whole record; the run over a file is an induction on
its records. -/

namespace RRoadVpn.Proofs.LogFraming
open Library LogFileHandler

/-! ### Bodies and headers -/

private theorem escapeByte_plain {b : UInt8} (plain : b ≠ MAGIC_BYTE) (unescaped : b ≠ MAGIC_BYTE + 1) :
    escapeByte b = [b] := by
  simp [escapeByte, plain, unescaped]

theorem escapeByte_torn {b : UInt8} {half : List UInt8} (torn : TornOff (escapeByte b) half) :
    half = [] ∨ half = [MAGIC_BYTE + 1] := by
  obtain ⟨lost, some_, split⟩ := torn
  unfold escapeByte at split
  split at split
  · match half, split with
    | [], _ => exact Or.inl rfl
    | [_], rfl => exact Or.inr rfl
    | _ :: _ :: _, split => simp at split; exact absurd split.2.2.2 some_
  · match half, split with
    | [], _ => exact Or.inl rfl
    | _ :: _, split => simp at split; exact absurd split.2.2 some_

/-- The outcome of a body that starts with bytes already read. -/
def after (bytes : List UInt8) : Body → Body
  | .complete more stream => .complete (bytes ++ more) stream
  | body => body

private theorem after_nil (body : Body) : after [] body = body := by cases body <;> rfl

private theorem put_after {pos : Nat} (room : pos < bufLength) (b : UInt8) (bytes : List UInt8) (body : Body) :
    put pos b (after bytes body) = after (b :: bytes) body := by
  cases body <;> simp [put, after, Nat.not_le.mpr room]

theorem readBody_byte (b : UInt8) (left pos : Nat) (stream : List UInt8) :
    readBody (left + 1) pos (escapeByte b ++ stream) = put pos b (readBody left (pos + 1) stream) := by
  by_cases magic : b = MAGIC_BYTE
  · subst magic
    rfl
  · by_cases escape : b = MAGIC_BYTE + 1
    · subst escape
      rfl
    · rw [escapeByte_plain magic escape]
      simp [readBody, readByte, magic, escape]

theorem readBody_escaped (bytes : List UInt8) (pos : Nat) (room : pos + bytes.length ≤ bufLength) (left : Nat)
    (stream : List UInt8) :
    readBody (bytes.length + left) pos (bytes.flatMap escapeByte ++ stream) =
      after bytes (readBody left (pos + bytes.length) stream) := by
  induction bytes generalizing pos with
  | nil =>
    rw [List.length_nil, Nat.zero_add, after_nil]
    rfl
  | cons b bytes ih =>
    rw [List.length_cons] at room ⊢
    rw [List.flatMap_cons, List.append_assoc, Nat.add_right_comm, readBody_byte, ih (pos + 1) (by omega),
      put_after (by omega), Nat.add_assoc, Nat.add_comm 1]

theorem readBody_whole {bytes : List UInt8} (small : bytes.length ≤ bufLength) (stream : List UInt8) :
    readBody bytes.length 0 (bytes.flatMap escapeByte ++ stream) = .complete bytes stream := by
  have read := readBody_escaped bytes 0 (by omega) 0 stream
  rw [Nat.add_zero] at read
  rw [read]
  simp [readBody, after]

def lengthBytes (buf : Buf) (skipped : Nat) : List UInt8 := (List.range 4).map fun i => buf (skipped + 1 + i)

theorem lengthAt_eq {buf : Buf} {skipped n : Nat} (small : n < 2 ^ 31)
    (written : lengthBytes buf skipped = bigEndian 4 n) : lengthAt buf skipped = n := by
  rw [lengthBytes] at written
  rw [lengthAt, written, ofBigEndian_bigEndian_of_lt (by omega), BitVec.toInt_eq_toNat_of_lt] <;> simp <;> omega

def window (buf : Buf) (skipped : Nat) : List UInt8 := buf skipped :: lengthBytes buf skipped

theorem read_five (buf : Buf) {stream : List UInt8} (enough : 5 ≤ stream.length) :
    ∃ filled rest, LogFileHandler.read buf 0 5 stream = (5, filled, rest) ∧ window filled 0 ++ rest = stream := by
  rcases stream with _ | ⟨a, _ | ⟨b, _ | ⟨c, _ | ⟨d, _ | ⟨e, rest⟩⟩⟩⟩⟩
  case cons.cons.cons.cons.cons => exact ⟨fill buf 0 [a, b, c, d, e], rest, rfl, rfl⟩
  all_goals simp at enough

theorem read_header (buf : Buf) {n : Nat} (small : n < 2 ^ 31) (stream : List UInt8) :
    ∃ filled, LogFileHandler.read buf 0 5 ([MAGIC_BYTE] ++ bigEndian 4 n ++ stream) = (5, filled, stream) ∧
      filled 0 = MAGIC_BYTE ∧ lengthAt filled 0 = n := by
  have enough : 5 ≤ ([MAGIC_BYTE] ++ bigEndian 4 n ++ stream).length := by simp
  obtain ⟨filled, rest, header, text⟩ := read_five buf enough
  obtain ⟨magic, behind⟩ := List.cons_eq_cons.mp text
  obtain ⟨length, rfl⟩ := List.append_inj behind (bigEndian_length 4 n).symm
  exact ⟨filled, header, magic, lengthAt_eq small length⟩

/-! ### Lines -/

private theorem values_restored {α β : Type} (values : List β) (value : β → α) {lines : List (Line α)}
    (others : ∀ value, .restored value ∉ lines) (thrown : Option Thrown) :
    Reread.values ⟨values.map (fun v => .restored (value v)) ++ lines, thrown⟩ = values.map value := by
  have none_ : lines.filterMap Line.value? = [] := by
    refine List.filterMap_eq_nil_iff.mpr fun line member => ?_
    cases line with
    | restored value => exact absurd member (others value)
    | _ => rfl
  rw [Reread.values, List.filterMap_append, none_, List.append_nil, List.filterMap_map]
  exact congrFun (List.filterMap_eq_map (f := value)) values

/-! ### Records -/

variable {α : Type} (restore : Restore α)

/-- The reading loop entered by the five byte read that looks for a record. -/
def resume (fuel : Nat) (buf : Buf) (stream : List UInt8) (itemsRead : Nat) : Option (Reread α) :=
  let (count, buf, stream) := LogFileHandler.read buf 0 5 stream
  readloop restore fuel buf count stream itemsRead

theorem readCacheContents_eq (input : List UInt8) :
    readCacheContents restore input = resume restore (input.length + 1) (fun _ => 0) input 0 := rfl

theorem readloop_done (fuel : Nat) (buf : Buf) {count : Int} (few : count < 5) (stream : List UInt8)
    (itemsRead : Nat) :
    readloop restore fuel buf count stream itemsRead = some (finish itemsRead) := by
  unfold readloop
  rw [if_pos few]

theorem resume_short (fuel : Nat) (buf : Buf) {stream : List UInt8} (short : stream.length < 5) (itemsRead : Nat) :
    resume restore fuel buf stream itemsRead = some (finish itemsRead) := by
  cases stream with
  | nil => exact readloop_done restore fuel buf (by decide) [] itemsRead
  | cons b stream =>
    refine readloop_done restore fuel _ ?_ _ itemsRead
    rw [List.length_take]
    omega

theorem skip_magic {buf : Buf} {skipped : Nat} (magic : buf skipped = MAGIC_BYTE) (stream : List UInt8) :
    skip buf skipped stream = .found buf skipped stream := by
  cases stream <;> rw [skip, if_pos magic]

theorem readloop_complete (fuel : Nat) {buf : Buf} {n : Nat} (magic : buf 0 = MAGIC_BYTE)
    (length : lengthAt buf 0 = n)
    {stream bytes rest : List UInt8} (body : readBody n 0 stream = .complete bytes rest) (itemsRead : Nat) :
    readloop restore (fuel + 1) buf 5 stream itemsRead =
      match restore (bodyBuffer bytes) n with
      | .error thrown => some ⟨[], some thrown⟩
      | .ok line =>
        if itemsRead + 1 > 2 * MAXLOGENTRIES then
          some ((finish (itemsRead + 1)).prepend
            [line, .error "Too many logentries read from cache, aborting."])
        else (resume restore fuel buf rest (itemsRead + 1)).map (Reread.prepend [line]) := by
  rw [readloop, if_neg (by decide)]
  simp only [skip_magic magic, length, Int.toNat_natCast, body]
  cases restore (bodyBuffer bytes) n with
  | error thrown => rfl
  | ok line =>
    simp only [readloop_done restore fuel _ (by decide : (0 : Int) < 5), skippedLine, Nat.lt_irrefl, if_false,
      List.nil_append, gt_iff_lt, Option.map_some, resume]

/-- The reader hands a record's body to the callback and goes on after it. -/
theorem resume_record (fuel : Nat) (buf : Buf) {bytes : List UInt8} (small : bytes.length ≤ bufLength)
    (stream : List UInt8) (itemsRead : Nat) :
    ∃ filled, resume restore (fuel + 1) buf (writeEscapedBytes bytes ++ stream) itemsRead =
      match restore (bodyBuffer bytes) bytes.length with
      | .error thrown => some ⟨[], some thrown⟩
      | .ok line =>
        if itemsRead + 1 > 2 * MAXLOGENTRIES then
          some ((finish (itemsRead + 1)).prepend
            [line, .error "Too many logentries read from cache, aborting."])
        else (resume restore fuel filled stream (itemsRead + 1)).map (Reread.prepend [line]) := by
  have little : bytes.length < 2 ^ 31 := Nat.lt_of_le_of_lt small (by decide)
  obtain ⟨filled, header, magic, length⟩ := read_header buf little (bytes.flatMap escapeByte ++ stream)
  refine ⟨filled, ?_⟩
  rw [← readloop_complete restore fuel magic length (readBody_whole small stream) itemsRead, writeEscapedBytes,
    List.append_assoc, resume, header]

section Records

variable {β : Type} (bytes : β → List UInt8) (line : β → Line α)

def Accepts (record : β) : Prop :=
  (bytes record).length ≤ bufLength ∧ restore (bodyBuffer (bytes record)) (bytes record).length = .ok (line record)

def frames (records : List β) : List UInt8 := records.flatMap fun record => writeEscapedBytes (bytes record)

theorem frames_append (first second : List β) :
    frames bytes (first ++ second) = frames bytes first ++ frames bytes second :=
  List.flatMap_append

private theorem length_le_frames (records : List β) : records.length ≤ (frames bytes records).length := by
  induction records with
  | nil => exact Nat.le_refl _
  | cons record records ih =>
    simp [frames, writeEscapedBytes] at ih ⊢
    omega

variable {restore bytes line}

theorem resume_records {records : List β} (accepted : ∀ record ∈ records, Accepts restore bytes line record)
    (stream : List UInt8) {itemsRead : Nat} (few : itemsRead + records.length ≤ 2 * MAXLOGENTRIES) (fuel : Nat)
    (buf : Buf) :
    ∃ filled, resume restore (records.length + fuel) buf (frames bytes records ++ stream) itemsRead =
      (resume restore fuel filled stream (itemsRead + records.length)).map (Reread.prepend (records.map line)) := by
  induction records generalizing itemsRead buf with
  | nil =>
    refine ⟨buf, ?_⟩
    cases found : resume restore fuel buf stream itemsRead <;> simp [frames, found, Reread.prepend]
  | cons record records ih =>
    obtain ⟨⟨small, lined⟩, later⟩ := List.forall_mem_cons.mp accepted
    rw [List.length_cons] at few
    obtain ⟨first, step⟩ := resume_record restore (records.length + fuel) buf small
      (frames bytes records ++ stream) itemsRead
    obtain ⟨filled, run⟩ := ih later (by omega : itemsRead + 1 + records.length ≤ 2 * MAXLOGENTRIES) first
    refine ⟨filled, ?_⟩
    have room : ¬ itemsRead + 1 > 2 * MAXLOGENTRIES := by omega
    have split : frames bytes (record :: records) = writeEscapedBytes (bytes record) ++ frames bytes records :=
      List.flatMap_cons
    rw [List.length_cons, split, List.append_assoc, Nat.add_right_comm, step, lined]
    simp only [room, if_false]
    rw [run, Option.map_map, Nat.add_assoc, Nat.add_comm 1]
    congr 1

theorem reread_run {records : List β} (accepted : ∀ record ∈ records, Accepts restore bytes line record)
    (few : records.length ≤ 2 * MAXLOGENTRIES) (tail : List UInt8) :
    ∃ fuel filled, tail.length < fuel ∧ readCacheContents restore (frames bytes records ++ tail) =
      (resume restore fuel filled tail records.length).map (Reread.prepend (records.map line)) := by
  have enough := length_le_frames bytes records
  obtain ⟨fuel, size, left⟩ : ∃ fuel, (frames bytes records ++ tail).length + 1 = records.length + fuel ∧
      tail.length < fuel := by
    refine ⟨(frames bytes records).length - records.length + tail.length + 1, ?_, by omega⟩
    rw [List.length_append]
    omega
  obtain ⟨filled, run⟩ :=
    resume_records accepted tail (by omega : 0 + records.length ≤ 2 * MAXLOGENTRIES) fuel (fun _ => 0)
  refine ⟨fuel, filled, left, ?_⟩
  rw [readCacheContents_eq, size, run, Nat.zero_add]

/-- The reader leaves the file after one record more than twice the log's size. -/
theorem reread_full {records : List β} (accepted : ∀ record ∈ records, Accepts restore bytes line record)
    (full : records.length = 2 * MAXLOGENTRIES + 1) (tail : List UInt8) :
    readCacheContents restore (frames bytes records ++ tail) =
      some ⟨records.map line ++ [.error "Too many logentries read from cache, aborting.", .rereadLog records.length],
        none⟩ := by
  obtain ⟨first, last, rfl⟩ : ∃ first last, records = first ++ [last] :=
    ⟨_, _, (List.dropLast_concat_getLast (List.ne_nil_of_length_pos (by omega))).symm⟩
  rw [List.length_append, List.length_singleton] at full
  have whole := accepted last (by simp)
  obtain ⟨fuel, filled, enough, run⟩ := reread_run
    (fun record member => accepted record (List.mem_append_left _ member))
    (by omega : first.length ≤ 2 * MAXLOGENTRIES)
    (writeEscapedBytes (bytes last) ++ tail)
  obtain ⟨fuel, rfl⟩ : ∃ before, fuel = before + 1 := ⟨fuel - 1, by omega⟩
  obtain ⟨_, step⟩ := resume_record restore fuel filled whole.1 tail first.length
  have stop : first.length + 1 > 2 * MAXLOGENTRIES := by omega
  have single : frames bytes [last] = writeEscapedBytes (bytes last) := List.flatMap_singleton ..
  rw [frames_append, List.append_assoc, single, run, step, whole.2]
  simp [stop, finish, Reread.prepend]

theorem reread_whole {records : List β} (accepted : ∀ record ∈ records, Accepts restore bytes line record)
    (few : records.length ≤ 2 * MAXLOGENTRIES) {tail : List UInt8} (short : tail.length < 5) :
    readCacheContents restore (frames bytes records ++ tail) =
      some ⟨records.map line ++ [.rereadLog records.length], none⟩ := by
  obtain ⟨fuel, filled, -, run⟩ := reread_run accepted few tail
  rw [run, resume_short restore fuel filled short]
  rfl

/-- A file of accepted records gives one line for each, and no other value. -/
theorem reread_records {records : List β} (accepted : ∀ record ∈ records, Accepts restore bytes line record)
    (few : records.length ≤ 2 * MAXLOGENTRIES + 1) :
    ∃ lines, readCacheContents restore (frames bytes records) = some ⟨records.map line ++ lines, none⟩ ∧
      ∀ value, .restored value ∉ lines := by
  rcases Nat.lt_or_eq_of_le few with few | full
  · have run := reread_whole accepted (Nat.le_of_lt_succ few) (by decide : ([] : List UInt8).length < 5)
    rw [List.append_nil] at run
    exact ⟨_, run, by simp⟩
  · have run := reread_full accepted full []
    rw [List.append_nil] at run
    exact ⟨_, run, by simp⟩

end Records

/-! ### The recording callback -/

/-- A callback that returns normally and records what it was called with. -/
def recording : Restore (List UInt8 × Int) := fun buf len => .ok (.restored (buf, len))

/-- Every array written is handed back once, in order, and then the reading ends. -/
theorem framing_round_trip {arrays : List (List UInt8)} (few : arrays.length ≤ 2001)
    (small : ∀ bytes ∈ arrays, bytes.length ≤ 16384) :
    ∃ reread, readCacheContents recording (arrays.flatMap writeEscapedBytes) = some reread ∧ reread.thrown = none ∧
      reread.values.map (fun call => (call.1.take call.2.toNat, call.2)) =
        arrays.map fun bytes => (bytes, (bytes.length : Int)) := by
  have accepted : ∀ bytes ∈ arrays, Accepts recording id (fun bytes => .restored (bodyBuffer bytes, bytes.length)) bytes :=
    fun bytes member => ⟨small bytes member, rfl⟩
  obtain ⟨lines, read, others⟩ := reread_records accepted few
  refine ⟨_, read, rfl, ?_⟩
  rw [values_restored _ (fun bytes => (bodyBuffer bytes, (bytes.length : Int))) others, List.map_map]
  refine List.map_congr_left fun bytes _ => ?_
  simp [bodyBuffer]

theorem framing_round_trip_magic :
    ∃ reread, readCacheContents recording ([[0x55, 0x56, 7], []].flatMap writeEscapedBytes) = some reread ∧
      reread.thrown = none ∧
      reread.values.map (fun call => (call.1.take call.2.toNat, call.2)) =
        [[0x55, 0x56, 7], []].map fun bytes => (bytes, (bytes.length : Int)) :=
  framing_round_trip (by decide) (by decide)

end RRoadVpn.Proofs.LogFraming
