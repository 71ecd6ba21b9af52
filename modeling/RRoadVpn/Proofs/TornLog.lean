import RRoadVpn.Proofs.LogItemTorn
import RRoadVpn.Proofs.LogReread

/-! A log file that ends inside a record. The reader takes the end of the file for
0xFF bytes, so the torn record is read to its length and decoded. -/

namespace RRoadVpn.Proofs.TornLog
open Library LogFileHandler LogItem LogItemCodec LogItemTorn LogFraming LogReread

/-! ### Torn bodies -/

private theorem readBody_eof (left : Nat) {pos : Nat} (room : pos + left ≤ bufLength) :
    readBody left pos [] = .complete (List.replicate left padByte) [] := by
  induction left generalizing pos with
  | zero => rfl
  | succ left ih =>
    have inside : ¬ bufLength ≤ pos := by omega
    show put pos 0xff (readBody left (pos + 1) []) = _
    rw [ih (by omega), put, if_neg inside, List.replicate_succ]

theorem readBody_torn {bytes : List UInt8} {left : Nat} (room : bytes.length + left ≤ bufLength) :
    readBody (bytes.length + left) 0 (bytes.flatMap escapeByte) =
      .complete (bytes ++ List.replicate left padByte) [] := by
  have read := readBody_escaped bytes 0 (by omega) left []
  rw [List.append_nil, Nat.zero_add, readBody_eof left room] at read
  exact read

theorem readBody_half {bytes : List UInt8} {left : Nat} (room : bytes.length ≤ bufLength) :
    readBody (bytes.length + (left + 1)) 0 (bytes.flatMap escapeByte ++ [MAGIC_BYTE + 1]) = .badEscape 0xff [] := by
  rw [readBody_escaped bytes 0 (by omega)]
  rfl

/-! ### Torn records -/

def record (item : LogItem) : List UInt8 := writeEscapedBytes (bytesOf item)

/-- What is left of a record does no harm: less than a header, an escape without
its second byte, or an item that shows nothing and is read in spite of its loss. -/
def Harmless (item : LogItem) (left : List UInt8) : Prop :=
  left.length < 5 ∨ (cut escapeByte (left.length - 5) (bytesOf item)).2 ≠ [] ∨
    (stored item).verify = false ∧
      (bytesOf item).length - (cut escapeByte (left.length - 5) (bytesOf item)).1.length ≤ spareArgs item.mArgs

private theorem readloop_badEscape {α : Type} (restore : Restore α) (fuel : Nat) {buf : Buf} {n : Nat}
    (magic : buf 0 = MAGIC_BYTE) (length : lengthAt buf 0 = n) {stream : List UInt8} {b : UInt8}
    (body : readBody n 0 stream = .badEscape b []) (itemsRead : Nat) :
    readloop restore (fuel + 1) buf 5 stream itemsRead =
      some ((finish itemsRead).prepend [.debug ("Escaped byte not 0 or 1: " ++ toString b.toInt8.toInt)]) := by
  rw [readloop, if_neg (by decide)]
  simp only [skip_magic magic, length, Int.toNat_natCast, body, skippedLine, Nat.lt_irrefl, gt_iff_lt, if_false,
    List.nil_append]
  exact congrArg (Option.map _) (readloop_done restore fuel buf (by decide : (-1 : Int) + 1 < 5) [] itemsRead)

theorem readloop_last {α : Type} {restore : Restore α} (fuel : Nat) {buf : Buf} {n : Nat} (magic : buf 0 = MAGIC_BYTE)
    (length : lengthAt buf 0 = n) {stream bytes : List UInt8} (body : readBody n 0 stream = .complete bytes [])
    {line : Line α} (restored : restore (bodyBuffer bytes) n = .ok line) (itemsRead : Nat) :
    ∃ lines, readloop restore (fuel + 1) buf 5 stream itemsRead = some ⟨line :: lines, none⟩ ∧
      lines.filterMap Line.value? = [] := by
  rw [readloop_complete restore fuel magic length body itemsRead, restored]
  simp only []
  split
  · exact ⟨_, rfl, rfl⟩
  · rw [resume_short restore fuel buf (by decide)]
    exact ⟨_, rfl, rfl⟩

/-- The record whose body ends between two bytes: it is decoded from what is left. -/
theorem readloop_torn {item : LogItem} (written : item.getMarschaledBytes = .ok (bytesOf item)) {front : List UInt8}
    {b : UInt8} {later : List UInt8} (split : bytesOf item = front ++ b :: later) (fuel : Nat) {buf : Buf}
    (magic : buf 0 = MAGIC_BYTE) (length : lengthAt buf 0 = (bytesOf item).length) (itemsRead : Nat) :
    ∃ reread, readloop LogFileHandler.restoreLogItem (fuel + 1) buf 5 (front.flatMap escapeByte) itemsRead =
      some reread ∧
      (reread.thrown = none ∧ reread.values = [] ↔
        (stored item).verify = false ∧ (bytesOf item).length - front.length ≤ spareArgs item.mArgs) := by
  have fits := bytesOf_length written
  have size : (bytesOf item).length = front.length + (later.length + 1) := by simp [split]
  have body : readBody (bytesOf item).length 0 (front.flatMap escapeByte) =
      .complete (front ++ List.replicate (later.length + 1) padByte) [] := by
    rw [size]
    exact readBody_torn (by omega)
  have decoded := ofBytes_torn written (j := front.length) (by omega)
    (List.replicate (bufLength - (front ++ List.replicate (later.length + 1) padByte).length) 0)
  have kept : (bytesOf item).take front.length = front := by rw [split, List.take_left' rfl]
  have lost : (bytesOf item).length - front.length = later.length + 1 := by omega
  rw [kept, lost] at decoded
  rw [lost]
  split at decoded
  next spared =>
    obtain ⟨read, same, ok⟩ := decoded
    cases shown : read.verify with
    | true =>
      have restored : LogFileHandler.restoreLogItem
          (bodyBuffer (front ++ List.replicate (later.length + 1) padByte)) (bytesOf item).length =
            .ok (.restored read) := by
        rw [LogFileHandler.restoreLogItem, bodyBuffer, ok]
        exact if_pos shown
      obtain ⟨lines, loop, -⟩ := readloop_last fuel magic length body restored itemsRead
      refine ⟨_, loop, ?_⟩
      rw [← same, shown]
      simp [Reread.values, Line.value?]
    | false =>
      obtain ⟨text, restored⟩ : ∃ text, LogFileHandler.restoreLogItem
          (bodyBuffer (front ++ List.replicate (later.length + 1) padByte)) (bytesOf item).length =
            .ok (.error text) := by
        rw [LogFileHandler.restoreLogItem, bodyBuffer, ok]
        exact ⟨_, if_neg (by simp [shown])⟩
      obtain ⟨lines, loop, quiet⟩ := readloop_last fuel magic length body restored itemsRead
      refine ⟨_, loop, ?_⟩
      rw [← same, shown]
      exact ⟨fun _ => ⟨rfl, spared⟩, fun _ => ⟨rfl, quiet⟩⟩
  next unspared =>
    obtain ⟨error, failed⟩ := decoded
    have thrown : LogFileHandler.restoreLogItem
        (bodyBuffer (front ++ List.replicate (later.length + 1) padByte)) (bytesOf item).length =
          .error (.unmarschal error) := by
      rw [LogFileHandler.restoreLogItem, bodyBuffer, failed]
    rw [readloop_complete LogFileHandler.restoreLogItem fuel magic length body itemsRead, thrown]
    refine ⟨_, rfl, ?_⟩
    simp [unspared]

theorem resume_torn {item : LogItem} (written : item.getMarschaledBytes = .ok (bytesOf item)) {left : List UInt8}
    (torn : TornOff (record item) left) {fuel : Nat} (enough : left.length < fuel) (buf : Buf) (itemsRead : Nat) :
    ∃ reread, resume LogFileHandler.restoreLogItem fuel buf left itemsRead = some reread ∧
      (reread.thrown = none ∧ reread.values = [] ↔ Harmless item left) := by
  by_cases short : left.length < 5
  · refine ⟨_, resume_short _ fuel buf short itemsRead, ?_⟩
    simp [finish, Reread.values, Line.value?, Harmless, short]
  · have header : ([MAGIC_BYTE] ++ bigEndian 4 (bytesOf item).length).length = 5 := by simp
    rcases torn.of_append with early | ⟨body, rfl, late⟩
    · have := early.length
      omega
    · obtain ⟨fuel, rfl⟩ : ∃ less, fuel = less + 1 := ⟨fuel - 1, by omega⟩
      have fits := bytesOf_length written
      obtain ⟨filled, started, magic, length⟩ :=
        read_header buf (Nat.lt_of_le_of_lt fits (by decide)) body
      have size : ([MAGIC_BYTE] ++ bigEndian 4 (bytesOf item).length ++ body).length - 5 = body.length := by
        rw [List.length_append, header]
        omega
      have kept : body = ((bytesOf item).flatMap escapeByte).take body.length := by
        obtain ⟨lost, -, split⟩ := late
        rw [split, List.take_left' rfl]
      have parts := take_flatMap escapeByte body.length (bytesOf item)
      rw [← kept] at parts
      have resumed : resume LogFileHandler.restoreLogItem (fuel + 1) buf
          ([MAGIC_BYTE] ++ bigEndian 4 (bytesOf item).length ++ body) itemsRead =
            readloop LogFileHandler.restoreLogItem (fuel + 1) filled 5 body itemsRead := by
        rw [resume, started]
      rw [resumed, Harmless, size]
      simp only [short, false_or]
      rcases cut_torn escapeByte body.length (bytesOf item) with ⟨all, none_⟩ | ⟨b, later, split, off⟩
      · rw [all, none_, List.append_nil] at parts
        exact absurd late.length (by rw [← parts]; exact Nat.lt_irrefl _)
      · generalize whole : cut escapeByte body.length (bytesOf item) = pieces at *
        obtain ⟨front, half⟩ := pieces
        simp only at parts split off ⊢
        rcases escapeByte_torn off with rfl | rfl
        · rw [List.append_nil] at parts
          obtain ⟨reread, loop, safe⟩ := readloop_torn written split fuel magic length itemsRead
          rw [parts]
          exact ⟨reread, loop, by simpa using safe⟩
        · have counted : (bytesOf item).length = front.length + (later.length + 1) := by simp [split]
          have given : readBody (bytesOf item).length 0 body = .badEscape 0xff [] := by
            rw [counted, parts]
            exact readBody_half (by omega)
          rw [readloop_badEscape _ fuel magic length given itemsRead]
          refine ⟨_, rfl, ?_⟩
          simp [Reread.prepend, finish, Reread.values, Line.value?]

/-! ### Torn files -/

/-- Reading the first `n` bytes of the file restores the items whose records end
there, in order and no others, and ends without an exception. -/
def LosesOnlyTorn (items : List LogItem) (contents : List UInt8) (n : Nat) : Prop :=
  ∃ reread, readCacheContents LogFileHandler.restoreLogItem (contents.take n) = some reread ∧ reread.thrown = none ∧
    reread.values = (cut record n items).1.map stored

/-- The whole items can be read, and what is left of the next does no harm unless
the reader stops before it. -/
def SafeCut (items : List LogItem) (n : Nat) : Prop :=
  (∀ item ∈ (cut record n items).1, Readable item) ∧
    ((cut record n items).1.length = 2 * MAXLOGENTRIES + 1 ∨
      (cut record n items).1.length ≤ 2 * MAXLOGENTRIES ∧
        ∀ item, items[(cut record n items).1.length]? = some item → Harmless item (cut record n items).2)

private theorem values_prepend {α : Type} (lines : List (Line α)) (reread : Reread α) :
    (reread.prepend lines).values = lines.filterMap Line.value? ++ reread.values := List.filterMap_append

private theorem values_records (items : List LogItem) :
    (items.map fun item => Line.restored (stored item)).filterMap Line.value? = items.map stored := by
  rw [List.filterMap_map]
  exact congrFun (List.filterMap_eq_map (f := stored)) items

/-- A torn file of readable records is read safely when the rest does no harm. -/
theorem reread_torn {whole : List LogItem} (few : whole.length ≤ 2 * MAXLOGENTRIES)
    (accepted : ∀ item ∈ whole,
      Accepts LogFileHandler.restoreLogItem bytesOf (fun item => .restored (stored item)) item)
    {torn : LogItem} (written : torn.getMarschaledBytes = .ok (bytesOf torn)) {left : List UInt8}
    (off : TornOff (record torn) left) :
    ∃ reread, readCacheContents LogFileHandler.restoreLogItem (frames bytesOf whole ++ left) = some reread ∧
      (reread.thrown = none ∧ reread.values = whole.map stored ↔ Harmless torn left) := by
  obtain ⟨fuel, filled, enough, run⟩ := reread_run accepted few left
  obtain ⟨reread, resumed, safe⟩ := resume_torn written off enough filled whole.length
  refine ⟨_, run.trans (congrArg _ resumed), ?_⟩
  rw [values_prepend, values_records, ← safe, List.append_right_eq_self]
  rfl

/-- The reader stops after one record more than twice the log's size. -/
theorem reread_many {whole : List LogItem} (many : 2 * MAXLOGENTRIES < whole.length)
    (accepted : ∀ item ∈ whole,
      Accepts LogFileHandler.restoreLogItem bytesOf (fun item => .restored (stored item)) item) (left : List UInt8) :
    ∃ reread, readCacheContents LogFileHandler.restoreLogItem (frames bytesOf whole ++ left) = some reread ∧
      reread.thrown = none ∧ reread.values = (whole.take (2 * MAXLOGENTRIES + 1)).map stored := by
  have full : (whole.take (2 * MAXLOGENTRIES + 1)).length = 2 * MAXLOGENTRIES + 1 := List.length_take_of_le many
  have split : frames bytesOf whole ++ left = frames bytesOf (whole.take (2 * MAXLOGENTRIES + 1)) ++
      (frames bytesOf (whole.drop (2 * MAXLOGENTRIES + 1)) ++ left) := by
    rw [← List.append_assoc, ← frames_append, List.take_append_drop]
  have read := reread_full (fun item member => accepted item (List.mem_of_mem_take member)) full
    (frames bytesOf (whole.drop (2 * MAXLOGENTRIES + 1)) ++ left)
  rw [split]
  refine ⟨_, read, rfl, ?_⟩
  rw [Reread.values, List.filterMap_append, values_records]
  exact List.append_nil _

private theorem mem_lines_of_mem_values {α : Type} {reread : Reread α} {value : α} (member : value ∈ reread.values) :
    .restored value ∈ reread.lines := by
  obtain ⟨line, inside, same⟩ := List.mem_filterMap.mp member
  cases line with
  | restored other =>
    cases same
    exact inside
  | _ => cases same

/-- Items that are restored as they were stored can be read. -/
theorem LosesOnlyTorn.readable {items : List LogItem} {contents : List UInt8} {n : Nat}
    (loses : LosesOnlyTorn items contents n) : ∀ item ∈ (cut record n items).1, Readable item := by
  intro item member
  obtain ⟨reread, read, -, values⟩ := loses
  obtain ⟨reread', read', own⟩ := readCacheContents_ends LogFileHandler.restoreLogItem (contents.take n)
  rw [read] at read'
  cases read'
  have restored : stored item ∈ reread.values := values ▸ List.mem_map_of_mem member
  obtain ⟨buf, len, ok⟩ := own _ (mem_lines_of_mem_values restored)
  exact readable_of_shown (restoreLogItem_restored ok)

theorem losesOnlyTorn_readable {items : List LogItem}
    (encoded : ∀ item ∈ items, item.getMarschaledBytes = .ok (bytesOf item))
    {n : Nat} (readable : ∀ item ∈ (cut record n items).1, Readable item) :
    LosesOnlyTorn items (frames bytesOf items) n ↔
      (cut record n items).1.length = 2 * MAXLOGENTRIES + 1 ∨
        (cut record n items).1.length ≤ 2 * MAXLOGENTRIES ∧
          ∀ item, items[(cut record n items).1.length]? = some item → Harmless item (cut record n items).2 := by
  have split : (frames bytesOf items).take n = frames bytesOf (cut record n items).1 ++ (cut record n items).2 :=
    take_flatMap record n items
  have torn := cut_torn record n items
  unfold LosesOnlyTorn
  rw [split]
  generalize cut record n items = parts at *
  obtain ⟨whole, left⟩ := parts
  simp only at readable torn ⊢
  have inside : ∀ item ∈ whole, item ∈ items := by
    intro item member
    rcases torn with ⟨rfl, -⟩ | ⟨piece, later, rfl, -⟩
    · exact member
    · exact List.mem_append_left _ member
  have accepted (item : LogItem) (member : item ∈ whole) :=
    accepts_readable (encoded item (inside item member)) (readable item member)
  by_cases many : 2 * MAXLOGENTRIES < whole.length
  · obtain ⟨reread, read, ended, values⟩ := reread_many many accepted left
    have cutOff : (∃ reread, readCacheContents LogFileHandler.restoreLogItem (frames bytesOf whole ++ left) =
        some reread ∧
        reread.thrown = none ∧ reread.values = whole.map stored) ↔
          (whole.take (2 * MAXLOGENTRIES + 1)).map stored = whole.map stored := by
      simp [read, ended, values]
    rw [cutOff]
    constructor
    · intro same
      have length := congrArg List.length same
      simp only [List.length_map, List.length_take] at length
      omega
    · rintro (full | ⟨few, -⟩)
      · rw [List.take_of_length_le (Nat.le_of_eq full)]
      · omega
  · have few : whole.length ≤ 2 * MAXLOGENTRIES := Nat.le_of_not_lt many
    have notFull : whole.length ≠ 2 * MAXLOGENTRIES + 1 := by omega
    simp only [notFull, false_or, few, true_and]
    rcases torn with ⟨rfl, rfl⟩ | ⟨piece, later, rfl, off⟩
    · have read := reread_whole accepted few (by decide : ([] : List UInt8).length < 5)
      have values : Reread.values ⟨whole.map (fun item => Line.restored (stored item)) ++ [.rereadLog whole.length],
          none⟩ =
          whole.map stored := by
        rw [Reread.values, List.filterMap_append, values_records]
        exact List.append_nil _
      exact iff_of_true ⟨_, read, rfl, values⟩ (by simp)
    · obtain ⟨reread, read, safe⟩ := reread_torn few accepted (encoded piece (by simp)) off
      simp [read, safe]

/-- A torn file loses only its torn record exactly at the safe cuts. -/
theorem losesOnlyTorn_iff {items : List LogItem} {contents : List UInt8}
    (written : writeLogItems items = .ok contents)
    (n : Nat) : LosesOnlyTorn items contents n ↔ SafeCut items n := by
  obtain ⟨encoded, rfl⟩ := writeLogItems_ok written
  constructor
  · intro loses
    exact ⟨loses.readable, (losesOnlyTorn_readable encoded loses.readable).mp loses⟩
  · rintro ⟨readable, safe⟩
    exact (losesOnlyTorn_readable encoded readable).mpr safe

/-- A second record cut in its length. -/
theorem losesOnlyTorn_iff_header :
    ∃ contents, writeLogItems [{ mRessourceId := 9, logtime := 1 }, { mRessourceId := 9, logtime := 2 }] =
      .ok contents ∧
      LosesOnlyTorn [{ mRessourceId := 9, logtime := 1 }, { mRessourceId := 9, logtime := 2 }] contents 37 := by
  have parts : cut record 37 [{ mRessourceId := 9, logtime := 1 }, { mRessourceId := 9, logtime := 2 }] =
      ([{ mRessourceId := 9, logtime := 1 }], [0x55, 0, 0]) := by decide
  refine ⟨_, rfl, (losesOnlyTorn_iff rfl 37).mpr ?_⟩
  rw [SafeCut, parts]
  exact ⟨by simp [Readable, stored, verify, Option.filter], Or.inr ⟨by decide, fun _ _ => Or.inl (by decide)⟩⟩

/-- An item that lost its last byte comes back with another number. -/
theorem torn_number_restored :
    ∃ contents, writeLogItems [{ mRessourceId := 9, logtime := 1, mArgs := some [.integer 5] }] = .ok contents ∧
      ¬ LosesOnlyTorn [{ mRessourceId := 9, logtime := 1, mArgs := some [.integer 5] }] contents 39 := by
  have written : writeLogItems [{ mRessourceId := 9, logtime := 1, mArgs := some [.integer 5] }] = .ok _ := rfl
  obtain ⟨encoded, same⟩ := writeLogItems_ok written
  refine ⟨_, written, ?_⟩
  have none_ : (cut record 39 [{ mRessourceId := 9, logtime := 1, mArgs := some [.integer 5] }]).1 = [] := by decide
  have left : (cut record 39 [{ mRessourceId := 9, logtime := 1, mArgs := some [.integer 5] }]).2.length = 39 := by
    decide
  rw [same, losesOnlyTorn_readable encoded (by rw [none_]; simp), none_]
  rintro (full | ⟨-, safe⟩)
  · exact absurd full (by decide)
  · have harmless := safe _ rfl
    rw [Harmless, left] at harmless
    exact absurd harmless (by decide)

end RRoadVpn.Proofs.TornLog
