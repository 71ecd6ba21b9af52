import RRoadVpn.Proofs.LogRecords

/-! A log file with garbage in front and records that were cut. The reader goes on with the next
magic byte, and as long as its header buffer begins with one, with the next record. -/

namespace RRoadVpn.Proofs.LogResync
open Library LogFileHandler LogFraming LogRecords

/-! ### What the reader hears -/

/-- The records that are handed over, and whether the reading ends well. The header buffer is
stale when it does not begin with a magic byte: then the record behind a cut one is lost. -/
def hear : Nat → Bool → List Record → List Record × Bool
  | _, _, [] => ([], true)
  | items, stale, r :: records =>
    if bufLength < r.held then ([], false)
    else if r.Uncut then
      if items + 1 > 2 * MAXLOGENTRIES then ([r], true)
      else (r :: (hear (items + 1) false records).1, (hear (items + 1) false records).2)
    else if stale then
      match records with
      | [] => ([], true)
      | lost :: records => if lost.part.length + 15 ≤ bufLength then hear items true records else ([], true)
    else hear items false records

def EndsUncut (records : List Record) : Prop := ∀ r ∈ records.getLast?, r.Uncut

private theorem EndsUncut.tail {r : Record} {records : List Record} (ends : EndsUncut (r :: records)) :
    EndsUncut records := by
  intro last member
  refine ends last ?_
  rw [List.getLast?_cons, Option.mem_def.mp member]
  rfl

/-- No magic byte in the length of a record that is lost behind garbage. -/
def Plain : List Record → Prop
  | r :: lost :: records => r.Uncut ∨ MAGIC_BYTE ∉ lost.size ∧ Plain records
  | _ => True

/-- A call of the callback, as the bytes and the length that it was given. -/
def call (call : List UInt8 × Int) : List UInt8 × Int := (call.1.take call.2.toNat, call.2)

private theorem call_bodyBuffer (r : Record) : LogResync.call (bodyBuffer r.bytes, r.bytes.length) = r.call := by
  simp [LogResync.call, Record.call, bodyBuffer]

def Hears (result : Option (Reread (List UInt8 × Int))) (heard : List Record × Bool) : Prop :=
  ∃ reread, result = some reread ∧ reread.values.map LogResync.call = heard.1.map Record.call ∧
    (reread.thrown = none ↔ heard.2 = true)

private theorem Hears.prepend {result : Option (Reread (List UInt8 × Int))} {heard : List Record × Bool}
    (hears : Hears result heard) {lines : List (Line (List UInt8 × Int))} (records : List Record)
    (values : (lines.filterMap Line.value?).map LogResync.call = records.map Record.call) :
    Hears (result.map (Reread.prepend lines)) (records ++ heard.1, heard.2) := by
  obtain ⟨reread, rfl, same, ended⟩ := hears
  refine ⟨_, rfl, ?_, ended⟩
  rw [Reread.values, Reread.prepend, List.filterMap_append, List.map_append, values, List.map_append]
  exact congrArg _ same

private theorem skippedLine_values (skipped : Nat) :
    (skippedLine (α := List UInt8 × Int) skipped).filterMap Line.value? = [] := by
  unfold skippedLine
  split <;> rfl

private theorem hears_finish (itemsRead : Nat) (lines : List (Line (List UInt8 × Int)))
    (quiet : lines.filterMap Line.value? = []) :
    Hears (some ((finish itemsRead).prepend lines)) ([], true) := by
  refine ⟨_, rfl, ?_, by simp [Reread.prepend, finish]⟩
  rw [Reread.values, Reread.prepend, List.filterMap_append, quiet]
  rfl

theorem read_four (buf : Buf) {stream : List UInt8} (enough : 4 ≤ stream.length) :
    ∃ filled rest, LogFileHandler.read buf 1 4 stream = (4, filled, rest) ∧
      window filled 0 ++ rest = buf 0 :: stream := by
  rcases stream with _ | ⟨a, _ | ⟨b, _ | ⟨c, _ | ⟨d, rest⟩⟩⟩⟩
  case cons.cons.cons.cons => exact ⟨fill buf 1 [a, b, c, d], rest, rfl, rfl⟩
  all_goals simp at enough

/-! ### The reading loop -/

/-- The loop in front of these records: of the header buffer and the stream, `pre` is skipped. -/
structure Before (buf : Buf) (stream pre : List UInt8) (records : List Record) : Prop where
  text : window buf 0 ++ stream = pre ++ contents records
  clean : MAGIC_BYTE ∉ pre
  room : pre.length + 10 ≤ bufLength
  ends : EndsUncut records
  plain : pre ≠ [] → Plain records

private theorem Before.fresh {buf : Buf} {stream : List UInt8} {records : List Record}
    (text : window buf 0 ++ stream = contents records) (ends : EndsUncut records) : Before buf stream [] records :=
  ⟨text, List.not_mem_nil, by decide, ends, fun other => absurd rfl other⟩

def Follows (fuel : Nat) : Prop :=
  ∀ {buf : Buf} {stream pre : List UInt8} {records : List Record} (items : Nat), Before buf stream pre records →
    records.length < fuel → Hears (readloop recording fuel buf 5 stream items) (hear items (!pre.isEmpty) records)

theorem resume_hears {fuel : Nat} (follows : Follows fuel) (buf : Buf) {records : List Record}
    (ends : EndsUncut records) (enough : records.length < fuel) (items : Nat) :
    Hears (resume recording fuel buf (contents records) items) (hear items false records) := by
  cases records with
  | nil =>
    rw [show contents [] = [] from rfl, resume_short recording fuel buf (by decide : [].length < 5)]
    exact hears_finish items [] rfl
  | cons r records =>
    obtain ⟨filled, stream, header, text⟩ := read_five buf (contents_long r records)
    rw [resume, header]
    exact follows items (Before.fresh text ends) enough

theorem lost_hears (fuel : Nat) {buf : Buf} {stream : List UInt8}
    (far : ∀ j, (window buf 0 ++ stream)[j]? = some MAGIC_BYTE → bufLength < 0 + j + 10) (items : Nat) :
    Hears (readloop recording (fuel + 1) buf 5 stream items) ([], true) := by
  obtain ⟨count, lost⟩ := skip_loses (by decide) far
  rw [readloop, if_neg (by decide)]
  simp only [lost]
  exact hears_finish items _ rfl

theorem magic_behind {pre rest : List UInt8} (clean : MAGIC_BYTE ∉ pre) {j : Nat}
    (magic : (pre ++ rest)[j]? = some MAGIC_BYTE) : pre.length ≤ j := by
  rw [← Nat.not_lt]
  intro early
  rw [List.getElem?_append_left early] at magic
  exact clean (List.mem_of_getElem? magic)

theorem cut_hears {fuel : Nat} (follows : Follows fuel) (buf : Buf) {next : Record} {records : List Record}
    (ends : EndsUncut (next :: records)) (plain : buf 0 ≠ MAGIC_BYTE → MAGIC_BYTE ∉ next.size ∧ Plain records)
    (enough : (next :: records).length < fuel) (items : Nat) :
    ∃ filled rest, LogFileHandler.read buf 1 4 (next.size ++ (next.part ++ contents records)) = (4, filled, rest) ∧
      Hears (readloop recording fuel filled 5 rest items)
        (if buf 0 = MAGIC_BYTE then hear items false (next :: records)
        else if next.part.length + 15 ≤ bufLength then hear items true records else ([], true)) := by
  have four : 4 ≤ (next.size ++ (next.part ++ contents records)).length := by
    rw [List.length_append, next.size_length]
    exact Nat.le_add_right _ _
  obtain ⟨filled, rest, header, shape⟩ := read_four buf four
  refine ⟨filled, rest, header, ?_⟩
  by_cases magic : buf 0 = MAGIC_BYTE
  · rw [if_pos magic]
    refine follows items (Before.fresh ?_ ends) enough
    rw [shape, magic, contents_cons]
  · obtain ⟨plainly, later⟩ := plain magic
    have text : window filled 0 ++ rest = (buf 0 :: (next.size ++ next.part)) ++ contents records := by
      rw [shape, List.cons_append, List.append_assoc]
    have clean : MAGIC_BYTE ∉ buf 0 :: (next.size ++ next.part) := by
      simp only [List.mem_cons, List.mem_append, not_or]
      exact ⟨Ne.symm magic, plainly, next.clean⟩
    have size : (buf 0 :: (next.size ++ next.part)).length = next.part.length + 5 := by
      rw [List.length_cons, List.length_append, next.size_length]
      omega
    rw [if_neg magic]
    by_cases near : next.part.length + 15 ≤ bufLength
    · rw [if_pos near]
      have before : Before filled rest (buf 0 :: (next.size ++ next.part)) records :=
        ⟨text, clean, by omega, ends.tail, fun _ => later⟩
      exact follows items before (Nat.lt_of_succ_lt enough)
    · obtain ⟨fuel, rfl⟩ : ∃ less, fuel = less + 1 := ⟨fuel - 1, by omega⟩
      rw [if_neg near]
      refine lost_hears fuel (fun j found => ?_) items
      rw [text] at found
      have behind := magic_behind clean found
      omega

theorem uncut_hears {fuel : Nat} (follows : Follows fuel) {buf filled : Buf} {stream : List UInt8} {skipped : Nat}
    {r : Record} {records : List Record}
    (found : skip buf 0 stream = .found filled skipped (r.part ++ contents records))
    (length : lengthAt filled skipped = r.bytes.length) (uncut : r.Uncut) (short : r.held ≤ bufLength)
    (ends : EndsUncut records) (enough : records.length < fuel) (items : Nat) :
    Hears (readloop recording (fuel + 1) buf 5 stream items)
      (if items + 1 > 2 * MAXLOGENTRIES then ([r], true)
      else (r :: (hear (items + 1) false records).1, (hear (items + 1) false records).2)) := by
  rw [readloop, if_neg (by decide)]
  simp only [found, length, Int.toNat_natCast, Record.body_uncut uncut short, recording]
  split
  · rw [readloop_done _ _ _ (by decide)]
    refine (hears_finish (items + 1) [] rfl).prepend [r] ?_
    rw [List.filterMap_append, skippedLine_values]
    simp [Line.value?, call_bodyBuffer]
  · refine (resume_hears follows filled ends enough (items + 1)).prepend [r] ?_
    rw [List.filterMap_append, skippedLine_values]
    simp [Line.value?, call_bodyBuffer]

theorem torn_hears {fuel : Nat} (follows : Follows fuel) {buf filled : Buf} {stream : List UInt8} {skipped : Nat}
    {r next : Record} {records : List Record}
    (found : skip buf 0 stream = .found filled skipped (r.part ++ contents (next :: records)))
    (length : lengthAt filled skipped = r.bytes.length) (torn : ¬ r.Uncut) (short : r.held ≤ bufLength)
    (ends : EndsUncut (next :: records)) (plain : filled 0 ≠ MAGIC_BYTE → MAGIC_BYTE ∉ next.size ∧ Plain records)
    (enough : (next :: records).length < fuel) (items : Nat) :
    Hears (readloop recording (fuel + 1) buf 5 stream items)
      (if filled 0 = MAGIC_BYTE then hear items false (next :: records)
      else if next.part.length + 15 ≤ bufLength then hear items true records else ([], true)) := by
  obtain ⟨again, rest, header, hears⟩ := cut_hears follows filled ends plain enough items
  rw [contents_cons] at found
  rw [readloop, if_neg (by decide)]
  rcases Record.body_cut torn short (next.size ++ (next.part ++ contents records)) with ⟨pos, body⟩ | ⟨b, body⟩
  all_goals
    simp only [found, length, Int.toNat_natCast, body, header]
    refine hears.prepend [] ?_
    rw [List.filterMap_append, skippedLine_values]
    rfl

private theorem follows_succ {fuel : Nat} (follows : Follows fuel) : Follows (fuel + 1) := by
  intro buf stream pre records items ⟨text, clean, room, ends, plain⟩ enough
  cases records with
  | nil =>
    have nothing : hear items (!pre.isEmpty) [] = ([], true) := by unfold hear; rfl
    rw [nothing]
    refine lost_hears fuel (fun j found => ?_) items
    rw [text, show contents [] = [] from rfl, List.append_nil] at found
    exact absurd (List.mem_of_getElem? found) clean
  | cons r records =>
    rw [contents_cons] at text
    obtain ⟨filled, found, first, written⟩ := skip_finds clean text r.size_length (by omega)
    have length : lengthAt filled (0 + pre.length) = r.bytes.length := lengthAt_eq r.small written
    unfold hear
    by_cases long : bufLength < r.held
    · rw [if_pos long, readloop, if_neg (by decide)]
      simp only [found, length, Int.toNat_natCast, Record.body_long long]
      refine ⟨_, rfl, ?_, by simp⟩
      rw [Reread.values, skippedLine_values]
      rfl
    · rw [if_neg long]
      have enough : records.length < fuel := by
        rw [List.length_cons] at enough
        omega
      by_cases uncut : r.Uncut
      · rw [if_pos uncut]
        exact uncut_hears follows found length uncut (Nat.not_lt.mp long) ends.tail enough items
      · rw [if_neg uncut]
        cases records with
        | nil => exact absurd (ends r rfl) uncut
        | cons next records =>
          cases pre with
          | nil =>
            have magic : filled 0 = MAGIC_BYTE := first.trans (List.cons_eq_cons.mp text).1
            have hears := torn_hears follows found length uncut (Nat.not_lt.mp long) ends.tail
              (fun other => absurd magic other) enough items
            rw [if_pos magic] at hears
            exact hears
          | cons g pre =>
            have garbage : filled 0 = g := first.trans (List.cons_eq_cons.mp text).1
            have other : filled 0 ≠ MAGIC_BYTE := by
              rw [garbage]
              exact (List.ne_of_not_mem_cons clean).symm
            have hears := torn_hears follows found length uncut (Nat.not_lt.mp long) ends.tail
              (fun _ => (plain (List.cons_ne_nil _ _)).resolve_left uncut) enough items
            rw [if_neg other] at hears
            exact hears

private theorem follows (fuel : Nat) : Follows fuel := by
  induction fuel with
  | zero => exact fun _ _ enough => absurd enough (Nat.not_lt_zero _)
  | succ fuel ih => exact follows_succ ih

theorem reread_hears {garbage : List UInt8} (clean : MAGIC_BYTE ∉ garbage) (little : garbage.length ≤ 16000)
    {records : List Record} (ends : EndsUncut records) (plain : garbage ≠ [] → Plain records) :
    Hears (readCacheContents recording (garbage ++ contents records)) (hear 0 (!garbage.isEmpty) records) := by
  have size : (garbage ++ contents records).length = garbage.length + (contents records).length := List.length_append
  have many := length_le_contents records
  rw [readCacheContents_eq]
  by_cases enough : 5 ≤ (garbage ++ contents records).length
  · obtain ⟨filled, stream, header, text⟩ := read_five (fun _ => 0) enough
    rw [resume, header]
    have before : Before filled stream garbage records :=
      ⟨text, clean, Nat.le_trans (Nat.add_le_add_right little 10) (by decide), ends, plain⟩
    exact follows _ 0 before (by omega)
  · cases records with
    | nil =>
      rw [resume_short _ _ _ (by omega)]
      have nothing : hear 0 (!garbage.isEmpty) [] = ([], true) := by unfold hear; rfl
      rw [nothing]
      exact hears_finish 0 [] rfl
    | cons r records =>
      have long := contents_long r records
      omega

/-! ### Which files are read in full -/

/-- Up to the first uncut record, each cut record is followed by another cut one, which is
lost with it and is neither too long for the search nor has a magic byte in its length. -/
def Paired : List Record → Prop
  | r :: lost :: records =>
    r.Uncut ∨ (¬ lost.Uncut ∧ lost.part.length + 15 ≤ bufLength ∧ MAGIC_BYTE ∉ lost.size) ∧ Paired records
  | _ => True

private theorem Paired.plain {records : List Record} (paired : Paired records) : Plain records := by
  fun_induction Plain records with
  | case1 r lost records ih => exact paired.imp_right fun ⟨⟨_, _, clean⟩, later⟩ => ⟨clean, ih later⟩
  | case2 => trivial

private theorem Paired.of_uncut {r : Record} (uncut : r.Uncut) (records : List Record) : Paired (r :: records) := by
  cases records with
  | nil => trivial
  | cons lost records => exact Or.inl uncut

def uncut (records : List Record) : List Record := records.filter (·.Uncut)

private theorem uncut_cons {r : Record} (whole : r.Uncut) (records : List Record) :
    uncut (r :: records) = r :: uncut records :=
  List.filter_cons_of_pos (decide_eq_true whole)

private theorem uncut_torn {r : Record} (torn : ¬ r.Uncut) (records : List Record) :
    uncut (r :: records) = uncut records :=
  List.filter_cons_of_neg (by simpa using torn)

/-- Only uncut records are handed over, in their order. -/
theorem hear_sublist (items : Nat) (stale : Bool) (records : List Record) :
    (hear items stale records).1.Sublist (uncut records) := by
  fun_induction hear items stale records with
  | case1 => exact List.nil_sublist _
  | case2 => exact List.nil_sublist _
  | case3 items stale r records _ whole _ =>
    rw [uncut_cons whole]
    exact (List.nil_sublist _).cons_cons r
  | case4 items stale r records _ whole _ ih =>
    rw [uncut_cons whole]
    exact ih.cons_cons r
  | case5 => exact List.nil_sublist _
  | case6 items r _ torn lost records _ ih =>
    rw [uncut_torn torn]
    exact ih.trans ((List.sublist_cons_self lost records).filter _)
  | case7 => exact List.nil_sublist _
  | case8 items stale r records _ torn _ ih =>
    rw [uncut_torn torn]
    exact ih

private theorem uncut_ends {records : List Record} (ends : EndsUncut records) (some_ : records ≠ []) :
    uncut records ≠ [] := by
  have last := ends (records.getLast some_) (List.getLast?_eq_some_getLast some_)
  exact List.ne_nil_of_mem (List.mem_filter.mpr ⟨List.getLast_mem some_, decide_eq_true last⟩)

/-- When every uncut record is handed over and the reading ends well. -/
theorem hear_whole {items : Nat} {stale : Bool} {records : List Record} (ends : EndsUncut records)
    (room : items ≤ 2 * MAXLOGENTRIES) (plain : stale = true → Plain records) :
    hear items stale records = (uncut records, true) ↔
      (∀ r ∈ records, r.held ≤ bufLength) ∧ items + (uncut records).length ≤ 2 * MAXLOGENTRIES + 1 ∧
        (stale = true → Paired records) := by
  fun_induction hear items stale records with
  | case1 items => simp [uncut, Paired]; omega
  | case2 items stale r records long =>
    simp only [List.forall_mem_cons, Nat.not_le.mpr long, false_and, iff_false]
    exact fun same => by cases congrArg Prod.snd same
  | case3 items stale r records short whole full =>
    have nothing : uncut records = [] ↔ records = [] := by
      refine ⟨fun none_ => ?_, fun none_ => by rw [none_]; rfl⟩
      by_contra some_
      exact uncut_ends ends.tail some_ none_
    rw [uncut_cons whole, List.length_cons]
    constructor
    · intro same
      obtain rfl := nothing.mp (List.cons_eq_cons.mp (congrArg Prod.fst same)).2.symm
      refine ⟨List.forall_mem_singleton.mpr (Nat.not_lt.mp short), ?_, fun _ => Paired.of_uncut whole []⟩
      simp [uncut]
      omega
    · intro ⟨_, few, _⟩
      rw [List.eq_nil_of_length_eq_zero (by omega : (uncut records).length = 0)]
  | case4 items stale r records short whole more ih =>
    rw [uncut_cons whole, List.length_cons, List.forall_mem_cons]
    have rest := ih ends.tail (by omega) (fun other => by cases other)
    constructor
    · intro same
      have tails := congrArg Prod.fst same
      have well := congrArg Prod.snd same
      obtain ⟨small, few, _⟩ := rest.mp (Prod.ext (List.cons_eq_cons.mp tails).2 well)
      exact ⟨⟨Nat.not_lt.mp short, small⟩, by omega, fun _ => Paired.of_uncut whole records⟩
    · intro ⟨⟨_, small⟩, few, _⟩
      rw [rest.mpr ⟨small, by omega, fun other => by cases other⟩]
  | case5 items r short torn => exact absurd (ends r rfl) torn
  | case6 items r short torn lost records near ih =>
    obtain ⟨clean, plain⟩ := (plain rfl).resolve_left torn
    have rest := ih ends.tail.tail room (fun _ => plain)
    rw [uncut_torn torn, List.forall_mem_cons, List.forall_mem_cons]
    have small : lost.held ≤ bufLength := Nat.le_trans lost.held_le (by omega)
    by_cases whole : lost.Uncut
    · refine ⟨fun same => ?_, fun ⟨_, _, paired⟩ => ?_⟩
      · have fewer := (hear_sublist items true records).length_le
        rw [same, uncut_cons whole, List.length_cons] at fewer
        omega
      · exact absurd whole ((paired rfl).resolve_left torn).1.1
    · rw [uncut_torn whole, rest]
      constructor
      · intro ⟨all, few, paired⟩
        exact ⟨⟨Nat.not_lt.mp short, small, all⟩, few, fun _ => Or.inr ⟨⟨whole, near, clean⟩, paired rfl⟩⟩
      · intro ⟨⟨_, _, all⟩, few, paired⟩
        exact ⟨all, few, fun _ => ((paired rfl).resolve_left torn).2⟩
  | case7 items r short torn lost records far =>
    rw [uncut_torn torn]
    refine ⟨fun same => ?_, fun ⟨_, _, paired⟩ => ?_⟩
    · exact absurd (congrArg Prod.fst same).symm (uncut_ends ends.tail (List.cons_ne_nil _ _))
    · exact absurd ((paired rfl).resolve_left torn).1.2.1 far
  | case8 items stale r records short torn fresh ih =>
    have fresh : stale = false := Bool.eq_false_iff.mpr fresh
    rw [uncut_torn torn, ih ends.tail room (fun other => by cases other), List.forall_mem_cons, fresh]
    simp [Nat.not_lt.mp short]

/-! ### The claimed resynchronisation -/

/-- The reading ends, and the callback was given exactly the uncut records, in their order. -/
def Resynchronises (garbage : List UInt8) (records : List Record) : Prop :=
  ∃ reread, readCacheContents recording (garbage ++ contents records) = some reread ∧ reread.thrown = none ∧
    reread.values.map call = (uncut records).map Record.call

/-- The bodies fit the buffer, the records the limit, and behind garbage the cut records in
front of the first uncut one come in pairs. -/
structure Readable (garbage : List UInt8) (records : List Record) : Prop where
  short : ∀ r ∈ records, r.held ≤ bufLength
  few : (uncut records).length ≤ 2 * MAXLOGENTRIES + 1
  paired : garbage ≠ [] → Paired records

private theorem isEmpty_stale (garbage : List UInt8) : (!garbage.isEmpty) = true ↔ garbage ≠ [] := by
  cases garbage <;> simp

private theorem resynchronises_iff {garbage : List UInt8} (clean : MAGIC_BYTE ∉ garbage)
    (little : garbage.length ≤ 16000)
    {records : List Record} (ends : EndsUncut records) (plain : garbage ≠ [] → Plain records) :
    Resynchronises garbage records ↔ Readable garbage records := by
  obtain ⟨reread, read, values, well⟩ := reread_hears clean little ends plain
  have whole := hear_whole ends (Nat.zero_le _) (fun stale => plain ((isEmpty_stale garbage).mp stale))
  rw [isEmpty_stale, Nat.zero_add] at whole
  have heard : Resynchronises garbage records ↔ hear 0 (!garbage.isEmpty) records = (uncut records, true) := by
    constructor
    · rintro ⟨again, found, normal, handed⟩
      obtain rfl := Option.some.inj (read.symm.trans found)
      have sizes := congrArg List.length (values.symm.trans handed)
      rw [List.length_map, List.length_map] at sizes
      exact Prod.ext ((hear_sublist _ _ _).eq_of_length sizes) (well.mp normal)
    · intro same
      rw [same] at values well
      exact ⟨reread, read, well.mpr rfl, values⟩
  rw [heard, whole]
  exact ⟨fun ⟨short, few, paired⟩ => ⟨short, few, paired⟩, fun ⟨short, few, paired⟩ => ⟨short, few, paired⟩⟩

/-- Where the file is readable, the reader resynchronises; where no lost record's length looks
like a header, only there. -/
theorem resynchronises_exact {garbage : List UInt8} (clean : MAGIC_BYTE ∉ garbage) (little : garbage.length ≤ 16000)
    {records : List Record} (ends : EndsUncut records) :
    (Readable garbage records → Resynchronises garbage records) ∧
      ((garbage ≠ [] → Plain records) → Resynchronises garbage records → Readable garbage records) :=
  ⟨fun readable => (resynchronises_iff clean little ends fun some_ => (readable.paired some_).plain).mpr readable,
    fun plain => (resynchronises_iff clean little ends plain).mp⟩

theorem resynchronises_exact_pair :
    Readable [0] [.bare [7] (by decide), .bare [0x55] (by decide), .whole [0x55, 8] (by decide)] ∧
      Resynchronises [0] [.bare [7] (by decide), .bare [0x55] (by decide), .whole [0x55, 8] (by decide)] := by
  have ends : EndsUncut [.bare [7] (by decide), .bare [0x55] (by decide), .whole [0x55, 8] (by decide)] :=
    fun r last => by
      cases last
      rfl
  have readable : Readable [0] [.bare [7] (by decide), .bare [0x55] (by decide), .whole [0x55, 8] (by decide)] := by
    refine ⟨by decide, by decide, fun _ => Or.inr ⟨⟨by decide, by decide, by decide⟩, trivial⟩⟩
  obtain ⟨enough, needed⟩ := resynchronises_exact (by decide : MAGIC_BYTE ∉ [(0 : UInt8)]) (by decide) ends
  exact ⟨needed (fun some_ => (readable.paired some_).plain) (enough readable), enough readable⟩

/-- A single cut record behind one byte of garbage takes the next record with it. -/
theorem garbage_loses_record :
    EndsUncut [.bare [7] (by decide), .whole [8] (by decide)] ∧
      ¬ Resynchronises [0] [.bare [7] (by decide), .whole [8] (by decide)] := by
  refine ⟨fun r last => by cases last; rfl, ?_⟩
  have nothing : (readCacheContents recording ([0] ++ contents [.bare [7] (by decide), .whole [8] (by decide)])).map
      Reread.values = some [] := by
    decide +kernel
  rintro ⟨reread, read, _, handed⟩
  rw [read, Option.map_some] at nothing
  rw [Option.some.inj nothing] at handed
  exact absurd (congrArg List.length handed) (by decide)

end RRoadVpn.Proofs.LogResync
