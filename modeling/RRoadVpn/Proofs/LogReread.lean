import RRoadVpn.VpnStatus
import RRoadVpn.Proofs.LogItemCodec
import RRoadVpn.Proofs.LogFraming

/-! The reader ends on every file, and restores only what its callback accepted.
Items that were written are accepted again when they can be read. -/

namespace RRoadVpn.Proofs.LogReread
open Library LogFileHandler LogItem LogItemCodec LogFraming

/-! ### Any file -/

section Any

variable {α : Type} (restore : Restore α)

/-- The restored values among the lines were restored by the callback. -/
def FromCallback (lines : List (Line α)) : Prop :=
  ∀ value, .restored value ∈ lines → ∃ buf len, restore buf len = .ok (.restored value)

variable {restore}

private theorem FromCallback.append {first second : List (Line α)} (head : FromCallback restore first)
    (tail : FromCallback restore second) : FromCallback restore (first ++ second) := by
  intro value member
  exact (List.mem_append.mp member).elim (head value) (tail value)

private theorem fromCallback_skipped (restore : Restore α) (skipped : Nat) :
    FromCallback restore (skippedLine skipped) := by
  intro value member
  simp only [skippedLine] at member
  split at member <;> simp at member

private theorem skip_length {buf filled : Buf} {start skipped : Nat} {stream rest : List UInt8}
    (found : skip buf start stream = .found filled skipped rest) : rest.length ≤ stream.length := by
  induction stream generalizing buf start with
  | nil =>
    unfold skip at found
    split at found <;> cases found
    exact Nat.le_refl _
  | cons b stream ih =>
    unfold skip at found
    split at found
    · cases found
      exact Nat.le_refl _
    · split at found
      · cases found
      · exact Nat.le_succ_of_le (ih found)

private theorem readByte_length (stream : List UInt8) : (readByte stream).2.length ≤ stream.length := by
  cases stream <;> simp [readByte]

def Leaves (length : Nat) : Body → Prop
  | .complete _ stream => stream.length ≤ length
  | .unexpectedMagic _ stream => stream.length < length
  | .badEscape _ stream => stream.length < length
  | .thrown _ => True

private theorem Leaves.put {length : Nat} {body : Body} (leaves : Leaves length body) (pos : Nat) (b : UInt8) :
    Leaves length (put pos b body) := by
  unfold LogFileHandler.put
  split
  · trivial
  · cases body <;> exact leaves

private theorem Leaves.mono {small large : Nat} {body : Body} (leaves : Leaves small body) (le : small ≤ large) :
    Leaves large body := by
  cases body with
  | complete => exact Nat.le_trans leaves le
  | unexpectedMagic => exact Nat.lt_of_lt_of_le leaves le
  | badEscape => exact Nat.lt_of_lt_of_le leaves le
  | thrown => trivial

private theorem readBody_cons (left pos : Nat) (b : UInt8) (stream : List UInt8) :
    readBody (left + 1) pos (b :: stream) =
      if b = MAGIC_BYTE then .unexpectedMagic pos stream
      else if b = MAGIC_BYTE + 1 then
        if (readByte stream).1 = 0 then put pos MAGIC_BYTE (readBody left (pos + 1) (readByte stream).2)
        else if (readByte stream).1 = 1 then
          put pos (MAGIC_BYTE + 1) (readBody left (pos + 1) (readByte stream).2)
        else .badEscape (readByte stream).1 (readByte stream).2
      else put pos b (readBody left (pos + 1) stream) := rfl

private theorem readBody_leaves (left pos : Nat) (stream : List UInt8) :
    Leaves stream.length (readBody left pos stream) := by
  induction left generalizing pos stream with
  | zero => exact Nat.le_refl _
  | succ left ih =>
    cases stream with
    | nil => exact (ih (pos + 1) []).put pos 0xff
    | cons b stream =>
      have shorter : stream.length ≤ (b :: stream).length := Nat.le_succ _
      have second := readByte_length stream
      rw [readBody_cons]
      split
      · exact Nat.lt_succ_self _
      · split
        · split
          · exact ((ih (pos + 1) _).mono (Nat.le_trans second shorter)).put pos _
          · split
            · exact ((ih (pos + 1) _).mono (Nat.le_trans second shorter)).put pos _
            · exact Nat.lt_succ_of_le second
        · exact ((ih (pos + 1) stream).mono shorter).put pos b

private theorem read_shorter (buf : Buf) (off n : Nat) (stream : List UInt8) (positive : 0 < n) :
    (LogFileHandler.read buf off n stream).1 = -1 ∨
      (LogFileHandler.read buf off n stream).2.2.length < stream.length := by
  unfold LogFileHandler.read
  split
  · exact Or.inl rfl
  next nonempty =>
    have := List.length_pos_iff.mpr nonempty
    refine Or.inr ?_
    rw [List.length_drop]
    omega

private theorem read_length (buf : Buf) (off n : Nat) (stream : List UInt8) :
    (LogFileHandler.read buf off n stream).2.2.length ≤ stream.length := by
  unfold LogFileHandler.read
  split
  · exact Nat.zero_le _
  · simp

/-- One round of the loop ends the reading, or reads on with less of the stream. -/
theorem readloop_step (restore : Restore α) (fuel : Nat) (buf : Buf) {count : Int} (enough : ¬ count < 5)
    (stream : List UInt8)
    (itemsRead : Nat) :
    (∃ reread, readloop restore (fuel + 1) buf count stream itemsRead = some reread ∧
      FromCallback restore reread.lines) ∨
    ∃ lines filled count' rest itemsRead', FromCallback restore lines ∧
      (count' < 5 ∨ rest.length < stream.length) ∧
      readloop restore (fuel + 1) buf count stream itemsRead =
        (readloop restore fuel filled count' rest itemsRead').map (Reread.prepend lines) := by
  rw [readloop, if_neg enough]
  cases search : skip buf 0 stream with
  | lost skipped => exact Or.inl ⟨_, rfl, by simp [FromCallback, Reread.prepend, finish]⟩
  | found filled skipped rest =>
    have shorter := skip_length search
    have quiet := fromCallback_skipped restore skipped
    have leaves := readBody_leaves (lengthAt filled skipped).toNat 0 rest
    simp only []
    cases body : readBody (lengthAt filled skipped).toNat 0 rest with
    | thrown index => exact Or.inl ⟨_, rfl, quiet⟩
    | unexpectedMagic pos left =>
      rw [body] at leaves
      have less := Nat.lt_of_lt_of_le (Nat.lt_of_le_of_lt (read_length filled 1 4 left) leaves) shorter
      exact Or.inr ⟨_, _, _, _, _, quiet.append (by simp [FromCallback]), Or.inr less, rfl⟩
    | badEscape b left =>
      rw [body] at leaves
      have less := Nat.lt_of_lt_of_le (Nat.lt_of_le_of_lt (read_length filled 1 4 left) leaves) shorter
      exact Or.inr ⟨_, _, _, _, _, quiet.append (by simp [FromCallback]), Or.inr less, rfl⟩
    | complete bytes left =>
      rw [body] at leaves
      simp only []
      cases restored : restore (bodyBuffer bytes) (lengthAt filled skipped) with
      | error thrown => exact Or.inl ⟨_, rfl, quiet⟩
      | ok line =>
        have own : FromCallback restore [line] := by
          intro value member
          rw [List.mem_singleton] at member
          exact ⟨_, _, member ▸ restored⟩
        simp only []
        split
        · exact Or.inr ⟨_, _, _, _, _, quiet.append (own.append (by simp [FromCallback])), Or.inl (by decide), rfl⟩
        · rcases read_shorter filled 0 5 left (by decide) with ended | less
          · exact Or.inr ⟨_, _, _, _, _, quiet.append own, Or.inl (Int.lt_of_le_of_lt (Int.le_of_eq ended) (by decide)), rfl⟩
          · exact Or.inr ⟨_, _, _, _, _, quiet.append own,
              Or.inr (Nat.lt_of_lt_of_le less (Nat.le_trans leaves shorter)), rfl⟩

private theorem readloop_ends {fuel : Nat} {buf : Buf} {count : Int} {stream : List UInt8} {itemsRead : Nat}
    (room : count < 5 ∨ stream.length < fuel) :
    ∃ reread, readloop restore fuel buf count stream itemsRead = some reread ∧ FromCallback restore reread.lines := by
  induction fuel generalizing buf count stream itemsRead with
  | zero => exact ⟨_, readloop_done restore 0 buf (by omega) stream itemsRead, by simp [FromCallback, finish]⟩
  | succ fuel ih =>
    by_cases few : count < 5
    · exact ⟨_, readloop_done restore _ buf few stream itemsRead, by simp [FromCallback, finish]⟩
    · rcases readloop_step restore fuel buf few stream itemsRead with ended | ⟨lines, filled, count', rest,
        itemsRead', quiet, less, continued⟩
      · exact ended
      · obtain ⟨reread, later, own⟩ := @ih filled count' rest itemsRead' (by omega)
        rw [continued, later]
        exact ⟨_, rfl, quiet.append own⟩

variable (restore)

/-- The reading of any file ends, and restores what the callback restores. -/
theorem readCacheContents_ends (input : List UInt8) :
    ∃ reread, readCacheContents restore input = some reread ∧ FromCallback restore reread.lines := by
  exact readloop_ends (Or.inr (Nat.lt_succ_of_le (read_length (fun _ => 0) 0 5 input)))

end Any

/-! ### Written items -/

def bytesOf (item : LogItem) : List UInt8 :=
  match item.getMarschaledBytes with
  | .error _ => []
  | .ok bytes => bytes

def Readable (item : LogItem) : Prop :=
  (∀ list, item.mArgs = some list → list.length ≤ 30) ∧ (stored item).verify = true

private theorem writeLogItemToDisk_ok {item : LogItem} {record : List UInt8}
    (written : writeLogItemToDisk item = .ok record) :
    item.getMarschaledBytes = .ok (bytesOf item) ∧ record = writeEscapedBytes (bytesOf item) := by
  unfold writeLogItemToDisk at written
  unfold bytesOf
  cases marschaled : item.getMarschaledBytes with
  | error error =>
    rw [marschaled] at written
    cases written
  | ok bytes =>
    rw [marschaled] at written
    cases written
    exact ⟨rfl, rfl⟩

/-- A file of written items is the frames of their bytes. -/
theorem writeLogItems_ok {items : List LogItem} {contents : List UInt8}
    (written : writeLogItems items = .ok contents) :
    (∀ item ∈ items, item.getMarschaledBytes = .ok (bytesOf item)) ∧ contents = frames bytesOf items := by
  induction items generalizing contents with
  | nil =>
    cases written
    exact ⟨by simp, rfl⟩
  | cons item items ih =>
    unfold writeLogItems at written
    cases first : writeLogItemToDisk item with
    | error error =>
      rw [first] at written
      cases written
    | ok record =>
      cases later : writeLogItems items with
      | error error =>
        rw [first, later] at written
        cases written
      | ok rest =>
        rw [first, later] at written
        cases written
        obtain ⟨own, rfl⟩ := writeLogItemToDisk_ok first
        obtain ⟨others, rfl⟩ := ih later
        exact ⟨List.forall_mem_cons.mpr ⟨own, others⟩, rfl⟩

theorem bytesOf_length {item : LogItem} (written : item.getMarschaledBytes = .ok (bytesOf item)) :
    (bytesOf item).length ≤ bufLength :=
  have ⟨_, _, _, fits⟩ := getMarschaledBytes_ok written
  fits

theorem accepts_readable {item : LogItem} (written : item.getMarschaledBytes = .ok (bytesOf item))
    (readable : Readable item) :
    Accepts LogFileHandler.restoreLogItem bytesOf (fun item => .restored (stored item)) item := by
  refine ⟨bytesOf_length written, ?_⟩
  rw [LogFileHandler.restoreLogItem, bodyBuffer, ofBytes_getMarschaledBytes _ readable.1 written]
  exact if_pos readable.2

/-- What the log shows of an item, and few arguments. -/
def Shown (item : LogItem) : Prop :=
  item.verify = true ∧ ∀ list, item.mArgs = some list → list.length ≤ 30

theorem restoreLogItem_restored {buf : List UInt8} {len : Int} {item : LogItem}
    (restored : LogFileHandler.restoreLogItem buf len = .ok (.restored item)) : Shown item := by
  unfold LogFileHandler.restoreLogItem at restored
  split at restored
  · cases restored
  next li decoded =>
    split at restored <;> cases restored
    next verified => exact ⟨verified, ofBytes_few decoded⟩

theorem readable_of_shown {item : LogItem} (shown : Shown (stored item)) : Readable item := by
  refine ⟨fun list same => ?_, shown.1⟩
  by_cases empty : list = []
  · simp [empty]
  · have few := shown.2 (list.map storedArg) (by simp [stored, storedArgs, same, empty])
    rwa [List.length_map] at few

end RRoadVpn.Proofs.LogReread
