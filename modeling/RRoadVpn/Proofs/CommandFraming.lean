import Mathlib.Data.List.Infix
import Mathlib.Data.List.TakeDrop
import Mathlib.Tactic.FinCases
import RRoadVpn.ManRead
import RRoadVpn.Library.LineStream

/-! Which lines of the client's stream OpenVPN takes as commands, however the socket
cuts the stream into reads. -/

namespace RRoadVpn.Proofs.CommandFraming
open Library ManRead JavaText

/-! ### Filling the buffer -/

private theorem addChar_content {capacity : Nat} (buf : Buffer capacity) (c : UInt8)
    (room : buf.content.length < capacity) :
    (addChar buf c).content = buf.content ++ [c].filter kept := by
  cases keeps : kept c with
  | false => simp [addChar, keeps]
  | true => simp [addChar, keeps, write, Nat.succ_le_of_lt room]

theorem add_fits {capacity : Nat} (buf : Buffer capacity) (bytes : List UInt8)
    (room : buf.content.length + (bytes.filter kept).length ≤ capacity) :
    (bytes.foldl addChar buf).content = buf.content ++ bytes.filter kept := by
  induction bytes generalizing buf with
  | nil => simp
  | cons c bytes ih =>
    rw [List.foldl_cons]
    cases keeps : kept c with
    | false =>
      have same : addChar buf c = buf := by simp [addChar, keeps]
      rw [List.filter_cons_of_neg (by simp [keeps])] at room ⊢
      rw [same, ih buf room]
    | true =>
      rw [List.filter_cons_of_pos keeps, List.length_cons] at room
      have here := addChar_content buf c (by omega)
      rw [List.filter_cons_of_pos keeps, List.filter_nil] at here
      rw [ih (addChar buf c) (by rw [here]; simp; omega), here, List.filter_cons_of_pos keeps, List.append_assoc,
        List.singleton_append]

/-- Whatever comes, the buffer ends with an end of what came. -/
theorem add_suffix {capacity : Nat} {stream : List UInt8} {buf : Buffer capacity} (ends : buf.content <:+ stream)
    (bytes : List UInt8) : (bytes.foldl addChar buf).content <:+ stream ++ bytes.filter kept := by
  induction bytes generalizing buf stream with
  | nil => simpa using ends
  | cons c bytes ih =>
    rw [List.foldl_cons]
    cases keeps : kept c with
    | false =>
      have same : addChar buf c = buf := by simp [addChar, keeps]
      rw [same, List.filter_cons_of_neg (by simp [keeps])]
      exact ih ends
    | true =>
      have here : (addChar buf c).content <:+ stream ++ [c] := by
        simp only [addChar, keeps, if_true, write]
        split
        · obtain ⟨front, rfl⟩ := ends
          exact ⟨front, by simp⟩
        · exact List.nil_suffix
      rw [List.filter_cons_of_pos keeps, ← List.singleton_append, ← List.append_assoc]
      exact ih here

private theorem kept_of_add {capacity : Nat} {buf : Buffer capacity} (clean : ∀ c ∈ buf.content, kept c = true)
    (bytes : List UInt8) : ∀ c ∈ (bytes.foldl addChar buf).content, kept c = true := by
  intro c member
  rcases List.mem_append.mp ((add_suffix List.suffix_rfl bytes).mem member) with old | new
  · exact clean c old
  · exact (List.mem_filter.mp new).2

/-! ### Taking a line -/

private theorem substringLen_line {line : List UInt8} (clean : 10 ∉ line) (rest : List UInt8) :
    substringLen 10 (line ++ 10 :: rest) = some (line.length + 1) := by
  induction line with
  | nil => simp [substringLen]
  | cons c line ih =>
    obtain ⟨here, later⟩ := not_or.mp (List.mem_cons.not.mp clean)
    rw [List.cons_append, substringLen, if_neg (Ne.symm here), ih later]
    rfl

private theorem substringLen_none {bytes : List UInt8} (clean : 10 ∉ bytes) : substringLen 10 bytes = none := by
  induction bytes with
  | nil => rfl
  | cons c bytes ih =>
    obtain ⟨here, later⟩ := not_or.mp (List.mem_cons.not.mp clean)
    rw [substringLen, if_neg (Ne.symm here), ih later]
    rfl

theorem not_trailing {c : UInt8} (keeps : kept c = true) (inside : c ≠ 10) : trailing c = false := by
  simp only [kept, trailing, Bool.and_eq_true, Bool.or_eq_true, bne_iff_ne, ne_eq, beq_iff_eq, decide_eq_true_eq,
    Bool.or_eq_false_iff, beq_eq_false_iff_ne] at keeps ⊢
  refine ⟨⟨?_, inside⟩, keeps.1⟩
  rintro rfl
  rcases keeps.2 with ⟨print, -⟩ | newline
  · exact absurd print (by decide)
  · exact inside newline

private theorem str_chomp {capacity : Nat} {buf : Buffer capacity} {line : List UInt8}
    (content : buf.content = line ++ [10])
    (clean : ∀ c ∈ line, kept c = true ∧ c ≠ 10) : str (chomp buf) = chars line := by
  have chomped : buf.content.rdropWhile trailing = line := by
    rw [content, List.rdropWhile_concat_pos _ _ _ (by decide)]
    rcases List.eq_nil_or_concat line with rfl | ⟨front, last, rfl⟩
    · simp
    · rw [List.concat_eq_append]
      rw [List.concat_eq_append] at clean
      obtain ⟨keeps, inside⟩ := clean last (by simp)
      exact List.rdropWhile_concat_neg _ _ _ (by simp [not_trailing keeps inside])
  have zero : ∀ c ∈ line, (c != 0) = true := by
    intro c member
    have keeps := (clean c member).1
    simp only [kept, Bool.and_eq_true] at keeps
    exact keeps.1
  have open_ : line.getLast? ≠ some 0 := by
    intro last
    exact absurd (zero 0 (List.mem_of_getLast? last)) (by decide)
  have room : line.length + 1 ≤ capacity := by
    have fits := buf.fits
    rwa [content, List.length_append] at fits
  simp only [chomp, chomped, nullTerminate, if_neg open_, if_pos room, write, List.length_singleton, dif_pos room,
    Option.getD_some, str]
  rw [List.takeWhile_append_of_pos zero]
  simp

variable {capacity : Nat}

/-- A command line between two commands. -/
structure Ready (cl : CommandLine capacity) : Prop where
  residual : cl.residual = clear
  clean : ∀ c ∈ cl.buf.content, kept c = true

private theorem get_line {cl : CommandLine capacity} (ready : Ready cl) {line rest : List UInt8} (clean : 10 ∉ line)
    (content : cl.buf.content = line ++ 10 :: rest) :
    ∃ after, commandLineGet cl = some (chars line, after) ∧ Ready (commandLineNext after) ∧
      (commandLineNext after).buf.content = rest := by
  have fits := cl.buf.fits
  rw [content] at fits
  have keeps : ∀ c ∈ line ++ 10 :: rest, kept c = true := by
    rw [← content]
    exact ready.clean
  have excess : (copyExcess cl.residual cl.buf (line.length + 1)).2.content = line ++ [10] ∧
      (copyExcess cl.residual cl.buf (line.length + 1)).1.content = rest := by
    rw [copyExcess, ready.residual]
    simp only [content, List.length_append, List.length_cons] at fits ⊢
    split
    · have room : rest.length ≤ capacity := by omega
      simp [write, clear, room, List.take_append, List.drop_append]
    next short =>
      obtain rfl : rest = [] := List.eq_nil_of_length_eq_zero (by omega)
      exact ⟨content, rfl⟩
  have room : rest.length ≤ capacity := by
    simp only [List.length_append, List.length_cons] at fits
    omega
  have copied : (write (@clear capacity) rest).getD clear = ⟨rest, room⟩ := by simp [write, clear, room]
  refine ⟨{ buf := chomp (copyExcess cl.residual cl.buf (line.length + 1)).2,
            residual := (copyExcess cl.residual cl.buf (line.length + 1)).1 }, ?_, ⟨rfl, ?_⟩, ?_⟩
  · rw [commandLineGet, content, substringLen_line clean]
    refine congrArg some (Prod.ext ?_ rfl)
    refine str_chomp excess.1 fun c member => ⟨keeps c (List.mem_append_left _ member), ?_⟩
    rintro rfl
    exact clean member
  · rw [commandLineNext, excess.2, copied]
    exact fun c member => keeps c (List.mem_append_right _ (List.mem_cons_of_mem _ member))
  · rw [commandLineNext, excess.2, copied]

private theorem get_none {cl : CommandLine capacity} (clean : 10 ∉ cl.buf.content) : commandLineGet cl = none := by
  rw [commandLineGet, substringLen_none clean]
  rfl

/-! ### Reading -/

section Reading

variable {σ : Type*} (process : σ → Text → σ) (halt : σ → Bool)

/-- Lines handled in their order until one halts the connection. -/
def serve (s : σ) (lines : List Text) : σ := lines.foldl (fun s line => if halt s then s else process s line) s

theorem serve_halted {s : σ} (halted : halt s = true) (lines : List Text) : serve process halt s lines = s := by
  induction lines with
  | nil => rfl
  | cons line lines ih =>
    rw [serve, List.foldl_cons, if_pos halted]
    exact ih

theorem serve_append (s : σ) (first second : List Text) :
    serve process halt s (first ++ second) = serve process halt (serve process halt s first) second :=
  List.foldl_append

theorem serve_cons {s : σ} (alive : halt s = false) (line : Text) (lines : List Text) :
    serve process halt s (line :: lines) = serve process halt (process s line) lines := by
  simp [serve, alive]

/-- The loop of `man_read` handles the complete lines of the buffer and keeps the rest. -/
theorem processCommands_eq {c : ManRead.Connection σ capacity} (ready : Ready c.in_) (alive : halt c.man = false)
    {lines : List (List UInt8)} {rest : List UInt8} (content : c.in_.buf.content = unlines 10 lines ++ rest)
    (clean : ∀ line ∈ lines, 10 ∉ line) (open_ : 10 ∉ rest) :
    (processCommands process halt c).man = serve process halt c.man (lines.map chars) ∧
      (halt (processCommands process halt c).man = false →
        Ready (processCommands process halt c).in_ ∧ (processCommands process halt c).in_.buf.content = rest) := by
  induction lines generalizing c with
  | nil =>
    have none : commandLineGet c.in_ = none := get_none (by rw [content]; simpa using open_)
    have stops : processCommands process halt c = c := by
      rw [processCommands]
      split
      · rfl
      next got =>
        rw [none] at got
        cases got
    rw [stops]
    exact ⟨rfl, fun _ => ⟨ready, by simpa using content⟩⟩
  | cons line lines ih =>
    obtain ⟨here, later⟩ := List.forall_mem_cons.mp clean
    rw [unlines_cons, List.append_assoc, List.cons_append] at content
    obtain ⟨after, got, next, left⟩ := get_line ready here content
    have step : processCommands process halt c =
        if halt (process c.man (chars line)) then { man := process c.man (chars line), in_ := after }
        else processCommands process halt { man := process c.man (chars line), in_ := commandLineNext after } := by
      rw [processCommands]
      split
      next nothing =>
        rw [got] at nothing
        cases nothing
      next first second there =>
        rw [got] at there
        cases there
        rfl
    rw [step, List.map_cons, serve_cons process halt alive]
    by_cases halts : halt (process c.man (chars line)) = true
    · rw [if_pos halts]
      refine ⟨(serve_halted process halt halts _).symm, fun goes => ?_⟩
      rw [halts] at goes
      cases goes
    · rw [if_neg halts]
      exact ih next (Bool.eq_false_iff.mpr halts) left later

/-- One read, by what the buffer holds after the chunk is added. -/
theorem manRead_eq {c : ManRead.Connection σ capacity} (ready : Ready c.in_) (alive : halt c.man = false)
    {bytes : List UInt8}
    {lines : List (List UInt8)} {rest : List UInt8}
    (content : (bytes.foldl addChar c.in_.buf).content = unlines 10 lines ++ rest)
    (clean : ∀ line ∈ lines, 10 ∉ line) (open_ : 10 ∉ rest) :
    (manRead process halt c bytes).man = serve process halt c.man (lines.map chars) ∧
      (halt (manRead process halt c bytes).man = false →
        Ready (manRead process halt c bytes).in_ ∧ (manRead process halt c bytes).in_.buf.content = rest) := by
  have filled : Ready (commandLineAdd c.in_ bytes) := ⟨ready.residual, kept_of_add ready.clean bytes⟩
  obtain ⟨man, in_⟩ :=
    processCommands_eq process halt (c := { c with in_ := commandLineAdd c.in_ bytes }) filled alive
    content clean open_
  rw [manRead]
  split
  next halted => exact ⟨man, fun goes => absurd goes (by simp [halted])⟩
  next goes => exact ⟨man, fun _ => in_ (Bool.eq_false_iff.mpr goes)⟩

theorem manRead_open {c : ManRead.Connection σ capacity} (ready : Ready c.in_) (alive : halt c.man = false)
    {bytes rest : List UInt8}
    (content : (bytes.foldl addChar c.in_.buf).content = rest) (open_ : 10 ∉ rest) :
    (manRead process halt c bytes).man = c.man ∧
      (halt (manRead process halt c bytes).man = false →
        Ready (manRead process halt c bytes).in_ ∧ (manRead process halt c bytes).in_.buf.content = rest) :=
  manRead_eq process halt ready alive (show _ = unlines 10 [] ++ rest from content) (by simp) open_

private theorem manReads_halted {c : ManRead.Connection σ capacity} (halted : halt c.man = true)
    (reads : List (List UInt8)) :
    manReads process halt c reads = c := by
  induction reads with
  | nil => rfl
  | cons bytes reads ih =>
    rw [manReads, List.foldl_cons, if_pos halted]
    exact ih

private theorem manReads_cons {c : ManRead.Connection σ capacity} (alive : halt c.man = false) (bytes : List UInt8)
    (reads : List (List UInt8)) :
    manReads process halt c (bytes :: reads) = manReads process halt (manRead process halt c bytes) reads := by
  simp [manReads, alive]

private theorem filter_flatten_cons (bytes : List UInt8) (reads : List (List UInt8)) :
    (bytes :: reads).flatten.filter kept = bytes.filter kept ++ reads.flatten.filter kept := by
  rw [List.flatten_cons, List.filter_append]

/-- While no line end comes nothing is handled, even if the buffer overflows. -/
theorem manReads_quiet {c : ManRead.Connection σ capacity} (ready : Ready c.in_) (open_ : 10 ∉ c.in_.buf.content)
    {reads : List (List UInt8)} (quiet : 10 ∉ reads.flatten.filter kept) :
    (manReads process halt c reads).man = c.man := by
  induction reads generalizing c with
  | nil => rfl
  | cons bytes reads ih =>
    cases halted : halt c.man with
    | true => rw [manReads_halted process halt halted]
    | false =>
      rw [filter_flatten_cons, List.mem_append, not_or] at quiet
      have still : 10 ∉ (bytes.foldl addChar c.in_.buf).content := by
        intro member
        rcases List.mem_append.mp ((add_suffix List.suffix_rfl bytes).mem member) with old | new
        · exact open_ old
        · exact quiet.1 new
      obtain ⟨same, in_⟩ := manRead_open process halt ready halted rfl still
      obtain ⟨next, content⟩ := in_ (by rw [same, halted])
      rw [manReads_cons process halt halted, ih next (by rw [content]; exact still) quiet.2, same]

private theorem manReads_lines {c : ManRead.Connection σ capacity} (ready : Ready c.in_) (alive : halt c.man = false)
    (open_ : 10 ∉ c.in_.buf.content) {chunk : Nat} {reads : List (List UInt8)}
    (sizes : ∀ bytes ∈ reads, bytes.length ≤ chunk)
    {lines : List (List UInt8)} {rest : List UInt8}
    (stream : c.in_.buf.content ++ reads.flatten.filter kept = unlines 10 lines ++ rest)
    (clean : ∀ line ∈ lines, 10 ∉ line) (left : 10 ∉ rest) (short : ∀ line ∈ lines, line.length + chunk ≤ capacity) :
    (manReads process halt c reads).man = serve process halt c.man (lines.map chars) := by
  induction reads generalizing c lines with
  | nil =>
    cases lines with
    | nil => rfl
    | cons line lines =>
      refine absurd ?_ open_
      rw [List.flatten_nil, List.filter_nil, List.append_nil] at stream
      simp [stream]
  | cons bytes reads ih =>
    obtain ⟨size, sizes⟩ := List.forall_mem_cons.mp sizes
    rw [filter_flatten_cons, ← List.append_assoc] at stream
    cases lines with
    | nil =>
      refine manReads_quiet process halt ready open_ ?_
      rw [filter_flatten_cons]
      intro member
      rw [unlines_nil, List.nil_append, List.append_assoc] at stream
      exact left (by rw [← stream]; exact List.mem_append_right _ member)
    | cons line lines =>
      -- What is pending is part of the first line, so the chunk still fits.
      have part : c.in_.buf.content.length ≤ line.length := by
        by_contra longer
        have begins : c.in_.buf.content <+: line ++ 10 :: (unlines 10 lines ++ rest) := by
          refine ⟨bytes.filter kept ++ reads.flatten.filter kept, ?_⟩
          rw [← List.append_assoc, stream]
          simp
        have inside : line ++ [10] <+: c.in_.buf.content :=
          List.prefix_of_prefix_length_le ⟨unlines 10 lines ++ rest, by simp⟩ begins (by simp; omega)
        exact open_ (inside.mem (by simp))
      have room := (List.forall_mem_cons.mp short).1
      have fits := add_fits c.in_.buf bytes
        (by have := List.length_filter_le kept bytes; omega)
      obtain ⟨here, unfinished, content, whole, behind⟩ := exists_unlines 10
        (c.in_.buf.content ++ bytes.filter kept)
      rw [content] at stream
      obtain ⟨later, same, rest_⟩ := unlines_aligned whole clean left stream
      obtain ⟨man, in_⟩ := manRead_eq process halt ready alive (fits.trans content) whole behind
      rw [same, List.map_append, serve_append, ← man, manReads_cons process halt alive]
      rw [same] at clean short
      cases halts : halt (manRead process halt c bytes).man with
      | true => rw [manReads_halted process halt halts, serve_halted process halt halts]
      | false =>
        obtain ⟨next, kept_⟩ := in_ halts
        exact ih next halts (by rw [kept_]; exact behind) sizes (by rw [kept_]; exact rest_)
          (fun line member => clean line (List.mem_append_right _ member))
          (fun line member => short line (List.mem_append_right _ member))

theorem new_ready : Ready ({} : CommandLine capacity) := ⟨rfl, by simp [clear]⟩

/-- Lines of up to 768 bytes are taken whole and in order, however the stream is cut. -/
theorem commands_any_cut {s : σ} (alive : halt s = false) {reads : List (List UInt8)}
    (sizes : ∀ bytes ∈ reads, bytes.length ≤ readSize) {lines : List (List UInt8)} {rest : List UInt8}
    (stream : reads.flatten.filter kept = unlines 10 lines ++ rest) (clean : ∀ line ∈ lines, 10 ∉ line)
    (left : 10 ∉ rest)
    (short : ∀ line ∈ lines, line.length ≤ bufLen - readSize) :
    (manReads process halt ({ man := s } : ManRead.Connection σ bufLen) reads).man =
      serve process halt s (lines.map chars) :=
  manReads_lines process halt (c := { man := s }) new_ready alive (by simp [clear]) sizes
    (by simpa [clear] using stream)
    clean left (fun line member => by have := short line member; simp only [bufLen, readSize] at this ⊢; omega)

private theorem length_of_mem_unlines {lines : List (List UInt8)} {line : List UInt8} (member : line ∈ lines) :
    line.length < (unlines 10 lines).length := by
  induction lines with
  | nil => cases member
  | cons first lines ih =>
    rw [unlines_cons, List.length_append, List.length_cons]
    rcases List.mem_cons.mp member with rfl | later
    · omega
    · have := ih later
      omega

/-- The lines a run of reads takes, where the buffer holds an end of the unfinished line. -/
theorem manReads_ends {c : ManRead.Connection σ capacity} (ready : Ready c.in_) (alive : halt c.man = false)
    {unfinished : List UInt8} (part : c.in_.buf.content <:+ unfinished) {reads : List (List UInt8)}
    {lines : List (List UInt8)} {rest : List UInt8}
    (stream : unfinished ++ reads.flatten.filter kept = unlines 10 lines ++ rest) (clean : ∀ line ∈ lines, 10 ∉ line)
    (left : 10 ∉ rest) :
    ∃ taken from_, (manReads process halt c reads).man = serve process halt c.man (taken.map chars) ∧
      from_.Sublist lines ∧ List.Forall₂ (· <:+ ·) taken from_ ∧ ∀ line ∈ taken, line.length < capacity := by
  induction reads generalizing c unfinished lines with
  | nil => exact ⟨[], [], rfl, List.nil_sublist _, .nil, by simp⟩
  | cons bytes reads ih =>
    rw [filter_flatten_cons, ← List.append_assoc] at stream
    have ends := add_suffix part bytes
    obtain ⟨taken, after, held, whole, behind⟩ := exists_unlines 10 (bytes.foldl addChar c.in_.buf).content
    obtain ⟨sent, unfinished', came, whole', behind'⟩ := exists_unlines 10 (unfinished ++ bytes.filter kept)
    rw [held, came] at ends
    obtain ⟨earlier, later, rfl, pairs, part'⟩ := unlines_suffix whole whole' behind behind' ends
    rw [came] at stream
    obtain ⟨more, rfl, stream'⟩ := unlines_aligned whole' clean left stream
    have fits : ∀ line ∈ taken, line.length < capacity := by
      intro line member
      have size := (bytes.foldl addChar c.in_.buf).fits
      rw [held, List.length_append] at size
      have := length_of_mem_unlines member
      omega
    obtain ⟨man, in_⟩ := manRead_eq process halt ready alive held whole behind
    rw [manReads_cons process halt alive]
    cases halts : halt (manRead process halt c bytes).man with
    | true =>
      rw [manReads_halted process halt halts, man]
      exact ⟨taken, later, rfl, (List.sublist_append_right earlier later).trans (List.sublist_append_left _ more),
        pairs, fits⟩
    | false =>
      obtain ⟨next, content⟩ := in_ halts
      obtain ⟨taken', from_, run, order, pairs', fits'⟩ := ih next halts (by rw [content]; exact part') stream'
        (fun line member => clean line (List.mem_append_right _ member))
      refine ⟨taken ++ taken', later ++ from_, ?_, ?_, List.rel_append pairs pairs', ?_⟩
      · rw [run, man, List.map_append, serve_append]
      · exact (List.sublist_append_right earlier later).append order
      · intro line member
        exact (List.mem_append.mp member).elim (fits line) (fits' line)

/-- `hold release` comes in two reads. -/
theorem commands_any_cut_release :
    (manReads (fun taken line => taken ++ [line]) (fun _ => false)
      ({ man := [] } : ManRead.Connection (List Text) bufLen)
      [[104, 111, 108, 100, 32, 114], [101, 108, 101, 97, 115, 101, 13, 10, 115]]).man =
    serve (fun taken line => taken ++ [line]) (fun _ => false) []
      ([[104, 111, 108, 100, 32, 114, 101, 108, 101, 97, 115, 101]].map chars) :=
  commands_any_cut _ _ rfl (by decide) (show _ = unlines 10 _ ++ [115] by decide) (by decide) (by decide) (by decide)

/-- Of any stream whatever, only ends of its lines are taken, in the order of the lines and
each line once; every one fits the buffer. -/
theorem commands_are_line_ends {s : σ} (alive : halt s = false) {reads : List (List UInt8)}
    {lines : List (List UInt8)}
    {rest : List UInt8} (stream : reads.flatten.filter kept = unlines 10 lines ++ rest)
    (clean : ∀ line ∈ lines, 10 ∉ line)
    (left : 10 ∉ rest) :
    ∃ taken from_,
      (manReads process halt ({ man := s } : ManRead.Connection σ bufLen) reads).man =
        serve process halt s (taken.map chars) ∧
      from_.Sublist lines ∧ List.Forall₂ (· <:+ ·) taken from_ ∧ ∀ line ∈ taken, line.length < bufLen :=
  manReads_ends process halt (c := { man := s }) new_ready alive (List.suffix_refl _)
    (by simpa [clear] using stream) clean left

theorem commands_are_line_ends_pid :
    ∃ taken from_,
      (manReads (fun taken line => taken ++ [line]) (fun _ => false)
        ({ man := [] } : ManRead.Connection (List Text) bufLen)
        [[112, 105, 100, 10], [104]]).man =
        serve (fun taken line => taken ++ [line]) (fun _ => false) [] (taken.map chars) ∧
      from_.Sublist [[112, 105, 100]] ∧ List.Forall₂ (· <:+ ·) taken from_ ∧ ∀ line ∈ taken, line.length < bufLen :=
  commands_are_line_ends _ _ rfl (show _ = unlines 10 _ ++ [104] by decide) (by decide) (by decide)

theorem manReads_pending {c : ManRead.Connection σ capacity} (ready : Ready c.in_) (alive : halt c.man = false)
    (open_ : 10 ∉ c.in_.buf.content) {reads : List (List UInt8)} (quiet : 10 ∉ reads.flatten.filter kept)
    (room : c.in_.buf.content.length + (reads.flatten.filter kept).length ≤ capacity) :
    (manReads process halt c reads).man = c.man ∧ Ready (manReads process halt c reads).in_ ∧
      (manReads process halt c reads).in_.buf.content = c.in_.buf.content ++ reads.flatten.filter kept := by
  induction reads generalizing c with
  | nil => exact ⟨rfl, ready, by simp [manReads]⟩
  | cons bytes reads ih =>
    rw [filter_flatten_cons, List.mem_append, not_or] at quiet
    rw [filter_flatten_cons, List.length_append] at room
    have fits := add_fits c.in_.buf bytes (by omega)
    have still : 10 ∉ c.in_.buf.content ++ bytes.filter kept := by
      rw [List.mem_append, not_or]
      exact ⟨open_, quiet.1⟩
    obtain ⟨same, in_⟩ := manRead_open process halt ready alive fits still
    obtain ⟨next, content⟩ := in_ (by rw [same, alive])
    obtain ⟨man', ready', content'⟩ := ih next (by rw [same, alive]) (by rw [content]; exact still) quiet.2
      (by rw [content, List.length_append]; omega)
    rw [manReads_cons process halt alive]
    refine ⟨man'.trans same, ready', ?_⟩
    rw [content', content, filter_flatten_cons, List.append_assoc]

private theorem manReads_append (c : ManRead.Connection σ capacity) (first second : List (List UInt8)) :
    manReads process halt c (first ++ second) = manReads process halt (manReads process halt c first) second :=
  List.foldl_append

end Reading

theorem add_overflows {buf : Buffer capacity} {bytes : List UInt8} (keeps : ∀ c ∈ bytes, kept c = true)
    (full : buf.content.length + bytes.length = capacity + 1) : bytes.foldl addChar buf = clear := by
  rcases List.eq_nil_or_concat bytes with rfl | ⟨front, last, rfl⟩
  · have fits := buf.fits
    simp only [List.length_nil] at full
    omega
  rw [List.concat_eq_append] at keeps full ⊢
  have same : front.filter kept = front :=
    List.filter_eq_self.mpr fun c member => keeps c (List.mem_append_left _ member)
  rw [List.length_append, List.length_singleton] at full
  have fits := add_fits buf front (by rw [same]; omega)
  rw [List.foldl_append, List.foldl_cons, List.foldl_nil, addChar, if_pos (keeps last (by simp)), write,
    dif_neg (by rw [fits, same, List.length_append, List.length_singleton]; omega)]
  rfl

private theorem flatten_singles (bytes : List UInt8) : (bytes.map fun b => [b]).flatten = bytes := by
  induction bytes with
  | nil => rfl
  | cons b bytes ih => rw [List.map_cons, List.flatten_cons, ih, List.singleton_append]

def record (reads : List (List UInt8)) : List Text :=
  (manReads (fun taken line => taken ++ [line]) (fun _ => false)
    ({ man := [] } : ManRead.Connection (List Text) bufLen) reads).man

private theorem serve_record (taken lines : List Text) :
    serve (fun taken line => taken ++ [line]) (fun _ => false) taken lines = taken ++ lines := by
  induction lines generalizing taken with
  | nil => simp [serve]
  | cons line lines ih =>
    rw [serve_cons _ _ rfl, ih]
    simp

private theorem record_grows {c : ManRead.Connection (List Text) capacity} (ready : Ready c.in_)
    (reads : List (List UInt8)) :
    ∃ later, (manReads (fun taken line => taken ++ [line]) (fun _ => false) c reads).man = c.man ++ later := by
  obtain ⟨lines, rest, came, clean, left⟩ := exists_unlines 10 (c.in_.buf.content ++ reads.flatten.filter kept)
  obtain ⟨taken, _, run, -⟩ := manReads_ends (fun taken line => taken ++ [line]) (fun _ => false) ready rfl
    List.suffix_rfl came clean left
  exact ⟨taken.map chars, by rw [run, serve_record]⟩

theorem first_line_taken {c : ManRead.Connection (List Text) capacity} (ready : Ready c.in_)
    (open_ : 10 ∉ c.in_.buf.content)
    {chunk : Nat} {reads : List (List UInt8)} (sizes : ∀ bytes ∈ reads, bytes.length ≤ chunk) {line more : List UInt8}
    (clean : 10 ∉ line) (short : line.length + chunk ≤ capacity)
    (stream : c.in_.buf.content ++ reads.flatten.filter kept = line ++ 10 :: more) :
    ∃ later, (manReads (fun taken line => taken ++ [line]) (fun _ => false) c reads).man = c.man ++
      chars line :: later := by
  induction reads generalizing c with
  | nil =>
    refine absurd ?_ open_
    rw [List.flatten_nil, List.filter_nil, List.append_nil] at stream
    simp [stream]
  | cons bytes reads ih =>
    obtain ⟨size, sizes⟩ := List.forall_mem_cons.mp sizes
    rw [filter_flatten_cons, ← List.append_assoc] at stream
    have part : c.in_.buf.content.length ≤ line.length := by
      by_contra longer
      have begins : c.in_.buf.content <+: line ++ 10 :: more :=
        ⟨bytes.filter kept ++ reads.flatten.filter kept, by rw [← List.append_assoc, stream]⟩
      have inside : line ++ [10] <+: c.in_.buf.content :=
        List.prefix_of_prefix_length_le ⟨more, by simp⟩ begins (by simp; omega)
      exact open_ (inside.mem (by simp))
    have fits := add_fits c.in_.buf bytes (by have := List.length_filter_le kept bytes; omega)
    obtain ⟨here, unfinished, content, whole, behind⟩ := exists_unlines 10 (c.in_.buf.content ++ bytes.filter kept)
    obtain ⟨man, in_⟩ := manRead_eq (fun taken line => taken ++ [line]) (fun _ => false) ready rfl
        (fits.trans content)
      whole behind
    obtain ⟨next, held⟩ := in_ rfl
    rw [manReads_cons _ _ rfl]
    cases here with
    | nil =>
      rw [serve_record, List.map_nil, List.append_nil] at man
      have still : c.in_.buf.content ++ bytes.filter kept = unfinished := content
      rw [still, ← held] at stream
      rw [← man]
      exact ih next (by rw [held]; exact behind) sizes stream
    | cons first others =>
      rw [content, unlines_cons, List.append_assoc, List.append_assoc, List.cons_append] at stream
      obtain ⟨rfl, -⟩ := line_inj (List.forall_mem_cons.mp whole).1 clean stream
      obtain ⟨later, grown⟩ := record_grows next reads
      exact ⟨others.map chars ++ later, by rw [grown, man, serve_record]; simp⟩

/-- A front that fits, a read that overflows the buffer and drops it, and a rest: the first line
that is taken is from the rest. -/
private theorem overflow_drops {front middle last : List UInt8}
    (keeps : ∀ c ∈ front ++ middle ++ last, kept c = true) (open_ : 10 ∉ front)
    (sizes : front.length = 769 ∧ middle.length = 256) {line : Text} {later : List Text}
    (same : record (front.map (fun b => [b]) ++ [middle] ++ last.map fun b => [b]) = line :: later) :
    line.length < last.length := by
  have filter_ (part : List UInt8) (inside : ∀ c ∈ part, c ∈ front ++ middle ++ last) : part.filter kept = part :=
    List.filter_eq_self.mpr fun c member => keeps c (inside c member)
  have frontKept := filter_ front (by simp +contextual)
  have lastKept := filter_ last (by simp +contextual)
  rw [record, manReads_append, manReads_append] at same
  obtain ⟨man, ready, content⟩ := manReads_pending (fun taken line => taken ++ [line]) (fun _ => false)
    (c := ({ man := [] } : ManRead.Connection (List Text) bufLen)) new_ready rfl (by simp [clear])
    (show 10 ∉ (front.map fun b => [b]).flatten.filter kept by rw [flatten_singles, frontKept]; exact open_)
    (by rw [flatten_singles, frontKept]; simp [clear, sizes, bufLen])
  rw [flatten_singles, frontKept] at content
  generalize manReads _ _ _ (front.map fun b => [b]) = c at man ready content same
  have cleared : middle.foldl addChar c.in_.buf = clear := by
    refine add_overflows (fun x member => keeps x (by simp [member])) ?_
    rw [content]
    simp [clear, sizes, bufLen]
  obtain ⟨man', in_⟩ := manRead_open (fun taken line => taken ++ [line]) (fun _ => false) ready rfl
    (show (middle.foldl addChar c.in_.buf).content = [] by rw [cleared]; rfl) List.not_mem_nil
  obtain ⟨ready', content'⟩ := in_ rfl
  have one : manReads (fun taken line => taken ++ [line]) (fun _ => false) c [middle] =
      manRead (fun taken line => taken ++ [line]) (fun _ => false) c middle := rfl
  rw [one] at same
  obtain ⟨lines, rest, came, clean, left⟩ := exists_unlines 10 last
  obtain ⟨taken, from_, run, order, pairs, -⟩ :=
    manReads_ends (fun taken line => taken ++ [line]) (fun _ => false) ready' rfl
    (by rw [content']) (show [] ++ (last.map fun b => [b]).flatten.filter kept = unlines 10 lines ++ rest by
      rw [flatten_singles, lastKept]; exact came) clean left
  rw [run, serve_record, man'] at same
  simp only [man, List.nil_append] at same
  cases pairs with
  | nil => simp at same
  | cons ends _ =>
    rw [List.map_cons, List.cons.injEq] at same
    have shorter := length_of_mem_unlines (order.mem List.mem_cons_self)
    have total : (unlines 10 lines).length ≤ last.length := by rw [came]; simp
    have equal := congrArg List.length same.1
    simp only [chars, List.length_map] at equal
    have := ends.length_le
    omega

/-- From 769 bytes on, a line followed by enough of another is lost under some cut. -/
theorem long_line_lost {line : List UInt8} (keeps : ∀ c ∈ line, kept c = true ∧ c ≠ 10)
    (long : bufLen - readSize < line.length) :
    ∃ reads more, (∀ bytes ∈ reads, bytes.length ≤ readSize) ∧ reads.flatten = line ++ 10 :: more ∧
      ∀ later, record reads ≠ chars line :: later := by
  have more : ∀ c ∈ List.replicate 256 (97 : UInt8), kept c = true := by
    intro c member
    rw [List.eq_of_mem_replicate member]
    decide
  generalize behind : (10 : UInt8) :: List.replicate 256 97 = tail_
  have size : tail_.length = 257 := by
    rw [← behind, List.length_cons, List.length_replicate]
  have keepsTail : ∀ c ∈ line ++ tail_, kept c = true := by
    intro c member
    rcases List.mem_append.mp member with inside | outside
    · exact (keeps c inside).1
    · rw [← behind] at outside
      rcases List.mem_cons.mp outside with rfl | filler
      · decide
      · exact more c filler
  have whole : (line ++ tail_).take 769 ++ ((line ++ tail_).drop 769).take 256 ++ (line ++ tail_).drop 1025 =
      line ++ tail_ := by
    rw [List.append_assoc, show 1025 = 769 + 256 from rfl, ← List.drop_drop, List.take_append_drop,
      List.take_append_drop]
  simp only [bufLen, readSize] at long
  generalize first : (line ++ tail_).take 769 = front at whole
  generalize second : ((line ++ tail_).drop 769).take 256 = middle at whole
  generalize third : (line ++ tail_).drop 1025 = last at whole
  have sizes : front.length = 769 ∧ middle.length = 256 ∧ last.length ≤ line.length := by
    rw [← first, ← second, ← third]
    simp only [List.length_take, List.length_drop, List.length_append, size]
    omega
  have open_ : 10 ∉ front := by
    intro member
    rw [← first, List.take_append_of_le_length (by omega)] at member
    exact (keeps 10 (List.mem_of_mem_take member)).2 rfl
  refine ⟨front.map (fun b => [b]) ++ [middle] ++ last.map (fun b => [b]), List.replicate 256 97, ?_, ?_, ?_⟩
  · intro bytes member
    simp only [List.mem_append, List.mem_map, List.mem_singleton] at member
    rcases member with (⟨_, _, rfl⟩ | rfl) | ⟨_, _, rfl⟩
    · simp [readSize]
    · simp [sizes, readSize]
    · simp [readSize]
  · rw [List.flatten_append, List.flatten_append, flatten_singles, flatten_singles, List.flatten_singleton, whole,
      behind]
  · intro later same
    have shorter := overflow_drops (whole ▸ keepsTail) open_ ⟨sizes.1, sizes.2.1⟩ same
    rw [chars, List.length_map] at shorter
    omega

/-- A line reaches the dispatcher whole under every cut of every stream that begins with
it exactly when it has at most 768 bytes. -/
theorem whole_under_every_cut_iff {line : List UInt8} (keeps : ∀ c ∈ line, kept c = true ∧ c ≠ 10) :
    (∀ reads more, (∀ bytes ∈ reads, bytes.length ≤ readSize) → reads.flatten = line ++ 10 :: more →
      ∃ later, record reads = chars line :: later) ↔ line.length ≤ bufLen - readSize := by
  constructor
  · intro arrives
    by_contra long
    obtain ⟨reads, more, sizes, stream, lost⟩ := long_line_lost keeps (Nat.lt_of_not_le long)
    obtain ⟨later, whole⟩ := arrives reads more sizes stream
    exact lost later whole
  · intro short reads more sizes stream
    have same : line.filter kept = line := List.filter_eq_self.mpr fun c member => (keeps c member).1
    refine first_line_taken new_ready (by simp [clear]) sizes (fun member => (keeps 10 member).2 rfl)
      (by simp only [bufLen, readSize] at short ⊢; omega)
      (show [] ++ reads.flatten.filter kept = line ++ 10 :: more.filter kept from ?_)
    rw [stream, List.filter_append, List.filter_cons_of_pos (by decide), same, List.nil_append]

theorem whole_under_every_cut_end :
    (∀ reads more, (∀ bytes ∈ reads, bytes.length ≤ readSize) → reads.flatten = [69, 78, 68] ++ 10 :: more →
      ∃ later, record reads = chars [69, 78, 68] :: later) ↔ [69, 78, 68].length ≤ bufLen - readSize :=
  whole_under_every_cut_iff (by
    intro c member
    fin_cases member <;> decide)

end RRoadVpn.Proofs.CommandFraming
