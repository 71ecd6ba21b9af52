import RRoadVpn.JavaText
import RRoadVpn.Library.Utf8

/-! The command lines OpenVPN takes from its management client: `struct command_line`
of manage.c over the buffers of buffer.c, and `man_read`, which fills it from a socket
that cuts the stream anywhere. -/

namespace RRoadVpn.ManRead
open JavaText

/-- A `struct buffer`; none of these functions moves its offset away from zero. -/
@[ext] structure Buffer (capacity : Nat) where
  content : List UInt8
  fits : content.length ≤ capacity
  deriving DecidableEq, Repr

variable {capacity : Nat}

def clear : Buffer capacity := ⟨[], Nat.zero_le _⟩

instance : Inhabited (Buffer capacity) := ⟨clear⟩

/-- `buf_write`, which `buf_write_u8` and `buf_copy` are cases of; `none` where the text has no room. -/
def write (dest : Buffer capacity) (src : List UInt8) : Option (Buffer capacity) :=
  if room : dest.content.length + src.length ≤ capacity then
    some ⟨dest.content ++ src, by rwa [List.length_append]⟩
  else none

/-- `buf_substring_len`; `none` for -1. -/
def substringLen (delim : UInt8) : List UInt8 → Option Nat
  | [] => none
  | c :: rest => if c = delim then some 1 else (substringLen delim rest).map (· + 1)

/-- `buf_copy_excess`; the copy's failure goes unnoticed. -/
def copyExcess (dest src : Buffer capacity) (len : Nat) : Buffer capacity × Buffer capacity :=
  if len < src.content.length then
    ((write dest (src.content.drop len)).getD dest, ⟨src.content.take len, (List.length_take_le' ..).trans src.fits⟩)
  else (dest, src)

def trailing (c : UInt8) : Bool := c == 13 || c == 10 || c == 0

def nullTerminate (buf : Buffer capacity) : Buffer capacity :=
  if buf.content.getLast? = some 0 then buf
  else
    let buf : Buffer capacity :=
      if buf.content.length + 1 ≤ capacity then buf
      else ⟨buf.content.dropLast, by simpa using Nat.le_succ_of_le buf.fits⟩
    (write buf [0]).getD buf

def chomp (buf : Buffer capacity) : Buffer capacity :=
  nullTerminate ⟨buf.content.rdropWhile trailing, (List.rdropWhile_prefix _ _).length_le.trans buf.fits⟩

/-- The string BSTR points at, a C character as the Lean character of its code. -/
def chars (bytes : List UInt8) : Text := bytes.map fun b => Char.ofNat b.toNat

def str (buf : Buffer capacity) : Text := chars (buf.content.takeWhile (· != 0))

structure CommandLine (capacity : Nat) where
  buf : Buffer capacity := clear
  residual : Buffer capacity := clear
  deriving DecidableEq, Repr

/-- The test of `command_line_add`: not NUL, and CC_PRINT or CC_NEWLINE. -/
def kept (c : UInt8) : Bool := c != 0 && ((32 ≤ c && c != 127) || c == 10)

def addChar (buf : Buffer capacity) (c : UInt8) : Buffer capacity :=
  if kept c then (write buf [c]).getD clear else buf

def commandLineAdd (cl : CommandLine capacity) (bytes : List UInt8) : CommandLine capacity :=
  { cl with buf := bytes.foldl addChar cl.buf }

def commandLineGet (cl : CommandLine capacity) : Option (Text × CommandLine capacity) :=
  (substringLen 10 cl.buf.content).map fun i =>
    let (residual, buf) := copyExcess cl.residual cl.buf i
    (str (chomp buf), { buf := chomp buf, residual })

def commandLineNext (cl : CommandLine capacity) : CommandLine capacity :=
  { buf := (write clear cl.residual.content).getD clear, residual := clear }

/-- What `command_line_new` is given by `man_connection_init`. -/
def bufLen : Nat := 1024

/-- The size of the buffer of `man_read`. -/
def readSize : Nat := 256

section Reading

variable {σ : Type*} (process : σ → Text → σ) (halt : σ → Bool)

structure Connection (σ : Type*) (capacity : Nat) where
  man : σ
  in_ : CommandLine capacity := {}
  deriving DecidableEq

/-- What the loop of `man_read` still has before it. -/
def pending (cl : CommandLine capacity) : Nat := cl.buf.content.length + cl.residual.content.length

private theorem substringLen_bounds {delim : UInt8} {bytes : List UInt8} {i : Nat}
    (found : substringLen delim bytes = some i) :
    0 < i ∧ i ≤ bytes.length := by
  induction bytes generalizing i with
  | nil => cases found
  | cons c rest ih =>
    rw [substringLen] at found
    split at found
    · cases found
      exact ⟨Nat.one_pos, by simp⟩
    · obtain ⟨j, there, rfl⟩ := Option.map_eq_some_iff.mp found
      have bounds := ih there
      exact ⟨Nat.succ_pos _, by simpa using bounds.2⟩

private theorem pending_next {cl after : CommandLine capacity} {line : Text}
    (got : commandLineGet cl = some (line, after)) :
    pending (commandLineNext after) < pending cl := by
  obtain ⟨i, found, same⟩ := Option.map_eq_some_iff.mp got
  obtain ⟨positive, inside⟩ := substringLen_bounds found
  have left : (copyExcess cl.residual cl.buf i).1.content.length ≤
      cl.residual.content.length + (cl.buf.content.length - i) := by
    rw [copyExcess]
    split
    · rw [write]
      split <;> simp
    · simp
  have copied : ((write (@clear capacity) after.residual.content).getD clear).content.length ≤
      after.residual.content.length := by
    rw [write]
    split <;> simp [clear]
  have residual : after.residual = (copyExcess cl.residual cl.buf i).1 := by
    cases same
    rfl
  rw [← residual] at left
  simp only [pending, commandLineNext, clear, List.length_nil, Nat.add_zero] at copied ⊢
  omega

/-- The loop of `man_read`; a command that sets `halt` leaves it before `command_line_next`. -/
def processCommands (c : Connection σ capacity) : Connection σ capacity :=
  match got : commandLineGet c.in_ with
  | none => c
  | some (line, after) =>
    have := pending_next got
    let man := process c.man line
    if halt man then { man, in_ := after } else processCommands { man, in_ := commandLineNext after }
termination_by pending c.in_

/-- `man_read` of a nonempty chunk; `man_reset_client_socket` closes a halted connection. -/
def manRead (c : Connection σ capacity) (bytes : List UInt8) : Connection σ capacity :=
  let c := processCommands process halt { c with in_ := commandLineAdd c.in_ bytes }
  if halt c.man then { c with in_ := {} } else c

/-- The reads of a connection; none follows the one that closes it. -/
def manReads (c : Connection σ capacity) (reads : List (List UInt8)) : Connection σ capacity :=
  reads.foldl (fun c bytes => if halt c.man then c else manRead process halt c bytes) c

end Reading

end RRoadVpn.ManRead
