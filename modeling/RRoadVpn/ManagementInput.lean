import Mathlib.Data.List.Basic

/-! The input side of `OpenVpnManagementThread`: what is read from the socket is
decoded, joined to the text left over and taken apart into command lines. -/

namespace RRoadVpn.ManagementInput

def bufferSize : Nat := 2048

/-- `pendingInput.split("\\r?\\n", 2)` where it finds a line end. -/
def split : List Char → Option (List Char × List Char)
  | [] => none
  | '\r' :: '\n' :: rest => some ([], rest)
  | '\n' :: rest => some ([], rest)
  | c :: rest => (split rest).map fun (first, second) => (c :: first, second)

theorem split_length {pendingInput first second : List Char} (found : split pendingInput = some (first, second)) :
    second.length < pendingInput.length := by
  fun_induction split pendingInput generalizing first with
  | case1 => cases found
  | case2 rest =>
    cases found
    simp only [List.length_cons]
    omega
  | case3 rest =>
    cases found
    exact Nat.lt_succ_self _
  | case4 c rest _ _ ih =>
    obtain ⟨⟨front, back⟩, there, same⟩ := Option.map_eq_some_iff.mp found
    cases same
    exact Nat.lt_succ_of_lt (ih there)

/-- The lines handed to `processCommand` and the text that `processInput` returns. -/
def processInput (pendingInput : List Char) : List (List Char) × List Char :=
  match found : split pendingInput with
  | none => ([], pendingInput)
  | some (command, rest) =>
    have := split_length found
    let (commands, pendingInput) := processInput rest
    (command :: commands, pendingInput)
termination_by pendingInput.length

structure State where
  commands : List (List Char) := []
  pendingInput : List Char := []
  deriving DecidableEq, Repr

section Reading

-- `new String(buffer, 0, numbytesread, "UTF-8")`.
variable (newString : List UInt8 → List Char)

def read (s : State) (bytes : List UInt8) : State :=
  let (commands, pendingInput) := processInput (s.pendingInput ++ newString bytes)
  { commands := s.commands ++ commands, pendingInput }

/-- `run` over the reads up to the end of the stream. -/
def run (reads : List (List UInt8)) : State := reads.foldl (read newString) {}

end Reading

end RRoadVpn.ManagementInput
