import RRoadVpn.ParseLine

/-! `read_config_file` of options.c, one round of its loop at a time, with the reader of
inline blocks. The file is its text; limits on lines count the bytes of their UTF-8 form. -/

namespace RRoadVpn.Options

def OPTION_LINE_SIZE : Nat := 256

def INLINE_FILE_TAG : List Char := "[[INLINE]]".toList

/-- The ways reading a config file ends the program. -/
inductive ConfigFileError where
  | lineTooLong (line : List Char)
  | parseLine (error : ParseLineError)
  | endtagMissing (close_tag : List Char)
  deriving DecidableEq, Repr

def ConfigFileError.message (file : String) (lineNum : Nat) : ConfigFileError → String
  | .lineTooLong line =>
    "In " ++ file ++ ":" ++ toString lineNum ++ ": Maximum option line length (" ++ toString OPTION_LINE_SIZE ++
      ") exceeded, line starts with " ++ String.ofList line
  | .parseLine error => error.message "" file lineNum
  | .endtagMissing close_tag => "ERROR: Endtag " ++ String.ofList close_tag ++ " missing"

def strlen : List Char → Nat
  | [] => 0
  | c :: rest => c.utf8Size + strlen rest

def cstr (line : List Char) : List Char :=
  line.takeWhile (· ≠ '\x00')

/-- `fgets` with a buffer of `room` bytes and the terminating NUL: the line and the rest of the file.
At the limit it stops before a character that does not fit, where C cuts the character itself. -/
def fgets (room : Nat) : List Char → List Char × List Char
  | [] => ([], [])
  | c :: fp =>
    if room < c.utf8Size then ([], c :: fp)
    else if c = '\n' then (['\n'], fp)
    else
      let (line, rest) := fgets (room - c.utf8Size) fp
      (c :: line, rest)

private theorem fgets_le (room : Nat) (fp : List Char) : (fgets room fp).2.length ≤ fp.length := by
  induction fp generalizing room with
  | nil => exact Nat.le_refl _
  | cons c fp ih =>
    rw [fgets]
    split
    · exact Nat.le_refl _
    · split
      · exact Nat.le_succ _
      · exact Nat.le_succ_of_le (ih _)

private theorem fgets_length {room : Nat} (enough : 4 ≤ room) (c : Char) (fp : List Char) :
    (fgets room (c :: fp)).2.length < (c :: fp).length := by
  have small := c.utf8Size_le_four
  rw [fgets, if_neg (by omega)]
  split
  · exact Nat.lt_succ_self _
  · exact Nat.lt_succ_of_le (fgets_le _ _)

/-- The loop of `read_inline_file`: the content up to the end tag and the rest of the file. -/
def readInlineFile (close_tag : List Char) : List Char → Except ConfigFileError (List Char × List Char)
  | [] => .error (.endtagMissing close_tag)
  | c :: fp =>
    match read : fgets (OPTION_LINE_SIZE - 1) (c :: fp) with
    | (line, rest) =>
      if close_tag <+: (cstr line).dropWhile isspace then .ok ([], rest)
      else
        have fewer : rest.length < (c :: fp).length := by
          have shorter := @fgets_length (OPTION_LINE_SIZE - 1) (by decide) c fp
          rwa [read] at shorter
        match readInlineFile close_tag rest with
        | .error e => .error e
        | .ok (buf, rest) => .ok (cstr line ++ buf, rest)
termination_by fp => fp.length
decreasing_by exact fewer

def closeTag (name : List Char) : List Char :=
  ['<', '/'] ++ name ++ ['>']

def checkInlineFile (p : List (List Char)) (fp : List Char) : Except ConfigFileError (List (List Char) × List Char) :=
  match p with
  | [arg] =>
    if arg.head? = some '<' ∧ arg.getLast? = some '>' then
      let name := arg.tail.dropLast
      match readInlineFile (closeTag name) fp with
      | .error e => .error e
      | .ok (content, rest) => .ok ([name, INLINE_FILE_TAG, content], rest)
    else .ok (p, fp)
  | p => .ok (p, fp)

def bypassDoubledash (p : List (List Char)) : List (List Char) :=
  match p with
  | [] => []
  | arg :: more => if 3 ≤ arg.length ∧ ['-', '-'] <+: arg then arg.drop 2 :: more else arg :: more

/-- One round of the loop: the parameters handed to `add_option`, none for a line
without any, and the rest of the file. At the end of the file the loop is left. -/
def readOption (lineNum : Nat) (fp : List Char) : Option (Except ConfigFileError (List (List Char) × List Char)) :=
  if fp = [] then none
  else
    let (line, rest) := fgets OPTION_LINE_SIZE fp
    let line := cstr line
    if strlen line = OPTION_LINE_SIZE then some (.error (.lineTooLong line))
    else
      let line := if lineNum = 1 ∧ ['\uFEFF'] <+: line then line.tail else line
      match parseLine .standard line with
      | .error e => some (.error (.parseLine e))
      | .ok [] => some (.ok ([], rest))
      | .ok p => some (checkInlineFile (bypassDoubledash p) rest)

end RRoadVpn.Options
