import RRoadVpn.Library.Scanner

/-! The two readers of option lines: `parse_line` of options.c and its Java port
`ConfigParser.parseline`. Both feed the characters of the line and a final NUL to
the same nest of tests, and differ in what they keep between characters. -/

namespace RRoadVpn
open Library

/-- The states that last from one character to the next; STATE_DONE never does. -/
inductive LineState where
  | initial
  | readingQuotedParm
  | readingUnquotedParm
  | readingSquotedParm
  deriving DecidableEq, Repr

/-- What a character does to a parameter. -/
inductive Reading where
  | comment
  | done
  | reading (state : LineState) (out : Char)
  deriving DecidableEq, Repr

/-- The tests both loops make on a character that is not a backslash about to
escape the next one. `out` is the variable's value before the tests. -/
def readChar (space : Char → Bool) (out : Char) (state : LineState) (backslash : Bool) (in_ : Char) : Reading :=
  match state with
  | .initial =>
    if !space in_ then
      if in_ == ';' || in_ == '#' then .comment
      else if !backslash && in_ == '"' then .reading .readingQuotedParm out
      else if !backslash && in_ == '\'' then .reading .readingSquotedParm out
      else .reading .readingUnquotedParm in_
    else .reading .initial out
  | .readingUnquotedParm => if !backslash && space in_ then .done else .reading .readingUnquotedParm in_
  | .readingQuotedParm => if !backslash && in_ == '"' then .done else .reading .readingQuotedParm in_
  | .readingSquotedParm => if in_ == '\'' then .done else .reading .readingSquotedParm in_

def escapable (space : Char → Bool) (out : Char) : Bool :=
  out == '\\' || out == '"' || space out

namespace Options

def isspace (c : Char) : Bool :=
  c == ' ' || c == '\t' || c == '\n' || c == '\x0b' || c == '\x0c' || c == '\r'

def space (c : Char) : Bool :=
  c == '\x00' || isspace c

/-- The ways `parse_line` fails, where it returns 0 after a message. -/
inductive ParseLineError where
  | badBackslash
  | tooLong (size : Nat) (parm : List Char)
  | noClosingQuotation
  | noClosingSingleQuotation
  | residual (state : LineState)
  deriving DecidableEq, Repr

/-- The value of the state constants of `parse_line`. -/
def LineState.number : LineState → Nat
  | .initial => 0
  | .readingQuotedParm => 1
  | .readingUnquotedParm => 2
  | .readingSquotedParm => 4

def ParseLineError.message (errorPrefix file : String) (lineNum : Int) : ParseLineError → String
  | .badBackslash =>
    errorPrefix ++ "Options warning: Bad backslash ('\\') usage in " ++ file ++ ":" ++ toString lineNum ++
      ": remember that backslashes are treated as shell-escapes and if you need to pass backslash characters as part of a Windows filename, you should use double backslashes such as \"c:\\\\openvpn\\\\static.key\""
  | .tooLong size parm =>
    errorPrefix ++ "Options error: Parameter at " ++ file ++ ":" ++ toString lineNum ++ " is too long (" ++
      toString size ++ " chars max): " ++ String.ofList parm
  | .noClosingQuotation =>
    errorPrefix ++ "Options error: No closing quotation (\") in " ++ file ++ ":" ++ toString lineNum
  | .noClosingSingleQuotation =>
    errorPrefix ++ "Options error: No closing single quotation (') in " ++ file ++ ":" ++ toString lineNum
  | .residual state =>
    errorPrefix ++ "Options error: Residual parse state (" ++ toString (LineState.number state) ++ ") in " ++ file ++
      ":" ++ toString lineNum

/-- The bounds `parse_line` works under; `none` takes a bound away. -/
structure Limits where
  n : Option Nat
  parmSize : Option Nat
  deriving DecidableEq, Repr

def Limits.standard : Limits := ⟨some 16, some 256⟩

def Limits.unlimited : Limits := ⟨none, none⟩

def Limits.reached (bound : Option Nat) (size : Nat) : Bool :=
  bound.any (· ≤ size)

structure Line where
  state : LineState := .initial
  backslash : Bool := false
  parm : List Char := []
  p : List (List Char) := []
  deriving DecidableEq, Repr

abbrev LineResult := Except ParseLineError (List (List Char))

def finish (s : Line) : LineResult :=
  match s.state with
  | .readingQuotedParm => .error .noClosingQuotation
  | .readingSquotedParm => .error .noClosingSingleQuotation
  | .readingUnquotedParm => .error (.residual .readingUnquotedParm)
  | .initial => .ok s.p

/-- The end of an iteration: stores `out` unless it is NUL and leaves the loop
when the parameter array is full. -/
def store (limits : Limits) (out : Char) (s : Line) : Progress Line LineResult :=
  if out != '\x00' && Limits.reached limits.parmSize s.parm.length then
    .stop (.error (.tooLong (limits.parmSize.getD 0) (s.parm.take (limits.parmSize.getD 0 - 1))))
  else
    let s := if out != '\x00' then { s with parm := s.parm ++ [out] } else s
    if Limits.reached limits.n s.p.length then .stop (finish s) else .next s

def parseChar (limits : Limits) (s : Line) (in_ : Char) : Progress Line LineResult :=
  if !s.backslash && in_ == '\\' && s.state != .readingSquotedParm then
    store limits '\x00' { s with backslash := true }
  else
    match readChar space '\x00' s.state s.backslash in_ with
    | .comment => .stop (finish s)
    | .done => store limits '\x00' { state := .initial, backslash := false, parm := [], p := s.p ++ [s.parm] }
    | .reading state out =>
      if s.backslash && out != '\x00' && !escapable space out then .stop (.error .badBackslash)
      else store limits out { s with state := state, backslash := false }

/-- `line` holds the characters before the terminating NUL. -/
def parseLine (limits : Limits) (line : List Char) : LineResult :=
  scan (parseChar limits) finish {} (line ++ ['\x00'])

end Options

namespace ConfigParser

/-- `Character.isWhitespace`: the Unicode separators that are not non-breaking
and the controls U+0009 to U+000D and U+001C to U+001F. -/
def isWhitespace (c : Char) : Bool :=
  (9 ≤ c.val && c.val ≤ 13) || (0x1c ≤ c.val && c.val ≤ 0x20) || c.val == 0x1680 ||
    (0x2000 ≤ c.val && c.val ≤ 0x200a && c.val != 0x2007) || c.val == 0x2028 || c.val == 0x2029 ||
    c.val == 0x205f || c.val == 0x3000

def space (c : Char) : Bool :=
  isWhitespace c || c == '\x00'

structure ConfigParseError where
  message : String
  deriving DecidableEq, Repr

def badBackslash : ConfigParseError := ⟨"Options warning: Bad backslash ('\\') usage"⟩

/-- The variables of `parseline`; `out` lives as long as the loop. -/
structure Line where
  state : LineState := .initial
  backslash : Bool := false
  out : Char := '\x00'
  currentarg : List Char := []
  parameters : List (List Char) := []
  deriving DecidableEq, Repr

abbrev LineResult := Except ConfigParseError (List (List Char))

def store (s : Line) : Line :=
  if s.out != '\x00' then { s with currentarg := s.currentarg ++ [s.out] } else s

def parselineChar (s : Line) (in_ : Char) : Progress Line LineResult :=
  if !s.backslash && in_ == '\\' && s.state != .readingSquotedParm then
    .next (store { s with backslash := true })
  else
    match readChar space s.out s.state s.backslash in_ with
    | .comment => .stop (.ok s.parameters)
    | .done =>
      .next { state := .initial, backslash := false, out := '\x00', currentarg := [],
              parameters := s.parameters ++ [s.currentarg] }
    | .reading state out =>
      if s.backslash && out != '\x00' && !escapable space out then .stop (.error badBackslash)
      else .next (store { s with state := state, backslash := false, out := out })

def parseline (line : List Char) : LineResult :=
  if line.length == 0 then .ok []
  else scan parselineChar (fun s => .ok s.parameters) {} (line ++ ['\x00'])

end ConfigParser

end RRoadVpn
