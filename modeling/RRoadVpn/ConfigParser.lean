import Mathlib.Data.List.AList
import Mathlib.Data.List.DropRight
import RRoadVpn.InlineFile
import RRoadVpn.ParseLine

/-! `ConfigParser.parseConfig`: the loop over the lines of a config, and inside it the
loop that collects an inline block. Both read from one reader. -/

namespace RRoadVpn.ConfigParser

/-- What `readLine` returns in turn; LF, CR and CRLF end a line. -/
def lines : List Char → List (List Char)
  | [] => []
  | '\n' :: rest => [] :: lines rest
  | '\r' :: '\n' :: rest => [] :: lines rest
  | '\r' :: rest => [] :: lines rest
  | c :: rest =>
    match lines rest with
    | [] => [[c]]
    | line :: more => (c :: line) :: more

/-- A reader is the lines it has not returned yet. -/
abbrev BufferedReader := List (List Char)

def trim (s : List Char) : List Char :=
  (s.dropWhile (· ≤ ' ')).rdropWhile (· ≤ ' ')

def argname (arg0 : List Char) : Option (List Char) :=
  if arg0.head? = some '<' ∧ arg0.getLast? = some '>' then some arg0.tail.dropLast else none

def endtag (argname : List Char) : List Char :=
  ['<', '/'] ++ argname ++ ['>']

def noEndtag (argname : List Char) : ConfigParseError :=
  ⟨"No endtag </" ++ String.ofList argname ++ "> for starttag <" ++ String.ofList argname ++ "> found"⟩

/-- The loop of `checkinlinefile`. -/
def readInlinefile (argname inlinefile : List Char) : BufferedReader → Except ConfigParseError (List Char × BufferedReader)
  | [] => .error (noEndtag argname)
  | line :: br =>
    if trim line = endtag argname then .ok (inlinefile, br)
    else readInlinefile argname (inlinefile ++ line ++ ['\n']) br

/-- Replaces the arguments `arg0 :: args` if they start a block. -/
def checkinlinefile (arg0 : List Char) (args : List (List Char)) (br : BufferedReader) :
    Except ConfigParseError (List (List Char) × BufferedReader) :=
  match argname (trim arg0) with
  | none => .ok (arg0 :: args, br)
  | some argname =>
    match readInlinefile argname VpnProfile.INLINE_TAG br with
    | .error e => .error e
    | .ok (inlinefile, br) =>
      let inlinefile := if inlinefile.getLast? = some '\n' then inlinefile.dropLast else inlinefile
      .ok ([argname, inlinefile], br)

abbrev HashMap (V : Type) := AList fun _ : List Char => V

/-- The fields a run of `parseConfig` fills. -/
structure Parsed where
  options : HashMap (List (List (List Char))) := ∅
  metas : HashMap (List (List Char)) := ∅

def metaTag : List Char := "# OVPN_ACCESS_SERVER_".toList

def parsemeta (line : List Char) : List (List Char) :=
  let meta_ := line.drop metaTag.length
  if '=' ∈ meta_ then [meta_.takeWhile (· ≠ '='), (meta_.dropWhile (· ≠ '=')).tail] else [meta_]

def optionAlias (optionname : List Char) : List Char :=
  if optionname = "server-poll-timeout".toList then "timeout-connect".toList else optionname

def withoutDashes (arg0 : List Char) : List Char :=
  if ['-', '-'] <+: arg0 then arg0.drop 2 else arg0

def addMeta (parsed : Parsed) (metaarg : List (List Char)) : Parsed :=
  { parsed with metas := parsed.metas.insert (metaarg.headD []) metaarg }

/-- Adds to the vector of an option's argument lists. -/
def addOption (parsed : Parsed) (args : List (List Char)) : Parsed :=
  let optionname := optionAlias (args.headD [])
  let others := (parsed.options.lookup optionname).getD []
  { parsed with options := parsed.options.insert optionname (others ++ [args]) }

private theorem readInlinefile_length {argname inlinefile value : List Char} {br rest : BufferedReader}
    (read : readInlinefile argname inlinefile br = .ok (value, rest)) : rest.length < br.length := by
  induction br generalizing inlinefile with
  | nil => cases read
  | cons line br ih =>
    rw [readInlinefile] at read
    split at read
    · cases read
      exact Nat.lt_succ_self _
    · exact Nat.lt_succ_of_lt (ih read)

private theorem checkinlinefile_length {arg0 : List Char} {args result : List (List Char)} {br rest : BufferedReader}
    (checked : checkinlinefile arg0 args br = .ok (result, rest)) : rest.length ≤ br.length := by
  unfold checkinlinefile at checked
  split at checked
  · cases checked
    exact Nat.le_refl _
  · split at checked <;> cases checked
    next read => exact Nat.le_of_lt (readInlinefile_length read)

/-- The loop of `parseConfig` behind the checks of the first line. -/
def parseLines (parsed : Parsed) : BufferedReader → Except ConfigParseError Parsed
  | [] => .ok parsed
  | line :: br =>
    if metaTag <+: line then parseLines (addMeta parsed (parsemeta line)) br
    else
      match parseline line with
      | .error e => .error e
      | .ok [] => parseLines parsed br
      | .ok (arg0 :: args) =>
        match checked : checkinlinefile (withoutDashes arg0) args br with
        | .error e => .error e
        | .ok (args, rest) =>
          have := checkinlinefile_length checked
          parseLines (addOption parsed args) rest
termination_by br => br.length

theorem parseLines_cons (parsed : Parsed) (line : List Char) (br : BufferedReader) :
    parseLines parsed (line :: br) =
      if metaTag <+: line then parseLines (addMeta parsed (parsemeta line)) br
      else
        match parseline line with
        | .error e => .error e
        | .ok [] => parseLines parsed br
        | .ok (arg0 :: args) =>
          match checkinlinefile (withoutDashes arg0) args br with
          | .error e => .error e
          | .ok (args, rest) => parseLines (addOption parsed args) rest := by
  rw [parseLines]
  split
  · rfl
  · cases parseline line with
    | error e => rfl
    | ok args =>
      cases args with
      | nil => rfl
      | cons arg0 args =>
        dsimp only
        split
        next checked => rw [checked]
        next checked => rw [checked]

def zipArchive : ConfigParseError :=
  ⟨"Input looks like a ZIP Archive. Import is only possible for OpenVPN config files (.ovpn/.conf)"⟩

/-- The checks of the first line: a ZIP header and a byte order mark. -/
def firstLine (line : List Char) : Except ConfigParseError (List Char) :=
  if ['P', 'K', '\x03', '\x04'] <+: line ∨ ['P', 'K', '\x07', '\x00', '8'] <+: line then .error zipArchive
  else .ok (if ['\uFEFF'] <+: line then line.tail else line)

def parseConfig (reader : List Char) : Except ConfigParseError Parsed :=
  match lines reader with
  | [] => .ok {}
  | line :: br =>
    match firstLine line with
    | .error e => .error e
    | .ok line => parseLines {} (line :: br)

end RRoadVpn.ConfigParser
