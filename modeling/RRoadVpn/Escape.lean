import Mathlib.Data.List.Basic

/-! `VpnProfile.openVpnEscape`, the quoting of every value that the exported
configuration and the management replies take from the user. -/

namespace RRoadVpn.VpnProfile

/-- `String.replace` with a target of one character. -/
def replace (target : Char) (replacement : List Char) (s : List Char) : List Char :=
  s.flatMap fun c => if c = target then replacement else [c]

/-- The part of `openVpnEscape` after its null check. -/
def escape (unescaped : List Char) : List Char :=
  let escapedString := replace '\\' ['\\', '\\'] unescaped
  let escapedString := replace '"' ['\\', '"'] escapedString
  let escapedString := replace '\n' ['\\', 'n'] escapedString
  if escapedString == unescaped && !escapedString.contains ' ' && !escapedString.contains '#' &&
      !escapedString.contains ';' && escapedString != [] then
    unescaped
  else
    ['"'] ++ escapedString ++ ['"']

def openVpnEscape (unescaped : Option (List Char)) : Option (List Char) :=
  unescaped.map escape

end RRoadVpn.VpnProfile
