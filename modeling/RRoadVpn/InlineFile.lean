import RRoadVpn.Escape

/-! File options of a profile: `VpnProfile` keeps a file's content behind a tag in the
option's value and exports it as a block. -/

namespace RRoadVpn.VpnProfile

def INLINE_TAG : List Char := "[[INLINE]]".toList

def DISPLAYNAME_TAG : List Char := "[[NAME]]".toList

/-- What follows the first occurrence of a text, if there is one. -/
def afterFirst (target : List Char) : List Char → Option (List Char)
  | [] => if target = [] then some [] else none
  | c :: rest => if target <+: c :: rest then some ((c :: rest).drop target.length) else afterFirst target rest

def getEmbeddedContent (data : List Char) : List Char :=
  (afterFirst INLINE_TAG data).getD data

def isEmbedded (data : Option (List Char)) : Bool :=
  match data with
  | none => false
  | some data => INLINE_TAG.isPrefixOf data || DISPLAYNAME_TAG.isPrefixOf data

def insertFileData (cfgentry : List Char) (filedata : Option (List Char)) : List Char :=
  match filedata with
  | none => cfgentry ++ [' '] ++ "file missing in config profile".toList ++ ['\n']
  | some data =>
    if isEmbedded (some data) then
      ['<'] ++ cfgentry ++ ['>', '\n'] ++ getEmbeddedContent data ++ ['\n', '<', '/'] ++ cfgentry ++ ['>', '\n']
    else
      cfgentry ++ [' '] ++ escape data ++ ['\n']

theorem getEmbeddedContent_inline (content : List Char) : getEmbeddedContent (INLINE_TAG ++ content) = content := by
  have first : INLINE_TAG ++ content = '[' :: (INLINE_TAG.tail ++ content) := rfl
  rw [getEmbeddedContent, first, afterFirst, ← first, if_pos (List.prefix_append _ _), List.drop_left]
  rfl

/-- A content behind the tag is exported as it is. -/
theorem insertFileData_inline (cfgentry content : List Char) :
    insertFileData cfgentry (some (INLINE_TAG ++ content)) =
      ['<'] ++ cfgentry ++ ['>', '\n'] ++ content ++ ['\n', '<', '/'] ++ cfgentry ++ ['>', '\n'] := by
  have embedded : isEmbedded (some (INLINE_TAG ++ content)) = true := by
    simp [isEmbedded]
  simp only [insertFileData, embedded, if_true, getEmbeddedContent_inline]

end RRoadVpn.VpnProfile
