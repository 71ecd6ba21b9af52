import RRoadVpn.ConfigParser
import RRoadVpn.Library.Lines
import RRoadVpn.Proofs.TokenWords

/-! Inline blocks through the parser, out of the profile and through the parser again.
A config is read as a sequence of lines and blocks, and what is stored is computed
from that sequence alone. -/

namespace RRoadVpn.Proofs.InlineImport
open Library ConfigParser VpnProfile LineEffects TokenWords

def inlineValue (content : List (List Char)) : List Char :=
  INLINE_TAG ++ ['\n'].intercalate content

def lineArgs (line : List Char) : LineResult :=
  if metaTag <+: line then .ok []
  else
    match parseline line with
    | .error e => .error e
    | .ok [] => .ok []
    | .ok (arg0 :: args) => .ok (withoutDashes arg0 :: args)

def Alone (line : List Char) : Prop :=
  ∃ args, lineArgs line = .ok args ∧ ∀ arg0 ∈ args.head?, argname (trim arg0) = none

/-- A line that starts the block of `k`. -/
def Opens (k line : List Char) : Prop :=
  ∃ arg0 args, lineArgs line = .ok (arg0 :: args) ∧ argname (trim arg0) = some k

inductive Item where
  | line (text : List Char)
  | block (start k : List Char) (content : List (List Char)) (stop : List Char)

namespace Item

def lines : Item → List (List Char)
  | .line text => [text]
  | .block start _ content stop => start :: content ++ [stop]

def Formed : Item → Prop
  | .line text => Alone text
  | .block start k content stop =>
    Opens k start ∧ (∀ line ∈ content, trim line ≠ endtag k) ∧ trim stop = endtag k

def file : Item → Option (List Char × List Char)
  | .line _ => none
  | .block _ k content _ => some (k, inlineValue content)

end Item

/-- What a profile exports: lines and file values. -/
inductive Export where
  | line (text : List Char)
  | file (k value : List Char)

namespace Export

def text : Export → List Char
  | .line text => text ++ ['\n']
  | .file k value => insertFileData k (some value)

def asFile : Export → Option (List Char × List Char)
  | .line _ => none
  | .file k value => some (k, value)

end Export

def lineEntries (line : List Char) : List (List (List Char)) :=
  match lineArgs line with
  | .ok (arg0 :: args) => [arg0 :: args]
  | _ => []

def Item.entries : Item → List (List (List Char))
  | .line text => lineEntries text
  | .block _ k content _ => [[k, inlineValue content]]

def Export.entries : Export → List (List (List Char))
  | .line text => lineEntries text
  | .file k value => [[k, value]]

def under (name : List Char) (entries : List (List (List Char))) : List (List (List Char)) :=
  entries.filter fun args => optionAlias (args.headD []) = name

def stored (parsed : Parsed) (name : List Char) : List (List (List Char)) :=
  (parsed.options.lookup name).getD []

/-! ### Reading one item -/

private theorem stored_addOption (parsed : Parsed) (args : List (List Char)) (name : List Char) :
    stored (addOption parsed args) name = stored parsed name ++ under name [args] := by
  by_cases same : optionAlias (args.headD []) = name
  · simp only [under, List.filter_cons, List.filter_nil, decide_eq_true_eq, if_pos same]
    subst same
    simp only [stored, addOption, AList.lookup_insert]
    rfl
  · simp only [under, List.filter_cons, List.filter_nil, decide_eq_true_eq, if_neg same, List.append_nil]
    simp only [stored, addOption, AList.lookup_insert_ne (Ne.symm same)]

private theorem readInlinefile_content {k stop : List Char} {content : List (List Char)}
    (stays : ∀ line ∈ content, trim line ≠ endtag k)
    (ends : trim stop = endtag k) (inlinefile : List Char) (br : BufferedReader) :
    readInlinefile k inlinefile (content ++ stop :: br) = .ok (inlinefile ++ unlines '\n' content, br) := by
  induction content generalizing inlinefile with
  | nil => rw [List.nil_append, readInlinefile, if_pos ends, unlines_nil, List.append_nil]
  | cons line content ih =>
    obtain ⟨stay, stays⟩ := List.forall_mem_cons.mp stays
    rw [List.cons_append, readInlinefile, if_neg stay, ih stays, unlines_cons]
    simp

private theorem checkinlinefile_block {k arg0 stop : List Char} {content args : List (List Char)}
    (start : argname (trim arg0) = some k)
    (stays : ∀ line ∈ content, trim line ≠ endtag k) (ends : trim stop = endtag k) (br : BufferedReader) :
    checkinlinefile arg0 args (content ++ stop :: br) = .ok ([k, inlineValue content], br) := by
  simp only [checkinlinefile, start, readInlinefile_content stays ends]
  cases content with
  | nil => rfl
  | cons line content =>
    have whole : INLINE_TAG ++ unlines '\n' (line :: content) = inlineValue (line :: content) ++ ['\n'] := by
      rw [← intercalate_append '\n' (List.cons_ne_nil line content), inlineValue, List.append_assoc]
    rw [whole, if_pos List.getLast?_concat, List.dropLast_concat]

/-- An item is read as a whole and adds its entries. -/
theorem parseLines_item {item : Item} (formed : item.Formed) (parsed : Parsed) (br : BufferedReader) :
    ∃ after, parseLines parsed (item.lines ++ br) = parseLines after br ∧
      ∀ name, stored after name = stored parsed name ++ under name item.entries := by
  cases item with
  | line text =>
    obtain ⟨args, read, alone⟩ := formed
    rw [Item.lines, List.singleton_append, parseLines_cons]
    simp only [Item.entries, lineEntries, read]
    unfold lineArgs at read
    split at read
    next meta_ =>
      cases read
      rw [if_pos meta_]
      exact ⟨_, rfl, fun name => (List.append_nil _).symm⟩
    next plain =>
      rw [if_neg plain]
      cases found : parseline text with
      | error e =>
        rw [found] at read
        cases read
      | ok all =>
        rw [found] at read
        cases all with
        | nil => exact ⟨_, rfl, fun name => by cases read; exact (List.append_nil _).symm⟩
        | cons arg0 args =>
          cases read
          have kept : checkinlinefile (withoutDashes arg0) args br = .ok (withoutDashes arg0 :: args, br) := by
            rw [checkinlinefile, alone _ rfl]
          refine ⟨_, ?_, stored_addOption parsed (withoutDashes arg0 :: args)⟩
          simp only [kept]
  | block start k content stop =>
    obtain ⟨⟨arg0, args, read, opens⟩, stays, ends⟩ := formed
    unfold lineArgs at read
    split at read
    · cases read
    next plain =>
      refine ⟨_, ?_, stored_addOption parsed [k, inlineValue content]⟩
      rw [Item.lines, List.cons_append, List.cons_append, List.append_assoc, List.singleton_append, parseLines_cons,
        if_neg plain]
      cases found : parseline start with
      | error e =>
        rw [found] at read
        cases read
      | ok all =>
        rw [found] at read
        cases all with
        | nil => cases read
        | cons first args =>
          cases read
          simp only [checkinlinefile_block opens stays ends]

private theorem under_append (name : List Char) (first second : List (List (List Char))) :
    under name (first ++ second) = under name first ++ under name second := List.filter_append ..

theorem parseLines_items {items : List Item} (formed : ∀ item ∈ items, item.Formed) (parsed : Parsed) :
    ∃ final, parseLines parsed (items.flatMap Item.lines) = .ok final ∧
      ∀ name, stored final name = stored parsed name ++ under name (items.flatMap Item.entries) := by
  induction items generalizing parsed with
  | nil => exact ⟨parsed, by rw [List.flatMap_nil, parseLines], fun name => (List.append_nil _).symm⟩
  | cons item items ih =>
    obtain ⟨first, others⟩ := List.forall_mem_cons.mp formed
    obtain ⟨after, read, adds⟩ := parseLines_item first parsed (items.flatMap Item.lines)
    obtain ⟨final, rest, collects⟩ := ih others after
    refine ⟨final, ?_, fun name => ?_⟩
    · rw [List.flatMap_cons, read, rest]
    · rw [collects, adds, List.flatMap_cons, under_append, List.append_assoc]

/-! ### Lines and tags -/

private theorem lines_line {line : List Char} (rest : List Char) (feed : '\n' ∉ line) (carriage : '\r' ∉ line) :
    lines (line ++ '\n' :: rest) = line :: lines rest := by
  induction line with
  | nil => rfl
  | cons c line ih =>
    obtain ⟨first, feed⟩ := List.ne_and_not_mem_of_not_mem_cons feed
    obtain ⟨second, carriage⟩ := List.ne_and_not_mem_of_not_mem_cons carriage
    rw [List.cons_append, lines, ih feed carriage]
    · exact first.symm
    · exact fun _ same => absurd same second.symm
    · exact second.symm

theorem lines_clean {reader line : List Char} (member : line ∈ lines reader) : '\n' ∉ line ∧ '\r' ∉ line := by
  fun_induction lines reader generalizing line with
  | case1 => cases member
  | case2 rest ih =>
    rcases List.mem_cons.mp member with rfl | member
    · simp
    · exact ih member
  | case3 rest ih =>
    rcases List.mem_cons.mp member with rfl | member
    · simp
    · exact ih member
  | case4 rest other ih =>
    rcases List.mem_cons.mp member with rfl | member
    · simp
    · exact ih member
  | case5 c rest feed pair carriage ended ih =>
    rw [List.mem_singleton.mp member]
    simp only [List.mem_singleton]
    exact ⟨fun same => feed same.symm, fun same => carriage same.symm⟩
  | case6 c rest feed pair carriage first more found ih =>
    rw [found] at ih
    rcases List.mem_cons.mp member with rfl | member
    · obtain ⟨noFeed, noCarriage⟩ := ih List.mem_cons_self
      simp only [List.mem_cons, not_or]
      exact ⟨⟨fun same => feed same.symm, noFeed⟩, fun same => carriage same.symm, noCarriage⟩
    · exact ih (List.mem_cons_of_mem _ member)

private theorem trim_tag {first last : Char} (text : List Char) (opens : ¬ first ≤ ' ') (closes : ¬ last ≤ ' ') :
    trim ([first] ++ text ++ [last]) = [first] ++ text ++ [last] := by
  have kept : ([first] ++ text ++ [last]).dropWhile (· ≤ ' ') = [first] ++ text ++ [last] :=
    List.dropWhile_cons_of_neg (by simpa using opens)
  rw [trim, kept, List.rdropWhile_concat_neg]
  simpa using closes

/-- The line that `insertFileData` starts a block with. -/
def startTag (k : List Char) : List Char := ['<'] ++ k ++ ['>']

private theorem argname_startTag (k : List Char) : argname (trim (startTag k)) = some k := by
  have marked : (startTag k).head? = some '<' ∧ (startTag k).getLast? = some '>' := ⟨rfl, List.getLast?_concat⟩
  have name : (startTag k).tail.dropLast = k := List.dropLast_concat
  rw [startTag, trim_tag k (by decide) (by decide), ← startTag, argname, if_pos marked, name]

private theorem trim_endtag (k : List Char) : trim (endtag k) = endtag k :=
  trim_tag ('/' :: k) (by decide) (by decide)

def Name (k : List Char) : Prop := ∀ c ∈ k, ConfigParser.space c = false ∧ c ≠ '\\'

private theorem readRestJava_unquoted {name : List Char} (plain : Name name) (out : Char) (currentarg : List Char) :
    readRestJava { state := .readingUnquotedParm, out := out, currentarg := currentarg } name =
      .ok [currentarg ++ name] := by
  induction name generalizing out currentarg with
  | nil =>
    have inside : Silent { state := .readingUnquotedParm, out := out, currentarg := currentarg } := nofun
    rw [readRestJava_nil _ inside, List.append_nil]
    rfl
  | cons c name ih =>
    obtain ⟨⟨separates, slash⟩, plain⟩ := List.forall_mem_cons.mp plain
    have stores : effect ConfigParser.space .readingUnquotedParm false c = .store .readingUnquotedParm := by
      simp [effect, LineEffects.stored, separates, slash]
    have char : c ≠ '\x00' := by
      rintro rfl
      exact absurd separates (by decide)
    have inside : Silent { state := .readingUnquotedParm, out := out, currentarg := currentarg } := nofun
    rw [readRestJava_next char inside (by simp [stores]) (by simp [stores])]
    simp only [stores, advanceJava]
    rw [ih plain, List.append_assoc, List.singleton_append]

private theorem opens_startTag {k : List Char} (plain : Name k) : Opens k (startTag k) := by
  have other : ¬ metaTag <+: startTag k := by
    rintro ⟨more, same⟩
    cases same
  have name : Name (k ++ ['>']) := by
    intro c member
    rcases List.mem_append.mp member with inside | last
    · exact plain c inside
    · rw [List.mem_singleton.mp last]
      decide
  have read : parseline (startTag k) = .ok [startTag k] := by
    have same : startTag k = '<' :: (k ++ ['>']) := rfl
    rw [parseline_rest, same, readRestJava_next (by decide) (fun _ => rfl) (by decide) (by decide)]
    exact readRestJava_unquoted name '<' ['<']
  have undashed : withoutDashes (startTag k) = startTag k := by
    refine if_neg ?_
    rintro ⟨more, same⟩
    cases same
  refine ⟨startTag k, [], ?_, argname_startTag k⟩
  simp only [lineArgs, if_neg other, read, undashed]

/-! ### What is exported -/

def Export.item : Export → Item
  | .line text => .line text
  | .file k value => .block (startTag k) k ((value.drop INLINE_TAG.length).splitOn '\n') (endtag k)

/-- A line that stands alone, or a value of a block with a plain name. -/
def Export.Formed : Export → Prop
  | .line text => Alone text ∧ '\n' ∉ text ∧ '\r' ∉ text
  | .file k value =>
    Name k ∧ ∃ content, value = inlineValue content ∧
      ∀ line ∈ content, ('\n' ∉ line ∧ '\r' ∉ line) ∧ trim line ≠ endtag k

/-- The lines of an exported content: an empty content is written as an empty line. -/
theorem mem_splitOn_value {content : List (List Char)} (clean : ∀ line ∈ content, '\n' ∉ line) {line : List Char}
    (member : line ∈ ((inlineValue content).drop INLINE_TAG.length).splitOn '\n') : line ∈ content ∨ line = [] := by
  rw [inlineValue, List.drop_left] at member
  by_cases empty : content = []
  · subst empty
    rw [List.intercalate_nil, List.splitOn_nil] at member
    exact Or.inr (List.mem_singleton.mp member)
  · rw [List.splitOn_intercalate '\n' clean empty] at member
    exact Or.inl member

private theorem item_formed {part : Export} (formed : part.Formed) : part.item.Formed := by
  cases part with
  | line text => exact formed.1
  | file k value =>
    obtain ⟨plain, content, rfl, lines⟩ := formed
    refine ⟨opens_startTag plain, fun line member => ?_, trim_endtag k⟩
    rcases mem_splitOn_value (fun line member => (lines line member).1.1) member with inside | rfl
    · exact (lines line inside).2
    · simp [trim, endtag]

private theorem item_entries {part : Export} (formed : part.Formed) : part.item.entries = part.entries := by
  cases part with
  | line text => rfl
  | file k value =>
    obtain ⟨-, content, rfl, -⟩ := formed
    simp only [Export.item, Item.entries, Export.entries, inlineValue, List.drop_left, List.intercalate_splitOn]

private theorem lines_unlines {content : List (List Char)} (clean : ∀ line ∈ content, '\n' ∉ line ∧ '\r' ∉ line)
    (rest : List Char) :
    lines (unlines '\n' content ++ rest) = content ++ lines rest := by
  induction content with
  | nil => rfl
  | cons line content ih =>
    obtain ⟨⟨feed, carriage⟩, clean⟩ := List.forall_mem_cons.mp clean
    rw [unlines_cons, List.append_assoc, List.cons_append, lines_line _ feed carriage, ih clean, List.cons_append]

private theorem name_clean {k : List Char} (plain : Name k) : '\n' ∉ k ∧ '\r' ∉ k := by
  refine ⟨fun member => ?_, fun member => ?_⟩
  · exact absurd (plain _ member).1 (by decide)
  · exact absurd (plain _ member).1 (by decide)

private theorem lines_text {part : Export} (formed : part.Formed) (rest : List Char) :
    lines (part.text ++ rest) = part.item.lines ++ lines rest := by
  cases part with
  | line text =>
    obtain ⟨-, feed, carriage⟩ := formed
    rw [Export.text, List.append_assoc, List.singleton_append, lines_line rest feed carriage]
    rfl
  | file k value =>
    obtain ⟨plain, content, rfl, clean⟩ := formed
    obtain ⟨feed, carriage⟩ := name_clean plain
    have kept : ∀ line ∈ ((inlineValue content).drop INLINE_TAG.length).splitOn '\n', '\n' ∉ line ∧ '\r' ∉ line := by
      intro line member
      rcases mem_splitOn_value (fun line member => (clean line member).1.1) member with inside | rfl
      · exact (clean line inside).1
      · simp
    have written : Export.text (.file k (inlineValue content)) ++ rest =
        startTag k ++ '\n' :: (unlines '\n' (((inlineValue content).drop INLINE_TAG.length).splitOn '\n') ++
          (endtag k ++ '\n' :: rest)) := by
      rw [Export.text, inlineValue, insertFileData_inline, ← splitOn_append, List.drop_left]
      simp [startTag, endtag]
    rw [written, lines_line _ (by simp [startTag, feed]) (by simp [startTag, carriage]), lines_unlines kept,
      lines_line _ (by simp [endtag, feed]) (by simp [endtag, carriage])]
    simp [Export.item, Item.lines]

private theorem lines_flatMap {exports : List Export} (formed : ∀ part ∈ exports, part.Formed) :
    lines (exports.flatMap Export.text) = (exports.map Export.item).flatMap Item.lines := by
  induction exports with
  | nil => rfl
  | cons part exports ih =>
    obtain ⟨first, others⟩ := List.forall_mem_cons.mp formed
    rw [List.flatMap_cons, lines_text first, ih others, List.map_cons, List.flatMap_cons]

/-! ### Configs -/

/-- The lines `parseConfig` goes through. -/
def checkedLines (reader : List Char) : Except ConfigParseError BufferedReader :=
  match lines reader with
  | [] => .ok []
  | line :: br => (firstLine line).map (· :: br)

private theorem parseConfig_checked {reader : List Char} {br : BufferedReader}
    (checked : checkedLines reader = .ok br) :
    parseConfig reader = parseLines {} br := by
  unfold checkedLines at checked
  unfold parseConfig
  cases found : lines reader with
  | nil =>
    rw [found] at checked
    cases checked
    rw [parseLines]
  | cons line rest =>
    rw [found] at checked
    simp only at checked ⊢
    cases first : firstLine line <;> rw [first] at checked <;> cases checked
    rfl

private theorem checked_clean {reader line : List Char} {br : BufferedReader} (checked : checkedLines reader = .ok br)
    (member : line ∈ br) : '\n' ∉ line ∧ '\r' ∉ line := by
  have clean {line} := @lines_clean reader line
  unfold checkedLines at checked
  split at checked
  · cases checked
    cases member
  next first rest some_ =>
    rw [some_] at clean
    cases found : firstLine first <;> rw [found] at checked <;> cases checked
    next kept =>
      rcases List.mem_cons.mp member with rfl | later
      · obtain ⟨feed, carriage⟩ := clean List.mem_cons_self
        unfold firstLine at found
        split at found
        · cases found
        · cases found
          split
          · exact ⟨fun inside => feed (List.mem_of_mem_tail inside),
              fun inside => carriage (List.mem_of_mem_tail inside)⟩
          · exact ⟨feed, carriage⟩
      · exact clean (List.mem_cons_of_mem _ later)

def fileEntries (files : List (List Char × List Char)) : List (List (List Char)) :=
  files.map fun (k, value) => [k, value]

private theorem under_items {items : List Item} {name : List Char}
    (quiet : ∀ line, .line line ∈ items → under name (lineEntries line) = []) :
    under name (items.flatMap Item.entries) = under name (fileEntries (items.filterMap Item.file)) := by
  induction items with
  | nil => rfl
  | cons item items ih =>
    have rest := ih fun line member => quiet line (List.mem_cons_of_mem _ member)
    rw [List.flatMap_cons, under_append, rest]
    cases item with
    | line text => rw [Item.entries, quiet text List.mem_cons_self, List.filterMap_cons_none rfl, List.nil_append]
    | block start k content stop => exact (under_append name [[k, inlineValue content]] (fileEntries _)).symm

private theorem under_exports {exports : List Export} {name : List Char}
    (quiet : ∀ line, .line line ∈ exports → under name (lineEntries line) = []) :
    under name (exports.flatMap Export.entries) = under name (fileEntries (exports.filterMap Export.asFile)) := by
  induction exports with
  | nil => rfl
  | cons part exports ih =>
    have rest := ih fun line member => quiet line (List.mem_cons_of_mem _ member)
    rw [List.flatMap_cons, under_append, rest]
    cases part with
    | line text => rw [Export.entries, quiet text List.mem_cons_self, List.filterMap_cons_none rfl, List.nil_append]
    | file k value => exact (under_append name [[k, value]] (fileEntries _)).symm

private theorem checkedLines_exports {exports : List Export} (formed : ∀ part ∈ exports, part.Formed)
    (first : ∀ line, exports.head? = some (.line line) → firstLine line = .ok line) :
    checkedLines (exports.flatMap Export.text) = .ok ((exports.map Export.item).flatMap Item.lines) := by
  rw [checkedLines, lines_flatMap formed]
  cases exports with
  | nil => rfl
  | cons part exports =>
    cases part with
    | line text =>
      have kept := first text rfl
      simp only [List.map_cons, List.flatMap_cons, Export.item, Item.lines, List.singleton_append, kept]
      rfl
    | file k value => rfl

/-- A config of lines and blocks is stored entry by entry, and so is every text in which
other lines stand around the exported blocks. Under a name that no line has, both give
the values of the blocks in their order. -/
theorem inline_blocks_survive {reader : List Char} {items : List Item}
    (read : checkedLines reader = .ok (items.flatMap Item.lines)) (formed : ∀ item ∈ items, item.Formed)
    (names : ∀ item ∈ items, ∀ k value, item.file = some (k, value) → Name k) :
    ∃ parsed, parseConfig reader = .ok parsed ∧
      (∀ name, stored parsed name = under name (items.flatMap Item.entries)) ∧
      ∀ exports : List Export, exports.filterMap Export.asFile = items.filterMap Item.file →
        (∀ line, .line line ∈ exports → Alone line ∧ '\n' ∉ line ∧ '\r' ∉ line) →
        (∀ line, exports.head? = some (.line line) → firstLine line = .ok line) →
        ∃ again, parseConfig (exports.flatMap Export.text) = .ok again ∧
          (∀ name, stored again name = under name (exports.flatMap Export.entries)) ∧
          ∀ name, (∀ line, .line line ∈ items → under name (lineEntries line) = []) →
            (∀ line, .line line ∈ exports → under name (lineEntries line) = []) →
            stored again name = stored parsed name := by
  obtain ⟨parsed, stores, collects⟩ := parseLines_items formed {}
  have entries (name : List Char) : stored parsed name = under name (items.flatMap Item.entries) := collects name
  refine ⟨parsed, by rw [parseConfig_checked read, stores], entries, ?_⟩
  intro exports same alone first
  have exported : ∀ part ∈ exports, part.Formed := by
    intro part member
    cases part with
    | line text => exact alone text member
    | file k value =>
      have listed : (k, value) ∈ items.filterMap Item.file := by
        rw [← same]
        exact List.mem_filterMap.mpr ⟨_, member, rfl⟩
      obtain ⟨item, inside, isFile⟩ := List.mem_filterMap.mp listed
      refine ⟨names item inside k value isFile, ?_⟩
      cases item with
      | line text => cases isFile
      | block start k content stop =>
        cases isFile
        refine ⟨content, rfl, fun line within => ⟨?_, (formed _ inside).2.1 line within⟩⟩
        refine checked_clean read (List.mem_flatMap.mpr ⟨_, inside, ?_⟩)
        simp [Item.lines, within]
  obtain ⟨again, restores, recollects⟩ := @parseLines_items (exports.map Export.item)
    (by
      intro item member
      obtain ⟨part, inside, rfl⟩ := List.mem_map.mp member
      exact item_formed (exported part inside)) {}
  have reentries (name : List Char) : stored again name = under name (exports.flatMap Export.entries) := by
    have flat : (exports.map Export.item).flatMap Item.entries = exports.flatMap Export.entries := by
      rw [List.flatMap_map]
      exact List.flatMap_congr fun part member => item_entries (exported part member)
    rw [← flat]
    exact recollects name
  refine ⟨again, by rw [parseConfig_checked (checkedLines_exports exported first), restores], reentries, ?_⟩
  intro name quiet quietAgain
  rw [reentries, entries, under_exports quietAgain, under_items quiet, same]

/-- An option and a block whose content has a comment and an empty line. -/
private def certificate : List Item :=
  [.line ['d', ' ', 't'], .block [' ', '<', 'a', '>'] ['a'] [['#'], []] ['<', '/', 'a', '>', ' ']]

theorem inline_blocks_survive_certificate :
    ∃ parsed again, parseConfig ['d', ' ', 't', '\n', ' ', '<', 'a', '>', '\n', '#', '\n', '\n', '<', '/', 'a', '>',
      ' '] = .ok parsed ∧
      parseConfig ['<', 'a', '>', '\n', '#', '\n', '\n', '<', '/', 'a', '>', '\n', 'b', '\n'] = .ok again ∧
      stored again ['a'] = [[['a'], INLINE_TAG ++ ['#', '\n']]] ∧ stored again ['a'] = stored parsed ['a'] := by
  have read : checkedLines ['d', ' ', 't', '\n', ' ', '<', 'a', '>', '\n', '#', '\n', '\n', '<', '/', 'a', '>', ' '] =
      .ok (certificate.flatMap Item.lines) := rfl
  have formed : ∀ item ∈ certificate, item.Formed := by
    intro item member
    rcases List.mem_cons.mp member with rfl | member
    · exact ⟨[['d'], ['t']], rfl, by decide⟩
    · rw [List.mem_singleton.mp member]
      exact ⟨⟨['<', 'a', '>'], [], rfl, rfl⟩, by decide, rfl⟩
  have names : ∀ item ∈ certificate, ∀ k value, item.file = some (k, value) → Name k := by
    intro item member k value isFile
    rcases List.mem_cons.mp member with rfl | member
    · cases isFile
    · rw [List.mem_singleton.mp member] at isFile
      cases isFile
      exact List.forall_mem_singleton.mpr (by decide)
  obtain ⟨parsed, reads, -, exported⟩ := inline_blocks_survive read formed names
  have alone : ∀ line, Export.line line ∈ [.file ['a'] (INLINE_TAG ++ ['#', '\n']), .line ['b']] →
      Alone line ∧ '\n' ∉ line ∧ '\r' ∉ line := by
    intro line member
    rcases List.mem_cons.mp member with other | member
    · cases other
    · cases List.mem_singleton.mp member
      exact ⟨⟨[['b']], rfl, by decide⟩, by decide, by decide⟩
  obtain ⟨again, rereads, collects, same⟩ :=
    exported [.file ['a'] (INLINE_TAG ++ ['#', '\n']), .line ['b']] rfl alone (by intro line other; cases other)
  refine ⟨parsed, again, reads, rereads, collects ['a'], same ['a'] ?_ ?_⟩
  · intro line member
    rcases List.mem_cons.mp member with same | member
    · cases same
      rfl
    · cases List.mem_singleton.mp member
  · intro line member
    rcases List.mem_cons.mp member with same | member
    · cases same
    · cases List.mem_singleton.mp member
      rfl

end RRoadVpn.Proofs.InlineImport
