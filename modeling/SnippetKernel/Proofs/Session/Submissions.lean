import Mathlib.Data.List.DropRight
import SnippetKernel.Proofs.Wire.Framing
import SnippetKernel.Session.Run

/-! What becomes of the lines that are typed into a session. Which of them are commands, and which belong to one block of
code, is said by the lines alone; what the session does is then read off them, and no line of code is lost or comes
twice. -/
namespace SnippetKernel

namespace Text

theorem dropEnds_head? (drop : Char → Bool) (cs : List Char) : (dropEnds drop cs).head? = cs.find? (!drop ·) := by
  rw [List.find?_eq_head?_dropWhile_not]
  simp only [Bool.not_not]
  show ((cs.dropWhile drop).rdropWhile drop).head? = _
  cases rest : cs.dropWhile drop with
  | nil => rfl
  | cons c more =>
    have kept : drop c = false := by
      have first := List.head?_dropWhile_not drop cs
      rwa [rest] at first
    have some_kept : (c :: more).rdropWhile drop ≠ [] := fun none =>
      absurd (List.rdropWhile_eq_nil_iff.mp none c List.mem_cons_self) (by simp [kept])
    obtain ⟨behind, whole⟩ := List.rdropWhile_prefix drop (c :: more)
    have first := congrArg List.head? whole
    rwa [List.head?_append_of_ne_nil _ some_kept] at first

theorem dropEnds_getLast? (drop : Char → Bool) (cs : List Char) :
    (dropEnds drop cs).getLast? = cs.reverse.find? (!drop ·) := by
  have split : cs.reverse = (cs.dropWhile drop).reverse ++ (cs.takeWhile drop).reverse := by
    rw [← List.reverse_append, List.takeWhile_append_dropWhile]
  have none : (cs.takeWhile drop).reverse.find? (!drop ·) = none := by
    refine List.find?_eq_none.mpr fun c mem => ?_
    simp [List.mem_takeWhile_imp (List.mem_reverse.mp mem)]
  rw [dropEnds, dropEnd, List.getLast?_reverse, split, List.find?_append, none, Option.or_none,
    List.find?_eq_head?_dropWhile_not]
  simp only [Bool.not_not]
  rfl

theorem feed_notMem_pieces {before bytes : List UInt8} (none_before : 10 ∉ before) :
    ∀ piece ∈ pieces before bytes, 10 ∉ piece := by
  induction bytes generalizing before with
  | nil => exact List.forall_mem_singleton.mpr fun mem => none_before (List.mem_reverse.mp mem)
  | cons b rest ih =>
    simp only [pieces]
    split
    · exact List.forall_mem_cons.mpr ⟨fun mem => none_before (List.mem_reverse.mp mem), ih List.not_mem_nil⟩
    · next other => exact ih fun mem => (List.mem_cons.mp mem).elim (fun feed => other feed.symm) none_before

theorem feed_notMem_of_textOf? {bytes : List UInt8} {text : String} (decoded : textOf? bytes = some text)
    (none : 10 ∉ bytes) : '\n' ∉ text.toList := by
  intro feed
  have encoded : bytes = text.toList.flatMap String.utf8EncodeChar := by
    rw [← Wire.octets_toUTF8, Wire.toUTF8_of_fromUTF8 decoded]
    rfl
  exact none (encoded ▸ List.mem_flatMap.mpr ⟨'\n', feed, by decide⟩)

end Text

namespace Session

/-! ### Inputs -/

theorem textOf?_of_typedLine {bytes : List UInt8} {text : String} (same : .line text = typedLine bytes) :
    Text.textOf? bytes = some text := by
  unfold typedLine at same
  split at same
  · next decoded => rw [decoded, Typed.line.inj same]
  · cases same

theorem withoutReturn_subset (line : List UInt8) : withoutReturn line ⊆ line := by
  unfold withoutReturn
  split
  · exact line.dropLast_subset
  · exact List.Subset.refl line

theorem exists_of_typedLines {lines : List (List UInt8)} {text : String} (mem : .line text ∈ typedLines lines) :
    ∃ line ∈ lines, ∃ bytes, bytes ⊆ line ∧ Text.textOf? bytes = some text := by
  induction lines using typedLines.induct with
  | case1 | case2 => exact nomatch List.mem_singleton.mp mem
  | case3 last some_byte =>
    rw [typedLines.eq_3 last some_byte] at mem
    rcases List.mem_cons.mp mem with same | ended
    · exact ⟨last, List.mem_cons_self, last, List.Subset.refl last, textOf?_of_typedLine same⟩
    · exact nomatch List.mem_singleton.mp ended
  | case4 line rest not_last more ih =>
    rw [typedLines.eq_4 line rest not_last more] at mem
    rcases List.mem_cons.mp mem with same | later
    · exact ⟨line, List.mem_cons_self, _, withoutReturn_subset line, textOf?_of_typedLine same⟩
    · obtain ⟨other, in_rest, found⟩ := ih later
      exact ⟨other, List.mem_cons_of_mem line in_rest, found⟩

/-- A line of an input holds no line feed. -/
theorem feed_notMem_of_typed {input : ByteArray} {text : String} (mem : .line text ∈ typed input) : '\n' ∉ text.toList := by
  obtain ⟨line, in_lines, bytes, fewer, decoded⟩ := exists_of_typedLines mem
  have none : 10 ∉ line := Text.feed_notMem_pieces List.not_mem_nil line in_lines
  exact Text.feed_notMem_of_textOf? decoded fun feed => none (fewer feed)

/-! ### Lines -/

/-- The first character of a line that is not blank. -/
def first? (line : String) : Option Char := line.toList.find? (!Text.isBlank ·)

/-- The last character of a line that is not blank. -/
def last? (line : String) : Option Char := line.toList.reverse.find? (!Text.isBlank ·)

def isBlank (line : String) : Bool := line.toList.all Text.isBlank

/-- Whether the line opens a block, where none is open. -/
def opens (line : String) : Bool := first? line ≠ some ':' && last? line = some ':'

/-- Whether a block is open behind these lines: since the last blank one there is one that opens it. -/
def inBlock (earlier : List String) : Bool := (earlier.rtakeWhile (!isBlank ·)).any opens

/-- Whether the line is a command, behind the earlier lines. -/
def isCommand (earlier : List String) (line : String) : Bool := !inBlock earlier && first? line = some ':'

def isCode (earlier : List String) (line : String) : Bool := !isBlank line && !isCommand earlier line

/-- The command that is behind the colon. -/
def commandOf (line : String) : Command := .ofText (String.ofList (Text.trim line).toList.tail)

/-- The lines that are picked, each by what it is and by the lines before it. -/
def picked (pick : List String → String → Bool) (earlier : List String) : List String → List String
  | [] => []
  | line :: rest => (if pick earlier line then [line] else []) ++ picked pick (earlier ++ [line]) rest

/-- The lines before a command to quit. -/
def untilQuit (earlier : List String) : List String → List String
  | [] => []
  | line :: rest =>
    if isCommand earlier line ∧ commandOf line = .quit then [] else line :: untilQuit (earlier ++ [line]) rest

variable {earlier lines : List String} {line : String} {b : Block}

theorem inBlock_concat : inBlock (earlier ++ [line]) = (!isBlank line && (inBlock earlier || opens line)) := by
  rw [inBlock, List.rtakeWhile_concat]
  cases blank : isBlank line <;> simp [inBlock]

theorem picked_concat (pick : List String → String → Bool) : picked pick earlier (lines ++ [line]) =
    picked pick earlier lines ++ if pick (earlier ++ lines) line then [line] else [] := by
  induction lines generalizing earlier with
  | nil => simp [picked]
  | cons other rest ih => simp [picked, ih]

namespace Block

theorem trim_eq_nil : (Text.trim line).toList = [] ↔ isBlank line = true := by
  rw [Text.trim, String.toList_ofList, ← List.head?_eq_none_iff, Text.dropEnds_head?]
  simp [isBlank]

theorem trim_head? : (Text.trim line).toList.head? = first? line := by
  rw [Text.trim, String.toList_ofList, Text.dropEnds_head?]
  rfl

theorem trim_getLast? : (Text.trim line).toList.getLast? = last? line := by
  rw [Text.trim, String.toList_ofList, Text.dropEnds_getLast?]
  rfl

theorem push_open (isopen : b.isOpen) :
    b.push line = if isBlank line then (.code b.text, empty) else (.pending, ⟨b.lines ++ [line]⟩) := by
  simp only [push, if_pos isopen, List.isEmpty_iff, trim_eq_nil]

theorem push_closed (closed : ¬b.isOpen) :
    b.push line =
      if isBlank line then (.pending, empty)
      else if first? line = some ':' then (.command (commandOf line), empty)
      else if last? line = some ':' then (.pending, ⟨[line]⟩)
      else (.code line, empty) := by
  simp only [push, if_neg closed, ← trim_eq_nil, ← trim_head?, ← trim_getLast?, commandOf]
  split
  · next none => simp [none]
  · next colon => simp [colon]
  · next some_text no_colon =>
    have no_head : ¬(Text.trim line).toList.head? = some ':' := fun colon =>
      (List.head?_eq_some_iff.mp colon).elim no_colon
    rw [if_neg some_text, if_neg no_head]

end Block

/-! ### What the session does -/

inductive Deed where
  /-- Is written without asking a kernel. -/
  | notice (text : String)
  | submission (code : String)
  | reply (command : Command)

def Deed.perform (c : Caller) : Deed → Host Unit
  | .notice text => Host.ask (.write text)
  | .submission code => execute c code
  | .reply command => do writeLine (← answer c command)

def performAll (c : Caller) : List Deed → Host Unit
  | [] => return ()
  | d :: rest => do
    d.perform c
    performAll c rest

theorem performAll_append (c : Caller) (ds more : List Deed) :
    performAll c (ds ++ more) = (do performAll c ds; performAll c more) := by
  induction ds with
  | nil => simp [performAll]
  | cons d rest ih => simp [performAll, ih]

def submissions (ds : List Deed) : List String :=
  ds.filterMap fun
    | .submission code => some code
    | .notice _ | .reply _ => none

def replies (ds : List Deed) : List Command :=
  ds.filterMap fun
    | .reply command => some command
    | .notice _ | .submission _ => none

@[simp] theorem submissions_append (ds more : List Deed) :
    submissions (ds ++ more) = submissions ds ++ submissions more :=
  List.filterMap_append

@[simp] theorem replies_append (ds more : List Deed) : replies (ds ++ more) = replies ds ++ replies more :=
  List.filterMap_append

def prompt (b : Block) : Deed := .notice (if b.isOpen then "... " else ">>> ")

def Entry.deeds : Entry → List Deed
  | .pending => []
  | .code text => [.submission text]
  | .command c => [.reply c]

/-- The pieces of a text between its line feeds. -/
def pieces (text : String) : List String := (text.toList.splitOn '\n').map .ofList

theorem pieces_intercalate {block : List String} (some_line : block ≠ []) (single : ∀ line ∈ block, '\n' ∉ line.toList) :
    pieces ("\n".intercalate block) = block := by
  have feed : "\n".toList = ['\n'] := rfl
  have single : ∀ cs ∈ block.map String.toList, '\n' ∉ cs := List.forall_mem_map.mpr single
  have some_chars : block.map String.toList ≠ [] := fun none => some_line (List.map_eq_nil_iff.mp none)
  rw [pieces, String.toList_intercalate, feed, List.splitOn_intercalate _ single some_chars, List.map_map]
  simp [Function.comp_def]

/-- The text is a block of these lines. Its first line ends in a colon, and behind the last one is a blank line. -/
def IsBlockOf (lines : List String) (text : String) : Prop :=
  ∃ before block blank after, lines = before ++ block ++ blank :: after ∧ text = "\n".intercalate block ∧
    (∃ first, block.head? = some first ∧ last? first = some ':') ∧ isBlank blank

theorem IsBlockOf.concat {text : String} (is_block : IsBlockOf lines text) : IsBlockOf (lines ++ [line]) text := by
  obtain ⟨before, block, blank, after, rfl, more⟩ := is_block
  exact ⟨before, block, blank, after ++ [line], by simp, more⟩

/-- Everything that was typed is accounted for. -/
structure Accounts (lines : List String) (ds : List Deed) (b : Block) : Prop where
  whole : (submissions ds).flatMap pieces ++ b.lines = picked isCode [] lines
  commands : replies ds = (picked isCommand [] lines).map commandOf
  blocks : ∀ text ∈ submissions ds, '\n' ∈ text.toList → IsBlockOf lines text
  /-- The block that is open consists of the last lines. -/
  isOpen : b.isOpen = inBlock lines
  last : b.lines <:+ lines
  opened : ∀ first, b.lines.head? = some first → last? first = some ':'

theorem accounts_nil : Accounts [] [] .empty where
  whole := rfl
  commands := rfl
  blocks := nofun
  isOpen := rfl
  last := List.nil_suffix
  opened := nofun

variable {ds : List Deed}

@[simp] theorem Block.isOpen_empty : Block.empty.isOpen = false := rfl

@[simp] theorem Block.isOpen_concat (block : List String) (line : String) : (⟨block ++ [line]⟩ : Block).isOpen = true := by
  simp [isOpen]

theorem first?_of_isBlank (blank : isBlank line) : first? line = none := by
  simpa [first?, isBlank] using blank

theorem Block.lines_of_closed (closed : ¬b.isOpen) : b.lines = [] := by
  simpa [isOpen] using closed

/-- One more line, about which `more` is done. -/
theorem Accounts.concat {more : List Deed} {b' : Block} (accounts : Accounts lines ds b)
    (whole : (submissions more).flatMap pieces ++ b'.lines = b.lines ++ if isCode lines line then [line] else [])
    (commands : replies more = if isCommand lines line then [commandOf line] else [])
    (blocks : ∀ text ∈ submissions more, '\n' ∈ text.toList → IsBlockOf (lines ++ [line]) text)
    (isOpen : b'.isOpen = inBlock (lines ++ [line])) (last : b'.lines <:+ lines ++ [line])
    (opened : ∀ first, b'.lines.head? = some first → last? first = some ':') :
    Accounts (lines ++ [line]) (ds ++ prompt b :: more) b' := by
  have submitted : submissions (ds ++ prompt b :: more) = submissions ds ++ submissions more := submissions_append ..
  have replied : replies (ds ++ prompt b :: more) = replies ds ++ replies more := replies_append ..
  constructor
  case whole =>
    rw [submitted, picked_concat, ← accounts.whole, List.flatMap_append, List.append_assoc, whole, List.append_assoc,
      List.nil_append]
  case commands =>
    rw [replied, picked_concat, List.map_append, ← accounts.commands, commands, List.nil_append]
    split <;> rfl
  case blocks =>
    intro text mem feed
    rw [submitted] at mem
    rcases List.mem_append.mp mem with before | now
    · exact (accounts.blocks text before feed).concat
    · exact blocks text now feed
  case isOpen => exact isOpen
  case last => exact last
  case opened => exact opened

section

variable (accounts : Accounts lines ds b)

include accounts

theorem Accounts.isCode_eq : isCode lines line = (!isBlank line && (b.isOpen || first? line ≠ some ':')) := by
  simp [isCode, isCommand, accounts.isOpen]

theorem Accounts.isCommand_eq : isCommand lines line = (!b.isOpen && first? line = some ':') := by
  rw [isCommand, accounts.isOpen]

theorem Accounts.inBlock_eq : inBlock (lines ++ [line]) = (!isBlank line && (b.isOpen || opens line)) := by
  rw [inBlock_concat, accounts.isOpen]

theorem Accounts.pieces_text (isopen : b.isOpen) (single : ∀ line ∈ lines, '\n' ∉ line.toList) :
    pieces b.text = b.lines :=
  pieces_intercalate (by simpa [Block.isOpen] using isopen) fun line mem => single line (accounts.last.subset mem)

/-- A blank line closes the block that is open. -/
theorem Accounts.closes (isopen : b.isOpen) (blank : isBlank line) (single : ∀ line ∈ lines, '\n' ∉ line.toList) :
    Accounts (lines ++ [line]) (ds ++ [prompt b, .submission b.text]) .empty := by
  have its_lines := accounts.pieces_text isopen single
  obtain ⟨first, rest, block⟩ : ∃ first rest, b.lines = first :: rest :=
    List.exists_cons_of_ne_nil (by simpa [Block.isOpen] using isopen)
  have is_first : b.lines.head? = some first := by rw [block]; rfl
  refine accounts.concat ?whole ?commands ?blocks ?isOpen List.nil_suffix nofun
  case whole => simp [submissions, accounts.isCode_eq, blank, its_lines, Block.empty]
  case commands => simp [replies, accounts.isCommand_eq, isopen]
  case blocks =>
    intro text submitted _
    cases List.mem_singleton.mp submitted
    obtain ⟨before, whole⟩ := accounts.last
    exact ⟨before, b.lines, line, [], by rw [whole], rfl, ⟨first, is_first, accounts.opened first is_first⟩, blank⟩
  case isOpen => simp [accounts.inBlock_eq, blank]

theorem Accounts.grows (isopen : b.isOpen) (visible : ¬isBlank line) :
    Accounts (lines ++ [line]) (ds ++ [prompt b]) ⟨b.lines ++ [line]⟩ := by
  have some_line : b.lines ≠ [] := by simpa [Block.isOpen] using isopen
  refine accounts.concat ?whole ?commands nofun ?isOpen ?last ?opened
  case whole => simp [submissions, accounts.isCode_eq, visible, isopen]
  case commands => simp [replies, accounts.isCommand_eq, isopen]
  case isOpen => simp [accounts.inBlock_eq, visible, isopen]
  case last =>
    obtain ⟨before, whole⟩ := accounts.last
    exact ⟨before, by rw [← whole, List.append_assoc]⟩
  case opened =>
    intro first is_first
    rw [List.head?_append_of_ne_nil _ some_line] at is_first
    exact accounts.opened first is_first

variable (closed : ¬b.isOpen)

include closed

theorem Accounts.skips (blank : isBlank line) : Accounts (lines ++ [line]) (ds ++ [prompt b]) .empty := by
  refine accounts.concat ?whole ?commands nofun ?isOpen List.nil_suffix nofun
  case whole => simp [submissions, accounts.isCode_eq, blank, b.lines_of_closed closed, Block.empty]
  case commands => simp [replies, accounts.isCommand_eq, first?_of_isBlank blank]
  case isOpen => simp [accounts.inBlock_eq, blank]

theorem Accounts.obeys (colon : first? line = some ':') :
    Accounts (lines ++ [line]) (ds ++ [prompt b, .reply (commandOf line)]) .empty := by
  refine accounts.concat ?whole ?commands nofun ?isOpen List.nil_suffix nofun
  case whole => simp [submissions, accounts.isCode_eq, colon, closed, b.lines_of_closed closed, Block.empty]
  case commands => simp [replies, accounts.isCommand_eq, colon, closed]
  case isOpen => simp [accounts.inBlock_eq, colon, closed, opens]

theorem Accounts.begins (visible : ¬isBlank line) (no_colon : first? line ≠ some ':') (ends : last? line = some ':') :
    Accounts (lines ++ [line]) (ds ++ [prompt b]) ⟨[line]⟩ := by
  refine accounts.concat ?whole ?commands nofun ?isOpen ?last ?opened
  case whole => simp [submissions, accounts.isCode_eq, visible, no_colon, b.lines_of_closed closed]
  case commands => simp [replies, accounts.isCommand_eq, no_colon]
  case isOpen => simp [accounts.inBlock_eq, visible, opens, no_colon, ends, Block.isOpen]
  case last => exact List.suffix_append lines [line]
  case opened =>
    rintro first is_first
    cases is_first
    exact ends

theorem Accounts.submits (visible : ¬isBlank line) (no_colon : first? line ≠ some ':') (ends : last? line ≠ some ':')
    (single : '\n' ∉ line.toList) : Accounts (lines ++ [line]) (ds ++ [prompt b, .submission line]) .empty := by
  have its_lines : pieces line = [line] := by
    simpa using pieces_intercalate (List.cons_ne_nil line []) (List.forall_mem_singleton.mpr single)
  refine accounts.concat ?whole ?commands ?blocks ?isOpen List.nil_suffix nofun
  case whole =>
    simp [submissions, accounts.isCode_eq, visible, no_colon, b.lines_of_closed closed, its_lines, Block.empty]
  case commands => simp [replies, accounts.isCommand_eq, no_colon]
  case blocks =>
    intro text submitted feed
    cases List.mem_singleton.mp submitted
    exact absurd feed single
  case isOpen => simp [accounts.inBlock_eq, closed, opens, ends]

end

theorem Accounts.push (accounts : Accounts lines ds b) (single : ∀ l ∈ lines ++ [line], '\n' ∉ l.toList) :
    Accounts (lines ++ [line]) (ds ++ prompt b :: (b.push line).1.deeds) (b.push line).2 := by
  obtain ⟨single, line_single⟩ := List.forall_mem_append.mp single
  by_cases isopen : b.isOpen
  · rw [Block.push_open isopen]
    by_cases blank : isBlank line
    · rw [if_pos blank]
      exact accounts.closes isopen blank single
    · rw [if_neg blank]
      exact accounts.grows isopen blank
  · rw [Block.push_closed isopen]
    by_cases blank : isBlank line
    · rw [if_pos blank]
      exact accounts.skips isopen blank
    rw [if_neg blank]
    by_cases colon : first? line = some ':'
    · rw [if_pos colon]
      exact accounts.obeys isopen colon
    rw [if_neg colon]
    by_cases ends : last? line = some ':'
    · rw [if_pos ends]
      exact accounts.begins isopen blank colon ends
    · rw [if_neg ends]
      exact accounts.submits isopen blank colon ends (line_single line List.mem_cons_self)

/-! ### A whole session -/

theorem Accounts.push_command_iff (accounts : Accounts lines ds b) {command : Command} :
    (b.push line).1 = .command command ↔ isCommand lines line ∧ commandOf line = command := by
  rw [accounts.isCommand_eq]
  by_cases isopen : b.isOpen
  · rw [Block.push_open isopen]
    split <;> simp [isopen]
  · rw [Block.push_closed isopen]
    split
    · next blank => simp [first?_of_isBlank blank]
    split
    · next colon => simp [isopen, colon]
    · next no_colon => split <;> simp [no_colon]

@[simp] theorem perform_prompt (c : Caller) (b : Block) : (prompt b).perform c = showPrompt b := rfl

@[simp] theorem perform_submission (c : Caller) (code : String) : (Deed.submission code).perform c = execute c code := rfl

@[simp] theorem perform_reply (c : Caller) (command : Command) :
    (Deed.reply command).perform c = (do writeLine (← answer c command)) :=
  rfl

@[simp] theorem perform_feed (c : Caller) : (Deed.notice "\n").perform c = writeLine "" := rfl

theorem steps_line (c : Caller) (goes_on : (b.push line).1 ≠ .command .quit) (more : List Typed) :
    steps c b (.line line :: more) =
      (do performAll c (prompt b :: (b.push line).1.deeds); steps c (b.push line).2 more) := by
  obtain ⟨entry, b', pushed⟩ : ∃ entry b', b.push line = (entry, b') := ⟨_, _, rfl⟩
  rw [pushed] at goes_on
  simp only [steps, step, pushed]
  cases entry with
  | pending => simp [performAll, Entry.deeds]
  | code text => simp [performAll, Entry.deeds]
  | command command =>
    cases command with
    | quit => exact absurd rfl goes_on
    | _ => simp [performAll, Entry.deeds]

theorem steps_quit (c : Caller) (quits : (b.push line).1 = .command .quit) (more : List Typed) :
    steps c b (.line line :: more) = (do performAll c [prompt b]; leave c succeeded) := by
  obtain ⟨entry, b', pushed⟩ : ∃ entry b', b.push line = (entry, b') := ⟨_, _, rfl⟩
  rw [pushed] at quits
  cases quits
  simp [steps, step, pushed, performAll]

theorem steps_ended (c : Caller) : steps c b [] = (do
    performAll c (prompt b :: (if b.isOpen then [.submission b.text] else []) ++ [.notice "\n"])
    leave c succeeded) := by
  by_cases isopen : b.isOpen <;>
    simp [steps, step, isopen, performAll]

/-- Behind earlier lines, all that are typed before a command to quit are taken in, and what comes then is not. -/
theorem Accounts.steps (c : Caller) (accounts : Accounts earlier ds b)
    (single : ∀ l ∈ earlier ++ lines, '\n' ∉ l.toList) :
    ∃ more b', Accounts (earlier ++ untilQuit earlier lines) (ds ++ more) b' ∧
      (∀ rest, steps c b ((untilQuit earlier lines).map .line ++ rest) = (do performAll c more; steps c b' rest)) := by
  -- What a line is taken as depends on all lines before it, so the induction is over those that are still to come.
  induction lines generalizing earlier ds b with
  | nil =>
    refine ⟨[], b, ?_, fun rest => by simp [untilQuit, performAll]⟩
    rw [untilQuit, List.append_nil, List.append_nil]
    exact accounts
  | cons line rest ih =>
    rw [untilQuit]
    split
    case isTrue => exact ⟨[], b, by simpa using accounts, fun rest => by simp [performAll]⟩
    case isFalse goes_on =>
      rw [List.append_cons] at single
      have taken := accounts.push fun l mem => single l (List.mem_append_left rest mem)
      obtain ⟨more, b', all, carried⟩ := ih taken single
      have no_quit : (b.push line).1 ≠ .command .quit := fun quits => goes_on (accounts.push_command_iff.mp quits)
      refine ⟨prompt b :: (b.push line).1.deeds ++ more, b', by simpa using all, fun later => ?_⟩
      rw [List.map_cons, List.cons_append, steps_line c no_quit, carried, performAll_append]
      simp

/-- What is done when no more lines are taken in. The open block is submitted unless it was a command that ended the
session. -/
def closing (lines : List String) (b : Block) : List Deed :=
  prompt b ::
    if untilQuit [] lines = lines then (if b.isOpen then [.submission b.text] else []) ++ [.notice "\n"] else []

theorem untilQuit_cases (earlier lines : List String) : untilQuit earlier lines = lines ∨
    ∃ line rest, lines = untilQuit earlier lines ++ line :: rest ∧ untilQuit earlier lines ≠ lines ∧
      isCommand (earlier ++ untilQuit earlier lines) line ∧ commandOf line = .quit := by
  induction lines generalizing earlier with
  | nil => exact .inl rfl
  | cons line rest ih =>
    rw [untilQuit]
    split
    case isTrue quits => exact .inr ⟨line, rest, rfl, nofun, by simpa using quits⟩
    case isFalse =>
      rcases ih (earlier ++ [line]) with all | ⟨quit, later, whole, fewer, quits⟩
      · exact .inl (congrArg _ all)
      · refine .inr ⟨quit, later, congrArg _ whole, fun same => fewer (List.cons.inj same).2, ?_⟩
        simpa using quits

theorem submissions_closing :
    submissions (closing lines b) = if untilQuit [] lines = lines ∧ b.isOpen then [b.text] else [] := by
  by_cases all : untilQuit [] lines = lines <;> by_cases isopen : b.isOpen <;>
    simp [closing, submissions, prompt, all, isopen]

theorem Accounts.whole_session (accounts : Accounts (untilQuit [] lines) ds b)
    (single : ∀ line ∈ lines, '\n' ∉ line.toList) :
    (submissions (ds ++ closing lines b)).flatMap pieces = picked isCode [] (untilQuit [] lines) := by
  rw [submissions_append, List.flatMap_append, submissions_closing, ← accounts.whole]
  by_cases isopen : b.isOpen
  · -- Where a block is open no line is a command, so it was the end of input that ended the session.
    rcases untilQuit_cases [] lines with all | ⟨line, rest, -, -, command, -⟩
    · rw [all] at accounts
      rw [if_pos ⟨all, isopen⟩, List.flatMap_singleton, accounts.pieces_text isopen single]
    · rw [List.nil_append, accounts.isCommand_eq, isopen] at command
      exact nomatch command
  · rw [if_neg fun both => isopen both.2, b.lines_of_closed isopen, List.flatMap_nil]

/-- The session takes the lines in, and ends. -/
structure Conducts (c : Caller) (lines : List String) (ds : List Deed) (b : Block) : Prop where
  accounts : Accounts (untilQuit [] lines) ds b
  /-- What is done about them does not depend on what is typed later. -/
  meanwhile : ∀ later,
    steps c .empty ((untilQuit [] lines).map .line ++ later) = (do performAll c ds; steps c b later)
  ended : steps c .empty (lines.map .line) = (do performAll c (ds ++ closing lines b); leave c succeeded)
  /-- With the block that is open at the end, no line of code is left. -/
  submitted : (submissions (ds ++ closing lines b)).flatMap pieces = picked isCode [] (untilQuit [] lines)

/-- Each line is taken as what it is by the lines alone; those of code are submitted, each once and in order. -/
theorem session_conducts (c : Caller) (lines : List String) (single : ∀ line ∈ lines, '\n' ∉ line.toList) :
    ∃ ds b, Conducts c lines ds b := by
  have all_single : ∀ line ∈ [] ++ lines, '\n' ∉ line.toList := single
  obtain ⟨ds, b, accounts, carried⟩ := accounts_nil.steps c all_single
  refine ⟨ds, b, accounts, carried, ?_, accounts.whole_session single⟩
  rcases untilQuit_cases [] lines with all | ⟨line, rest, whole, fewer, quits⟩
  · have ended := carried []
    rw [List.append_nil, all] at ended
    rw [ended, steps_ended, closing, if_pos all, performAll_append c ds, bind_assoc, List.cons_append]
  · have quits : (b.push line).1 = .command .quit := accounts.push_command_iff.mpr quits
    have ended := carried (.line line :: rest.map .line)
    rw [steps_quit c quits, ← List.map_cons, ← List.map_append, ← whole] at ended
    rw [ended, closing, if_neg fewer, performAll_append, bind_assoc]

theorem session_conducts_until_quit :
    let c : Caller := { supervisor := .ofSettings ⟨⟨.loopback, Settings.defaultPort⟩, "hearth-kernel", "hearth"⟩ }
    let lines := ["x = 1", "if x: ", "    x = 2", ":status", "", ":q", "x"]
    (∀ line ∈ lines, '\n' ∉ line.toList) ∧ ∃ ds b, Conducts c lines ds b := by
  intro c lines
  have single : ∀ line ∈ lines, '\n' ∉ line.toList := by decide
  exact ⟨single, session_conducts c lines single⟩

/-- A line opens a block although a blank is behind its colon. -/
theorem steps_trailing_blank :
    let c : Caller := { supervisor := .ofSettings ⟨⟨.loopback, Settings.defaultPort⟩, "hearth-kernel", "hearth"⟩ }
    let line := "x = 1  # one: "
    ∃ ds, steps c .empty ([line, "print(x)", ""].map .line) = (do performAll c ds; leave c succeeded) ∧
      "x = 1  # one: \nprint(x)" ∈ submissions ds ∧ line.toList.getLast? ≠ some ':' := by
  intro c line
  have opened : Block.empty.push line = (.pending, ⟨[line]⟩) := by decide
  have grown : (⟨[line]⟩ : Block).push "print(x)" = (.pending, ⟨[line, "print(x)"]⟩) := by decide
  have closed : (⟨[line, "print(x)"]⟩ : Block).push "" = (.code "x = 1  # one: \nprint(x)", .empty) := by decide
  refine ⟨[prompt .empty, prompt ⟨[line]⟩, prompt ⟨[line, "print(x)"]⟩, .submission "x = 1  # one: \nprint(x)",
    prompt .empty, .notice "\n"], ?_, List.mem_singleton.mpr rfl, by decide⟩
  simp only [List.map_cons, List.map_nil]
  rw [steps_line c (show (Block.empty.push line).1 ≠ _ by rw [opened]; nofun), opened,
    steps_line c (show (Block.push ⟨[line]⟩ "print(x)").1 ≠ _ by rw [grown]; nofun), grown,
    steps_line c (show (Block.push ⟨[line, "print(x)"]⟩ "").1 ≠ _ by rw [closed]; nofun), closed, steps_ended]
  simp [performAll, Entry.deeds]

end Session

end SnippetKernel
