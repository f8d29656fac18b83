import SnippetKernel.Proofs.Source.Literals
import SnippetKernel.Proofs.Source.Templates

/-! Placeholders that hold a name and a specification. Brackets and quotes count in the specification as they do in the
expression, so one that leaves some of them open takes the closing brace into the specification. -/
namespace SnippetKernel.Source

open Text Source.Parser Grammar

/-! ### Names -/

/-- The codes of the blank characters. -/
def blankCodes : List Nat :=
  [9, 10, 11, 12, 13, 32, 0x85, 0xA0, 0x1680, 0x2000, 0x2001, 0x2002, 0x2003, 0x2004, 0x2005, 0x2006, 0x2007, 0x2008,
    0x2009, 0x200A, 0x2028, 0x2029, 0x202F, 0x205F, 0x3000]

theorem isBlank_of_isNamePart {c : Char} (part : isNamePart c = true) : isBlank c = false := by
  have ascii : ∀ n ∈ blankCodes, n < 0x80 → isNamePart (Char.ofNat n) = false := by decide
  have beyond : (letterRanges.toList ++ numeralRanges.toList).all fun range =>
      blankCodes.all fun n => Nat.blt n range.1 || Nat.blt range.2 n := by decide +kernel
  simp only [List.all_eq_true, Bool.or_eq_true, Nat.blt_eq] at beyond
  by_contra blank
  have listed : c.toNat ∈ blankCodes := by
    simp only [isBlank, Bool.not_eq_false, Bool.or_eq_true, Bool.and_eq_true, decide_eq_true_eq, beq_iff_eq] at blank
    simp only [blankCodes, List.mem_cons, List.not_mem_nil, or_false]
    omega
  by_cases small : c.toNat < 0x80
  · have other := ascii _ listed small
    rw [Char.ofNat_toNat, part] at other
    cases other
  · have underscore : c ≠ '_' := by
      rintro rfl
      exact small (by decide)
    simp only [isNamePart, isLetter, isNumeral, small, if_false, Bool.or_eq_true, inRanges_iff, beq_iff_eq, underscore,
      false_or] at part
    obtain ⟨range, mem, inside⟩ : ∃ range ∈ letterRanges.toList ++ numeralRanges.toList,
        range.1 ≤ c.toNat ∧ c.toNat ≤ range.2 := by
      simpa only [List.mem_append, Array.mem_toList_iff, or_and_right, exists_or] using part
    have outside := beyond range mem _ listed
    omega

/-- A text that is read as a name and is no word of the language. -/
structure IsName (name : String) : Prop where
  spelled : ∃ c cs, name = String.ofList (c :: cs) ∧ isNameStart c = true ∧ cs.all isNamePart = true
  free : name ∉ keywords ∧ name ∉ reservedWords

namespace IsName

variable {name : String}

theorem parts (named : IsName name) : ∀ c ∈ name.toList, isNamePart c = true := by
  obtain ⟨c, cs, rfl, start, parts⟩ := named.spelled
  rw [String.toList_ofList]
  exact List.forall_mem_cons.2 ⟨Scan.isNamePart_of_isNameStart start, List.all_eq_true.1 parts⟩

theorem head (named : IsName name) : ∃ c, name.toList.head? = some c ∧ isNamePart c = true := by
  obtain ⟨c, cs, rfl, start, -⟩ := named.spelled
  rw [String.toList_ofList]
  exact ⟨c, rfl, Scan.isNamePart_of_isNameStart start⟩

/-- A name has no blanks at its ends. -/
theorem trim (named : IsName name) : Text.trim name = name := by
  have visible : ∀ c ∈ name.toList, isBlank c = false := fun c mem => isBlank_of_isNamePart (named.parts c mem)
  have kept := dropEnds_append (List.forall_mem_nil _) (List.forall_mem_nil _)
    (fun c mem => visible c (List.mem_of_head? mem)) (fun c mem => visible c (List.mem_of_getLast? mem))
  rw [List.nil_append, List.append_nil] at kept
  rw [Text.trim, kept, String.ofList_toList]

/-- A name is no keyword. -/
theorem ne_keyword (named : IsName name) {word : String} (listed : word ∈ keywords) : name ≠ word :=
  fun same => named.free.1 (same ▸ listed)

theorem makes (named : IsName name) {rest : List Char} (stops : Delimits rest) :
    Makes name.toList [.name name] rest := by
  obtain ⟨c, cs, rfl, start, parts⟩ := named.spelled
  rw [String.toList_ofList]
  exact .name start parts stops

theorem tokenize (named : IsName name) : tokenize name = .ok (onFirst [.name name, .newline, .eof]) := by
  obtain ⟨c, cs, rfl, start, parts⟩ := named.spelled
  have made : Makes (c :: cs) ([] ++ [.name (String.ofList (c :: cs))]) [] := .name start parts .nil
  exact tokenize_of_makes (visible_of_isNameStart start) made ⟨nofun, nofun, nofun⟩

/-- A name is an atom. -/
theorem atom (named : IsName name) {template : TemplateReader} {k : Level} {c : Cursor} {line : Nat}
    {rest : List Token} : atom template k (c.on (⟨.name name, line⟩ :: rest)) = .ok (.name name, c.on rest) := by
  obtain ⟨free, unreserved⟩ := named.free
  have none : name ≠ "None" := named.ne_keyword (by decide)
  have yes : name ≠ "True" := named.ne_keyword (by decide)
  have no : name ≠ "False" := named.ne_keyword (by decide)
  refine (bind_of_ok rfl).trans ((bind_of_ok rfl).trans ?_)
  have reserved : reservedWords.contains name = false := by simpa using unreserved
  have word : keywords.contains name = false := by simpa using free
  simp only [Cursor.on, Cursor.peek, reserved, word, Bool.false_eq_true, if_false]
  rfl

/-- A name alone in a placeholder is read as what it is, on whatever line. -/
theorem placeholder (named : IsName name) (template : TemplateReader) (line : Nat) :
    placeholder template name line = .ok (.name name) := by
  let ends : List Token := [⟨.newline, line⟩, ⟨.eof, line⟩]
  let tokens : List Token := ⟨.name name, line⟩ :: ends
  let c := Cursor.ofTokens tokens
  have closes : (c.on ends).peek ∈ closers := closes_cons (by decide) line _
  have negated : TokenKind.name name ≠ .name "not" :=
    fun same => named.ne_keyword (by decide) (TokenKind.name.inj same)
  have sign : TokenKind.name name ≠ .symbol .minus ∧ TokenKind.name name ≠ .symbol .plus := by
    constructor <;> rintro ⟨⟩
  have first : (outermost template tokens.length).expr (c.on tokens) = .ok (.name name, c.on ends) := by
    change Grammar.read template (2 * tokens.length + 1 + 1) (maxNesting - 1) .expr _ = _
    rw [Grammar.read]
    have atom {k : Level} := @IsName.atom name named template k c line ends
    exact Datum.conditional_of_atom sign negated atom closes
  have alone : (c.on ends).peek ≠ .symbol .comma := by rintro ⟨⟩
  obtain ⟨r, last⟩ := (@aloneOn_ok line (.name name) (.name name) (c.on ends)).2 ⟨rfl, .inr ⟨rfl, rfl⟩⟩
  refine placeholder_ok.2 ⟨onFirst [.name name, .newline, .eof], r, ?_, ?_⟩
  · rw [named.trim]
    exact named.tokenize
  · have same : onLine line (onFirst [.name name, .newline, .eof]) = tokens := rfl
    have whole : Cursor.ofTokens tokens = c.on tokens := rfl
    rw [same, whole]
    exact (bind_of_ok (exprList_alone first alone)).trans last

end IsName

/-! ### What is open -/

/-- What is open at a place in a placeholder: brackets, and a string with its quote. -/
structure Opened where
  depth : Nat
  quote : Option Char
  deriving DecidableEq

namespace Opened

def nothing : Opened := ⟨0, none⟩

/-- What is open behind a character that is no brace. Brackets are counted, whatever their kind, and those without
a partner do not count. -/
def next (o : Opened) (c : Char) : Opened :=
  match o.quote with
  | some q => if c = q then { o with quote := none } else o
  | none =>
    if c = '\'' ∨ c = '"' then { o with quote := some c }
    else if c = '(' ∨ c = '[' then { o with depth := o.depth + 1 }
    else if c = ')' ∨ c = ']' then { o with depth := o.depth - 1 }
    else o

end Opened

/-- What a specification leaves open. -/
def leftOpen (spec : String) : Opened := spec.toList.foldl Opened.next .nothing

/-- A text without braces. -/
def Braceless (text : String) : Prop := ∀ c ∈ text.toList, c ≠ '\x7b' ∧ c ≠ '\x7d'

instance (text : String) : Decidable (Braceless text) :=
  decidable_of_iff (text.toList.all fun c => c ≠ '\x7b' ∧ c ≠ '\x7d') (by simp [Braceless])

/-- The conversion to the quoted form, if it is wanted. -/
def conversionText (quote : Bool) : String := if quote then "!r" else ""

/-- A placeholder: an expression, perhaps with `!r`, and a specification. -/
def placeholderText (source : String) (quote : Bool) (spec : String) : String :=
  "\x7b" ++ source ++ conversionText quote ++ ":" ++ spec ++ "\x7d"

theorem toList_placeholderText (source : String) (quote : Bool) (spec : String) :
    (placeholderText source quote spec).toList =
      '\x7b' :: (source.toList ++ ((conversionText quote).toList ++ ':' :: (spec.toList ++ ['\x7d']))) := by
  simp [placeholderText]

namespace Placeholder

variable {source spec : List Char} {conversion : Option (List Char)} {o : Opened}

/-- A character of a specification belongs to it, whatever is open. -/
theorem read?_spec {c : Char} (plain : c ≠ '\x7b' ∧ c ≠ '\x7d') (rest : List Char) :
    read? ⟨source, conversion, some spec⟩ o.depth o.quote (c :: rest) =
      read? ⟨source, conversion, some (c :: spec)⟩ (o.next c).depth (o.next c).quote rest := by
  obtain ⟨depth, quote⟩ := o
  cases quote with
  | some q => by_cases closed : c = q <;> simp [read?, Opened.next, push, closed]
  | none =>
    simp only [read?, Opened.next, push, plain, or_false, if_false, Option.isNone_some, Bool.false_eq_true, false_and,
      and_false]
    split_ifs <;> rfl

theorem read?_specs {cs : List Char} (plain : ∀ c ∈ cs, c ≠ '\x7b' ∧ c ≠ '\x7d') (rest : List Char) :
    read? ⟨source, conversion, some spec⟩ o.depth o.quote (cs ++ rest) =
      read? ⟨source, conversion, some (cs.reverse ++ spec)⟩ (cs.foldl Opened.next o).depth
        (cs.foldl Opened.next o).quote rest := by
  induction cs generalizing o spec with
  | nil => rfl
  | cons c cs ih =>
    rw [List.forall_mem_cons] at plain
    rw [List.cons_append, read?_spec plain.1, ih plain.2, List.reverse_cons, List.append_assoc]
    rfl

/-- The last brace closes a placeholder only if nothing else is open. -/
theorem read?_closing (p : Placeholder) :
    p.read? o.depth o.quote ['\x7d'] = if o = .nothing then some (p, []) else none := by
  obtain ⟨depth, quote⟩ := o
  cases quote with
  | some q => simp [read?, Opened.nothing]
  | none =>
    by_cases zero : depth = 0
    · subst zero
      rfl
    · simp [read?, Opened.nothing, zero]

/-- The characters that are more than themselves in a placeholder. -/
def marks : List Char := ['\'', '"', '(', '[', '\x7b', ')', ']', '\x7d', '!', ':']

/-- A name belongs to the expression. -/
theorem read?_name {cs : List Char} (parts : ∀ c ∈ cs, isNamePart c = true) (rest : List Char) :
    read? ⟨source, none, none⟩ 0 none (cs ++ rest) = read? ⟨cs.reverse ++ source, none, none⟩ 0 none rest := by
  induction cs generalizing source with
  | nil => rfl
  | cons c cs ih =>
    rw [List.forall_mem_cons] at parts
    have none : marks.any isNamePart = false := by decide
    have other : ∀ d ∈ marks, c ≠ d :=
      fun d mem => ne_of_holds parts.1 (Bool.eq_false_iff.2 (List.any_eq_false.1 none d mem))
    simp only [marks, List.forall_mem_cons] at other
    rw [List.cons_append, read?]
    simp only [other, or_self, if_false, false_and, push]
    rw [ih parts.2, List.reverse_cons, List.append_assoc]
    rfl

/-- A name, perhaps with `!r`, and a specification are the parts of a placeholder if nothing stays open. -/
theorem read?_parts {name spec : String} (named : IsName name) (plain : Braceless spec) (quote : Bool) :
    read? ⟨[], none, none⟩ 0 none
        (name.toList ++ ((conversionText quote).toList ++ ':' :: (spec.toList ++ ['\x7d']))) =
      if leftOpen spec = .nothing then
        some (⟨name.toList.reverse, if quote then some ['r'] else none, some spec.toList.reverse⟩, [])
      else none := by
  have colon (conversion : Option (List Char)) (rest : List Char) :
      read? ⟨name.toList.reverse, conversion, none⟩ 0 none (':' :: rest) =
        read? ⟨name.toList.reverse, conversion, some []⟩ 0 none rest := rfl
  have converted : read? ⟨name.toList.reverse, none, none⟩ 0 none
      ((conversionText quote).toList ++ ':' :: (spec.toList ++ ['\x7d'])) =
        read? ⟨name.toList.reverse, if quote then some ['r'] else none, some []⟩ 0 none (spec.toList ++ ['\x7d']) := by
    cases quote with
    | true => rfl
    | false => exact colon none _
  have specified := @read?_specs name.toList.reverse [] (if quote then some ['r'] else none) .nothing _ plain ['\x7d']
  rw [read?_name named.parts, List.append_nil, converted]
  refine specified.trans ?_
  rw [List.append_nil]
  exact read?_closing _

theorem part_name {name spec : String} (named : IsName name) (quote : Bool) (template : TemplateReader) (line : Nat) :
    part (Grammar.placeholder template) line
        ⟨name.toList.reverse, if quote then some ['r'] else none, some spec.toList.reverse⟩ =
      .ok (.value (.name name) quote (some spec)) := by
  have visible : name.toList.all isBlank = false := by
    obtain ⟨c, first, part⟩ := named.head
    exact List.all_eq_false.2 ⟨c, List.mem_of_head? first, by simp [isBlank_of_isNamePart part]⟩
  have wanted : wantsQuotes ⟨name.toList.reverse, if quote then some ['r'] else none, some spec.toList.reverse⟩ line =
      .ok quote := by cases quote <;> rfl
  unfold part
  simp only [List.reverse_reverse, visible, wanted, named.placeholder, Option.map_some, String.ofList_toList]
  rfl

end Placeholder

section

variable {parse : String → Nat → Except SyntaxError Expr} {line : Nat} {cs : List Char}

/-- A template that is one placeholder. -/
theorem readTemplate_placeholder {p : Placeholder} {part : TemplatePart} (single : cs.head? ≠ some '\x7b')
    (found : Placeholder.read? ⟨[], none, none⟩ 0 none cs = some (p, [])) (read : p.part parse line = .ok part) :
    readTemplate parse line [] [] ('\x7b' :: cs) = .ok [part] := by
  rw [readTemplate]
  · split
    · next none => cases none.symm.trans found
    · next q after found' =>
      obtain ⟨rfl, rfl⟩ := Prod.mk.inj (Option.some.inj (found'.symm.trans found))
      rw [read]
      simp only [readTemplate]
      rfl
  · rintro rest rfl
    exact single rfl

theorem readTemplate_unclosed (single : cs.head? ≠ some '\x7b')
    (none : Placeholder.read? ⟨[], none, none⟩ 0 none cs = none) :
    readTemplate parse line [] [] ('\x7b' :: cs) = .error ⟨"f-string: expecting '\x7d'", line⟩ := by
  rw [readTemplate]
  · split
    · rfl
    · next found => cases none.symm.trans found
  · rintro rest rfl
    exact single rfl

end

/-- A placeholder with a name is read as what it says, as long as the specification leaves nothing open. -/
theorem template_placeholder {name spec : String} (named : IsName name) (plain : Braceless spec) (quote : Bool)
    (n line : Nat) : template (n + 1) (placeholderText name quote spec) line =
      if leftOpen spec = .nothing then .ok [.value (.name name) quote (some spec)]
      else .error ⟨"f-string: expecting '\x7d'", line⟩ := by
  have single : (name.toList ++ ((conversionText quote).toList ++ ':' :: (spec.toList ++ ['\x7d']))).head? ≠
      some '\x7b' := by
    obtain ⟨c, first, part⟩ := named.head
    rw [List.head?_append, first]
    rintro ⟨⟩
    exact absurd part (by decide)
  have found := Placeholder.read?_parts named plain quote
  change readTemplate (Grammar.placeholder (template n)) line [] [] (placeholderText name quote spec).toList = _
  rw [toList_placeholderText]
  split
  · next closed =>
    rw [if_pos closed] at found
    exact readTemplate_placeholder single found (Placeholder.part_name named quote _ line)
  · next left =>
    rw [if_neg left] at found
    exact readTemplate_unclosed single found

end SnippetKernel.Source
