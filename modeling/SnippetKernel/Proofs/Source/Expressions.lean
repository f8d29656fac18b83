import SnippetKernel.Proofs.Source.Reading
import SnippetKernel.Source.Parser

/-! Every rule for expressions is like itself, if what it takes from other levels and from templates is. So is every
rule for a statement without a block, and for what stands before a block. -/
namespace SnippetKernel.Source

open Source.Parser Grammar

variable {α β : Type} {i j : Nat} {kind : TokenKind} {k k' : Level} {template template' : TemplateReader}
  {Q : ∀ {α : Type}, Nat → Nat → Parser α → Parser α → Prop}
  {At : ∀ {α : Type}, TokenKind → Nat → Nat → Parser α → Parser α → Prop} {Lines : Nat → Nat → Prop}

/-- The brackets that were opened before the entry and are closed by what is read there. -/
def Grammar.Entry.opened : Entry → Nat
  | .bracket _ => 1
  | _ => 0

/-- What one level takes from others is alike too. -/
structure Parser.Likeness.Levels (Q : ∀ {α : Type}, Nat → Nat → Parser α → Parser α → Prop)
    (At : ∀ {α : Type}, TokenKind → Nat → Nat → Parser α → Parser α → Prop) (Lines : Nat → Nat → Prop)
    (k k' : Level) : Prop extends Parser.Likeness Q At Lines where
  deeper (entry : Entry) : Q entry.opened 0 (k.deeper entry) (k'.deeper entry)
  here (entry : Entry) : Q entry.opened 0 (k.here entry) (k'.here entry)

/-- What two readers of templates give is alike too. -/
structure Parser.Likeness.Templates (Q : ∀ {α : Type}, Nat → Nat → Parser α → Parser α → Prop)
    (At : ∀ {α : Type}, TokenKind → Nat → Nat → Parser α → Parser α → Prop) (Lines : Nat → Nat → Prop)
    (template template' : TemplateReader) : Prop extends Parser.Likeness Q At Lines where
  body {α : Type} {i : Nat} (body : String) {line line' : Nat} (lines : Lines line line')
    {f f' : List TemplatePart → Parser α} : (∀ parts, Q i i (f parts) (f' parts)) →
      At (.template body) i i
        (Parser.skip >>= fun _ =>
          match template body line with
          | .ok parts => f parts
          | .error e => throw e)
        (Parser.skip >>= fun _ =>
          match template' body line' with
          | .ok parts => f' parts
          | .error e => throw e)

namespace Grammar

section

variable (like : Parser.Likeness Q At Lines)

include like

theorem alike_chainStep (count : Nat) : Q i i (chainStep count) (chainStep count) := by
  unfold chainStep
  split
  · exact like.fail _
  · exact like.done _

theorem alikeAt_chainStep (count : Nat) {f f' : Unit → Parser α} (next : At kind i j (f ()) (f' ())) :
    At kind i j (chainStep count >>= f) (chainStep count >>= f') := by
  unfold chainStep
  split
  · exact like.anywhere (like.fail _) kind
  · exact next

theorem alike_chain {operand operand' : Parser Expr} (operands : Q i i operand operand')
    {next next' : Parser (Option (Expr → Expr → Expr))} (nexts : Q i i next next') :
    Q i i (chain operand next) (chain operand' next') := by
  unfold chain
  refine like.andThen operands fun first => like.repeatFrom (fun state => ?_) _
  obtain ⟨left, count⟩ := state
  refine like.andThen nexts fun join => ?_
  cases join with
  | none => exact like.done _
  | some join =>
    exact like.andThen (alike_chainStep like count) fun _ => like.andThen operands fun _ => like.done _

theorem alike_eatOneOf {α : Type} (symbols : List (Symbol × α))
    (plain : ∀ entry ∈ symbols, (TokenKind.symbol entry.1).Moves i i) :
    Q i i (eatOneOf symbols) (eatOneOf symbols) := by
  induction symbols with
  | nil => exact like.done _
  | cons entry rest ih =>
    rw [List.forall_mem_cons] at plain
    exact like.eat rfl plain.1 (like.done _) (ih plain.2)

theorem alike_atListEnd : Q i i atListEnd atListEnd := by
  unfold atListEnd
  refine like.peek fun kind => like.anywhere ?_ kind
  split <;> exact like.done _

theorem alike_atSimpleEnd : Q i i atSimpleEnd atSimpleEnd := by
  unfold atSimpleEnd
  refine like.peek fun kind => like.anywhere ?_ kind
  split <;> exact like.done _

theorem alike_moreItems {item item' : Parser α} (items : Q i i item item') {atEnd atEnd' : Parser Bool}
    (ends : Q i i atEnd atEnd') (first : List α) :
    Q i i (moreItems item atEnd first) (moreItems item' atEnd' first) := by
  unfold moreItems
  refine like.repeatFrom (fun done => ?_) _
  refine like.eat rfl (fun _ => rfl) (like.andThen ends fun ended => ?_) (like.done _)
  cases ended with
  | true => exact like.done _
  | false => exact like.andThen items fun _ => like.done _

theorem alike_asTarget (e : Expr) : Q i i (asTarget e) (asTarget e) := by
  unfold asTarget
  split
  · exact like.done _
  · exact like.fail _

theorem alike_orNothing {stop stop' : Parser Bool} (stops : Q i i stop stop') {read read' : Parser α}
    (reads : Q i i read read') : Q i i (orNothing stop read) (orNothing stop' read') := by
  unfold orNothing
  refine like.andThen stops fun stopped => ?_
  cases stopped with
  | true => exact like.done _
  | false => exact like.andThen reads fun _ => like.done _

theorem alike_atBoundEnd : Q i i atBoundEnd atBoundEnd :=
  like.check _ fun _ => like.check _ fun _ => like.done _

theorem alike_atKeyword : Q i i atKeyword atKeyword := by
  unfold atKeyword
  refine like.peek fun kind => ?_
  split
  · exact like.peekSecond rfl fun second => like.anywhere (like.done _) _
  · exact like.anywhere (like.done _) _

theorem alike_attributeName : Q i i attributeName attributeName := by
  unfold attributeName
  refine like.peek fun kind => ?_
  split
  · exact like.skip rfl (fun _ => rfl) (like.done _)
  · exact like.refuse _ _

theorem alike_binaryOf (ops : List (Symbol × BinaryOp))
    (plain : ∀ entry ∈ ops, (TokenKind.symbol entry.1).Moves i i) : Q i i (binaryOf ops) (binaryOf ops) :=
  like.andThen (alike_eatOneOf like ops plain) fun _ => like.done _

theorem alike_compareOp : Q i i compareOp compareOp := by
  unfold compareOp
  refine like.peek fun kind => ?_
  split
  · exact like.skip rfl (fun _ => rfl) (like.done _)
  · exact like.skip rfl (fun _ => rfl) (like.done _)
  · exact like.skip rfl (fun _ => rfl) (like.done _)
  · exact like.skip rfl (fun _ => rfl) (like.done _)
  · exact like.skip rfl (fun _ => rfl) (like.done _)
  · exact like.skip rfl (fun _ => rfl) (like.done _)
  · exact like.skip rfl (fun _ => rfl) (like.done _)
  · exact like.skip rfl (fun _ => rfl) (like.eat rfl (fun _ => rfl) (like.done _) (like.done _))
  · refine like.peekSecond rfl fun second => ?_
    split
    · exact like.skip rfl (fun _ => rfl) (like.andThen (like.expectWord _) fun _ => like.done _)
    · exact like.anywhere (like.done _) _
  · exact like.anywhere (like.done _) _

theorem alike_joinWord (word : String) (join : Expr → Expr → Expr) :
    Q i i (joinWord word join) (joinWord word join) :=
  like.eat rfl (fun _ => rfl) (like.done _) (like.done _)

end

/-! Rules that take expressions from other levels. -/

section

variable (levels : Parser.Likeness.Levels Q At Lines k k')

include levels

theorem alike_deeper {entry : Entry} (plain : entry.opened = 0) :
    Q i i (k.deeper entry) (k'.deeper entry) := by
  have alike := levels.inside (levels.deeper entry) i
  rw [plain, Nat.zero_add] at alike
  exact alike

theorem alike_here {entry : Entry} (plain : entry.opened = 0) : Q i i (k.here entry) (k'.here entry) := by
  have alike := levels.inside (levels.here entry) i
  rw [plain, Nat.zero_add] at alike
  exact alike

theorem alike_bracket (s : Symbol) : Q (i + 1) i (k.deeper (.bracket s)) (k'.deeper (.bracket s)) := by
  have alike := levels.inside (levels.deeper (.bracket s)) i
  rw [Nat.zero_add, Nat.add_comm] at alike
  exact alike

theorem alike_expr : Q i i k.expr k'.expr := alike_deeper levels rfl

theorem alike_exprList : Q i i (exprList k) (exprList k') := by
  have like := levels.toLikeness
  unfold exprList
  refine like.andThen (alike_expr levels) fun first => like.check _ fun comma => ?_
  cases comma with
  | true =>
    exact like.andThen (alike_moreItems like (alike_expr levels) (alike_atListEnd like) _) fun _ => like.done _
  | false => exact like.done _

theorem alike_sliceStep : Q i i (sliceStep k) (sliceStep k') :=
  levels.eat rfl (fun _ => rfl)
    (alike_orNothing levels.toLikeness (levels.checked _) (alike_expr levels)) (levels.done _)

theorem alike_subscript : Q i i (subscript k) (subscript k') := by
  have like := levels.toLikeness
  have slice (start : Option Expr) : Q i i (do
      expectSymbol .colon
      let stop ← orNothing atBoundEnd k.expr
      let step ← sliceStep k
      return Expr.slice start stop step) (do
      expectSymbol .colon
      let stop ← orNothing atBoundEnd k'.expr
      let step ← sliceStep k'
      return Expr.slice start stop step) := by
    refine like.andThen (like.expectSymbol fun _ => rfl) fun _ => ?_
    refine like.andThen (alike_orNothing like (alike_atBoundEnd like) (alike_expr levels)) fun _ => ?_
    exact like.andThen (alike_sliceStep levels) fun _ => like.done _
  unfold subscript
  refine like.andThen (alike_orNothing like (like.checked _) (alike_exprList levels)) fun start => ?_
  refine like.check _ fun colon => ?_
  cases start with
  | none => exact slice none
  | some e =>
    cases colon with
    | true => exact slice (some e)
    | false => exact like.done e

theorem alike_targetList : Q i i (targetList k) (targetList k') := by
  have like := levels.toLikeness
  have item : Q i i (k.here .postfixed >>= asTarget) (k'.here .postfixed >>= asTarget) :=
    like.andThen (alike_here levels rfl) (alike_asTarget like)
  unfold targetList
  refine like.andThen (alike_here levels rfl) fun e => like.andThen (alike_asTarget like e) fun first => ?_
  refine like.check _ fun comma => ?_
  exact like.andThen (alike_moreItems like item (like.checked _) _) fun _ => like.done _

theorem alike_filter : Q i i (filter k) (filter k') :=
  levels.eat rfl (fun _ => rfl) (levels.andThen (alike_here levels rfl) fun _ => levels.done _) (levels.done _)

theorem alike_comprehensionTail (element : Expr) :
    Q i i (comprehensionTail k element) (comprehensionTail k' element) := by
  have like := levels.toLikeness
  unfold comprehensionTail
  refine like.andThen (like.expectWord _) fun _ => like.andThen (alike_targetList levels) fun _ => ?_
  refine like.andThen (like.expectWord _) fun _ => like.andThen (alike_here levels rfl) fun _ => ?_
  refine like.andThen (alike_filter levels) fun _ => like.check _ fun again => ?_
  cases again with
  | true => exact like.fail _
  | false => exact like.done _

theorem alike_keywordArgument (taken : Arguments) :
    Q i i (keywordArgument k taken) (keywordArgument k' taken) := by
  have like := levels.toLikeness
  unfold keywordArgument
  refine like.andThen like.expectName fun name => like.andThen (like.expectSymbol fun _ => rfl) fun _ => ?_
  split
  · exact like.fail _
  · exact like.andThen (alike_expr levels) fun _ => like.done _

theorem alike_positionalArgument (taken : Arguments) :
    Q i i (positionalArgument k taken) (positionalArgument k' taken) := by
  have like := levels.toLikeness
  unfold positionalArgument
  split
  · refine like.andThen (alike_expr levels) fun arg => like.check _ fun comprehension => ?_
    cases comprehension with
    | true => exact like.andThen (alike_comprehensionTail levels arg) fun _ => like.done _
    | false => exact like.done _
  · exact like.fail _

theorem alike_argument (taken : Arguments) : Q i i (argument k taken) (argument k' taken) := by
  unfold argument
  refine levels.andThen (alike_atKeyword levels.toLikeness) fun keyword => ?_
  cases keyword with
  | true => exact alike_keywordArgument levels taken
  | false => exact alike_positionalArgument levels taken

theorem alike_arguments : Q (i + 1) i (arguments k) (arguments k') := by
  have like := levels.toLikeness
  unfold arguments
  refine like.andThen (j := i + 1) (like.repeatFrom (fun taken => ?_) _) fun taken => ?_
  · refine like.check _ fun closed => ?_
    cases closed with
    | true => exact like.done _
    | false =>
      refine like.andThen (alike_argument levels taken) fun _ => ?_
      exact like.eat rfl (fun _ => rfl) (like.done _) (like.done _)
  · exact like.andThen (like.expectSymbol fun _ => rfl) fun _ => like.done _

/-! What follows an opening bracket closes it. -/

theorem alike_parenTail : Q (i + 1) i (parenTail k) (parenTail k') := by
  have like := levels.toLikeness
  unfold parenTail
  refine like.eat rfl (fun _ => rfl) (like.done _) ?_
  refine like.andThen (alike_expr levels) fun first => like.check _ fun comprehension => ?_
  cases comprehension with
  | true =>
    refine like.andThen (alike_comprehensionTail levels first) fun all => ?_
    exact like.andThen (like.expectSymbol fun _ => rfl) fun _ => like.done _
  | false =>
    refine like.eat rfl (fun _ => rfl) (like.done _) ?_
    refine like.andThen (alike_moreItems like (alike_expr levels) (like.checked _) _) fun items => ?_
    exact like.andThen (like.expectSymbol fun _ => rfl) fun _ => like.done _

theorem alike_listTail : Q (i + 1) i (listTail k) (listTail k') := by
  have like := levels.toLikeness
  unfold listTail
  refine like.eat rfl (fun _ => rfl) (like.done _) ?_
  refine like.andThen (alike_expr levels) fun first => like.check _ fun comprehension => ?_
  cases comprehension with
  | true =>
    refine like.andThen (alike_comprehensionTail levels first) fun all => ?_
    exact like.andThen (like.expectSymbol fun _ => rfl) fun _ => like.done _
  | false =>
    refine like.andThen (alike_moreItems like (alike_expr levels) (like.checked _) _) fun items => ?_
    exact like.andThen (like.expectSymbol fun _ => rfl) fun _ => like.done _

theorem alike_dictTail : Q (i + 1) i (dictTail k) (dictTail k') := by
  have like := levels.toLikeness
  unfold dictTail
  refine like.andThen (j := i + 1) (like.repeatFrom (fun done => ?_) _) fun entries => ?_
  · refine like.check _ fun closed => ?_
    cases closed with
    | true => exact like.done _
    | false =>
      refine like.andThen (alike_expr levels) fun key => like.eat rfl (fun _ => rfl) ?_ (like.fail _)
      refine like.andThen (alike_expr levels) fun _ => ?_
      exact like.eat rfl (fun _ => rfl) (like.done _) (like.done _)
  · exact like.andThen (like.expectSymbol fun _ => rfl) fun _ => like.done _

theorem alike_bracketTail (s : Symbol) : Q (i + 1) i (bracketTail k s) (bracketTail k' s) := by
  unfold bracketTail
  split
  · exact alike_parenTail levels
  · exact alike_listTail levels
  · exact alike_dictTail levels

end

/-! Rules that read templates. -/

variable (templates : Parser.Likeness.Templates Q At Lines template template')

include templates

theorem alike_adjacentStrings {line line' : Nat} (lines : Lines line line') (text : String)
    (parts : Option (List TemplatePart)) :
    Q i i (adjacentStrings template line text parts) (adjacentStrings template' line' text parts) := by
  have like := templates.toLikeness
  unfold adjacentStrings
  refine like.repeatFrom (fun state => ?_) _
  obtain ⟨text, parts⟩ := state
  refine like.peek fun kind => ?_
  split
  · refine like.skip rfl (fun _ => rfl) ?_
    cases parts <;> exact like.done _
  · exact templates.body _ lines fun _ => like.done _
  · cases parts <;> exact like.anywhere (like.done _) _

variable (levels : Parser.Likeness.Levels Q At Lines k k')

include levels

theorem alike_atom : Q i i (atom template k) (atom template' k') := by
  have like := levels.toLikeness
  unfold atom
  refine like.line fun line line' lines => like.peek fun kind => ?_
  split
  · exact like.skip rfl (fun _ => rfl) (like.done _)
  · exact like.skip rfl (fun _ => rfl) (like.done _)
  · exact like.skip rfl (fun _ => rfl) (alike_adjacentStrings templates lines _ _)
  · exact like.anywhere (alike_adjacentStrings templates lines _ _) _
  · exact like.skip rfl (fun _ => rfl) (like.done _)
  · exact like.skip rfl (fun _ => rfl) (like.done _)
  · exact like.skip rfl (fun _ => rfl) (like.done _)
  · split
    · exact like.skip rfl (fun _ => rfl) (like.fail _)
    · split
      · exact like.anywhere like.unexpected _
      · exact like.skip rfl (fun _ => rfl) (like.done _)
  · next s =>
    split
    · next opens =>
      have moves : (TokenKind.symbol s).Moves i (i + 1) := by
        intro depth
        simp only [TokenKind.depth, opens, if_true]
        omega
      exact like.skip rfl moves (alike_bracket levels s)
    · exact like.anywhere like.unexpected _
  · exact like.anywhere like.unexpected _

theorem alike_postfixed : Q i i (postfixed template k) (postfixed template' k') := by
  have like := levels.toLikeness
  unfold postfixed
  refine like.andThen (alike_atom templates levels) fun first => like.repeatFrom (fun state => ?_) _
  obtain ⟨object, count⟩ := state
  refine like.peek fun kind => ?_
  split
  · refine alikeAt_chainStep like count (like.skip (j := i + 1) rfl (fun _ => rfl) ?_)
    exact like.andThen (alike_arguments levels) fun _ => like.done _
  · refine alikeAt_chainStep like count (like.skip (j := i + 1) rfl (fun _ => rfl) ?_)
    refine like.andThen (alike_subscript levels) fun _ => ?_
    exact like.andThen (like.expectSymbol fun _ => rfl) fun _ => like.done _
  · refine alikeAt_chainStep like count (like.skip rfl (fun _ => rfl) ?_)
    exact like.andThen (alike_attributeName like) fun _ => like.done _
  · exact like.anywhere (like.done _) _

theorem alike_power : Q i i (power template k) (power template' k') := by
  unfold power
  refine levels.andThen (alike_postfixed templates levels) fun base => ?_
  exact levels.eat rfl (fun _ => rfl)
    (levels.andThen (alike_deeper levels rfl) fun _ => levels.done _) (levels.done _)

theorem alike_factor : Q i i (factor template k) (factor template' k') := by
  have operand (f : Expr → Expr) :
      Q i i (k.deeper .factor >>= fun e => pure (f e)) (k'.deeper .factor >>= fun e => pure (f e)) :=
    levels.andThen (alike_deeper levels rfl) fun _ => levels.done _
  exact levels.eat rfl (fun _ => rfl) (operand _)
    (levels.eat rfl (fun _ => rfl) (operand _) (alike_power templates levels))

theorem alike_term : Q i i (term template k) (term template' k') := by
  have like := levels.toLikeness
  refine alike_chain like (alike_factor templates levels) (alike_binaryOf like _ ?_)
  simp only [List.forall_mem_cons]
  exact ⟨fun _ => rfl, fun _ => rfl, fun _ => rfl, fun _ => rfl, fun _ none => absurd none List.not_mem_nil⟩

theorem alike_arith : Q i i (arith template k) (arith template' k') := by
  have like := levels.toLikeness
  refine alike_chain like (alike_term templates levels) (alike_binaryOf like _ ?_)
  simp only [List.forall_mem_cons]
  exact ⟨fun _ => rfl, fun _ => rfl, fun _ none => absurd none List.not_mem_nil⟩

theorem alike_comparison : Q i i (comparison template k) (comparison template' k') := by
  have like := levels.toLikeness
  unfold comparison
  refine like.andThen (alike_arith templates levels) fun first => ?_
  refine like.andThen (like.repeatFrom (fun done => ?_) _) fun _ => like.done _
  refine like.andThen (alike_compareOp like) fun op => ?_
  cases op with
  | none => exact like.done _
  | some op => exact like.andThen (alike_arith templates levels) fun _ => like.done _

theorem alike_negation : Q i i (negation template k) (negation template' k') :=
  levels.eat rfl (fun _ => rfl) (levels.andThen (alike_deeper levels rfl) fun _ => levels.done _)
    (alike_comparison templates levels)

theorem alike_andTest : Q i i (andTest template k) (andTest template' k') :=
  alike_chain levels.toLikeness (alike_negation templates levels) (alike_joinWord levels.toLikeness _ _)

theorem alike_orTest : Q i i (orTest template k) (orTest template' k') :=
  alike_chain levels.toLikeness (alike_andTest templates levels) (alike_joinWord levels.toLikeness _ _)

theorem alike_conditional : Q i i (conditional template k) (conditional template' k') := by
  have like := levels.toLikeness
  unfold conditional
  refine like.andThen (alike_orTest templates levels) fun yes => ?_
  refine like.eat rfl (fun _ => rfl) ?_ (like.done _)
  refine like.andThen (alike_orTest templates levels) fun cond => like.andThen (like.expectWord _) fun _ => ?_
  exact like.andThen (alike_expr levels) fun _ => like.done _

omit levels

omit templates in
theorem levels_levelWith (like : Parser.Likeness Q At Lines) {read read' : Nat → Entry → Parser Expr}
    (reads : ∀ room entry, Q entry.opened 0 (read room entry) (read' room entry)) (room : Nat) :
    Parser.Likeness.Levels Q At Lines (levelWith read room) (levelWith read' room) where
  toLikeness := like
  deeper entry := by
    cases room with
    | zero => exact like.fail _
    | succ room => exact reads room entry
  here entry := reads room entry

/-- One level of the grammar, if the levels below it are alike. -/
theorem alike_read {fuel fuel' : Nat}
    (below : ∀ room entry,
      Q (Entry.opened entry) 0 (read template fuel room entry) (read template' fuel' room entry))
    (room : Nat) (entry : Entry) :
    Q entry.opened 0 (read template (fuel + 1) room entry) (read template' (fuel' + 1) room entry) := by
  have levels := levels_levelWith templates.toLikeness below room
  simp only [read]
  cases entry with
  | expr => exact alike_conditional templates levels
  | negated => exact alike_negation templates levels
  | factor => exact alike_factor templates levels
  | bracket s => exact alike_bracketTail levels s
  | operand => exact alike_orTest templates levels
  | postfixed => exact alike_postfixed templates levels

end Grammar

end SnippetKernel.Source

/-! ### Statements without a block -/
namespace SnippetKernel.Source

open Source.Parser Grammar

namespace Statement

variable {i : Nat} {k k' : Level} {Q : ∀ {α : Type}, Nat → Nat → Parser α → Parser α → Prop}
  {At : ∀ {α : Type}, TokenKind → Nat → Nat → Parser α → Parser α → Prop} {Lines : Nat → Nat → Prop}

section

variable (like : Parser.Likeness Q At Lines)

include like

theorem alike_moreNames (first : String) : Q i i (moreNames first) (moreNames first) :=
  alike_moreItems like like.expectName (like.done _) _

theorem alike_dottedName : Q i i dottedName dottedName := by
  unfold dottedName
  refine like.andThen like.expectName fun first => like.repeatFrom (fun name => ?_) _
  exact like.eat rfl (fun _ => rfl) (like.andThen like.expectName fun _ => like.done _) (like.done _)

theorem alike_asName : Q i i asName asName :=
  like.eat rfl (fun _ => rfl) (like.andThen like.expectName fun _ => like.done _) (like.done _)

theorem alike_loadItem : Q i i loadItem loadItem :=
  like.andThen (alike_dottedName like) fun _ => like.andThen (alike_asName like) fun _ => like.done _

theorem alike_asTargets (es : List Expr) : Q i i (asTargets es) (asTargets es) := by
  induction es with
  | nil => exact like.done _
  | cons e es ih => exact like.andThen (alike_asTarget like e) fun _ => like.andThen ih fun _ => like.done _

end

theorem augmented_word {kind : TokenKind} {op : BinaryOp} (h : augmented? kind = some op) :
    kind.isLayout = false ∧ kind.Moves i i := by
  unfold augmented? at h
  split at h
  case h_8 => cases h
  all_goals exact ⟨rfl, fun _ => rfl⟩

variable (levels : Parser.Likeness.Levels Q At Lines k k')

include levels

theorem alike_augmented (target : Expr) (op : BinaryOp) :
    Q i i (augmented k target op) (augmented k' target op) := by
  unfold augmented
  refine levels.andThen (alike_asTarget levels.toLikeness target) fun target => ?_
  split
  · exact levels.fail _
  · exact levels.andThen (alike_exprList levels) fun _ => levels.done _

theorem alike_assigned (first : Expr) : Q i i (assigned k first) (assigned k' first) := by
  unfold assigned
  refine levels.andThen (levels.repeatFrom (fun state => ?_) _) fun exprs =>
    levels.andThen (alike_asTargets levels.toLikeness _) fun _ => levels.done _
  exact levels.eat rfl (fun _ => rfl) (levels.andThen (alike_exprList levels) fun _ => levels.done _)
    (levels.done _)

theorem alike_fromExpr : Q i i (fromExpr k) (fromExpr k') := by
  unfold fromExpr
  refine levels.andThen (alike_exprList levels) fun first => levels.peek fun kind => ?_
  split
  · next op found =>
    obtain ⟨word, moves⟩ := augmented_word found
    exact levels.skip word moves (alike_augmented levels first op)
  · refine levels.anywhere (levels.check _ fun assign => ?_) _
    cases assign with
    | true => exact alike_assigned levels first
    | false => exact levels.done _

theorem alike_simple (s : Surroundings) : Q i i (simple k s) (simple k' s) := by
  have like := levels.toLikeness
  unfold simple
  refine like.peek fun kind => ?_
  split
  · exact like.skip rfl (fun _ => rfl) (like.done _)
  · split
    · exact like.skip rfl (fun _ => rfl) (like.done _)
    · exact like.anywhere (like.fail _) _
  · split
    · exact like.skip rfl (fun _ => rfl) (like.done _)
    · exact like.anywhere (like.fail _) _
  · split
    · refine like.skip rfl (fun _ => rfl) (like.andThen ?_ fun _ => like.done _)
      exact alike_orNothing like (alike_atSimpleEnd like) (alike_exprList levels)
    · exact like.anywhere (like.fail _) _
  · refine like.skip rfl (fun _ => rfl) (like.andThen ?_ fun _ => like.done _)
    exact alike_orNothing like (alike_atSimpleEnd like) (alike_expr levels)
  · refine like.skip rfl (fun _ => rfl) (like.andThen (alike_expr levels) fun cond => ?_)
    exact like.eat rfl (fun _ => rfl) (like.andThen (alike_expr levels) fun _ => like.done _) (like.done _)
  · have item : Q i i (k.expr >>= asTarget) (k'.expr >>= asTarget) :=
      like.andThen (alike_expr levels) (alike_asTarget like)
    refine like.skip rfl (fun _ => rfl) (like.andThen item fun first => ?_)
    exact like.andThen (alike_moreItems like item (like.done _) _) fun _ => like.done _
  · refine like.skip rfl (fun _ => rfl) (like.andThen like.expectName fun first => ?_)
    exact like.andThen (alike_moreNames like _) fun _ => like.done _
  · refine like.skip rfl (fun _ => rfl) (like.andThen (alike_loadItem like) fun first => ?_)
    exact like.andThen (alike_moreItems like (alike_loadItem like) (like.done _) _) fun _ => like.done _
  · exact like.anywhere (alike_fromExpr levels) _

theorem alike_parameterDefault (done : List Param) :
    Q i i (parameterDefault k done) (parameterDefault k' done) := by
  refine levels.eat rfl (fun _ => rfl) (levels.andThen (alike_expr levels) fun _ => levels.done _) ?_
  simp only [Bool.false_eq_true, if_false]
  split
  · exact levels.fail _
  · exact levels.done _

theorem alike_parameter (done : List Param) : Q i i (parameter k done) (parameter k' done) := by
  unfold parameter
  refine levels.andThen levels.expectName fun name => ?_
  split
  · exact levels.fail _
  · exact levels.andThen (alike_parameterDefault levels done) fun _ => levels.done _

theorem alike_parameters : Q (i + 1) i (parameters k) (parameters k') := by
  unfold parameters
  refine levels.andThen (j := i + 1) (levels.repeatFrom (fun done => ?_) _) fun params => ?_
  · refine levels.check _ fun closed => ?_
    cases closed with
    | true => exact levels.done _
    | false =>
      refine levels.andThen (alike_parameter levels done) fun param => ?_
      exact levels.eat rfl (fun _ => rfl) (levels.done _) (levels.done _)
  · exact levels.andThen (levels.expectSymbol fun _ => rfl) fun _ => levels.done _

theorem alike_signature : Q i i (signature k) (signature k') := by
  unfold signature
  refine levels.andThen levels.expectName fun name => ?_
  refine levels.andThen (j := i + 1) (levels.expectSymbol fun _ => rfl) fun _ => ?_
  refine levels.andThen (alike_parameters levels) fun params => ?_
  exact levels.eat rfl (fun _ => rfl) (levels.andThen (alike_expr levels) fun _ => levels.done _)
    (levels.done _)

theorem alike_caught : Q i i (caught k) (caught k') := by
  unfold caught
  refine levels.check _ fun colon => ?_
  cases colon with
  | true => exact levels.done _
  | false =>
    refine levels.andThen (alike_expr levels) fun _ => ?_
    exact levels.andThen (alike_asName levels.toLikeness) fun _ => levels.done _

end Statement

end SnippetKernel.Source
