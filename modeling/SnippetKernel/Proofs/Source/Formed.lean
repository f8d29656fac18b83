import SnippetKernel.Proofs.Source.Depth
import SnippetKernel.Proofs.Source.Placement

/-! Trees that texts are read as. Some trees are never read: a slice stands only in a subscript, nothing is unpacked by
an augmented assignment, and a function has no two parameters of one name, nor one without a default after one with. -/
namespace SnippetKernel.Source

open Source.Parser Grammar

mutual

/-- The expression has slices only where they have a meaning. -/
inductive Expr.Formed : Expr → Prop
  | literal (value : Literal) : Expr.Formed (.literal value)
  | name (id : String) : Expr.Formed (.name id)
  | template {parts : List TemplatePart} : (∀ part ∈ parts, part.Formed) → Expr.Formed (.template parts)
  | list {items : List Expr} : (∀ e ∈ items, e.Formed) → Expr.Formed (.list items)
  | tuple {items : List Expr} : (∀ e ∈ items, e.Formed) → Expr.Formed (.tuple items)
  | dict {entries : List (Expr × Expr)} : (∀ entry ∈ entries, entry.1.Formed) →
    (∀ entry ∈ entries, entry.2.Formed) → Expr.Formed (.dict entries)
  | comprehension {element : Expr} {target : Target} {source : Expr} {cond : Option Expr} :
    element.Formed → target.Formed → source.Formed → (∀ e ∈ cond, e.Formed) →
    Expr.Formed (.comprehension element target source cond)
  | unary (op : UnaryOp) {operand : Expr} : operand.Formed → Expr.Formed (.unary op operand)
  | binary (op : BinaryOp) {left right : Expr} : left.Formed → right.Formed → Expr.Formed (.binary op left right)
  | compare {first : Expr} {rest : List (CompareOp × Expr)} : first.Formed → (∀ other ∈ rest, other.2.Formed) →
    Expr.Formed (.compare first rest)
  | and {left right : Expr} : left.Formed → right.Formed → Expr.Formed (.and left right)
  | or {left right : Expr} : left.Formed → right.Formed → Expr.Formed (.or left right)
  | ifElse {cond yes no : Expr} : cond.Formed → yes.Formed → no.Formed → Expr.Formed (.ifElse cond yes no)
  | call {callee : Expr} {args : List Expr} {keywords : List (String × Expr)} : callee.Formed →
    (∀ e ∈ args, e.Formed) → (∀ named ∈ keywords, named.2.Formed) → Expr.Formed (.call callee args keywords)
  | attr {object : Expr} (name : String) : object.Formed → Expr.Formed (.attr object name)
  | index {object index : Expr} : object.Formed → index.Subscript → Expr.Formed (.index object index)

/-- What stands between square brackets. -/
inductive Expr.Subscript : Expr → Prop
  | expr {e : Expr} : e.Formed → Expr.Subscript e
  | slice {start stop step : Option Expr} : (∀ e ∈ start, e.Formed) → (∀ e ∈ stop, e.Formed) →
    (∀ e ∈ step, e.Formed) → Expr.Subscript (.slice start stop step)

inductive Target.Formed : Target → Prop
  | name (id : String) : Target.Formed (.name id)
  | index {object index : Expr} : object.Formed → index.Subscript → Target.Formed (.index object index)
  | attr {object : Expr} (name : String) : object.Formed → Target.Formed (.attr object name)
  | unpack {targets : List Target} : (∀ t ∈ targets, t.Formed) → Target.Formed (.unpack targets)

inductive TemplatePart.Formed : TemplatePart → Prop
  | text (text : String) : TemplatePart.Formed (.text text)
  | value {e : Expr} (quote : Bool) (spec : Option String) : e.Formed → TemplatePart.Formed (.value e quote spec)

end

theorem Expr.Formed.no_slice {e : Expr} (formed : e.Formed) (start stop step : Option Expr) :
    e ≠ .slice start stop step := by
  rintro rfl
  cases formed

namespace Expr.Subscript

theorem plain {e : Expr} (subscript : e.Subscript) (no_slice : ∀ start stop step, e ≠ .slice start stop step) :
    e.Formed := by
  cases subscript with
  | expr formed => exact formed
  | slice => exact absurd rfl (no_slice _ _ _)

theorem bounds {start stop step : Option Expr} (subscript : (Expr.slice start stop step).Subscript) :
    (∀ e ∈ start, e.Formed) ∧ (∀ e ∈ stop, e.Formed) ∧ (∀ e ∈ step, e.Formed) := by
  cases subscript with
  | expr formed => cases formed
  | slice start stop step => exact ⟨start, stop, step⟩

end Expr.Subscript

mutual

/-- A target is read as an expression first. -/
theorem Expr.Formed.target {e : Expr} {t : Target} (formed : e.Formed) (found : target? e = some t) : t.Formed := by
  cases formed with
  | name id =>
    cases found
    exact .name id
  | index object index =>
    cases found
    exact .index object index
  | attr name object =>
    cases found
    exact .attr name object
  | list items | tuple items =>
    simp only [target?, Option.map_eq_some_iff] at found
    obtain ⟨ts, all, rfl⟩ := found
    exact .unpack (formed_targets items all)
  | _ => cases found

theorem formed_targets {es : List Expr} {ts : List Target} (formed : ∀ e ∈ es, e.Formed)
    (found : targets? es = some ts) : ∀ t ∈ ts, t.Formed := by
  cases es with
  | nil =>
    cases found
    exact List.forall_mem_nil _
  | cons e es =>
    simp only [targets?, Option.bind_eq_bind, Option.bind_eq_some_iff, Option.some.injEq] at found
    obtain ⟨t, first, ts, rest, rfl⟩ := found
    rw [List.forall_mem_cons] at formed ⊢
    constructor
    · exact formed.1.target first
    · exact formed_targets formed.2 rest

end

/-! ### Expressions -/

section

/-- Everything that one level takes from others is formed. -/
structure Grammar.Level.Forms (k : Level) : Prop where
  deeper (entry : Entry) : Gives Expr.Formed (k.deeper entry)
  here (entry : Entry) : Gives Expr.Formed (k.here entry)

def TemplatesForm (template : TemplateReader) : Prop :=
  ∀ body line parts, template body line = .ok parts → ∀ part ∈ parts, part.Formed

/-- Joining two expressions forms an expression. -/
def JoinForms (join : Expr → Expr → Expr) : Prop :=
  ∀ left right, left.Formed → right.Formed → (join left right).Formed

theorem forms_asTarget {e : Expr} (formed : e.Formed) : Gives Target.Formed (asTarget e) := by
  unfold asTarget
  split
  · next found => exact .done (formed.target found)
  · exact .fail _

theorem forms_chain {operand : Parser Expr} {next? : Parser (Option (Expr → Expr → Expr))}
    (operands : Gives Expr.Formed operand) (joins : Gives (fun found => ∀ join ∈ found, JoinForms join) next?) :
    Gives Expr.Formed (chain operand next?) := by
  refine operands.andThen fun first first_formed => ?_
  refine .repeatFrom (fun (s : Expr × Nat) => s.1.Formed) first_formed fun (left, count) left_formed => ?_
  refine joins.andThen fun found joins => ?_
  cases found with
  | none => exact .done left_formed
  | some join =>
    refine .after fun _ => ?_
    refine operands.andThen fun right right_formed => ?_
    exact .done (joins join rfl left right left_formed right_formed)

theorem forms_binaryOf (ops : List (Symbol × BinaryOp)) :
    Gives (fun found => ∀ join ∈ found, JoinForms join) (binaryOf ops) := by
  refine .after fun found => ?_
  refine .done ?_
  intro join mem
  obtain ⟨op, -, rfl⟩ := Option.map_eq_some_iff.1 mem
  exact fun _ _ => .binary op

theorem forms_joinWord (word : String) {join : Expr → Expr → Expr} (joins : JoinForms join) :
    Gives (fun found => ∀ join ∈ found, JoinForms join) (joinWord word join) := by
  refine .after fun found => ?_
  cases found with
  | false => exact .done nofun
  | true => exact .done fun _ same => Option.some.inj same ▸ joins

variable {k : Level} {template : TemplateReader} (forms : k.Forms)

include forms

theorem Grammar.Level.Forms.expr : Gives Expr.Formed k.expr := forms.deeper .expr

theorem forms_exprList : Gives Expr.Formed (exprList k) := by
  refine forms.expr.andThen fun first first_formed => .after fun comma => ?_
  cases comma with
  | false => exact .done first_formed
  | true =>
    refine (Gives.moreItems forms.expr (List.forall_mem_singleton.2 first_formed)).andThen fun items items_formed => ?_
    exact .done (.tuple items_formed)

theorem forms_subscript : Gives Expr.Subscript (subscript k) := by
  have step : Gives (fun step => ∀ e ∈ step, e.Formed) (sliceStep k) := by
    refine .after fun colon => ?_
    cases colon with
    | false => exact .done nofun
    | true => exact forms.expr.orNothing
  refine (forms_exprList forms).orNothing.andThen fun start start_formed => .after fun colon => ?_
  split
  · exact .done (.expr (start_formed _ rfl))
  · refine .after fun _ => ?_
    refine forms.expr.orNothing.andThen fun stop stop_formed => ?_
    refine step.andThen fun step step_formed => ?_
    exact .done (.slice start_formed stop_formed step_formed)

theorem forms_targetList : Gives Target.Formed (targetList k) := by
  have one : Gives Target.Formed (do asTarget (← k.here .postfixed)) :=
    (forms.here .postfixed).andThen fun _ => forms_asTarget
  refine (forms.here .postfixed).andThen fun e e_formed => ?_
  refine (forms_asTarget e_formed).andThen fun first first_formed => .after fun comma => ?_
  refine (Gives.moreItems one (List.forall_mem_singleton.2 first_formed)).andThen fun targets targets_formed => ?_
  cases comma with
  | false => exact .done first_formed
  | true => exact .done (.unpack targets_formed)

theorem forms_comprehensionTail {element : Expr} (element_formed : element.Formed) :
    Gives Expr.Formed (comprehensionTail k element) := by
  have filter : Gives (fun cond => ∀ e ∈ cond, e.Formed) (filter k) := by
    refine .after fun found => ?_
    cases found with
    | false => exact .done nofun
    | true =>
      refine (forms.here .operand).andThen fun e e_formed => ?_
      refine .done ?_
      rintro _ ⟨⟩
      exact e_formed
  refine .after fun _ => ?_
  refine (forms_targetList forms).andThen fun t t_formed => .after fun _ => ?_
  refine (forms.here .operand).andThen fun source source_formed => ?_
  refine filter.andThen fun cond cond_formed => .after fun again => ?_
  split
  · exact .after fun _ => .done (.comprehension element_formed t_formed source_formed cond_formed)
  · exact .done (.comprehension element_formed t_formed source_formed cond_formed)

structure ArgumentsFormed (given : Arguments) : Prop where
  args : ∀ e ∈ given.args, e.Formed
  keywords : ∀ named ∈ given.keywords, named.2.Formed

theorem forms_argument {taken : Arguments} (before : ArgumentsFormed taken) :
    Gives ArgumentsFormed (argument k taken) := by
  have more {arg : Expr} (formed : arg.Formed) : ArgumentsFormed { taken with args := arg :: taken.args } :=
    ⟨List.forall_mem_cons.2 ⟨formed, before.args⟩, before.keywords⟩
  have positional : Gives ArgumentsFormed (positionalArgument k taken) := by
    unfold positionalArgument
    split
    case isFalse => exact fun _ _ _ read => nomatch read
    refine forms.expr.andThen fun arg arg_formed => .after fun generator => ?_
    cases generator with
    | false => exact .done (more arg_formed)
    | true => exact (forms_comprehensionTail forms arg_formed).andThen fun all all_formed => .done (more all_formed)
  have named (name : String) : Gives ArgumentsFormed (do
      let value ← k.expr
      return { taken with keywords := (name, value) :: taken.keywords }) := by
    refine forms.expr.andThen fun value value_formed => ?_
    exact .done ⟨before.args, List.forall_mem_cons.2 ⟨value_formed, before.keywords⟩⟩
  refine .after fun keyword => ?_
  cases keyword with
  | false => exact positional
  | true =>
    refine .after fun name => .after fun _ => ?_
    split
    · exact .after fun _ => named name
    · exact named name

theorem forms_arguments : Gives ArgumentsFormed (arguments k) := by
  refine (Gives.repeatFrom ArgumentsFormed ⟨List.forall_mem_nil _, List.forall_mem_nil _⟩ ?turn :
    Gives ArgumentsFormed _).andThen fun given formed => .after fun _ => .done ?_
  case turn =>
    refine fun taken before => .after fun finished => ?_
    cases finished with
    | true => exact .done before
    | false =>
      refine (forms_argument forms before).andThen fun taken after => .after fun comma => ?_
      cases comma with
      | false => exact .done after
      | true => exact .done after
  constructor
  · exact fun e mem => formed.args e (List.mem_reverse.1 mem)
  · exact fun named mem => formed.keywords named (List.mem_reverse.1 mem)

omit forms in
theorem forms_adjacentStrings (templates : TemplatesForm template) (line : Nat) (text : String)
    {parts : Option (List TemplatePart)} (before : ∀ list ∈ parts, ∀ part ∈ list, part.Formed) :
    Gives Expr.Formed (adjacentStrings template line text parts) := by
  refine .repeatFrom (fun s => ∀ list ∈ s.2, ∀ part ∈ list, part.Formed) before fun (text, parts) before => ?_
  have earlier : ∀ part ∈ parts.getD (if text.isEmpty then [] else [.text text]), part.Formed := by
    cases parts with
    | some list => exact before list rfl
    | none =>
      rw [Option.getD_none]
      split
      · exact List.forall_mem_nil _
      · exact List.forall_mem_singleton.2 (.text text)
  refine .after fun kind => ?_
  split
  · next s =>
    refine .after fun _ => ?_
    cases parts with
    | none => exact .done nofun
    | some list =>
      refine .done ?_
      rintro _ ⟨⟩
      exact List.forall_mem_append.2 ⟨before list rfl, List.forall_mem_singleton.2 (.text s)⟩
  · next body =>
    refine .after fun _ => ?_
    cases read : template body line with
    | error e => exact fun _ _ _ failed => nomatch failed
    | ok more =>
      refine .done ?_
      rintro _ ⟨⟩
      exact List.forall_mem_append.2 ⟨earlier, templates body line more read⟩
  · cases parts with
    | none => exact .done (.literal _)
    | some list => exact .done (.template (before list rfl))

theorem forms_atom (templates : TemplatesForm template) : Gives Expr.Formed (atom template k) := by
  have strings (line : Nat) (text : String) : Gives Expr.Formed (adjacentStrings template line text none) :=
    forms_adjacentStrings templates line text nofun
  refine .after fun line => .after fun kind => ?_
  split
  · exact .after fun _ => .done (.literal _)
  · exact .after fun _ => .done (.literal _)
  · exact .after fun _ => strings _ _
  · exact strings _ _
  · exact .after fun _ => .done (.literal _)
  · exact .after fun _ => .done (.literal _)
  · exact .after fun _ => .done (.literal _)
  · split
    · exact .after fun _ => .fail _
    · split
      · exact fun _ _ _ read => nomatch read
      · exact .after fun _ => .done (.name _)
  · next s =>
    split
    · exact .after fun _ => forms.deeper (.bracket s)
    · exact fun _ _ _ read => nomatch read
  · exact fun _ _ _ read => nomatch read

theorem forms_postfixed (templates : TemplatesForm template) : Gives Expr.Formed (postfixed template k) := by
  refine (forms_atom forms templates).andThen fun first first_formed => ?_
  refine .repeatFrom (fun (s : Expr × Nat) => s.1.Formed) first_formed fun (object, count) object_formed => ?_
  refine .after fun kind => ?_
  split
  · refine .after fun _ => .after fun _ => ?_
    refine (forms_arguments forms).andThen fun given given_formed => ?_
    exact .done (.call object_formed given_formed.args given_formed.keywords)
  · refine .after fun _ => .after fun _ => ?_
    refine (forms_subscript forms).andThen fun index index_formed => ?_
    exact .after fun _ => .done (.index object_formed index_formed)
  · exact .after fun _ => .after fun _ => .after fun name => .done (.attr name object_formed)
  · exact .done object_formed

theorem forms_factor (templates : TemplatesForm template) : Gives Expr.Formed (factor template k) := by
  have negated {e : Expr} (formed : e.Formed) : (negate e).Formed := by
    unfold negate
    split
    · split
      · exact .literal _
      · exact .unary _ (.literal _)
    · exact .literal _
    · exact .unary _ formed
  have power : Gives Expr.Formed (power template k) := by
    refine (forms_postfixed forms templates).andThen fun base base_formed => .after fun found => ?_
    cases found with
    | false => exact .done base_formed
    | true => exact (forms.deeper .factor).andThen fun _ formed => .done (.binary .pow base_formed formed)
  refine .after fun minus => ?_
  cases minus with
  | true => exact (forms.deeper .factor).andThen fun _ formed => .done (negated formed)
  | false =>
    refine .after fun plus => ?_
    cases plus with
    | true => exact (forms.deeper .factor).andThen fun _ formed => .done (.unary .pos formed)
    | false => exact power

theorem forms_comparison (templates : TemplatesForm template) : Gives Expr.Formed (comparison template k) := by
  have arith : Gives Expr.Formed (arith template k) :=
    forms_chain (forms_chain (forms_factor forms templates) (forms_binaryOf _)) (forms_binaryOf _)
  let Compared (others : List (CompareOp × Expr)) : Prop := ∀ other ∈ others, other.2.Formed
  refine arith.andThen fun first first_formed => ?_
  refine (Gives.repeatFrom Compared (List.forall_mem_nil _) ?turn : Gives Compared _).andThen
    fun rest rest_formed => .done ?_
  case turn =>
    refine fun done before => .after fun op => ?_
    cases op with
    | none => exact .done fun other mem => before other (List.mem_reverse.1 mem)
    | some op =>
      refine arith.andThen fun right right_formed => ?_
      exact .done (List.forall_mem_cons.2 ⟨right_formed, before⟩)
  split
  · exact first_formed
  · exact .compare first_formed rest_formed

theorem forms_negation (templates : TemplatesForm template) : Gives Expr.Formed (negation template k) := by
  refine .after fun found => ?_
  cases found with
  | true => exact (forms.deeper .negated).andThen fun _ formed => .done (.unary .not formed)
  | false => exact forms_comparison forms templates

theorem forms_orTest (templates : TemplatesForm template) : Gives Expr.Formed (orTest template k) := by
  apply forms_chain _ (forms_joinWord "or" fun _ _ => .or)
  exact forms_chain (forms_negation forms templates) (forms_joinWord "and" fun _ _ => .and)

theorem forms_conditional (templates : TemplatesForm template) : Gives Expr.Formed (conditional template k) := by
  have operand := forms_orTest forms templates
  refine operand.andThen fun yes yes_formed => .after fun found => ?_
  cases found with
  | false => exact .done yes_formed
  | true =>
    refine operand.andThen fun cond cond_formed => .after fun _ => ?_
    exact forms.expr.andThen fun no no_formed => .done (.ifElse cond_formed yes_formed no_formed)

theorem forms_moreItems {first : Expr} (formed : first.Formed) (s : Symbol) :
    Gives (fun items => ∀ e ∈ items, e.Formed) (moreItems k.expr (checkSymbol s) [first]) :=
  Gives.moreItems forms.expr (List.forall_mem_singleton.2 formed)

theorem forms_parenTail : Gives Expr.Formed (parenTail k) := by
  refine .after fun close => ?_
  cases close with
  | true => exact .done (.tuple (List.forall_mem_nil _))
  | false =>
    refine forms.expr.andThen fun first first_formed => .after fun found => ?_
    cases found with
    | true => exact (forms_comprehensionTail forms first_formed).andThen fun _ formed => .after fun _ => .done formed
    | false =>
      refine .after fun close => ?_
      cases close with
      | true => exact .done first_formed
      | false =>
        exact (forms_moreItems forms first_formed _).andThen fun _ formed => .after fun _ => .done (.tuple formed)

theorem forms_listTail : Gives Expr.Formed (listTail k) := by
  refine .after fun close => ?_
  cases close with
  | true => exact .done (.list (List.forall_mem_nil _))
  | false =>
    refine forms.expr.andThen fun first first_formed => .after fun found => ?_
    cases found with
    | true => exact (forms_comprehensionTail forms first_formed).andThen fun _ formed => .after fun _ => .done formed
    | false =>
      exact (forms_moreItems forms first_formed _).andThen fun _ formed => .after fun _ => .done (.list formed)

theorem forms_dictTail : Gives Expr.Formed (dictTail k) := by
  let EntriesFormed (entries : List (Expr × Expr)) : Prop := ∀ entry ∈ entries, entry.1.Formed ∧ entry.2.Formed
  refine (Gives.repeatFrom EntriesFormed (List.forall_mem_nil _) ?turn : Gives EntriesFormed _).andThen
    fun entries formed => .after fun _ => .done ?_
  case turn =>
    refine fun done before => .after fun close => ?_
    cases close with
    | true => exact .done before
    | false =>
      refine forms.expr.andThen fun key key_formed => .after fun colon => ?_
      cases colon with
      | false => exact fun _ _ _ read => nomatch read
      | true =>
        refine forms.expr.andThen fun value value_formed => .after fun comma => ?_
        have all : EntriesFormed ((key, value) :: done) :=
          List.forall_mem_cons.2 ⟨⟨key_formed, value_formed⟩, before⟩
        cases comma with
        | false => exact .done all
        | true => exact .done all
  constructor
  · exact fun entry mem => (formed entry (List.mem_reverse.1 mem)).1
  · exact fun entry mem => (formed entry (List.mem_reverse.1 mem)).2

theorem forms_bracketTail (s : Symbol) : Gives Expr.Formed (bracketTail k s) := by
  unfold bracketTail
  split
  · exact forms_parenTail forms
  · exact forms_listTail forms
  · exact forms_dictTail forms

end

theorem forms_read {template : TemplateReader} (templates : TemplatesForm template) (fuel room : Nat) (entry : Entry) :
    Gives Expr.Formed (Grammar.read template fuel room entry) := by
  induction fuel generalizing room entry with
  | zero => exact .fail _
  | succ fuel ih =>
    have forms : (levelWith (fun room entry => Grammar.read template fuel room entry) room).Forms := by
      constructor
      · intro entry
        cases room with
        | zero => exact .fail _
        | succ room => exact ih room entry
      · exact ih room
    cases entry with
    | expr => exact forms_conditional forms templates
    | negated => exact forms_negation forms templates
    | factor => exact forms_factor forms templates
    | bracket s => exact forms_bracketTail forms s
    | operand => exact forms_orTest forms templates
    | postfixed => exact forms_postfixed forms templates

theorem outermost_forms {template : TemplateReader} (templates : TemplatesForm template) (size : Nat) :
    (outermost template size).Forms := by
  constructor
  · exact forms_read templates _ _
  · exact forms_read templates _ _

theorem forms_placeholder {template : TemplateReader} (templates : TemplatesForm template) {source : String}
    {line : Nat} {e : Expr} (read : placeholder template source line = .ok e) : e.Formed := by
  obtain ⟨tokens, r, -, read⟩ := placeholder_ok.1 read
  obtain ⟨x, c, first, last⟩ := bind_ok.1 read
  obtain ⟨rfl, -⟩ := aloneOn_ok.1 ⟨r, last⟩
  exact forms_exprList (outermost_forms templates _) _ x c first

theorem forms_readTemplate {parse : String → Nat → Except SyntaxError Expr} {line : Nat}
    (exprs : ∀ source e, parse source line = .ok e → e.Formed) {literal : List Char}
    {done parts : List TemplatePart} {cs : List Char} (before : ∀ part ∈ done, part.Formed)
    (read : readTemplate parse line literal done cs = .ok parts) : ∀ part ∈ parts, part.Formed := by
  have flushed {literal : List Char} {done : List TemplatePart} (before : ∀ part ∈ done, part.Formed) :
      ∀ part ∈ flushText literal done, part.Formed := by
    unfold flushText
    split
    · exact before
    · exact List.forall_mem_cons.2 ⟨.text _, before⟩
  have one {p : Placeholder} {part : TemplatePart} (read : p.part parse line = .ok part) : part.Formed := by
    obtain ⟨e, quote, spec, inner, rfl⟩ := Placeholder.part_ok read
    exact .value quote spec (exprs _ e inner)
  fun_induction readTemplate parse line literal done cs with
  | case1 literal done =>
    cases read
    exact fun part mem => flushed before part (List.mem_reverse.1 mem)
  | case2 literal done rest ih => exact ih before read
  | case3 literal done rest ih => exact ih before read
  | case4 => cases read
  | case5 => cases read
  | case6 => cases read
  | case7 literal done rest single p after found shorter part inner ih =>
    exact ih (List.forall_mem_cons.2 ⟨one inner, flushed before⟩) read
  | case8 literal done c rest _ _ _ _ ih => exact ih before read

theorem templatesForm (depth : Nat) : TemplatesForm (Grammar.template depth) := by
  induction depth with
  | zero => exact fun _ _ _ read => nomatch read
  | succ depth ih =>
    intro body line parts read
    exact forms_readTemplate (fun _ _ => forms_placeholder ih) (List.forall_mem_nil _) read

/-! ### Statements -/

def Target.isUnpack : Target → Bool
  | .unpack _ => true
  | _ => false

def Handler.class? : Handler → Option Expr
  | .mk class_ _ _ => class_

namespace StmtKind

/-- The expressions and targets of the statement itself are formed. -/
def Formed : StmtKind → Prop
  | .expr value => value.Formed
  | .assign targets value => (∀ t ∈ targets, t.Formed) ∧ value.Formed
  | .augAssign t _ value => t.Formed ∧ t.isUnpack = false ∧ value.Formed
  | .cond branches _ => ∀ branch ∈ branches, branch.1.Formed
  | .loop test _ => test.Formed
  | .each t source _ => t.Formed ∧ source.Formed
  | .define _ params _ => ∀ p ∈ params, ∀ e ∈ p.default, e.Formed
  | .ret value | .raise value => ∀ e ∈ value, e.Formed
  | .attempt _ handlers _ _ => ∀ h ∈ handlers, ∀ e ∈ h.class?, e.Formed
  | .assert test message => test.Formed ∧ ∀ e ∈ message, e.Formed
  | .del targets => ∀ t ∈ targets, t.Formed
  | .load _ | .global _ | .pass | .stop | .next => True

/-- The statement and all statements in its blocks are `good`. -/
inductive Everywhere (good : StmtKind → Prop) : StmtKind → Prop
  | intro {kind : StmtKind} : good kind → (∀ part ∈ kind.blocks, ∀ stmt ∈ part, Everywhere good stmt.kind) →
    Everywhere good kind

variable {good : StmtKind → Prop} {kind : StmtKind}

theorem Everywhere.simple (none : kind.blocks = []) (here : good kind) : kind.Everywhere good := by
  constructor
  · exact here
  · rw [none]
    exact List.forall_mem_nil _

end StmtKind

theorem Within.everywhere {good : StmtKind → Prop} {body : List Stmt} {outer : List StmtKind} {kind : StmtKind}
    (within : Within body outer kind) (all : ∀ stmt ∈ body, stmt.kind.Everywhere good) : kind.Everywhere good := by
  induction within with
  | here mem => exact all _ mem
  | inside around of_kind mem ih =>
    obtain ⟨-, inner⟩ := ih
    exact inner _ of_kind _ mem

/-- Every rule for a statement gives one that is `good`, whatever stands in its blocks. -/
structure Heads (k : Level) (good : StmtKind → Prop) : Prop where
  simple (s : Surroundings) : Gives good (Statement.simple k s)
  cond {branches : List (Expr × List Stmt)} {orelse : List Stmt}
    (firsts : ∀ branch ∈ branches, Given k.expr branch.1) : good (.cond branches orelse)
  loop {cond : Expr} {body : List Stmt} (head : Given k.expr cond) : good (.loop cond body)
  each {t : Target} {source : Expr} {body : List Stmt} (head : Given (targetList k) t)
    (items : Given (exprList k) source) : good (.each t source body)
  define {name : String} {params : List Param} {body : List Stmt}
    (head : Given (Statement.signature k) (name, params)) : good (.define name params body)
  attempt {body : List Stmt} {handlers : List Handler} {orelse final : List Stmt}
    (handled : ∀ h ∈ handlers, ∃ class_ name body, h = .mk class_ name body ∧
      Given (Statement.caught k) (class_, name)) : good (.attempt body handlers orelse final)

/-- Such statements are good everywhere, as those in their blocks are. -/
theorem Heads.keeps {k : Level} {good : StmtKind → Prop} (heads : Heads k good) :
    Keeps k fun _ kind => kind.Everywhere good where
  simple s c kind r read := by
    have simple := (Statement.gives_simple c kind r read).1
    apply StmtKind.Everywhere.simple
    · cases kind <;> first | rfl | cases simple
    · exact heads.simple s c kind r read
  cond firsts last := by
    constructor
    · exact heads.cond fun branch mem => (firsts branch mem).1
    · simp only [StmtKind.blocks, List.forall_mem_append, List.forall_mem_map, List.forall_mem_singleton]
      constructor
      · exact fun branch mem => (firsts branch mem).2
      · exact last
  loop head inside := by
    constructor
    · exact heads.loop head
    · exact List.forall_mem_singleton.2 inside
  each head items inside := by
    constructor
    · exact heads.each head items
    · exact List.forall_mem_singleton.2 inside
  define head inside := by
    constructor
    · exact heads.define head
    · exact List.forall_mem_singleton.2 inside
  attempt inside handled otherwise last := by
    constructor
    · apply heads.attempt
      intro h mem
      obtain ⟨class_, name, body, same, given, -⟩ := handled h mem
      exact ⟨class_, name, body, same, given⟩
    · simp only [StmtKind.blocks, List.cons_append, List.forall_mem_cons, List.forall_mem_append,
        List.forall_mem_map]
      refine ⟨inside, ?_, otherwise, last, List.forall_mem_nil _⟩
      intro h mem
      obtain ⟨class_, name, body, rfl, -, all⟩ := handled h mem
      exact all

/-- What every rule gives holds of all statements of a program, however deep they stand. -/
theorem Within.good {good : StmtKind → Prop} {source : String} {body : List Stmt} {outer : List StmtKind}
    {kind : StmtKind} (heads : ∀ size, Heads (outermost (template (source.length + 1)) size) good)
    (read : parse source = .ok body) (within : Within body outer kind) : good kind := by
  have all := allGood_of_parse (fun size => (heads size).keeps) read
  obtain ⟨here, -⟩ := within.everywhere all
  exact here

section

variable {k : Level} (forms : k.Forms)

theorem forms_asTargets {es : List Expr} (all : ∀ e ∈ es, e.Formed) :
    Gives (fun ts => ∀ t ∈ ts, t.Formed) (Statement.asTargets es) := by
  induction es with
  | nil => exact .done (List.forall_mem_nil _)
  | cons e es ih =>
    rw [List.forall_mem_cons] at all
    refine (forms_asTarget all.1).andThen fun t first => (ih all.2).andThen fun ts rest => ?_
    exact .done (List.forall_mem_cons.2 ⟨first, rest⟩)

include forms

theorem forms_augmented {e : Expr} (formed : e.Formed) (op : BinaryOp) :
    Gives StmtKind.Formed (Statement.augmented k e op) := by
  refine (forms_asTarget formed).andThen fun t t_formed => ?_
  cases t with
  | unpack => exact .fail _
  | _ => exact (forms_exprList forms).andThen fun value value_formed => .done ⟨t_formed, rfl, value_formed⟩

theorem forms_assigned {first : Expr} (formed : first.Formed) :
    Gives StmtKind.Formed (Statement.assigned k first) := by
  let Chained (exprs : Expr × List Expr) : Prop := exprs.1.Formed ∧ ∀ e ∈ exprs.2, e.Formed
  refine (Gives.repeatFrom Chained ⟨formed, List.forall_mem_nil _⟩ ?turn : Gives Chained _).andThen
    fun exprs chained => ?_
  case turn =>
    rintro ⟨last, before⟩ ⟨last_formed, all⟩
    refine .after fun assign => ?_
    cases assign with
    | false => exact .done ⟨last_formed, fun e mem => all e (List.mem_reverse.1 mem)⟩
    | true =>
      refine (forms_exprList forms).andThen fun value value_formed => ?_
      exact .done ⟨value_formed, List.forall_mem_cons.2 ⟨last_formed, all⟩⟩
  obtain ⟨value_formed, all⟩ := chained
  exact (forms_asTargets all).andThen fun targets targets_formed => .done ⟨targets_formed, value_formed⟩

theorem forms_fromExpr : Gives StmtKind.Formed (Statement.fromExpr k) := by
  refine (forms_exprList forms).andThen fun first first_formed => .after fun kind => ?_
  split
  · exact .after fun _ => forms_augmented forms first_formed _
  · refine .after fun assign => ?_
    cases assign with
    | false => exact .done first_formed
    | true => exact forms_assigned forms first_formed

theorem forms_simple (s : Surroundings) : Gives StmtKind.Formed (Statement.simple k s) := by
  have raised : Gives (fun value => ∀ e ∈ value, Expr.Formed e) (orNothing atSimpleEnd k.expr) :=
    forms.expr.orNothing
  refine .after fun kind => ?_
  split
  · exact .after fun _ => .done trivial
  · split
    · exact .after fun _ => .done trivial
    · exact .fail _
  · split
    · exact .after fun _ => .done trivial
    · exact .fail _
  · split
    · exact .after fun _ => (forms_exprList forms).orNothing.andThen fun _ formed => .done formed
    · exact .fail _
  · exact .after fun _ => raised.andThen fun _ formed => .done formed
  · refine .after fun _ => forms.expr.andThen fun test formed => .after fun comma => ?_
    cases comma with
    | false => exact .done ⟨formed, nofun⟩
    | true =>
      refine forms.expr.andThen fun message message_formed => .done ⟨formed, ?_⟩
      rintro _ ⟨⟩
      exact message_formed
  · have item : Gives Target.Formed (do asTarget (← k.expr)) := forms.expr.andThen fun _ => forms_asTarget
    refine .after fun _ => item.andThen fun first first_formed => ?_
    exact (Gives.moreItems item (List.forall_mem_singleton.2 first_formed)).andThen fun _ all => .done all
  · exact .after fun _ => .after fun _ => .after fun _ => .done trivial
  · exact .after fun _ => .after fun _ => .after fun _ => .done trivial
  · exact forms_fromExpr forms

def DefaultsFormed (params : List Param) : Prop := ∀ p ∈ params, ∀ e ∈ p.default, e.Formed

theorem forms_parameter (done : List Param) :
    Gives (fun p => ∀ e ∈ p.default, Expr.Formed e) (Statement.parameter k done) := by
  have default : Gives (fun found => ∀ e ∈ found, Expr.Formed e) (Statement.parameterDefault k done) := by
    refine .after fun assign => ?_
    split
    · refine forms.expr.andThen fun e formed => .done ?_
      rintro _ ⟨⟩
      exact formed
    · split
      · exact .fail _
      · exact .done nofun
  refine .after fun name => ?_
  split
  · exact .fail _
  · exact default.andThen fun _ formed => .done formed

theorem forms_parameters : Gives DefaultsFormed (Statement.parameters k) := by
  refine (Gives.repeatFrom DefaultsFormed (List.forall_mem_nil _) ?turn : Gives DefaultsFormed _).andThen
    fun _ all => .after fun _ => .done fun p mem => all p (List.mem_reverse.1 mem)
  refine fun done before => .after fun close => ?_
  cases close with
  | true => exact .done before
  | false =>
    refine (forms_parameter forms done).andThen fun p formed => .after fun comma => ?_
    have all : DefaultsFormed (p :: done) := List.forall_mem_cons.2 ⟨formed, before⟩
    cases comma with
    | false => exact .done all
    | true => exact .done all

theorem forms_signature : Gives (fun head => DefaultsFormed head.2) (Statement.signature k) := by
  refine .after fun name => .after fun _ => (forms_parameters forms).andThen fun params all => .after fun arrow => ?_
  cases arrow with
  | false => exact .done all
  | true => exact .after fun _ => .done all

theorem forms_caught : Gives (fun head => ∀ e ∈ head.1, Expr.Formed e) (Statement.caught k) := by
  refine .after fun colon => ?_
  cases colon with
  | true => exact .done nofun
  | false =>
    refine forms.expr.andThen fun class_ formed => .after fun name => .done ?_
    rintro _ ⟨⟩
    exact formed

theorem heads_formed : Heads k StmtKind.Formed where
  simple := forms_simple forms
  cond firsts := by
    intro branch mem
    obtain ⟨c, r, read⟩ := firsts branch mem
    exact forms.expr c _ r read
  loop head := by
    obtain ⟨c, r, read⟩ := head
    exact forms.expr c _ r read
  each head items := by
    obtain ⟨c, r, read⟩ := head
    obtain ⟨c', r', read'⟩ := items
    exact ⟨forms_targetList forms c _ r read, forms_exprList forms c' _ r' read'⟩
  define head := by
    obtain ⟨c, r, read⟩ := head
    exact forms_signature forms c _ r read
  attempt handled := by
    intro h mem
    obtain ⟨class_, name, body, rfl, c, r, read⟩ := handled h mem
    exact forms_caught forms c _ r read

end

/-- Every statement of a program is formed. -/
theorem Within.formed {source : String} {body : List Stmt} {outer : List StmtKind} {kind : StmtKind}
    (read : parse source = .ok body) (within : Within body outer kind) : kind.Formed :=
  within.good (fun size => heads_formed (outermost_forms (templatesForm _) size)) read

/-! ### Parameters -/

/-- The parameters have distinct names, and after one with a default all have one. -/
structure ParamsFit (params : List Param) : Prop where
  distinct : (params.map (·.name)).Nodup
  defaultsLast : params.Pairwise fun p q => p.default.isSome → q.default.isSome

theorem ParamsFit.nil : ParamsFit [] := ⟨List.nodup_nil, .nil⟩

/-- The parameter may come after those of `done`. -/
structure Param.Follows (done : List Param) (p : Param) : Prop where
  new : ∀ q ∈ done, q.name ≠ p.name
  default : ∀ q ∈ done, q.default.isSome → p.default.isSome

theorem Param.Follows.fit {done : List Param} {p : Param} (follows : p.Follows done)
    (before : ParamsFit done.reverse) : ParamsFit (p :: done).reverse := by
  rw [List.reverse_cons]
  constructor
  · rw [List.map_append, List.nodup_append]
    refine ⟨before.distinct, List.nodup_singleton _, ?_⟩
    simp only [List.mem_map, List.mem_reverse, List.map_cons, List.map_nil, List.mem_singleton]
    rintro _ ⟨q, mem, rfl⟩ _ rfl
    exact follows.new q mem
  · rw [List.pairwise_append]
    refine ⟨before.defaultsLast, List.pairwise_singleton _ _, ?_⟩
    simp only [List.mem_reverse, List.mem_singleton]
    rintro q mem _ rfl
    exact follows.default q mem

theorem gives_parameter {k : Level} (done : List Param) : Gives (Param.Follows done) (Statement.parameter k done) := by
  have default : Gives (fun found => ∀ q ∈ done, q.default.isSome → found.isSome)
      (Statement.parameterDefault k done) := by
    refine .after fun assign => ?_
    split
    · exact .after fun _ => .done fun _ _ _ => rfl
    · split
      · exact .fail _
      · rename_i without
        refine .done fun q mem has => absurd ?_ without
        exact List.any_eq_true.2 ⟨q, mem, has⟩
  refine .after fun name => ?_
  split
  · exact .fail _
  · rename_i unused
    refine default.andThen fun found afterwards => .done ⟨fun q mem same => unused ?_, afterwards⟩
    exact List.any_eq_true.2 ⟨q, mem, beq_iff_eq.2 same⟩

theorem gives_signature {k : Level} : Gives (fun head => ParamsFit head.2) (Statement.signature k) := by
  have parameters : Gives ParamsFit (Statement.parameters k) := by
    let Fits (done : List Param) : Prop := ParamsFit done.reverse
    have none : Fits [] := .nil
    refine (Gives.repeatFrom Fits none ?turn : Gives Fits _).andThen fun done fit => .after fun _ => .done fit
    refine fun done before => .after fun close => ?_
    cases close with
    | true => exact .done before
    | false =>
      refine (gives_parameter done).andThen fun p follows => .after fun comma => ?_
      cases comma with
      | false => exact .done (follows.fit before)
      | true => exact .done (follows.fit before)
  refine .after fun name => .after fun _ => parameters.andThen fun params fit => .after fun arrow => ?_
  cases arrow with
  | false => exact .done fit
  | true => exact .after fun _ => .done fit

/-- What a statement says of its parameters, if it defines a function. -/
def StmtKind.ParamsFit : StmtKind → Prop
  | .define _ params _ => Source.ParamsFit params
  | _ => True

theorem heads_paramsFit (k : Level) : Heads k StmtKind.ParamsFit where
  simple s c kind r read := by
    have simple := (Statement.gives_simple c kind r read).1
    cases kind with
    | define => cases simple
    | _ => trivial
  cond _ := trivial
  loop _ := trivial
  each _ _ := trivial
  define head := by
    obtain ⟨c, r, read⟩ := head
    exact gives_signature c _ r read
  attempt _ := trivial

/-- The parameters of every function that a program defines fit. -/
theorem Within.paramsFit {source : String} {body inner : List Stmt} {outer : List StmtKind} {name : String}
    {params : List Param} (read : parse source = .ok body) (within : Within body outer (.define name params inner)) :
    ParamsFit params :=
  (within.good (fun _ => heads_paramsFit _) read : StmtKind.ParamsFit _)

end SnippetKernel.Source
