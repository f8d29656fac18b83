import Mathlib
import SnippetKernel.Proofs.Source.Rules
import SnippetKernel.Proofs.Source.Templates

/-! How deep the tree of a program can be. A nested expression is counted while it is read, and only so many
may be open; the operators at one level are counted too. Three ways down the tree are not counted: into a
block, into a placeholder, and behind the `for` of a comprehension that is an argument without brackets of its
own. Between two of these steps the tree is bounded; what stands behind one of them is as deep as it likes. -/
namespace SnippetKernel.Source

open Source.Parser Grammar

/-- A node of a syntax tree. -/
inductive Node where
  | expr (e : Expr)
  | target (t : Target)
  | part (p : TemplatePart)
  /-- A comprehension that is an argument. -/
  | generator (element : Expr) (target : Target) (source : Expr) (cond : Option Expr)
  | stmt (s : Stmt)
  | handler (h : Handler)

namespace Node

def argument : Expr → Node
  | .comprehension element t source cond => .generator element t source cond
  | e => .expr e

/-- The parts of an expression. -/
def ofExpr : Expr → List Node
  | .literal _ | .name _ => []
  | .template parts => parts.map part
  | .list items | .tuple items => items.map expr
  | .dict entries => entries.map (expr ·.1) ++ entries.map (expr ·.2)
  | .comprehension element t source cond => expr element :: target t :: expr source :: cond.toList.map expr
  | .unary _ operand => [expr operand]
  | .binary _ left right | .and left right | .or left right => [expr left, expr right]
  | .compare first rest => expr first :: rest.map (expr ·.2)
  | .ifElse cond yes no => [expr cond, expr yes, expr no]
  | .call callee args keywords => expr callee :: args.map argument ++ keywords.map (expr ·.2)
  | .attr object _ => [expr object]
  | .index object index => [expr object, expr index]
  | .slice start stop step => (start.toList ++ stop.toList ++ step.toList).map expr

def ofTarget : Target → List Node
  | .name _ => []
  | .index object index => [expr object, expr index]
  | .attr object _ => [expr object]
  | .unpack targets => targets.map target

/-- The parts of a statement that are not in its blocks. -/
def ofKind : StmtKind → List Node
  | .expr value => [expr value]
  | .assign targets value => expr value :: targets.map target
  | .augAssign t _ value => [target t, expr value]
  | .cond branches _ => branches.map (expr ·.1)
  | .loop cond _ => [expr cond]
  | .each t source _ => [target t, expr source]
  | .define _ params _ => params.filterMap fun p => p.default.map expr
  | .ret value | .raise value => value.toList.map expr
  | .attempt _ handlers _ _ => handlers.map handler
  | .assert cond message => expr cond :: message.toList.map expr
  | .del targets => targets.map target
  | .load _ | .global _ | .pass | .stop | .next => []

/-- The statements in the blocks of a statement. -/
def blocksOf : StmtKind → List Stmt
  | .cond branches orelse => branches.flatMap (·.2) ++ orelse
  | .loop _ body | .each _ _ body | .define _ _ body => body
  | .attempt body _ orelse final => body ++ orelse ++ final
  | _ => []

/-- The parts that count as deeper, or whose number is limited. -/
def inner : Node → List Node
  | expr e => ofExpr e
  | target t => ofTarget t
  | part _ => []
  | generator element _ _ _ => [expr element]
  | stmt s => ofKind s.kind
  | handler (.mk class_ _ _) => class_.toList.map expr

/-- The parts for which counting begins anew. -/
def anew : Node → List Node
  | part (.value e _ _) => [expr e]
  | generator _ t source cond => target t :: expr source :: cond.toList.map expr
  | stmt s => (blocksOf s.kind).map stmt
  | handler h => h.body.map stmt
  | expr _ | target _ | part (.text _) => []

/-- A way down from a node, and how many of its steps are of either kind. -/
inductive Way : Node → Nat → Nat → Prop
  | stay (n : Node) : Way n 0 0
  | inner {n part : Node} {i a : Nat} (step : part ∈ n.inner) (rest : Way part i a) : Way n (i + 1) a
  | anew {n part : Node} {i a : Nat} (step : part ∈ n.anew) (rest : Way part i a) : Way n i (a + 1)

end Node

/-- What the rules of one level add: five kinds of chains, and the steps between these. -/
def layer : Nat := 5 * Grammar.maxChain + 5

/-- The depth of a statement without blocks, placeholders and arguments that are comprehensions. -/
def nestingBound : Nat := (maxNesting + 1) * layer + 1

/-- No way down is longer than `height`, unless it begins anew. -/
def Node.Fits (height : Nat) (n : Node) : Prop := ∀ i a, n.Way i a → i + a ≤ nestingBound * a + height

def Expr.Fits (height : Nat) (e : Expr) : Prop := (Node.expr e).Fits height

variable {h : Nat}

theorem Node.Fits.mono {h' : Nat} {n : Node} (fits : n.Fits h) (le : h ≤ h') : n.Fits h' :=
  fun i a way => Nat.le_trans (fits i a way) (Nat.add_le_add_left le _)

theorem Node.Fits.of {n : Node} (inner : ∀ part ∈ n.inner, part.Fits h)
    (anew : ∀ part ∈ n.anew, part.Fits (nestingBound + h)) : n.Fits (h + 1) := by
  intro i a way
  cases way with
  | stay => exact Nat.zero_le _
  | inner step rest =>
    have below := inner _ step _ _ rest
    omega
  | anew step rest =>
    have below := anew _ step _ _ rest
    rw [Nat.mul_succ]
    omega

/-- An expression is one deeper than its parts. -/
theorem Expr.Fits.of {e : Expr} (parts : ∀ part ∈ Node.ofExpr e, part.Fits h) : e.Fits (h + 1) :=
  Node.Fits.of parts (List.forall_mem_nil _)

theorem Expr.Fits.leaf {e : Expr} (none : Node.ofExpr e = []) : e.Fits h := by
  intro i a way
  cases way with
  | stay => exact Nat.zero_le _
  | inner step =>
    change _ ∈ Node.ofExpr e at step
    rw [none] at step
    cases step
  | anew step => cases step

theorem Expr.Fits.mono {h' : Nat} {e : Expr} (fits : e.Fits h) (le : h ≤ h') : e.Fits h' :=
  Node.Fits.mono fits le

section

variable {es : List Expr} {e e' : Expr}

theorem forall_mem_exprs (fits : ∀ e ∈ es, e.Fits h) : ∀ part ∈ es.map Node.expr, part.Fits h :=
  List.forall_mem_map.2 fits

theorem forall_mem_exprs_pair (first : e.Fits h) (second : e'.Fits h) :
    ∀ part ∈ [Node.expr e, Node.expr e'], part.Fits h :=
  List.forall_mem_cons.2 ⟨first, List.forall_mem_singleton.2 second⟩

theorem forall_mem_option {cond : Option Expr} (fits : ∀ e ∈ cond, e.Fits h) :
    ∀ part ∈ cond.toList.map Node.expr, part.Fits h :=
  forall_mem_exprs fun e mem => fits e (Option.mem_toList.1 mem)

end

theorem mem_targets? {es : List Expr} {ts : List Target} (found : targets? es = some ts) {t : Target}
    (mem : t ∈ ts) : ∃ e ∈ es, target? e = some t := by
  induction es generalizing ts with
  | nil =>
    cases found
    cases mem
  | cons e es ih =>
    simp only [targets?, Option.bind_eq_bind, Option.bind_eq_some_iff, Option.some.injEq] at found
    obtain ⟨first, found_first, rest, found_rest, rfl⟩ := found
    obtain rfl | mem := List.mem_cons.1 mem
    · exact ⟨e, List.mem_cons_self, found_first⟩
    · obtain ⟨e', mem', same⟩ := ih found_rest mem
      exact ⟨e', List.mem_cons_of_mem e mem', same⟩

/-- Every way down a target is one down the expression that it was read as. -/
theorem way_of_target? {n : Node} {i a : Nat} (way : n.Way i a) {e : Expr} {t : Target}
    (is_target : n = .target t) (found : target? e = some t) : (Node.expr e).Way i a := by
  induction way generalizing e t with
  | stay => exact .stay _
  | @inner n part i a step rest ih =>
    subst is_target
    have unpacked {items : List Expr} (parts : Node.ofExpr e = items.map .expr)
        (found : (targets? items).map .unpack = some t) : (Node.expr e).Way (i + 1) a := by
      obtain ⟨targets, all, rfl⟩ := Option.map_eq_some_iff.1 found
      obtain ⟨t, mem, rfl⟩ := List.mem_map.1 step
      obtain ⟨item, mem, same⟩ := mem_targets? all mem
      have child : Node.expr item ∈ Node.ofExpr e := parts ▸ List.mem_map_of_mem mem
      exact .inner child (ih rfl same)
    unfold target? at found
    split at found
    · cases found
      cases step
    · cases found
      exact .inner step rest
    · cases found
      exact .inner step rest
    · exact unpacked rfl found
    · exact unpacked rfl found
    · cases found
  | anew step =>
    subst is_target
    cases step

/-- A target is no deeper than the expression that it was read as. -/
theorem target_fits {e : Expr} {t : Target} (found : target? e = some t) (fits : e.Fits h) :
    (Node.target t).Fits h :=
  fun i a way => fits i a (way_of_target? way rfl found)

/-! ### Chains -/

/-- Joining two expressions adds one step. -/
def Joins (join : Expr → Expr → Expr) : Prop :=
  ∀ h left right, Expr.Fits h left → Expr.Fits h right → (join left right).Fits (h + 1)

theorem gives_chainStep (count : Nat) : Gives (fun _ => count < Grammar.maxChain) (chainStep count) := by
  unfold chainStep
  split
  · exact .fail _
  · next short => exact .done (Nat.lt_of_not_le short)

theorem gives_chain {operand : Parser Expr} {next? : Parser (Option (Expr → Expr → Expr))}
    (operands : Gives (Expr.Fits h) operand) (joins : Gives (fun found => ∀ join ∈ found, Joins join) next?) :
    Gives (Expr.Fits (h + Grammar.maxChain)) (chain operand next?) := by
  refine operands.andThen fun first fits => ?_
  refine .repeatFrom (fun turn => turn.2 ≤ Grammar.maxChain ∧ turn.1.Fits (h + turn.2)) ⟨Nat.zero_le _, fits⟩ ?_
  rintro ⟨left, count⟩ ⟨short, fits⟩
  refine joins.andThen fun found joins => ?_
  split
  · exact .done (fits.mono (Nat.add_le_add_left short h))
  · next join =>
    refine (gives_chainStep count).andThen fun _ shorter => operands.andThen fun right fits_right => ?_
    exact .done ⟨shorter, joins join rfl _ _ _ fits (fits_right.mono (Nat.le_add_right _ _))⟩

theorem joins_binary (op : BinaryOp) : Joins (.binary op) :=
  fun _ _ _ left right => .of (forall_mem_exprs_pair left right)

theorem joins_and : Joins .and := fun _ _ _ left right => .of (forall_mem_exprs_pair left right)

theorem joins_or : Joins .or := fun _ _ _ left right => .of (forall_mem_exprs_pair left right)

theorem gives_joinWord (word : String) {join : Expr → Expr → Expr} (joins : Joins join) :
    Gives (fun found => ∀ join ∈ found, Joins join) (joinWord word join) := by
  refine .after fun found => ?_
  split
  · exact .done fun _ same => Option.some.inj same ▸ joins
  · exact .done nofun

theorem gives_binaryOf (ops : List (Symbol × BinaryOp)) :
    Gives (fun found => ∀ join ∈ found, Joins join) (binaryOf ops) := by
  refine .after fun found => .done fun join mem => ?_
  obtain ⟨op, -, rfl⟩ := Option.map_eq_some_iff.1 mem
  exact joins_binary op

/-- What a level takes from others is no deeper than `b` when it was counted, and little deeper otherwise. -/
structure Grammar.Level.Fits (b : Nat) (k : Level) : Prop where
  bounded : b + layer ≤ nestingBound
  deeper (entry : Entry) : Gives (Expr.Fits b) (k.deeper entry)
  operand : Gives (Expr.Fits (b + (5 * Grammar.maxChain + 4))) (k.here .operand)
  postfixed : Gives (Expr.Fits (b + (Grammar.maxChain + 2))) (k.here .postfixed)

/-- The placeholders of templates begin anew. -/
def TemplatesFit (template : TemplateReader) : Prop :=
  ∀ body line parts, template body line = .ok parts → ∀ part ∈ parts, (Node.part part).Fits 1

theorem gives_asTarget {e : Expr} (fits : e.Fits h) : Gives (fun t => (Node.target t).Fits h) (asTarget e) := by
  unfold asTarget
  split
  · next found => exact .done (target_fits found fits)
  · exact .fail _

section

variable {b : Nat} {k : Level} {template : TemplateReader} (fits : k.Fits b)

include fits

theorem Grammar.Level.Fits.expr : Gives (Expr.Fits b) k.expr := fits.deeper .expr

theorem gives_exprList : Gives (Expr.Fits (b + 1)) (exprList k) := by
  refine fits.expr.andThen fun first fits_first => .after fun comma => ?_
  split
  · refine (Gives.moreItems fits.expr (List.forall_mem_singleton.2 fits_first)).andThen fun items all => ?_
    exact .done (.of (forall_mem_exprs all))
  · exact .done (fits_first.mono (Nat.le_succ b))

theorem gives_subscript : Gives (Expr.Fits (b + 2)) (subscript k) := by
  have bound (stop : Parser Bool) : Gives (fun found => ∀ e ∈ found, Expr.Fits b e) (orNothing stop k.expr) :=
    fits.expr.orNothing
  refine (gives_exprList fits).orNothing.andThen fun start fits_start => .after fun colon => ?_
  split
  · exact .done ((fits_start _ rfl).mono (Nat.le_succ _))
  · refine .after fun _ => (bound atBoundEnd).andThen fun stop fits_stop => ?_
    have steps : Gives (fun found => ∀ e ∈ found, Expr.Fits b e) (sliceStep k) := by
      refine .after fun colon => ?_
      split
      · exact bound _
      · exact .done nofun
    refine steps.andThen fun step fits_step => .done (.of (forall_mem_exprs fun e mem => ?_))
    simp only [List.mem_append, Option.mem_toList] at mem
    obtain (mem | mem) | mem := mem
    · exact fits_start e mem
    · exact (fits_stop e mem).mono (Nat.le_succ b)
    · exact (fits_step e mem).mono (Nat.le_succ b)

theorem gives_targetList : Gives (fun t => (Node.target t).Fits (b + (Grammar.maxChain + 3))) (targetList k) := by
  have one : Gives (fun t => (Node.target t).Fits (b + (Grammar.maxChain + 2))) (do asTarget (← k.here .postfixed)) :=
    fits.postfixed.andThen fun e fits_e => gives_asTarget fits_e
  refine fits.postfixed.andThen fun e fits_e => (gives_asTarget fits_e).andThen fun first fits_first => ?_
  refine .after fun comma => ?_
  refine (Gives.moreItems one (List.forall_mem_singleton.2 fits_first)).andThen fun targets all => .done ?_
  split
  · exact .of (List.forall_mem_map.2 all) (List.forall_mem_nil _)
  · exact fits_first.mono (Nat.le_succ _)

/-- What follows the element of a comprehension. -/
structure TailFits (b : Nat) (t : Target) (source : Expr) (cond : Option Expr) : Prop where
  target : (Node.target t).Fits (b + (5 * Grammar.maxChain + 4))
  source : source.Fits (b + (5 * Grammar.maxChain + 4))
  cond : ∀ e ∈ cond, e.Fits (b + (5 * Grammar.maxChain + 4))

theorem gives_comprehensionTail (element : Expr) :
    Gives (fun e => ∃ t source cond, e = .comprehension element t source cond ∧ TailFits b t source cond)
      (comprehensionTail k element) := by
  have filters : Gives (fun cond => ∀ e ∈ cond, e.Fits (b + (5 * Grammar.maxChain + 4))) (filter k) := by
    refine .after fun found => ?_
    split
    · exact fits.operand.andThen fun e fits_e => .done fun e' mem => Option.some.inj mem ▸ fits_e
    · exact .done nofun
  refine .after fun _ => (gives_targetList fits).andThen fun t fits_t => .after fun _ => ?_
  refine fits.operand.andThen fun source fits_source => filters.andThen fun cond fits_cond => ?_
  refine .after fun again => ?_
  split
  · exact .after fun _ => .done ⟨t, source, cond, rfl, fits_t.mono (by omega), fits_source, fits_cond⟩
  · exact .done ⟨t, source, cond, rfl, fits_t.mono (by omega), fits_source, fits_cond⟩

omit fits in
/-- An argument is no deeper than the expression that it was read as. -/
theorem argument_fits {e : Expr} (fits : e.Fits h) : (Node.argument e).Fits h := by
  cases e with
  | comprehension element t source cond =>
    intro i a way
    cases way with
    | stay => exact Nat.zero_le _
    | inner step rest =>
      obtain rfl := List.mem_singleton.1 step
      exact fits _ _ (.inner List.mem_cons_self rest)
    | anew step rest =>
      have behind := fits _ _ (.inner (List.mem_cons_of_mem _ step) rest)
      rw [Nat.mul_succ]
      omega
  | _ => exact fits

structure ArgumentsFit (b : Nat) (given : Arguments) : Prop where
  args : ∀ e ∈ given.args, (Node.argument e).Fits (b + 1)
  keywords : ∀ named ∈ given.keywords, named.2.Fits b

theorem gives_argument {taken : Arguments} (before : ArgumentsFit b taken) :
    Gives (ArgumentsFit b) (argument k taken) := by
  have positional : Gives (ArgumentsFit b) (positionalArgument k taken) := by
    unfold positionalArgument
    split
    case isFalse => exact fun _ _ _ read => nomatch read
    refine fits.expr.andThen fun arg fits_arg => .after fun generator => ?_
    split
    · refine (gives_comprehensionTail fits arg).andThen fun all ⟨t, source, cond, same, tail⟩ => ?_
      have bounded := fits.bounded
      have room : b + (5 * Grammar.maxChain + 4) ≤ nestingBound + b := by
        unfold layer at bounded
        omega
      subst same
      refine .done ⟨List.forall_mem_cons.2 ⟨?_, before.args⟩, before.keywords⟩
      refine .of (List.forall_mem_singleton.2 fits_arg) (List.forall_mem_cons.2 ⟨tail.target.mono room, ?_⟩)
      refine List.forall_mem_cons.2 ⟨tail.source.mono room, forall_mem_option fun e mem => ?_⟩
      exact (tail.cond e mem).mono room
    · have argument := (argument_fits fits_arg).mono (Nat.le_succ b)
      exact .done ⟨List.forall_mem_cons.2 ⟨argument, before.args⟩, before.keywords⟩
  have keyword : Gives (ArgumentsFit b) (keywordArgument k taken) := by
    refine .after fun name => .after fun _ => ?_
    split
    · exact .after fun _ => fits.expr.andThen fun value fits_value =>
        .done ⟨before.args, List.forall_mem_cons.2 ⟨fits_value, before.keywords⟩⟩
    · exact fits.expr.andThen fun value fits_value =>
        .done ⟨before.args, List.forall_mem_cons.2 ⟨fits_value, before.keywords⟩⟩
  refine .after fun named => ?_
  split
  · exact keyword
  · exact positional

theorem gives_arguments : Gives (ArgumentsFit b) (arguments k) := by
  refine (Gives.repeatFrom (ArgumentsFit b) ⟨List.forall_mem_nil _, List.forall_mem_nil _⟩ ?turn :
    Gives (ArgumentsFit b) _).andThen fun given all => .after fun _ => .done ⟨fun e mem => ?_, fun named mem => ?_⟩
  case turn =>
    refine fun taken before => .after fun finished => ?_
    split
    · exact .done before
    · refine (gives_argument fits before).andThen fun taken after => .after fun comma => ?_
      split
      · exact .done after
      · exact .done after
  · exact all.args e (List.mem_reverse.1 mem)
  · exact all.keywords named (List.mem_reverse.1 mem)

omit fits in
theorem gives_adjacentStrings (templates : TemplatesFit template) (line : Nat) (text : String)
    {parts : Option (List TemplatePart)} (before : ∀ list ∈ parts, ∀ part ∈ list, (Node.part part).Fits 1) :
    Gives (Expr.Fits 2) (adjacentStrings template line text parts) := by
  have texts (text : String) : (Node.part (.text text)).Fits 1 :=
    .of (List.forall_mem_nil _) (List.forall_mem_nil _)
  refine .repeatFrom (fun s => ∀ list ∈ s.2, ∀ part ∈ list, (Node.part part).Fits 1) before
    fun (text, parts) before => .after fun kind => ?_
  split
  · next s =>
    refine .after fun _ => ?_
    split
    · next list =>
      refine .done fun _ same => ?_
      obtain rfl := Option.some.inj same
      exact List.forall_mem_append.2 ⟨before list rfl, List.forall_mem_singleton.2 (texts s)⟩
    · exact .done nofun
  · next body =>
    refine .after fun _ => ?_
    have earlier : ∀ part ∈ parts.getD (if text.isEmpty then [] else [.text text]),
        (Node.part part).Fits 1 := by
      cases parts with
      | some list => exact before list rfl
      | none =>
        rw [Option.getD_none]
        split
        · exact List.forall_mem_nil _
        · exact List.forall_mem_singleton.2 (texts text)
    cases read : template body line with
    | ok more =>
      refine .done fun _ same => ?_
      obtain rfl := Option.some.inj same
      exact List.forall_mem_append.2 ⟨earlier, templates body line more read⟩
    | error e => exact fun _ _ _ failed => nomatch failed
  · split
    · next list => exact .done (.of (List.forall_mem_map.2 (before list rfl)))
    · exact .done (.leaf rfl)

theorem gives_atom (templates : TemplatesFit template) : Gives (Expr.Fits (b + 2)) (atom template k) := by
  have strings (line : Nat) (text : String) :
      Gives (Expr.Fits (b + 2)) (adjacentStrings template line text none) := by
    have gives := gives_adjacentStrings templates line text fun _ (mem : _ ∈ none) => nomatch mem
    exact fun c e r read => (gives c e r read).mono (Nat.le_add_left 2 b)
  refine .after fun line => .after fun kind => ?_
  split
  · exact .after fun _ => .done (.leaf rfl)
  · exact .after fun _ => .done (.leaf rfl)
  · exact .after fun _ => strings _ _
  · exact strings _ _
  · exact .after fun _ => .done (.leaf rfl)
  · exact .after fun _ => .done (.leaf rfl)
  · exact .after fun _ => .done (.leaf rfl)
  · split
    · exact .after fun _ => .fail _
    · split
      · exact fun _ _ _ read => nomatch read
      · exact .after fun _ => .done (.leaf rfl)
  · next s =>
    split
    · exact .after fun _ => fun c e r read => (fits.deeper (.bracket s) c e r read).mono (Nat.le_add_right b 2)
    · exact fun _ _ _ read => nomatch read
  · exact fun _ _ _ read => nomatch read

theorem gives_postfixed (templates : TemplatesFit template) :
    Gives (Expr.Fits (b + (Grammar.maxChain + 2))) (postfixed template k) := by
  refine (gives_atom fits templates).andThen fun first fits_first => ?_
  refine .repeatFrom (fun turn => turn.2 ≤ Grammar.maxChain ∧ Expr.Fits (b + (turn.2 + 2)) turn.1)
    ⟨Nat.zero_le _, fits_first.mono (by omega)⟩ ?_
  rintro ⟨object, count⟩ ⟨short, fits_object⟩
  have object_part : (Node.expr object).Fits (b + (count + 2)) := fits_object
  have here : b ≤ b + (count + 2) := Nat.le_add_right _ _
  have higher : b + 1 ≤ b + (count + 2) := by omega
  have above : b + 2 ≤ b + (count + 2) := by omega
  refine .after fun kind => ?_
  split
  · refine (gives_chainStep count).andThen fun _ shorter => .after fun _ => ?_
    refine (gives_arguments fits).andThen fun given all => .done ⟨shorter, .of ?_⟩
    refine List.forall_mem_cons.2 ⟨object_part, List.forall_mem_append.2 ⟨?_, ?_⟩⟩
    · exact List.forall_mem_map.2 fun arg mem => (all.args arg mem).mono higher
    · exact List.forall_mem_map.2 fun named mem => (all.keywords named mem).mono here
  · refine (gives_chainStep count).andThen fun _ shorter => .after fun _ => ?_
    refine (gives_subscript fits).andThen fun index fits_index => .after fun _ => .done ⟨shorter, .of ?_⟩
    exact forall_mem_exprs_pair fits_object (fits_index.mono above)
  · refine (gives_chainStep count).andThen fun _ shorter => .after fun _ => .after fun name => ?_
    exact .done ⟨shorter, .of (List.forall_mem_singleton.2 object_part)⟩
  · exact .done (fits_object.mono (by omega))

theorem gives_factor (templates : TemplatesFit template) :
    Gives (Expr.Fits (b + (Grammar.maxChain + 3))) (factor template k) := by
  have nested := fits.deeper .factor
  refine .after fun minus => ?_
  split
  · refine nested.andThen fun e fits_e => .done ?_
    unfold negate
    split
    · split
      · exact .leaf rfl
      · exact .of (List.forall_mem_singleton.2 (Expr.Fits.leaf rfl))
    · exact .leaf rfl
    · exact .of (List.forall_mem_singleton.2 (fits_e.mono (by omega)))
  · refine .after fun plus => ?_
    split
    · refine nested.andThen fun e fits_e => .done ?_
      exact .of (List.forall_mem_singleton.2 (fits_e.mono (by omega)))
    · refine (gives_postfixed fits templates).andThen fun base fits_base => .after fun power => ?_
      split
      · refine nested.andThen fun exponent fits_exponent => .done ?_
        exact .of (forall_mem_exprs_pair fits_base (fits_exponent.mono (by omega)))
      · exact .done (fits_base.mono (by omega))

theorem gives_arith (templates : TemplatesFit template) :
    Gives (Expr.Fits (b + (3 * Grammar.maxChain + 3))) (arith template k) := by
  have terms := gives_chain (gives_factor fits templates)
    (gives_binaryOf [(.star, .mul), (.slash, .div), (.floorDiv, .floorDiv), (.percent, .mod)])
  have chained := gives_chain terms (gives_binaryOf [(.plus, .add), (.minus, .sub)])
  exact fun c e r read => (chained c e r read).mono (by omega)

theorem gives_comparison (templates : TemplatesFit template) :
    Gives (Expr.Fits (b + (3 * Grammar.maxChain + 4))) (comparison template k) := by
  have operand := gives_arith fits templates
  refine operand.andThen fun first fits_first => ?_
  let Compared (others : List (CompareOp × Expr)) : Prop :=
    ∀ other ∈ others, Expr.Fits (b + (3 * Grammar.maxChain + 3)) other.2
  refine (Gives.repeatFrom Compared (List.forall_mem_nil _) ?turn : Gives Compared _).andThen
    fun rest all => .done ?_
  case turn =>
    refine fun done all => .after fun op => ?_
    split
    · exact operand.andThen fun right fits_right => .done (List.forall_mem_cons.2 ⟨fits_right, all⟩)
    · exact .done fun other mem => all other (List.mem_reverse.1 mem)
  split
  · exact fits_first.mono (by omega)
  · exact .of (List.forall_mem_cons.2 ⟨fits_first, List.forall_mem_map.2 all⟩)

theorem gives_negation (templates : TemplatesFit template) :
    Gives (Expr.Fits (b + (3 * Grammar.maxChain + 4))) (negation template k) := by
  refine .after fun found => ?_
  split
  · refine (fits.deeper .negated).andThen fun e fits_e => .done ?_
    exact .of (List.forall_mem_singleton.2 (fits_e.mono (by omega)))
  · exact gives_comparison fits templates

theorem gives_orTest (templates : TemplatesFit template) :
    Gives (Expr.Fits (b + (5 * Grammar.maxChain + 4))) (orTest template k) := by
  have ands := gives_chain (gives_negation fits templates) (gives_joinWord "and" joins_and)
  have chained := gives_chain ands (gives_joinWord "or" joins_or)
  exact fun c e r read => (chained c e r read).mono (by omega)

theorem gives_conditional (templates : TemplatesFit template) :
    Gives (Expr.Fits (b + layer)) (conditional template k) := by
  have operand := gives_orTest fits templates
  refine operand.andThen fun yes fits_yes => .after fun found => ?_
  split
  · refine operand.andThen fun cond fits_cond => .after fun _ => fits.expr.andThen fun no fits_no => .done ?_
    refine .of (List.forall_mem_cons.2 ⟨fits_cond, forall_mem_exprs_pair fits_yes (fits_no.mono ?_)⟩)
    exact Nat.le_add_right _ _
  · exact .done (fits_yes.mono (Nat.le_succ _))

omit fits in
theorem comprehension_fits {element : Expr} {t : Target} {source : Expr} {cond : Option Expr}
    (fits_element : element.Fits b) (tail : TailFits b t source cond) :
    (Expr.comprehension element t source cond).Fits (b + layer) := by
  refine .of (List.forall_mem_cons.2 ⟨fits_element.mono (Nat.le_add_right _ _), ?_⟩)
  exact List.forall_mem_cons.2 ⟨tail.target, List.forall_mem_cons.2 ⟨tail.source, forall_mem_option tail.cond⟩⟩

theorem gives_comprehension {first : Expr} (fits_first : first.Fits b) :
    Gives (Expr.Fits (b + layer)) (comprehensionTail k first) := by
  intro c e r read
  obtain ⟨t, source, cond, rfl, tail⟩ := gives_comprehensionTail fits first c e r read
  exact comprehension_fits fits_first tail

theorem gives_moreItems {first : Expr} (fits_first : first.Fits b) (s : Symbol) :
    Gives (fun items => ∀ e ∈ items, Expr.Fits b e) (moreItems k.expr (checkSymbol s) [first]) :=
  Gives.moreItems fits.expr (List.forall_mem_singleton.2 fits_first)

omit fits in
theorem fits_of_parts {e : Expr} (parts : ∀ part ∈ (Node.expr e).inner, part.Fits b) : e.Fits (b + layer) :=
  Expr.Fits.mono (.of parts) (Nat.add_le_add_left (Nat.succ_le_succ (Nat.zero_le _)) b)

theorem gives_parenTail : Gives (Expr.Fits (b + layer)) (parenTail k) := by
  refine .after fun close => ?_
  split
  · exact .done (.leaf rfl)
  · refine fits.expr.andThen fun first fits_first => .after fun found => ?_
    split
    · exact (gives_comprehension fits fits_first).andThen fun all fits_all => .after fun _ => .done fits_all
    · refine .after fun close => ?_
      split
      · exact .done (fits_first.mono (Nat.le_add_right _ _))
      · refine (gives_moreItems fits fits_first _).andThen fun items all => .after fun _ => .done ?_
        exact fits_of_parts (forall_mem_exprs all)

theorem gives_listTail : Gives (Expr.Fits (b + layer)) (listTail k) := by
  refine .after fun close => ?_
  split
  · exact .done (.leaf rfl)
  · refine fits.expr.andThen fun first fits_first => .after fun found => ?_
    split
    · exact (gives_comprehension fits fits_first).andThen fun all fits_all => .after fun _ => .done fits_all
    · refine (gives_moreItems fits fits_first _).andThen fun items all => .after fun _ => .done ?_
      exact fits_of_parts (forall_mem_exprs all)

theorem gives_dictTail : Gives (Expr.Fits (b + layer)) (dictTail k) := by
  let EntriesFit (entries : List (Expr × Expr)) : Prop := ∀ entry ∈ entries, Expr.Fits b entry.1 ∧ Expr.Fits b entry.2
  refine (Gives.repeatFrom EntriesFit (List.forall_mem_nil _) ?turn : Gives EntriesFit _).andThen
    fun entries all => .after fun _ => .done ?_
  case turn =>
    refine fun done all => .after fun close => ?_
    split
    · exact .done all
    · refine fits.expr.andThen fun key fits_key => .after fun colon => ?_
      split
      · refine fits.expr.andThen fun value fits_value => .after fun comma => ?_
        have valued : EntriesFit ((key, value) :: done) := List.forall_mem_cons.2 ⟨⟨fits_key, fits_value⟩, all⟩
        split
        · exact .done valued
        · exact .done valued
      · exact fun _ _ _ read => nomatch read
  refine fits_of_parts (List.forall_mem_append.2 ⟨?_, ?_⟩)
  · exact List.forall_mem_map.2 fun entry mem => (all entry (List.mem_reverse.1 mem)).1
  · exact List.forall_mem_map.2 fun entry mem => (all entry (List.mem_reverse.1 mem)).2

theorem gives_bracketTail (s : Symbol) : Gives (Expr.Fits (b + layer)) (bracketTail k s) := by
  unfold bracketTail
  split
  · exact gives_parenTail fits
  · exact gives_listTail fits
  · exact gives_dictTail fits

end

theorem maxNesting_layer {room : Nat} (le : room ≤ maxNesting) : room * layer + layer ≤ nestingBound := by
  rw [← Nat.succ_mul]
  exact Nat.le_succ_of_le (Nat.mul_le_mul_right layer (Nat.succ_le_succ le))

/-- What is read with `room` nested expressions left. -/
theorem gives_read {template : TemplateReader} (templates : TemplatesFit template) (fuel : Nat) {room : Nat}
    (le : room ≤ maxNesting) :
    (∀ entry, Gives (Expr.Fits (room * layer + layer)) (Grammar.read template fuel room entry)) ∧
      Gives (Expr.Fits (room * layer + (5 * Grammar.maxChain + 4))) (Grammar.read template fuel room .operand) ∧
      Gives (Expr.Fits (room * layer + (Grammar.maxChain + 2))) (Grammar.read template fuel room .postfixed) := by
  induction fuel generalizing room with
  | zero => exact ⟨fun _ => .fail _, .fail _, .fail _⟩
  | succ fuel ih =>
    let k := levelWith (fun room entry => Grammar.read template fuel room entry) room
    have fits : k.Fits (room * layer) := by
      refine ⟨maxNesting_layer le, fun entry => ?_, (ih le).2.1, (ih le).2.2⟩
      cases room with
      | zero => exact .fail _
      | succ room =>
        rw [Nat.succ_mul]
        exact (ih (Nat.le_of_succ_le le)).1 entry
    refine ⟨fun entry => ?_, gives_orTest fits templates, gives_postfixed fits templates⟩
    have lower {p : Parser Expr} {n : Nat} (gives : Gives (Expr.Fits (room * layer + n)) p)
        (le : n ≤ layer) : Gives (Expr.Fits (room * layer + layer)) p :=
      fun c e r read => (gives c e r read).mono (Nat.add_le_add_left le _)
    cases entry with
    | expr => exact gives_conditional fits templates
    | negated => exact lower (gives_negation fits templates) (by unfold layer; omega)
    | factor => exact lower (gives_factor fits templates) (by unfold layer; omega)
    | bracket s => exact gives_bracketTail fits s
    | operand => exact lower (gives_orTest fits templates) (by unfold layer; omega)
    | postfixed => exact lower (gives_postfixed fits templates) (by unfold layer; omega)

theorem outermost_fits {template : TemplateReader} (templates : TemplatesFit template) (size : Nat) :
    (outermost template size).Fits (maxNesting * layer) := by
  have here := gives_read templates (2 * size + 2) (Nat.le_refl maxNesting)
  refine ⟨maxNesting_layer (Nat.le_refl _), fun entry => ?_, here.2.1, here.2.2⟩
  have nested := (gives_read templates (2 * size + 2) (Nat.pred_le maxNesting)).1 entry
  rw [← Nat.succ_mul] at nested
  exact nested

/-! ### Placeholders and statements -/

theorem placeholder_fits {template : TemplateReader} (templates : TemplatesFit template) {source : String}
    {line : Nat} {e : Expr} (read : placeholder template source line = .ok e) :
    e.Fits (maxNesting * layer + 1) := by
  obtain ⟨tokens, r, -, read⟩ := placeholder_ok.1 read
  obtain ⟨x, c, first, last⟩ := bind_ok.1 read
  obtain ⟨rfl, -⟩ := aloneOn_ok.1 ⟨r, last⟩
  exact gives_exprList (outermost_fits templates _) _ x c first

/-- What is in a placeholder was read there. -/
theorem Placeholder.part_ok {parse : String → Nat → Except SyntaxError Expr} {line : Nat} {p : Placeholder}
    {part : TemplatePart} (read : p.part parse line = .ok part) :
    ∃ e quote spec, parse (String.ofList p.source.reverse) line = .ok e ∧ part = .value e quote spec := by
  unfold Placeholder.part at read
  dsimp only at read
  split at read
  · cases read
  · cases wants : p.wantsQuotes line with
    | error e =>
      rw [wants] at read
      cases read
    | ok quote =>
      rw [wants] at read
      cases inner : parse (String.ofList p.source.reverse) line with
      | error e =>
        simp only [bind, Except.bind, inner] at read
        cases read
      | ok e =>
        simp only [bind, Except.bind, pure, Except.pure, inner] at read
        cases read
        exact ⟨e, quote, _, rfl, rfl⟩

theorem readTemplate_fits {parse : String → Nat → Except SyntaxError Expr} {line : Nat}
    (exprs : ∀ source e, parse source line = .ok e → e.Fits (maxNesting * layer + 1)) {literal : List Char}
    {done parts : List TemplatePart} {cs : List Char} (before : ∀ part ∈ done, (Node.part part).Fits 1)
    (read : readTemplate parse line literal done cs = .ok parts) : ∀ part ∈ parts, (Node.part part).Fits 1 := by
  have flushed {literal : List Char} {done : List TemplatePart} (before : ∀ part ∈ done, (Node.part part).Fits 1) :
      ∀ part ∈ flushText literal done, (Node.part part).Fits 1 := by
    unfold flushText
    split
    · exact before
    · exact List.forall_mem_cons.2 ⟨.of (List.forall_mem_nil _) (List.forall_mem_nil _), before⟩
  have one {p : Placeholder} {part : TemplatePart} (read : p.part parse line = .ok part) :
      (Node.part part).Fits 1 := by
    obtain ⟨e, quote, spec, inner, rfl⟩ := Placeholder.part_ok read
    refine .of (List.forall_mem_nil _) (List.forall_mem_singleton.2 ((exprs _ e inner).mono ?_))
    have := maxNesting_layer (Nat.le_refl maxNesting)
    unfold layer at *
    omega
  fun_induction readTemplate parse line literal done cs with
  | case1 literal done =>
    cases read
    exact fun part mem => flushed before part (List.mem_reverse.1 mem)
  | case2 literal done rest ih => exact ih before read
  | case3 literal done rest ih => exact ih before read
  | case4 => cases read
  | case5 => cases read
  | case6 => cases read
  | case7 literal done rest single p after found shorter part inner ih =>
    exact ih (List.forall_mem_cons.2 ⟨one inner, flushed before⟩) read
  | case8 literal done c rest _ _ _ _ ih => exact ih before read

theorem templatesFit (depth : Nat) : TemplatesFit (Grammar.template depth) := by
  induction depth with
  | zero => exact fun _ _ _ read => nomatch read
  | succ depth ih =>
    intro body line parts read
    exact readTemplate_fits (fun _ _ => placeholder_fits ih) (List.forall_mem_nil _) read

/-- No way down a statement is longer than `nestingBound`, unless it begins anew. -/
structure StmtKind.Fits (kind : StmtKind) : Prop where
  parts : ∀ part ∈ Node.ofKind kind, part.Fits (maxNesting * layer + layer)
  blocks : ∀ stmt ∈ Node.blocksOf kind, (Node.stmt stmt).Fits nestingBound

theorem StmtKind.Fits.stmt {stmt : Stmt} (fits : stmt.kind.Fits) : (Node.stmt stmt).Fits nestingBound := by
  have whole : nestingBound = maxNesting * layer + layer + 1 := by rw [nestingBound, Nat.succ_mul]
  rw [whole]
  refine .of fits.parts (List.forall_mem_map.2 fun inner mem => ?_)
  exact (fits.blocks inner mem).mono (Nat.le_add_right _ _)

theorem StmtKind.Fits.simple {kind : StmtKind} (none : Node.blocksOf kind = [])
    (parts : ∀ part ∈ Node.ofKind kind, part.Fits (maxNesting * layer + layer)) : kind.Fits :=
  ⟨parts, none ▸ List.forall_mem_nil _⟩

section

variable {k : Level} (fits : k.Fits (maxNesting * layer))

include fits

theorem gives_part : Gives (Expr.Fits (maxNesting * layer + layer)) k.expr :=
  fun c e r read => (fits.expr c e r read).mono (Nat.le_add_right _ _)

theorem gives_parts : Gives (Expr.Fits (maxNesting * layer + layer)) (exprList k) :=
  fun c e r read => (gives_exprList fits c e r read).mono (by unfold layer; omega)

omit fits in
theorem gives_asTargets {es : List Expr} (all : ∀ e ∈ es, e.Fits h) :
    Gives (fun ts => ∀ t ∈ ts, (Node.target t).Fits h) (Statement.asTargets es) := by
  induction es with
  | nil => exact .done nofun
  | cons e es ih =>
    rw [List.forall_mem_cons] at all
    refine (gives_asTarget all.1).andThen fun t fits_t => (ih all.2).andThen fun ts fits_ts => .done ?_
    exact List.forall_mem_cons.2 ⟨fits_t, fits_ts⟩

theorem gives_assigned_fits {first : Expr} (fits_first : first.Fits (maxNesting * layer + layer)) :
    Gives StmtKind.Fits (Statement.assigned k first) := by
  let Chained (exprs : Expr × List Expr) : Prop :=
    exprs.1.Fits (maxNesting * layer + layer) ∧ ∀ e ∈ exprs.2, e.Fits (maxNesting * layer + layer)
  refine (Gives.repeatFrom Chained ⟨fits_first, List.forall_mem_nil _⟩ ?turn : Gives Chained _).andThen
    fun exprs chained => ?_
  case turn =>
    rintro ⟨last, before⟩ ⟨fits_last, all⟩
    refine .after fun assign => ?_
    split
    · refine (gives_parts fits).andThen fun value fits_value => .done ⟨fits_value, ?_⟩
      exact List.forall_mem_cons.2 ⟨fits_last, all⟩
    · exact .done ⟨fits_last, fun e mem => all e (List.mem_reverse.1 mem)⟩
  obtain ⟨fits_value, all⟩ := chained
  refine (gives_asTargets all).andThen fun targets fits_targets => ?_
  exact .done (.simple rfl (List.forall_mem_cons.2 ⟨fits_value, List.forall_mem_map.2 fits_targets⟩))

theorem gives_fromExpr_fits : Gives StmtKind.Fits (Statement.fromExpr k) := by
  refine (gives_parts fits).andThen fun first fits_first => .after fun kind => ?_
  split
  · refine .after fun _ => (gives_asTarget fits_first).andThen fun target fits_target => ?_
    split
    · exact .fail _
    · refine (gives_parts fits).andThen fun value fits_value => .done (.simple rfl ?_)
      exact List.forall_mem_cons.2 ⟨fits_target, List.forall_mem_singleton.2 fits_value⟩
  · refine .after fun assign => ?_
    split
    · exact gives_assigned_fits fits fits_first
    · exact .done (.simple rfl (List.forall_mem_singleton.2 fits_first))

theorem gives_simple_fits (s : Surroundings) : Gives StmtKind.Fits (Statement.simple k s) := by
  have part := gives_part fits
  refine .after fun kind => ?_
  split
  · exact .after fun _ => .done (.simple rfl (List.forall_mem_nil _))
  · split
    · exact .after fun _ => .done (.simple rfl (List.forall_mem_nil _))
    · exact .fail _
  · split
    · exact .after fun _ => .done (.simple rfl (List.forall_mem_nil _))
    · exact .fail _
  · split
    · exact .after fun _ => (gives_parts fits).orNothing.andThen fun value fits_value =>
        .done (.simple rfl (forall_mem_option fits_value))
    · exact .fail _
  · exact .after fun _ => part.orNothing.andThen fun value fits_value =>
      .done (.simple rfl (forall_mem_option fits_value))
  · refine .after fun _ => part.andThen fun cond fits_cond => .after fun comma => ?_
    split
    · refine part.andThen fun message fits_message => .done (.simple rfl ?_)
      exact forall_mem_exprs_pair fits_cond fits_message
    · exact .done (.simple rfl (List.forall_mem_singleton.2 fits_cond))
  · have item : Gives (fun t => (Node.target t).Fits (maxNesting * layer + layer)) (do asTarget (← k.expr)) :=
      part.andThen fun e fits_e => gives_asTarget fits_e
    refine .after fun _ => item.andThen fun first fits_first => ?_
    refine (Gives.moreItems item (List.forall_mem_singleton.2 fits_first)).andThen fun targets all => ?_
    exact .done (.simple rfl (List.forall_mem_map.2 all))
  · exact .after fun _ => .after fun _ => .after fun _ => .done (.simple rfl (List.forall_mem_nil _))
  · exact .after fun _ => .after fun _ => .after fun _ => .done (.simple rfl (List.forall_mem_nil _))
  · exact gives_fromExpr_fits fits

def DefaultsFit (params : List Param) : Prop :=
  ∀ p ∈ params, ∀ e ∈ p.default, Expr.Fits (maxNesting * layer + layer) e

theorem gives_parameter_fits (done : List Param) :
    Gives (fun p => ∀ e ∈ p.default, Expr.Fits (maxNesting * layer + layer) e) (Statement.parameter k done) := by
  have default : Gives (fun found => ∀ e ∈ found, Expr.Fits (maxNesting * layer + layer) e)
      (Statement.parameterDefault k done) := by
    refine .after fun assign => ?_
    split
    · exact (gives_part fits).andThen fun e fits_e => .done fun e' mem => Option.some.inj mem ▸ fits_e
    · split
      · exact .fail _
      · exact .done nofun
  refine .after fun name => ?_
  split
  · exact .fail _
  · exact default.andThen fun value fits_value => .done fits_value

theorem gives_parameters_fits : Gives DefaultsFit (Statement.parameters k) := by
  refine (Gives.repeatFrom DefaultsFit (List.forall_mem_nil _) ?turn : Gives DefaultsFit _).andThen
    fun params all => .after fun _ => .done fun p mem => all p (List.mem_reverse.1 mem)
  refine fun done before => .after fun close => ?_
  split
  · exact .done before
  · refine (gives_parameter_fits fits done).andThen fun p fits_p => .after fun comma => ?_
    have all : DefaultsFit (p :: done) := List.forall_mem_cons.2 ⟨fits_p, before⟩
    split
    · exact .done all
    · exact .done all

theorem gives_signature_fits : Gives (fun head => DefaultsFit head.2) (Statement.signature k) := by
  refine .after fun name => .after fun _ => (gives_parameters_fits fits).andThen fun params all => .after fun arrow => ?_
  split
  · exact .after fun _ => .done all
  · exact .done all

theorem gives_caught_fits : Gives (fun head => ∀ e ∈ head.1, Expr.Fits (maxNesting * layer) e)
    (Statement.caught k) := by
  refine .after fun colon => ?_
  split
  · exact .done nofun
  · refine fits.expr.andThen fun class_ fits_class => .after fun name => ?_
    exact .done fun e mem => Option.some.inj mem ▸ fits_class

/-- A statement fits if those in its blocks do. -/
theorem keeps_stmt_fits : Keeps k fun _ kind => kind.Fits where
  simple s := gives_simple_fits fits s
  cond firsts last := by
    refine ⟨List.forall_mem_map.2 fun branch mem => ?_, fun stmt mem => StmtKind.Fits.stmt ?_⟩
    · obtain ⟨c, r, read⟩ := (firsts branch mem).1
      exact gives_part fits c _ r read
    · obtain mem | mem := List.mem_append.1 mem
      · obtain ⟨branch, mem, inside⟩ := List.mem_flatMap.1 mem
        exact (firsts branch mem).2 stmt inside
      · exact last stmt mem
  loop head inside := by
    obtain ⟨c, r, read⟩ := head
    exact ⟨List.forall_mem_singleton.2 (gives_part fits c _ r read), fun stmt mem => (inside stmt mem).stmt⟩
  each head items inside := by
    obtain ⟨c, r, read⟩ := head
    obtain ⟨c', r', read'⟩ := items
    have low : Grammar.maxChain + 3 ≤ layer := by unfold layer; omega
    have target := (gives_targetList fits c _ r read).mono (Nat.add_le_add_left low _)
    exact ⟨List.forall_mem_cons.2 ⟨target, List.forall_mem_singleton.2 (gives_parts fits c' _ r' read')⟩,
      fun stmt mem => (inside stmt mem).stmt⟩
  define head inside := by
    obtain ⟨c, r, read⟩ := head
    refine ⟨fun part mem => ?_, fun stmt mem => (inside stmt mem).stmt⟩
    obtain ⟨p, among, some⟩ := List.mem_filterMap.1 mem
    obtain ⟨e, default, rfl⟩ := Option.map_eq_some_iff.1 some
    exact gives_signature_fits fits c _ r read p among e default
  attempt inside handled otherwise last := by
    refine ⟨List.forall_mem_map.2 fun h mem => ?_, fun stmt mem => StmtKind.Fits.stmt ?_⟩
    · obtain ⟨class_, name, body, rfl, ⟨c, r, read⟩, all⟩ := handled h mem
      have low : maxNesting * layer + 1 ≤ maxNesting * layer + layer :=
        Nat.add_le_add_left (Nat.succ_le_succ (Nat.zero_le _)) _
      have caught : (Node.handler (.mk class_ name body)).Fits (maxNesting * layer + 1) := by
        refine .of (forall_mem_option (gives_caught_fits fits c _ r read)) ?_
        exact List.forall_mem_map.2 fun stmt mem => (all stmt mem).stmt.mono (Nat.le_add_right _ _)
      exact caught.mono low
    · obtain mem | mem := List.mem_append.1 mem
      · obtain mem | mem := List.mem_append.1 mem
        · exact inside stmt mem
        · exact otherwise stmt mem
      · exact last stmt mem

end

/-- Below the statements of a program, every way down is bounded by how often it begins anew. -/
theorem parse_nesting {source : String} {body : List Stmt} (h : parse source = .ok body) {stmt : Stmt}
    (mem : stmt ∈ body) {i a : Nat} (way : (Node.stmt stmt).Way i a) : i + a ≤ nestingBound * (a + 1) :=
  (allGood_of_parse (fun size => keeps_stmt_fits (outermost_fits (templatesFit _) size)) h stmt mem).stmt i a way

/-- Down to the name in `f(x for x in y)`. -/
theorem parse_nesting_of_generator :
    let stmt : Stmt := .mk 1 (.expr (.call (.name "f") [.comprehension (.name "x") (.name "x") (.name "y") none] []))
    parse "f(x for x in y)" = .ok [stmt] ∧ (Node.stmt stmt).Way 2 1 ∧ 2 + 1 ≤ nestingBound * (1 + 1) := by
  intro stmt
  have tokens : tokenize "f(x for x in y)" = .ok [⟨.name "f", 1⟩, ⟨.symbol .openParen, 1⟩, ⟨.name "x", 1⟩,
      ⟨.name "for", 1⟩, ⟨.name "x", 1⟩, ⟨.name "in", 1⟩, ⟨.name "y", 1⟩, ⟨.symbol .closeParen, 1⟩, ⟨.newline, 1⟩,
      ⟨.eof, 1⟩] := by decide +kernel
  have read : parse "f(x for x in y)" = .ok [stmt] := by
    rw [parse, tokens]
    cbv
  have way : (Node.stmt stmt).Way 2 1 := by
    refine .inner List.mem_cons_self (@Node.Way.inner _ (.generator (.name "x") (.name "x") (.name "y") none) 0 1 ?_ ?_)
    · simp [Node.inner, Node.ofExpr, Node.argument]
    · exact .anew (.tail _ List.mem_cons_self) (.stay _)
  exact ⟨read, way, parse_nesting read List.mem_cons_self way⟩

end SnippetKernel.Source
