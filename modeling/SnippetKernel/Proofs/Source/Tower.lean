import SnippetKernel.Proofs.Source.Depth
import SnippetKernel.Proofs.Source.Lexing
import SnippetKernel.Proofs.Source.Operands

/-! A tower of comprehensions: each one is the only argument of a call, and goes over the next one. Nothing
counts the stories, so a program can be as deep as its text is long. -/
namespace SnippetKernel.Source

open Source.Parser Grammar

namespace Tower

/-- What each story is built around: the text `f(x for x in `. -/
def front : List Char := "f(x for x in ".toList

def frontKinds : List TokenKind :=
  [.name "f", .symbol .openParen, .name "x", .name "for", .name "x", .name "in"]

def chars : Nat → List Char
  | 0 => ['x']
  | n + 1 => front ++ (chars n ++ [')'])

def kinds : Nat → List TokenKind
  | 0 => [.name "x"]
  | n + 1 => frontKinds ++ (kinds n ++ [.symbol .closeParen])

/-- A call whose argument goes over the source. -/
def story (source : Expr) : Expr := .call (.name "f") [.comprehension (.name "x") (.name "x") source none] []

def expr : Nat → Expr
  | 0 => .name "x"
  | n + 1 => story (expr n)

theorem makes_word (c : Char) (cs : List Char) (start : Text.isNameStart c = true)
    (parts : cs.all Text.isNamePart = true) (rest : List Char) :
    Makes (c :: cs ++ [' ']) [.name (String.ofList (c :: cs))] rest :=
  (Makes.name start parts (.cons (by decide) rest)).append .space

theorem makes_front (rest : List Char) : Makes front frontKinds rest := by
  have call : Makes ['f'] [.name "f"] ('(' :: ("x for x in ".toList ++ rest)) :=
    .name (by decide) rfl (.cons (by decide) _)
  have opened : Makes ['('] [.symbol .openParen] ("x for x in ".toList ++ rest) :=
    Makes.symbol (s := .openParen) (by decide)
  have element := makes_word 'x' [] (by decide) rfl
  have target := (makes_word 'f' ['o', 'r'] (by decide) (by decide) _).append (element ("in ".toList ++ rest))
  have source := target.append (makes_word 'i' ['n'] (by decide) (by decide) rest)
  exact call.append (opened.append ((element _).append source))

theorem makes (n : Nat) {rest : List Char} (stops : Delimits rest) : Makes (chars n) (kinds n) rest := by
  induction n generalizing rest with
  | zero => exact .name (by decide) rfl stops
  | succ n ih =>
    have close : Makes [')'] [.symbol .closeParen] rest := Makes.symbol (s := .closeParen) (by decide)
    exact (makes_front _).append ((ih (.cons (by decide) rest)).append close)

/-! ### Reading -/

section

variable {template : TemplateReader} {fuel room : Nat} {c : Cursor} {rest : List Token}

/-- A name as the target of a comprehension. -/
theorem targetList_name : targetList (levelWith (Grammar.read template (fuel + 1)) room)
    (c.on (⟨.name "x", 1⟩ :: ⟨.name "in", 1⟩ :: rest)) = .ok (.name "x", c.on (⟨.name "in", 1⟩ :: rest)) := by
  have name : (levelWith (Grammar.read template (fuel + 1)) room).here .postfixed
      (c.on (⟨.name "x", 1⟩ :: ⟨.name "in", 1⟩ :: rest)) = .ok (.name "x", c.on (⟨.name "in", 1⟩ :: rest)) := by
    change Grammar.read template (fuel + 1) room .postfixed _ = _
    rw [Grammar.read]
    exact (bind_of_ok rfl).trans (repeatFrom_done rfl)
  have alone : (c.on (⟨.name "in", 1⟩ :: rest)).peek ≠ .symbol .comma := by rintro ⟨⟩
  have last (item : Parser Target) : moreItems item (checkWord "in") [.name "x"] (c.on (⟨.name "in", 1⟩ :: rest)) =
      .ok ([.name "x"], c.on (⟨.name "in", 1⟩ :: rest)) :=
    repeatFrom_done ((bind_of_ok (eat_other alone)).trans rfl)
  refine (bind_of_ok name).trans ((bind_of_ok rfl).trans ((bind_of_ok (check_other alone)).trans ?_))
  exact (bind_of_ok (last _)).trans rfl

theorem orTest_name (closes : (c.on rest).peek ∈ closers) (k : Level) :
    orTest template k (c.on (⟨.name "x", 1⟩ :: rest)) = .ok (.name "x", c.on rest) := by
  have atom : atom template k (c.on (⟨.name "x", 1⟩ :: rest)) = .ok (.name "x", c.on rest) := rfl
  refine orTest_of_factor ?_ (factor_of_postfixed ?_ ?_ (postfixed_of_atom atom closes) closes) closes <;>
    simp [Cursor.on, Cursor.peek]

theorem expr_name (closes : (c.on rest).peek ∈ closers) :
    (levelWith (Grammar.read template (fuel + 1)) (room + 1)).expr (c.on (⟨.name "x", 1⟩ :: rest)) =
      .ok (.name "x", c.on rest) := by
  change Grammar.read template (fuel + 1) room .expr _ = _
  rw [Grammar.read]
  exact (bind_of_ok (orTest_name closes _)).trans (bind_of_ok (eat_other (ne_of_closer closes (by decide))))

/-! What the comprehension goes over is read one level further down. -/

variable {source : Expr} {tokens : List Token}
  (inner : orTest template (levelWith (Grammar.read template fuel) (room + 1)) (c.on tokens) =
    .ok (source, c.on (⟨.symbol .closeParen, 1⟩ :: rest)))

include inner

theorem comprehensionTail_source :
    comprehensionTail (levelWith (Grammar.read template (fuel + 1)) (room + 1)) (.name "x")
      (c.on (⟨.name "for", 1⟩ :: ⟨.name "x", 1⟩ :: ⟨.name "in", 1⟩ :: tokens)) =
      .ok (.comprehension (.name "x") (.name "x") source none, c.on (⟨.symbol .closeParen, 1⟩ :: rest)) := by
  have operand : (levelWith (Grammar.read template (fuel + 1)) (room + 1)).here .operand (c.on tokens) =
      .ok (source, c.on (⟨.symbol .closeParen, 1⟩ :: rest)) := by
    change Grammar.read template (fuel + 1) (room + 1) .operand _ = _
    rw [Grammar.read]
    exact inner
  have unfiltered : Grammar.filter (levelWith (Grammar.read template (fuel + 1)) (room + 1))
      (c.on (⟨.symbol .closeParen, 1⟩ :: rest)) = .ok (none, c.on (⟨.symbol .closeParen, 1⟩ :: rest)) :=
    (bind_of_ok (eat_cons_of_ne (by decide))).trans rfl
  have last : (c.on (⟨.symbol .closeParen, 1⟩ :: rest)).peek ≠ .name "for" := by rintro ⟨⟩
  refine (bind_of_ok expectWord_cons).trans ((bind_of_ok targetList_name).trans ?_)
  refine (bind_of_ok expectWord_cons).trans ((bind_of_ok operand).trans ?_)
  exact (bind_of_ok unfiltered).trans ((bind_of_ok (check_other last)).trans rfl)

/-- The comprehension is the only argument, so it needs no brackets of its own. -/
theorem arguments_comprehension :
    arguments (levelWith (Grammar.read template (fuel + 1)) (room + 1))
      (c.on (⟨.name "x", 1⟩ :: ⟨.name "for", 1⟩ :: ⟨.name "x", 1⟩ :: ⟨.name "in", 1⟩ :: tokens)) =
      .ok (⟨[.comprehension (.name "x") (.name "x") source none], []⟩, c.on rest) := by
  have element : (levelWith (Grammar.read template (fuel + 1)) (room + 1)).expr
      (c.on (⟨.name "x", 1⟩ :: ⟨.name "for", 1⟩ :: ⟨.name "x", 1⟩ :: ⟨.name "in", 1⟩ :: tokens)) =
      .ok (.name "x", c.on (⟨.name "for", 1⟩ :: ⟨.name "x", 1⟩ :: ⟨.name "in", 1⟩ :: tokens)) :=
    expr_name (closes_cons (by decide) 1 _)
  have one : argument (levelWith (Grammar.read template (fuel + 1)) (room + 1)) ⟨[], []⟩
      (c.on (⟨.name "x", 1⟩ :: ⟨.name "for", 1⟩ :: ⟨.name "x", 1⟩ :: ⟨.name "in", 1⟩ :: tokens)) =
      .ok (⟨[.comprehension (.name "x") (.name "x") source none], []⟩, c.on (⟨.symbol .closeParen, 1⟩ :: rest)) := by
    refine (bind_of_ok rfl).trans ((bind_of_ok element).trans ?_)
    exact (bind_of_ok check_cons).trans ((bind_of_ok (comprehensionTail_source inner)).trans rfl)
  have goes_on : (c.on (⟨.name "x", 1⟩ :: ⟨.name "for", 1⟩ :: ⟨.name "x", 1⟩ :: ⟨.name "in", 1⟩ :: tokens)).peek ≠
      .symbol .closeParen := by rintro ⟨⟩
  refine (bind_of_ok (repeatFrom_done (x := ⟨[.comprehension (.name "x") (.name "x") source none], []⟩)
    (r := c.on (⟨.symbol .closeParen, 1⟩ :: rest)) ?turn)).trans ((bind_of_ok expectSymbol_cons).trans rfl)
  refine (bind_of_ok (check_other goes_on)).trans ((bind_of_ok one).trans ?_)
  exact (bind_of_ok (eat_cons_of_ne (by decide))).trans rfl

theorem postfixed_call (long : 0 < c.size) (closes : (c.on rest).peek ∈ closers) :
    postfixed template (levelWith (Grammar.read template (fuel + 1)) (room + 1)) (c.on (onFirst frontKinds ++ tokens)) =
      .ok (story source, c.on rest) := by
  obtain ⟨n, size⟩ := Nat.exists_eq_succ_of_ne_zero (Nat.ne_of_gt long)
  refine (bind_of_ok rfl).trans ?_
  rw [repeatFrom_eq]
  change Parser.turns _ (c.size + 1) _ _ = _
  rw [size]
  refine Eq.trans (b := Parser.turns _ _ (story source, 1) (c.on rest)) (turns_more ?call) (turns_done ?done)
  case call =>
    have opened : Parser.peek (c.on (onFirst frontKinds.tail ++ tokens)) =
        .ok (.symbol .openParen, c.on (onFirst frontKinds.tail ++ tokens)) := rfl
    have counted : chainStep 0 (c.on (onFirst frontKinds.tail ++ tokens)) =
        .ok ((), c.on (onFirst frontKinds.tail ++ tokens)) := rfl
    refine (bind_of_ok opened).trans ((bind_of_ok counted).trans ((bind_of_ok rfl).trans ?_))
    exact (bind_of_ok (arguments_comprehension inner)).trans rfl
  case done =>
    refine before_closer closes fun kind mem => ?_
    simp only [closers, List.mem_cons, List.not_mem_nil, or_false] at mem
    rcases mem with rfl | rfl | rfl | rfl | rfl | rfl | rfl | rfl | rfl <;> rfl

/-- A call with the comprehension as its argument. -/
theorem orTest_call (long : 0 < c.size) (closes : (c.on rest).peek ∈ closers) :
    orTest template (levelWith (Grammar.read template (fuel + 1)) (room + 1)) (c.on (onFirst frontKinds ++ tokens)) =
      .ok (story source, c.on rest) := by
  refine orTest_of_factor ?_ (factor_of_postfixed ?_ ?_ (postfixed_call inner long closes) closes) closes <;>
    simp [Cursor.on, Cursor.peek, onFirst, frontKinds]

omit inner

theorem orTest_tower (n : Nat) (fueled : n ≤ fuel) (long : 0 < c.size) (closes : (c.on rest).peek ∈ closers) :
    orTest template (levelWith (Grammar.read template fuel) (room + 1)) (c.on (onFirst (kinds n) ++ rest)) =
      .ok (expr n, c.on rest) := by
  induction n generalizing fuel rest with
  | zero => exact orTest_name closes _
  | succ n ih =>
    obtain ⟨fuel, rfl⟩ := Nat.exists_eq_add_of_le' (Nat.le_trans (Nat.le_add_left 1 n) fueled)
    have closed : (c.on (⟨.symbol .closeParen, 1⟩ :: rest)).peek ∈ closers := closes_cons (by decide) 1 rest
    have inner := ih (Nat.le_of_succ_le_succ fueled) closed
    have tokens : onFirst (kinds (n + 1)) ++ rest =
        onFirst frontKinds ++ (onFirst (kinds n) ++ ⟨.symbol .closeParen, 1⟩ :: rest) := by
      simp [kinds, onFirst]
    rw [tokens]
    exact orTest_call inner long closes

end

/-! ### The whole text -/

theorem tokenize_tower (n : Nat) :
    tokenize (String.ofList (chars (n + 1))) = .ok (onFirst (kinds (n + 1)) ++ lineEnd) := by
  have last : kinds (n + 1) = (frontKinds ++ kinds n) ++ [.symbol .closeParen] := by simp [kinds]
  have all : Makes (chars (n + 1)) ((frontKinds ++ kinds n) ++ [.symbol .closeParen]) [] := last ▸ makes (n + 1) .nil
  rw [last]
  refine (tokenize_of_makes (c := 'f') (by decide) all (by decide)).trans ?_
  simp [onFirst, lineEnd]

theorem length_kinds (n : Nat) : n < (kinds n).length := by
  induction n with
  | zero => decide
  | succ n ih =>
    simp only [kinds, List.length_append, List.length_singleton]
    omega

/-- Towers of all heights are programs. -/
theorem parse_tower (n : Nat) : parse (String.ofList (chars (n + 1))) = .ok [.mk 1 (.expr (expr (n + 1)))] := by
  obtain ⟨c, made⟩ : ∃ c, c = Cursor.ofTokens (onFirst (kinds (n + 1)) ++ lineEnd) := ⟨_, rfl⟩
  have size : c.size = (kinds (n + 1)).length + 2 := by simp [made, Cursor.ofTokens, onFirst, lineEnd]
  have all : c = c.on (onFirst (kinds (n + 1)) ++ lineEnd) := by simp [made, Cursor.ofTokens, Cursor.on]
  have named : c = c.on (⟨.name "f", 1⟩ ::
      (onFirst (frontKinds.tail ++ (kinds n ++ [.symbol .closeParen])) ++ lineEnd)) := all
  have long := length_kinds (n + 1)
  have closes : (c.on lineEnd).peek ∈ closers := closes_cons (by decide) 1 _
  have whole (template : TemplateReader) : (outermost template c.size).expr c =
      .ok (expr (n + 1), c.on lineEnd) := by
    have operand : orTest template (levelWith (Grammar.read template (2 * c.size + 1)) (maxNesting - 2 + 1))
        (c.on (onFirst (kinds (n + 1)) ++ lineEnd)) = .ok (expr (n + 1), c.on lineEnd) :=
      orTest_tower (n + 1) (by omega) (by omega) closes
    rw [← all] at operand
    change Grammar.read template (2 * c.size + 1 + 1) (maxNesting - 1) .expr c = _
    rw [Grammar.read]
    exact (bind_of_ok operand).trans (bind_of_ok (eat_other (ne_of_closer closes (by decide))))
  have simple (template : TemplateReader) : Statement.fromExpr (outermost template c.size) c =
      .ok (.expr (expr (n + 1)), c.on lineEnd) := by
    have ended : Parser.peek (c.on lineEnd) = .ok (.newline, c.on lineEnd) := rfl
    have alone : (c.on lineEnd).peek ≠ .symbol .assign := by rintro ⟨⟩
    have one : (c.on lineEnd).peek ≠ .symbol .comma := by rintro ⟨⟩
    refine (bind_of_ok (exprList_alone (whole template) one)).trans ((bind_of_ok ended).trans ?_)
    exact (bind_of_ok (check_other alone)).trans rfl
  have read (template : TemplateReader) :
      program template c = .ok ([.mk 1 (.expr (expr (n + 1)))], c.on [⟨.eof, 1⟩]) := by
    have line := simple template
    rw [named] at line ⊢
    exact program_line (fun _ _ => rfl) rfl (by omega) line
  exact parse_ok.2 ⟨_, _, tokenize_tower n, made ▸ read _⟩

/-- Every story is one step down that is not counted. -/
theorem way_expr (n : Nat) : (Node.expr (expr n)).Way n n := by
  induction n with
  | zero => exact .stay _
  | succ n ih =>
    have argument : Node.generator (.name "x") (.name "x") (expr n) none ∈ (Node.expr (expr (n + 1))).inner := by
      simp [expr, story, Node.inner, Node.ofExpr, Node.argument]
    refine .inner argument (.anew ?_ ih)
    simp [Node.anew]

end Tower

/-- However deep a tree is to be, there is a program with a deeper one. -/
theorem parse_unbounded : ¬∃ bound, ∀ source body, parse source = .ok body → ∀ stmt ∈ body,
    ∀ i a, (Node.stmt stmt).Way i a → i + a ≤ bound := by
  rintro ⟨bound, bounded⟩
  have expression : Node.expr (Tower.expr (bound + 1)) ∈ (Node.stmt (.mk 1 (.expr (Tower.expr (bound + 1))))).inner :=
    List.mem_cons_self
  have deep := bounded _ _ (Tower.parse_tower bound) _ List.mem_cons_self _ _
    (.inner expression (Tower.way_expr (bound + 1)))
  omega

end SnippetKernel.Source
