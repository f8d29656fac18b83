import SnippetKernel.Proofs.Source.Reading
import SnippetKernel.Source.Parser

/-! Operands that stand alone, and statements that do. Where no operator follows, every level of the grammar
gives what the level below it gave. -/
namespace SnippetKernel.Source

open Source.Parser Grammar

/-- The cursor before other tokens. -/
def Cursor.on (c : Cursor) (rest : List Token) : Cursor := { c with rest }

section

variable {α β σ : Type} {c r : Cursor} {x : α}

theorem bind_of_ok {p : Parser α} {f : α → Parser β} (h : p c = .ok (x, r)) : (p >>= f) c = f x r := by
  change (p c >>= fun read => f read.1 read.2) = f x r
  rw [h]
  rfl

theorem eat_same {kind : TokenKind} (next : c.peek = kind) :
    Parser.eat kind c = .ok (true, c.on c.rest.tail) := by
  change (if c.peek = kind then _ else _ : Parser Bool) c = _
  rw [if_pos next]
  rfl

theorem eat_other {kind : TokenKind} (next : c.peek ≠ kind) : Parser.eat kind c = .ok (false, c) := by
  change (if c.peek = kind then _ else _ : Parser Bool) c = _
  rw [if_neg next]
  rfl

theorem check_same {kind : TokenKind} (next : c.peek = kind) : Parser.check kind c = .ok (true, c) := by
  rw [← decide_eq_true next]
  rfl

theorem check_other {kind : TokenKind} (next : c.peek ≠ kind) : Parser.check kind c = .ok (false, c) := by
  rw [← decide_eq_false next]
  rfl

theorem eat_cons {kind : TokenKind} {line : Nat} {rest : List Token} :
    Parser.eat kind (c.on (⟨kind, line⟩ :: rest)) = .ok (true, c.on rest) := eat_same rfl

theorem eat_cons_of_ne {kind other : TokenKind} {line : Nat} {rest : List Token} (ne : other ≠ kind) :
    Parser.eat kind (c.on (⟨other, line⟩ :: rest)) = .ok (false, c.on (⟨other, line⟩ :: rest)) := eat_other ne

theorem check_cons {kind : TokenKind} {line : Nat} {rest : List Token} :
    Parser.check kind (c.on (⟨kind, line⟩ :: rest)) = .ok (true, c.on (⟨kind, line⟩ :: rest)) := check_same rfl

theorem expectSymbol_cons {s : Symbol} {line : Nat} {rest : List Token} :
    Parser.expectSymbol s (c.on (⟨.symbol s, line⟩ :: rest)) = .ok ((), c.on rest) := bind_of_ok eat_cons

theorem expectWord_cons {word : String} {line : Nat} {rest : List Token} :
    Parser.expectWord word (c.on (⟨.name word, line⟩ :: rest)) = .ok ((), c.on rest) := bind_of_ok eat_cons

theorem turns_done {step : σ → Parser (σ ⊕ α)} {s : σ} {n : Nat} (h : step s c = .ok (.inr x, r)) :
    Parser.turns step (n + 1) s c = .ok (x, r) := bind_of_ok h

theorem turns_more {step : σ → Parser (σ ⊕ α)} {s s' : σ} {n : Nat} (h : step s c = .ok (.inl s', r)) :
    Parser.turns step (n + 1) s c = Parser.turns step n s' r := bind_of_ok h

theorem repeatFrom_done {step : σ → Parser (σ ⊕ α)} {s : σ} (h : step s c = .ok (.inr x, r)) :
    Parser.repeatFrom s step c = .ok (x, r) := turns_done h

theorem repeatFrom_eq (s : σ) (step : σ → Parser (σ ⊕ α)) :
    Parser.repeatFrom s step c = Parser.turns step (c.size + 1) s c := rfl

end

/-- Tokens that no operand goes on with. -/
def closers : List TokenKind :=
  [.symbol .comma, .symbol .colon, .symbol .closeParen, .symbol .closeBracket, .symbol .closeBrace,
    .symbol .assign, .name "for", .newline, .eof]

/-- The next token closes what stands before it. -/
theorem closes_cons {c : Cursor} {kind : TokenKind} (mem : kind ∈ closers) (line : Nat) (rest : List Token) :
    (c.on (⟨kind, line⟩ :: rest)).peek ∈ closers := mem

section

variable {template : TemplateReader} {k : Level} {c r : Cursor} {e : Expr}

theorem chain_alone {operand : Parser Expr} {next? : Parser (Option (Expr → Expr → Expr))}
    (read : operand c = .ok (e, r)) (last : next? r = .ok (none, r)) : chain operand next? c = .ok (e, r) := by
  exact (bind_of_ok read).trans (repeatFrom_done (bind_of_ok last))

theorem eatOneOf_none {α : Type} {ops : List (Symbol × α)} (other : ∀ op ∈ ops, r.peek ≠ .symbol op.1) :
    eatOneOf ops r = .ok (none, r) := by
  induction ops with
  | nil => rfl
  | cons op ops ih =>
    rw [List.forall_mem_cons] at other
    exact (bind_of_ok (eat_other other.1)).trans (ih other.2)

theorem binaryOf_none {ops : List (Symbol × BinaryOp)} (other : ∀ op ∈ ops, r.peek ≠ .symbol op.1) :
    binaryOf ops r = .ok (none, r) := bind_of_ok (eatOneOf_none other)

theorem joinWord_none {word : String} {join : Expr → Expr → Expr} (other : r.peek ≠ .name word) :
    joinWord word join r = .ok (none, r) := bind_of_ok (eat_other other)

theorem ne_of_closer {kind : TokenKind} (closes : r.peek ∈ closers) (other : kind ∉ closers) : r.peek ≠ kind :=
  fun same => other (same ▸ closes)

/-- What is done before a token that closes is the same before each of them. -/
theorem before_closer {α : Type} {f : TokenKind → Parser α} {x : α} (closes : r.peek ∈ closers)
    (all : ∀ kind ∈ closers, f kind r = .ok (x, r)) : (Parser.peek >>= f) r = .ok (x, r) :=
  (bind_of_ok rfl).trans (all _ closes)

theorem compareOp_none (closes : r.peek ∈ closers) : compareOp r = .ok (none, r) := by
  refine before_closer closes fun kind mem => ?_
  simp only [closers, List.mem_cons, List.not_mem_nil, or_false] at mem
  rcases mem with rfl | rfl | rfl | rfl | rfl | rfl | rfl | rfl | rfl <;> rfl

/-- What is read as an atom is a factor if no sign stands before it. -/
theorem factor_of_postfixed (minus : c.peek ≠ .symbol .minus) (plus : c.peek ≠ .symbol .plus)
    (read : postfixed template k c = .ok (e, r)) (closes : r.peek ∈ closers) :
    factor template k c = .ok (e, r) := by
  refine (bind_of_ok (eat_other minus)).trans ((bind_of_ok (eat_other plus)).trans ?_)
  refine (bind_of_ok read).trans ?_
  exact bind_of_ok (eat_other (ne_of_closer closes (by decide)))

theorem orTest_of_factor (negated : c.peek ≠ .name "not") (read : factor template k c = .ok (e, r))
    (closes : r.peek ∈ closers) : orTest template k c = .ok (e, r) := by
  have other (kind : TokenKind) (none : kind ∉ closers) : r.peek ≠ kind := ne_of_closer closes none
  have arith : arith template k c = .ok (e, r) := by
    refine chain_alone (chain_alone read (binaryOf_none ?_)) (binaryOf_none ?_) <;>
    · intro op mem
      refine other _ ?_
      revert op
      decide
  have comparison : comparison template k c = .ok (e, r) := by
    refine (bind_of_ok arith).trans ?_
    exact (bind_of_ok (x := []) (r := r) (repeatFrom_done (bind_of_ok (compareOp_none closes)))).trans rfl
  have negation : negation template k c = .ok (e, r) := (bind_of_ok (eat_other negated)).trans comparison
  refine chain_alone (chain_alone negation (joinWord_none ?_)) (joinWord_none ?_) <;>
  · exact other _ (by decide)

theorem conditional_of_factor (negated : c.peek ≠ .name "not") (read : factor template k c = .ok (e, r))
    (closes : r.peek ∈ closers) : conditional template k c = .ok (e, r) := by
  refine (bind_of_ok (orTest_of_factor negated read closes)).trans ?_
  exact bind_of_ok (eat_other (ne_of_closer closes (by decide)))

theorem postfixed_of_atom (read : atom template k c = .ok (e, r)) (closes : r.peek ∈ closers) :
    postfixed template k c = .ok (e, r) := by
  refine (bind_of_ok read).trans (repeatFrom_done (before_closer closes fun kind mem => ?_))
  simp only [closers, List.mem_cons, List.not_mem_nil, or_false] at mem
  rcases mem with rfl | rfl | rfl | rfl | rfl | rfl | rfl | rfl | rfl <;> rfl

theorem exprList_alone (read : k.expr c = .ok (e, r)) (alone : r.peek ≠ .symbol .comma) :
    exprList k c = .ok (e, r) :=
  (bind_of_ok read).trans (bind_of_ok (check_other alone))

end

/-! ### Lines -/

/-- What is behind the only statement of a text: the end of the line, and of the text. -/
def lineEnd : List Token := [⟨.newline, 1⟩, ⟨.eof, 1⟩]

/-- A text with one statement, which begins with a word that is nothing else. -/
theorem program_line {template : TemplateReader} {c : Cursor} {word : String} {line ended last : Nat} {more : List Token}
    {kind : StmtKind}
    (plain : ∀ k inner, Statement.compound? k inner .outermost word = none)
    (known : reservedWords.contains word = false) (long : 0 < c.size)
    (simple : Statement.simple (outermost template c.size) .outermost (c.on (⟨.name word, line⟩ :: more)) =
      .ok (kind, c.on [⟨.newline, ended⟩, ⟨.eof, last⟩])) :
    program template (c.on (⟨.name word, line⟩ :: more)) = .ok ([.mk line kind], c.on [⟨.eof, last⟩]) := by
  let k := outermost template c.size
  obtain ⟨n, size⟩ := Nat.exists_eq_succ_of_ne_zero (Nat.ne_of_gt long)
  have located : Statement.located (Statement.simple k .outermost) (c.on (⟨.name word, line⟩ :: more)) =
      .ok (.mk line kind, c.on [⟨.newline, ended⟩, ⟨.eof, last⟩]) := (bind_of_ok rfl).trans ((bind_of_ok simple).trans rfl)
  have simples : Statement.simples k .outermost (c.on (⟨.name word, line⟩ :: more)) =
      .ok ([.mk line kind], c.on [⟨.newline, ended⟩, ⟨.eof, last⟩]) := by
    refine repeatFrom_done ((bind_of_ok located).trans ?_)
    exact (bind_of_ok (eat_cons_of_ne (by decide))).trans rfl
  have whole : Statement.simpleLine k .outermost (c.on (⟨.name word, line⟩ :: more)) =
      .ok ([.mk line kind], c.on [⟨.eof, last⟩]) := (bind_of_ok simples).trans rfl
  have read : Statement.read k (c.size + 1) .outermost (c.on (⟨.name word, line⟩ :: more)) =
      .ok ([.mk line kind], c.on [⟨.eof, last⟩]) := by
    have starts : Parser.peek (c.on (⟨.name word, line⟩ :: more)) =
        .ok (.name word, c.on (⟨.name word, line⟩ :: more)) := rfl
    rw [Statement.read, Statement.oneOf]
    refine (bind_of_ok starts).trans ?_
    simp only [plain, known]
    exact whole
  have statement : Statement.lineOr (Statement.read k (c.size + 1) .outermost) (c.on (⟨.name word, line⟩ :: more)) =
      .ok ([.mk line kind], c.on [⟨.eof, last⟩]) := by
    have full : (c.on (⟨.name word, line⟩ :: more)).peek ≠ .newline := nofun
    exact (bind_of_ok (eat_other full)).trans read
  have turn : programTurn (Statement.read k (c.size + 1) .outermost) [] (c.on (⟨.name word, line⟩ :: more)) =
      .ok (.inl [.mk line kind], c.on [⟨.eof, last⟩]) := by
    have goes_on : (c.on (⟨.name word, line⟩ :: more)).peek ≠ .eof := nofun
    exact (bind_of_ok (check_other goes_on)).trans ((bind_of_ok statement).trans rfl)
  refine (bind_of_ok rfl).trans ?_
  rw [repeatFrom_eq]
  change Parser.turns _ (c.size + 1) _ _ = _
  rw [size]
  refine (turns_more turn).trans ?_
  exact turns_done ((bind_of_ok check_cons).trans rfl)

end SnippetKernel.Source
