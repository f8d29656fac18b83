import SnippetKernel.Proofs.Source.Advancing
import SnippetKernel.Proofs.Source.Positions

/-! Reading always ends. The scan takes a character at every turn, and statements and expressions take tokens before
they repeat and before they are read inside each other. What comes of a text is a program, or an error on a line of
the text: no reader runs out of turns. -/
namespace SnippetKernel.Source

open Source.Parser Grammar Text

/-! ### Statements -/

theorem AdvancesHere.located {kind : Parser StmtKind} {c : Cursor} (taken : AdvancesHere (fun _ => True) kind c) :
    AdvancesHere (fun _ => True) (Statement.located kind) c := by
  have bound : Statement.located kind c = (kind c >>= fun found => .ok (.mk c.line found.1, found.2)) := rfl
  unfold AdvancesHere
  rw [bound]
  obtain ⟨x, n, found, inside, some⟩ | ⟨e, refused, reported⟩ := taken
  · rw [found]
    exact .inl ⟨_, n, rfl, inside, fun _ => some trivial⟩
  · rw [refused]
    exact .inr ⟨e, rfl, reported⟩

theorem Advances.located {kind : Parser StmtKind} {depth room : Nat} (taken : Takes depth room kind) :
    Takes depth room (Statement.located kind) := fun c bounded few => (taken c bounded few).located

theorem TokenKind.isEof_of_isLayout {kind : TokenKind} (word : kind.isLayout = false) : kind.isEof = false := by
  cases kind <;> first | rfl | cases word

namespace Statement

variable {depth room : Nat} {k : Level} {s : Surroundings}

theorem settles_dottedName : Settles depth room dottedName := by
  unfold dottedName
  refine Advances.expectName.after fun first => .repeatFrom (fun name => ?_) _
  exact .eat rfl (Advances.expectName.after fun _ => .done id) (.done id)

theorem settles_asName : Settles depth room asName :=
  .eat rfl (Advances.expectName.after fun _ => .done id) (.done id)

theorem settles_loadItem : Settles depth room loadItem :=
  settles_dottedName.after fun _ => settles_asName.after fun _ => .done id

theorem settles_asTargets (es : List Expr) : Settles depth room (asTargets es) := by
  induction es with
  | nil => exact .done id
  | cons e es ih => exact (settles_asTarget e).after fun _ => ih.after fun _ => .done id

section

variable (ready : k.Ready depth room)

include ready

theorem settles_augmented (target : Expr) (op : BinaryOp) : Settles depth room (augmented k target op) := by
  unfold augmented
  refine (settles_asTarget target).after fun target => ?_
  split
  · exact .fail rfl
  · exact (takes_exprList ready).after fun _ => .done id

theorem settles_assigned (first : Expr) : Settles depth room (assigned k first) := by
  unfold assigned
  refine Advances.ends (.repeatFrom (fun state => ?_) _) fun exprs =>
    (settles_asTargets _).after fun _ => .done id
  exact .eat rfl ((takes_exprList ready.less).after fun _ => .done id) (.done id)

theorem takes_fromExpr : Takes depth room (fromExpr k) := by
  unfold fromExpr
  refine (takes_exprList ready).begins fun first => .peek fun kind => ?_
  split
  · next op found =>
    have inside := TokenKind.isEof_of_isLayout (augmented_word (i := 0) found).1
    exact .skip inside (settles_augmented ready.less.less first op)
  · refine (Advances.check _ fun assign => ?_).at _
    cases assign with
    | true => exact settles_assigned ready.less first
    | false => exact .done id

theorem takes_simple (s : Surroundings) : Takes depth room (simple k s) := by
  have expr := ready.less.expr
  unfold simple
  refine .peek fun kind => ?_
  split
  · exact .skip rfl (.done id)
  · split
    · exact .skip rfl (.done id)
    · exact (Advances.fail rfl).at _
  · split
    · exact .skip rfl (.done id)
    · exact (Advances.fail rfl).at _
  · split
    · refine .skip rfl (Advances.ends ?_ fun _ => .done id)
      exact settles_orNothing settles_atSimpleEnd (takes_exprList ready.less).settles
    · exact (Advances.fail rfl).at _
  · refine .skip rfl (Advances.ends ?_ fun _ => .done id)
    exact settles_orNothing settles_atSimpleEnd expr.settles
  · refine .skip rfl (expr.after fun cond => ?_)
    exact .eat rfl (expr.less.after fun _ => .done id) (.done id)
  · have item : Settles depth (room - 1) (k.expr >>= asTarget) := expr.after settles_asTarget
    refine .skip rfl (item.after fun first => ?_)
    exact (settles_moreItems item (.done id) _).after fun _ => .done id
  · refine .skip rfl (Advances.expectName.after fun first => ?_)
    exact (settles_moreItems Advances.expectName.settles (.done id) _).after fun _ => .done id
  · refine .skip rfl (settles_loadItem.after fun first => ?_)
    exact (settles_moreItems settles_loadItem (.done id) _).after fun _ => .done id
  · exact (takes_fromExpr ready).at _

theorem takes_simpleLine (s : Surroundings) : Takes depth room (simpleLine k s) := by
  have simples : Takes depth room (simples k s) := by
    unfold simples
    refine .repeatFrom (fun done => ?_) _
    refine (takes_simple ready s).located.begins fun stmt => .eat rfl (.peek fun kind => Advances.at ?_ kind) (.done id)
    split <;> exact .done id
  unfold simpleLine
  refine simples.begins fun stmts => .peek fun kind => ?_
  split
  · exact .skip rfl (.done id)
  · exact (Advances.done id).at _
  · exact (Advances.done id).at _
  · exact Advances.unexpected.at _

end

theorem takes_lineOr {statement : Parser (List Stmt)} (statements : Takes depth room statement) :
    Takes depth room (lineOr statement) := .eat rfl (.done id) statements

theorem settles_block {statement : Parser (List Stmt)} (statements : Takes depth room statement) :
    Settles depth room (block statement) := by
  have indented : Settles depth room (indented statement) := by
    refine .eat rfl (.repeatFrom (fun done => .eat rfl (.done id) (.check _ fun eof => ?_)) _) (.fail rfl)
    split
    · exact .done id
    · exact (takes_lineOr statements.less).begins fun more => .done id
  exact (Advances.expectSymbol _).after fun _ => .eat rfl indented.less statements.settles

section

variable (ready : k.Ready depth room)

include ready

theorem settles_parameters : Settles depth room (parameters k) := by
  have parameterDefault (done : List Param) : Settles depth room (parameterDefault k done) := by
    refine .eat rfl (ready.less.expr.after fun _ => .done id) ?_
    simp only [Bool.false_eq_true, if_false]
    split
    · exact .fail rfl
    · exact .done id
  have parameter (done : List Param) : Settles depth room (parameter k done) := by
    unfold parameter
    refine Advances.expectName.after fun name => ?_
    split
    · exact .fail (named_append (named_append rfl _) _)
    · exact (parameterDefault done).after fun _ => .done id
  unfold parameters
  refine Advances.ends (.repeatFrom (fun done => .check _ fun closed => ?_) _) fun params =>
    (Advances.expectSymbol _).after fun _ => .done id
  cases closed with
  | true => exact .done id
  | false => exact (parameter done).ends fun param => .eat rfl (.done id) (.done id)

theorem settles_signature : Settles depth room (signature k) := by
  unfold signature
  refine Advances.expectName.after fun name => (Advances.expectSymbol _).after fun _ => ?_
  refine (settles_parameters ready).after fun params => ?_
  exact .eat rfl (ready.less.expr.after fun _ => .done id) (.done id)

theorem settles_caught : Settles depth room (caught k) := by
  unfold caught
  refine .check _ fun colon => ?_
  cases colon with
  | true => exact .done id
  | false => exact ready.expr.after fun _ => settles_asName.after fun _ => .done id

variable {body : Parser (List Stmt)} (blocks : Settles depth room body)

include blocks

theorem settles_branches (first : Expr × List Stmt) : Settles depth room (branches k body first) := by
  unfold branches
  refine .repeatFrom (fun done => .eat rfl ?_ ?_) _
  · exact ready.less.expr.after fun cond => blocks.less.after fun body => .done id
  · exact .eat rfl (blocks.less.after fun body => .done id) (.done id)

theorem settles_attempt : Settles depth room (attempt k body) := by
  have partAfter (word : String) : Settles depth room (partAfter word body) := .eat rfl blocks.less (.done id)
  have handlers : Settles depth room (handlers k body) := by
    unfold handlers
    refine .repeatFrom (fun done => .eat rfl ?_ (.done id)) _
    simp only [if_true]
    split
    · exact .fail rfl
    · have handled : Settles depth room (handler k body) :=
        (settles_caught ready).after fun caught => blocks.after fun body => .done id
      exact handled.less.after fun handler => .done id
  have elsePart (handlers : List Handler) : Settles depth room (elsePart handlers body) := by
    unfold elsePart
    split
    · exact .done id
    · exact partAfter _
  unfold attempt
  refine blocks.after fun body => handlers.after fun handlers => (elsePart handlers).after fun orelse => ?_
  refine (partAfter _).after fun final => ?_
  split
  · exact .fail rfl
  · exact .done id

end

/-- The first word of a statement with blocks has been taken when these are read. -/
theorem takes_oneOf (ready : k.Ready depth (room + 1)) {inner : Surroundings → Parser (List Stmt)}
    (inners : ∀ s, Takes depth room (inner s)) (s : Surroundings) : Takes depth (room + 1) (oneOf k inner s) := by
  have below : k.Ready depth room := ready.less
  have blocks (s : Surroundings) := settles_block (inners s)
  have compound {word : String} {kind : Parser StmtKind} (found : compound? k inner s word = some kind) :
      Settles depth room kind := by
    unfold compound? at found
    split at found <;> cases found
    · exact below.expr.after fun cond => (blocks s).after fun body => settles_branches below (blocks s) (cond, body)
    · exact below.expr.after fun cond => (blocks _).after fun body => .done id
    · refine (settles_targetList below).after fun target => (Advances.expectWord _).after fun _ => ?_
      exact (takes_exprList below).after fun source => (blocks _).after fun body => .done id
    · exact (settles_signature below).after fun named => (blocks _).after fun body => .done id
    · exact settles_attempt below (blocks s)
  unfold oneOf
  refine .peek fun kind => ?_
  split
  · split
    · next kind found =>
      intro c bounded few same
      have first : AdvancesHere (fun _ => True) (Parser.skip >>= fun _ => kind) c :=
        AdvancesAt.skip rfl (compound found) c bounded few same
      exact first.located.andThen bounded few (fun _ _ => .done id) fun _ free => absurd trivial free
    · split
      · exact (Advances.fail (named_append (named_append rfl _) _)).at _
      · exact (takes_simpleLine ready s).at _
  · exact (takes_simpleLine ready s).at _

theorem takes_read {fuel : Nat} (enough : room ≤ fuel) (ready : k.Ready depth room) (s : Surroundings) :
    Takes depth room (read k fuel s) := by
  induction fuel generalizing room s with
  | zero =>
    obtain rfl : room = 0 := Nat.le_zero.1 enough
    exact .nowhere
  | succ fuel ih =>
    obtain _ | room := room
    · exact .nowhere
    · exact takes_oneOf ready (ih (Nat.le_of_succ_le_succ enough) ready.less) s

end Statement

theorem advances_programTurn {depth room : Nat} {statement : Parser (List Stmt)}
    (statements : Takes depth room statement) (done : List Stmt) :
    Advances depth room (fun turn => turn.isLeft) (programTurn statement done) := by
  unfold programTurn
  refine .check _ fun eof => ?_
  split
  · exact .done nofun
  · exact (Statement.takes_lineOr statements).begins fun more => .done id

theorem settles_program {depth : Nat} {template : TemplateReader} (templates : TemplatesReport depth template)
    {c : Cursor} (bounded : c.Bounded depth) : AdvancesHere (fun _ => False) (program template) c := by
  have statement : Takes depth (c.size + 1) (outermostStatement template c.size) :=
    Statement.takes_read (Nat.le_refl _) (ready_outermost templates c.size) _
  have turns : Settles depth (c.size + 1)
      (Parser.repeatFrom [] (programTurn (outermostStatement template c.size))) := by
    refine .repeatFrom (fun done => (advances_programTurn statement done).imp fun turn more => ?_) _
    cases turn with
    | inl more => rfl
    | inr body => exact more.elim
  have here := turns c bounded (Nat.lt_succ_of_le bounded.room)
  unfold AdvancesHere at here ⊢
  rw [program_eq]
  exact here

/-! ### Texts -/

section

variable {line : Nat} {cs : List Char} {e : SyntaxError}

theorem named_escapedCode (refused : escapedCode cs line = .error e) : e.message ≠ outOfTurns := by
  unfold escapedCode at refused
  split at refused <;> cases refused
  exact ne_outOfTurns rfl

theorem named_readString {close : List Char} {multiline : Bool} {start : Nat} {done : List Char}
    (refused : readString close multiline start line done cs = .error e) : e.message ≠ outOfTurns := by
  fun_induction readString close multiline start line done cs
  all_goals first
    | next ih => exact ih refused
    | next code _ _ =>
      cases refused
      exact named_escapedCode code
    | cases refused <;> exact ne_outOfTurns rfl

theorem named_readRaw {close : List Char} {multiline : Bool} {start : Nat} {done : List Char}
    (refused : readRaw close multiline start line done cs = .error e) : e.message ≠ outOfTurns := by
  fun_induction readRaw close multiline start line done cs
  all_goals first
    | next ih => exact ih refused
    | cases refused <;> exact ne_outOfTurns rfl

theorem named_readNumber (refused : readNumber line cs = .error e) : e.message ≠ outOfTurns := by
  have numeral {cs : List Char} (refused : readNumeral line cs = .error e) : e.message ≠ outOfTurns := by
    unfold readNumeral at refused
    split at refused <;> split at refused <;> cases refused <;> exact ne_outOfTurns rfl
  unfold readNumber at refused
  split at refused
  · split at refused
    · unfold readRadix at refused
      dsimp only at refused
      split at refused <;> cases refused
      exact ne_outOfTurns rfl
    · exact numeral refused
  · exact numeral refused

namespace Scan

variable {s : Scan}

theorem named_takeString {raw : Bool} {kind : String → TokenKind} (refused : s.takeString raw kind = .error e) :
    e.message ≠ outOfTurns := by
  unfold takeString at refused
  split at refused
  · cases refused
  · next failed =>
    cases refused
    unfold readQuotes at failed
    dsimp only at failed
    split at failed
    · exact named_readRaw failed
    · exact named_readString failed

theorem named_takeName (refused : s.takeName = .error e) : e.message ≠ outOfTurns := by
  unfold takeName takeNamed at refused
  dsimp only at refused
  split at refused
  · split at refused
    · split at refused
      · exact named_takeString refused
      · split at refused
        · exact named_takeString refused
        · cases refused
    · cases refused
  · cases refused

theorem named_takeToken {c : Char} {tail : List Char} (refused : s.takeToken c tail = .error e) :
    e.message ≠ outOfTurns := by
  unfold takeToken at refused
  split at refused
  · cases refused
  split at refused
  · cases refused
  split at refused
  · cases refused
  split at refused
  · cases refused
  split at refused
  · unfold takeNumber at refused
    split at refused <;> cases refused
    next failed => exact named_readNumber failed
  split at refused
  · exact named_takeString refused
  split at refused
  · exact named_takeName refused
  · unfold takeSymbol at refused
    split at refused <;> cases refused
    exact ne_outOfTurns (named_append (named_append rfl _) _)

theorem named_step (refused : s.step = .error e) : e.message ≠ outOfTurns := by
  have lineStart (refused : s.takeLineStart = .error e) : e.message ≠ outOfTurns := by
    unfold takeLineStart at refused
    split at refused
    · cases refused
    · split at refused
      · cases refused
      split at refused
      · cases refused
      split at refused
      · exact named_takeToken refused
      · next failed =>
        cases refused
        unfold indentTo at failed
        dsimp only at failed
        split at failed
        · cases failed
        · split at failed <;> cases failed
          exact ne_outOfTurns rfl
  unfold step at refused
  split at refused
  · exact lineStart refused
  · split at refused
    · cases refused
    · exact named_takeToken refused

theorem named_run (refused : s.run = .error e) : e.message ≠ outOfTurns := by
  induction s using run.induct with
  | case1 s done =>
    rw [run_of_rest done] at refused
    cases refused
  | case2 s more t turn shorter ih =>
    rw [run_of_step more turn] at refused
    exact ih refused
  | case3 s more e' failed =>
    rw [run_of_error more failed] at refused
    cases refused
    exact named_step failed

end Scan

end

/-- Counting lines from one is counting them from nought, a line further down. -/
theorem tokenize_eq_below (source : String) : ∃ above : Scan,
    tokenize source = lowered 1 (·.map (·.below 1)) above.run := by
  refine ⟨{ Scan.start source with line := 0 }, ?_⟩
  have below : Scan.start source = Scan.below 1 { Scan.start source with line := 0 } := rfl
  rw [tokenize, below, Scan.run_below]
  rfl

theorem reports_tokenize (source : String) : Reports (tokenize source) := by
  intro e refused
  refine ⟨Scan.named_run refused, ?_⟩
  obtain ⟨above, same⟩ := tokenize_eq_below source
  rw [same] at refused
  cases scanned : above.run with
  | ok tokens =>
    rw [scanned] at refused
    cases refused
  | error e' =>
    rw [scanned] at refused
    cases refused
    exact Nat.succ_pos _

theorem line_of_tokenize {source : String} {tokens : List Token} (scanned : tokenize source = .ok tokens) :
    ∀ t ∈ tokens, 0 < t.line := by
  obtain ⟨above, same⟩ := tokenize_eq_below source
  rw [same] at scanned
  cases first : above.run with
  | ok tokens' =>
    rw [first] at scanned
    cases scanned
    intro t mem
    obtain ⟨t', -, rfl⟩ := List.mem_map.1 mem
    exact Nat.succ_pos _
  | error e =>
    rw [first] at scanned
    cases scanned

theorem TokenKind.Short.mono {kind : TokenKind} {n m : Nat} (short : kind.Short n) (le : n ≤ m) : kind.Short m := by
  cases kind with
  | template body => exact Nat.lt_of_lt_of_le short le
  | _ => trivial

/-- The tokens of a text can be read as far as there is room for the templates in it. -/
theorem bounded_of_tokenize {source : String} {tokens : List Token} (scanned : tokenize source = .ok tokens)
    {depth : Nat} (le : source.length ≤ depth) : (Cursor.ofTokens tokens).Bounded depth where
  room := Nat.le_refl _
  lines := line_of_tokenize scanned
  last := by
    unfold Cursor.ofTokens
    cases last : tokens.getLast? with
    | none => exact Nat.one_pos
    | some t => exact line_of_tokenize scanned t (List.mem_of_getLast? last)
  short t mem := (short_of_tokenize scanned t mem).mono le

theorem bounded_onLine {tokens : List Token} {depth line : Nat} (bounded : (Cursor.ofTokens tokens).Bounded depth)
    (positive : 0 < line) : (Cursor.ofTokens (onLine line tokens)).Bounded depth where
  room := Nat.le_refl _
  lines t mem := by
    obtain ⟨t', -, rfl⟩ := List.mem_map.1 mem
    exact positive
  last := by
    unfold Cursor.ofTokens
    cases last : (onLine line tokens).getLast? with
    | none => exact Nat.one_pos
    | some t =>
      obtain ⟨t', -, rfl⟩ := List.mem_map.1 (List.mem_of_getLast? last)
      exact positive
  short t mem := by
    obtain ⟨t', among, rfl⟩ := List.mem_map.1 mem
    exact bounded.short t' among

/-! ### Templates -/

theorem Placeholder.reports_part {parse : String → Nat → Except SyntaxError Expr} {line : Nat} (positive : 0 < line)
    {p : Placeholder} (parses : Reports (parse (String.ofList p.source.reverse) line)) :
    Reports (p.part parse line) := by
  have quotes : Reports (p.wantsQuotes line) := by
    unfold wantsQuotes
    split
    · exact .done _
    · exact .done _
    · exact .done _
    · exact .refused ⟨ne_outOfTurns (named_append (named_append rfl _) _), positive⟩
  unfold part
  dsimp only
  split
  · exact .refused ⟨ne_outOfTurns rfl, positive⟩
  · exact quotes.andThen fun quote _ => parses.andThen fun expr _ => .done _

theorem reports_readTemplate {parse : String → Nat → Except SyntaxError Expr} {line : Nat} (positive : 0 < line)
    {literal : List Char} {done : List TemplatePart} {cs : List Char}
    (parts : ∀ p ∈ placeholders cs, Reports (p.part parse line)) :
    Reports (readTemplate parse line literal done cs) := by
  fun_induction placeholders cs generalizing literal done with
  | case1 =>
    rw [readTemplate]
    exact .done _
  | case2 rest ih | case3 rest ih =>
    rw [readTemplate]
    exact ih parts
  | case4 rest single =>
    rw [readTemplate]
    · exact .refused ⟨ne_outOfTurns rfl, positive⟩
    · exact single
  | case5 rest single unclosed =>
    rw [readTemplate]
    · split
      · exact .refused ⟨ne_outOfTurns rfl, positive⟩
      · next found =>
        rw [unclosed] at found
        cases found
    · exact single
  | case6 rest single p after found shorter ih =>
    rw [List.forall_mem_cons] at parts
    rw [readTemplate_cons single found]
    exact parts.1.andThen fun part _ => ih parts.2
  | case7 c rest _ _ _ _ ih =>
    rw [readTemplate]
    · exact ih parts
    all_goals assumption

/-- What is read of bounded tokens is read or refused at a line. -/
theorem AdvancesHere.reports {α : Type} {due : α → Prop} {p : Parser α} {c : Cursor} (advances : AdvancesHere due p c) :
    Reports (p c) := by
  obtain ⟨x, n, found, -⟩ | ⟨e, refused, reported⟩ := advances
  · rw [found]
    exact .done _
  · rw [refused]
    exact .refused reported

theorem settles_aloneOn {depth room line : Nat} (positive : 0 < line) (e : Expr) :
    Settles depth room (aloneOn line e) := by
  have ended : Settles depth room (do
      if ← Parser.check .eof then return e else throw ⟨"f-string: invalid expression", line⟩) := by
    refine .check _ fun eof => ?_
    split
    · exact .done id
    · exact .refuse ⟨ne_outOfTurns rfl, positive⟩
  exact .eat rfl ended.less ended

theorem reports_placeholder {depth : Nat} {template : TemplateReader} (templates : TemplatesReport depth template)
    {source : String} (short : (Text.trim source).length ≤ depth) {line : Nat} (positive : 0 < line) :
    Reports (placeholder template source line) := by
  cases scanned : tokenize (Text.trim source) with
  | error e =>
    have reported := reports_tokenize _ e scanned
    unfold placeholder
    rw [scanned]
    exact .refused reported
  | ok tokens =>
    have bounded := bounded_onLine (bounded_of_tokenize scanned short) positive
    have size : (Cursor.ofTokens (onLine line tokens)).rest.length < tokens.length + 1 := by
      simp only [Cursor.ofTokens, onLine, List.length_map, Nat.lt_succ_self]
    have reading : Settles depth (tokens.length + 1)
        (exprList (outermost template tokens.length) >>= aloneOn line) :=
      (takes_exprList (ready_outermost templates _)).after (settles_aloneOn positive)
    rw [placeholder_eq template scanned]
    exact (reading _ bounded size).reports.andThen fun _ _ => .done _

/-- A placeholder is shorter than the template it stands in. -/
theorem templatesReport (depth : Nat) : TemplatesReport depth (Grammar.template depth) := by
  induction depth with
  | zero => exact fun _ _ short => absurd short (Nat.not_lt_zero _)
  | succ depth ih =>
    intro body line short positive
    refine reports_readTemplate positive fun p mem => Placeholder.reports_part positive ?_
    exact reports_placeholder ih (Nat.le_of_lt_succ (Nat.lt_of_lt_of_le (length_text_lt mem) (by omega))) positive

theorem reports_parse (source : String) : Reports (parse source) := by
  unfold parse
  refine (reports_tokenize source).andThen fun tokens scanned => ?_
  have bounded := bounded_of_tokenize scanned (Nat.le_succ source.length)
  exact (settles_program (templatesReport _) bounded).reports.andThen fun _ _ => .done _

theorem Reports.outcome {α : Type} {result : Except SyntaxError α} (reports : Reports result) :
    (∃ x, result = .ok x) ∨ ∃ e, result = .error e ∧ e.Reported := by
  cases result with
  | ok x => exact .inl ⟨x, rfl⟩
  | error e => exact .inr ⟨e, rfl, reports e rfl⟩

/-- Every text is read to an end.

A turn of the scan takes a character. A rule for expressions takes a token, and so does a statement. Where they enter
the grammar again, fewer tokens are left: the level, and the reader of the statements in a block, are only asked to
take tokens there, and may do whatever they like elsewhere. After a bracket, which is a token itself, an expression
may follow at once. A loop over statements takes a token at each turn but the last. A placeholder takes a character,
and its text is shorter than the template, which is shorter than the text around it.

So the readers that a program is read with have turns enough. What comes of a text, and of its tokens, is a result or
an error at a line. -/
theorem reading_ends :
    (∀ s t : Scan, s.rest ≠ [] → s.step = .ok t → t.rest.length < s.rest.length) ∧
    (∀ depth room template k entry, TemplatesReport depth template → k.Ready depth room →
      (entry.opened = 1 → Takes depth (room + 1) k.expr) → Takes depth (room + 1) (rule template k entry)) ∧
    (∀ depth room k inner s, k.Ready depth (room + 1) → (∀ s, Takes depth room (inner s)) →
      Takes depth (room + 1) (Statement.oneOf k inner s)) ∧
    (∀ depth room statement done, Takes depth room statement →
      Advances depth room (fun turn => turn.isLeft) (programTurn statement done)) ∧
    (∀ cs p after, Placeholder.read? ⟨[], none, none⟩ 0 none cs = some (p, after) → after.length < cs.length) ∧
    (∀ (body : String), ∀ p ∈ placeholders body.toList, p.text.length < body.length) ∧
    (∀ source tokens, tokenize source = .ok tokens → ∀ t ∈ tokens, t.kind.Short source.length) ∧
    (∀ depth size, (outermost (Grammar.template depth) size).Ready depth (size + 1)) ∧
    (∀ depth size s, Takes depth (size + 1) (Statement.read (outermost (Grammar.template depth) size) (size + 1) s)) ∧
    (∀ source, (∃ tokens, tokenize source = .ok tokens) ∨ ∃ e, tokenize source = .error e ∧ e.Reported) ∧
    ∀ source, (∃ body, parse source = .ok body) ∨ ∃ e, parse source = .error e ∧ e.Reported := by
  have ready (depth size : Nat) : (outermost (Grammar.template depth) size).Ready depth (size + 1) :=
    ready_outermost (templatesReport depth) size
  refine ⟨fun s t more turn => Scan.step_shorter more turn,
    fun _ _ _ _ entry templates ready outside => takes_rule templates ready entry outside,
    fun _ _ _ _ s ready inners => Statement.takes_oneOf ready inners s,
    fun _ _ _ done statements => advances_programTurn statements done,
    fun _ _ _ found => Placeholder.read?_length found,
    fun _ _ mem => length_text_lt mem,
    fun _ _ scanned => short_of_tokenize scanned,
    ready, fun depth size s => Statement.takes_read (Nat.le_refl _) (ready depth size) s,
    fun source => (reports_tokenize source).outcome, fun source => (reports_parse source).outcome⟩

end SnippetKernel.Source
