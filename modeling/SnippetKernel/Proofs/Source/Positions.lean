import Mathlib
import SnippetKernel.Proofs.Source.Bodies
import SnippetKernel.Proofs.Source.Lowering
import SnippetKernel.Proofs.Source.Programs

/-! Lines are positions in the text. A text with empty lines in front is the same program further down, or is
refused for the same reason further down. There is one exception: a placeholder is scanned apart, and what cannot
be scanned there is reported with a line of the placeholder. -/
namespace SnippetKernel.Source

open Source.Parser Grammar Text

/-- The placeholders of a template, up to the one that does not end. -/
def placeholders (cs : List Char) : List Placeholder :=
  match cs with
  | [] => []
  | '\x7b' :: '\x7b' :: rest => placeholders rest
  | '\x7d' :: '\x7d' :: rest => placeholders rest
  | '\x7d' :: _ => []
  | '\x7b' :: rest =>
    match found : Placeholder.read? ⟨[], none, none⟩ 0 none rest with
    | none => []
    | some (p, after) =>
      have _shorter := Placeholder.read?_length found
      p :: placeholders after
  | _ :: rest => placeholders rest
termination_by cs.length

/-- What is scanned of a placeholder. -/
def Placeholder.text (p : Placeholder) : String := Text.trim (String.ofList p.source.reverse)

/-- What is scanned apart of a text: its placeholders. -/
def scannedApart (text : String) : List String :=
  match tokenize text with
  | .error _ => []
  | .ok tokens => tokens.flatMap fun t =>
    match t.kind with
    | .template body => (placeholders body.toList).map (·.text)
    | _ => []

/-- A placeholder of the text, or one of its placeholders and so on, cannot be scanned. -/
inductive Stray : String → SyntaxError → Prop
  | here {text inner : String} {e : SyntaxError} (among : inner ∈ scannedApart text)
    (refused : tokenize inner = .error e) : Stray text e
  | deeper {text inner : String} {e : SyntaxError} (among : inner ∈ scannedApart text) (strays : Stray inner e) :
    Stray text e

variable {d : Nat} {stray : SyntaxError → Prop}

section

variable {rest after : List Char} {p : Placeholder} (single : ∀ more, rest = '\x7b' :: more → False)
  (found : Placeholder.read? ⟨[], none, none⟩ 0 none rest = some (p, after))

include single found

theorem readTemplate_cons (parse : String → Nat → Except SyntaxError Expr) (line : Nat) (literal : List Char)
    (done : List TemplatePart) : readTemplate parse line literal done ('\x7b' :: rest) =
      p.part parse line >>= fun part => readTemplate parse line [] (part :: flushText literal done) after := by
  rw [readTemplate]
  · split
    · next none =>
      rw [found] at none
      cases none
    · next same =>
      rw [found] at same
      cases same
      cases p.part parse line <;> rfl
  · exact single

end

theorem mem_placeholders_shorter {cs : List Char} {p : Placeholder} (mem : p ∈ placeholders cs) :
    p.source.length < cs.length := by
  fun_induction placeholders cs with
  | case1 | case4 | case5 => cases mem
  | case2 rest ih | case3 rest ih | case7 c rest _ _ _ _ ih =>
    have shorter := ih mem
    simp only [List.length_cons]
    omega
  | case6 rest _ q after found shorter ih =>
    have source := Placeholder.read?_source found
    simp only [List.length_nil, List.length_cons] at source ⊢
    rcases List.mem_cons.1 mem with rfl | later
    · omega
    · have shorter_still := ih later
      omega

theorem length_text_lt {body : String} {p : Placeholder} (mem : p ∈ placeholders body.toList) :
    p.text.length < body.length := by
  have shorter := mem_placeholders_shorter mem
  rw [String.length_toList] at shorter
  refine Nat.lt_of_le_of_lt (length_trim_le _) ?_
  rw [String.length_ofList, List.length_reverse]
  exact shorter

theorem Placeholder.part_sinks {parse parse' : String → Nat → Except SyntaxError Expr} {p : Placeholder}
    {line : Nat}
    (parses : Sinks d stray id (parse (String.ofList p.source.reverse) line)
      (parse' (String.ofList p.source.reverse) (line + d))) :
    Sinks d stray id (p.part parse line) (p.part parse' (line + d)) := by
  have quotes : Sinks d stray id (p.wantsQuotes line) (p.wantsQuotes (line + d)) := by
    refine .inl ?_
    unfold wantsQuotes
    split <;> rfl
  unfold part
  dsimp only
  split
  · exact .inl rfl
  · exact quotes.bind fun quote _ => parses.bind fun expr _ => .inl rfl

theorem readTemplate_sinks {parse parse' : String → Nat → Except SyntaxError Expr} {line : Nat}
    {literal : List Char}
    {done : List TemplatePart} {cs : List Char}
    (parts : ∀ p ∈ placeholders cs, Sinks d stray id (p.part parse line) (p.part parse' (line + d))) :
    Sinks d stray id (readTemplate parse line literal done cs) (readTemplate parse' (line + d) literal done cs) := by
  fun_induction placeholders cs generalizing literal done with
  | case1 =>
    rw [readTemplate, readTemplate]
    exact .inl rfl
  | case2 rest ih =>
    rw [readTemplate, readTemplate]
    exact ih parts
  | case3 rest ih =>
    rw [readTemplate, readTemplate]
    exact ih parts
  | case4 rest single =>
    rw [readTemplate, readTemplate]
    · exact .inl rfl
    all_goals exact single
  | case5 rest single unclosed =>
    rw [readTemplate, readTemplate]
    · split
      · exact .inl rfl
      · next found =>
        rw [unclosed] at found
        cases found
    all_goals exact single
  | case6 rest single p after found shorter ih =>
    rw [List.forall_mem_cons] at parts
    rw [readTemplate_cons single found, readTemplate_cons single found]
    exact parts.1.bind fun part _ => ih parts.2
  | case7 c rest _ _ _ _ ih =>
    rw [readTemplate, readTemplate]
    · exact ih parts
    all_goals assumption

/-! Expressions in a text whose templates sink. -/

variable {q : Lowering} {template template' : TemplateReader}

theorem templates_lower (sinks : ∀ body line, q.body body →
      Sinks q.d q.stray id (template body line) (template' body (line + q.d))) :
    Parser.Likeness.Templates (fun _ _ p p' => Lowers q id p p') (fun kind _ _ p p' => LowersAt q kind id p p')
      (fun line line' => line' = line + q.d) template template' where
  toLikeness := Lowers.likeness q
  body body line line' lines f f' next := by
    subst lines
    intro c holds found
    have may : q.body body := by
      obtain ⟨rest, lastLine, size⟩ := c
      cases rest with
      | nil => cases found
      | cons t rest => exact holds t List.mem_cons_self body found
    refine (Lowers.skip c holds).andThen fun _ c holds => ?_
    obtain same | ⟨e, strays, same, same'⟩ := sinks body line may
    · rw [same]
      cases template body line with
      | ok parts => exact next parts c holds
      | error e => exact .refused rfl rfl
    · rw [same, same']
      exact ⟨.inr ⟨e, strays, rfl, rfl⟩, fun _ _ read => nomatch read⟩

theorem lowers_outermost (sinks : ∀ body line, q.body body →
      Sinks q.d q.stray id (template body line) (template' body (line + q.d))) (size : Nat) :
    LevelLowers q (outermost template size) (outermost template' size) := by
  have reads (fuel room : Nat) (entry : Entry) :
      Lowers q id (read template fuel room entry) (read template' fuel room entry) := by
    induction fuel generalizing room entry with
    | zero => exact .fail _
    | succ fuel ih => exact alike_read (templates_lower sinks) ih room entry
  exact ⟨Lowers.likeness q, fun entry => reads _ _ entry, fun entry => reads _ _ entry⟩

theorem Cursor.ofTokens_below {tokens : List Token} (some : tokens ≠ []) :
    Cursor.ofTokens (tokens.map (·.below d)) = (Cursor.ofTokens tokens).below d := by
  obtain ⟨before, last, rfl⟩ := List.eq_nil_or_concat tokens |>.resolve_left some
  simp [Cursor.ofTokens, Cursor.below, Token.below]

theorem tokens_ne_nil {text : String} {tokens : List Token} (scanned : tokenize text = .ok tokens) :
    tokens ≠ [] := by
  obtain ⟨s, -, rfl⟩ := tokenize_sound scanned
  rw [Scan.finish_eq]
  exact List.append_ne_nil_of_right_ne_nil _ (List.cons_ne_nil _ _)

theorem lowers_aloneOn (line : Nat) (e : Expr) : Lowers q id (aloneOn line e) (aloneOn (line + q.d) e) := by
  have ended : Lowers q id (do
      if ← Parser.check .eof then return e else throw ⟨"f-string: invalid expression", line⟩ : Parser Expr) (do
      if ← Parser.check .eof then return e else throw ⟨"f-string: invalid expression", line + q.d⟩) := by
    refine .check _ fun eof => ?_
    split
    · exact .done rfl
    · exact .refuse _ _
  exact .eat _ ended ended

/-- The templates that are in these tokens, and the errors that come from scanning what is in them. -/
def Lowering.of (d : Nat) (text : String) (tokens : List Token) : Lowering where
  d := d
  body body := .template body ∈ tokens.map (·.kind)
  stray := Stray text

theorem holds_of_kinds {text : String} {tokens : List Token} {c : Cursor}
    (same : c.rest.map (·.kind) = tokens.map (·.kind)) : c.Holds (Lowering.of d text tokens).body := by
  intro t mem body kind
  change TokenKind.template body ∈ tokens.map (·.kind)
  rw [← same, ← kind]
  exact List.mem_map_of_mem mem

/-- The templates in a text sink, further down. -/
def TemplatesSink (d : Nat) (text : String) (template template' : TemplateReader) : Prop :=
  ∀ tokens, tokenize text = .ok tokens → ∀ body line, .template body ∈ tokens.map (·.kind) →
    Sinks d (Stray text) id (template body line) (template' body (line + d))

/-- How the tokens of a placeholder are read. -/
theorem placeholder_eq (template : TemplateReader) {source : String} {tokens : List Token}
    (scanned : tokenize (Text.trim source) = .ok tokens) (line : Nat) :
    placeholder template source line =
      ((exprList (outermost template tokens.length) >>= aloneOn line) (.ofTokens (onLine line tokens)) >>=
        fun read => pure read.1) := by
  have size : tokens.length = (onLine line tokens).length := by simp only [onLine, List.length_map]
  unfold placeholder
  rw [scanned, size]
  rfl

theorem placeholder_sinks {text source : String} (among : Text.trim source ∈ scannedApart text)
    (templates : TemplatesSink d (Text.trim source) template template') (line : Nat) :
    Sinks d (Stray text) id (placeholder template source line) (placeholder template' source (line + d)) := by
  cases scanned : tokenize (Text.trim source) with
  | error e =>
    refine .inr ⟨e, .here among scanned, ?_, ?_⟩ <;> rw [placeholder, scanned] <;> rfl
  | ok tokens =>
    let q := Lowering.of d (Text.trim source) tokens
    have levels : LevelLowers q (outermost template tokens.length) (outermost template' tokens.length) :=
      lowers_outermost (templates tokens scanned) tokens.length
    have reading : Lowers q id (exprList (outermost template tokens.length) >>= aloneOn line)
        (exprList (outermost template' tokens.length) >>= aloneOn (line + d)) :=
      Lowers.after (alike_exprList (i := 0) levels) fun e => lowers_aloneOn line e
    have further : onLine (line + d) tokens = (onLine line tokens).map (·.below d) := by
      simp only [onLine, List.map_map]
      rfl
    have some : onLine line tokens ≠ [] := fun none => tokens_ne_nil scanned (List.map_eq_nil_iff.1 none)
    obtain ⟨read, -⟩ := reading (.ofTokens (onLine line tokens)) (holds_of_kinds (kinds_onLine line tokens))
    rw [placeholder_eq template scanned, placeholder_eq template' scanned, further, Cursor.ofTokens_below some]
    exact (read.bind fun _ _ => .inl rfl).imp fun e strays => .deeper among strays

theorem mem_scannedApart {text body : String} {tokens : List Token} {p : Placeholder}
    (scanned : tokenize text = .ok tokens) (mem : .template body ∈ tokens.map (·.kind))
    (held : p ∈ placeholders body.toList) : p.text ∈ scannedApart text := by
  obtain ⟨t, among, kind⟩ := List.mem_map.1 mem
  unfold scannedApart
  rw [scanned]
  refine List.mem_flatMap.2 ⟨t, among, ?_⟩
  rw [kind]
  exact List.mem_map_of_mem held

/-- Templates are shorter than their text, so all of them are read if there is room for the text. -/
theorem templatesSink (d : Nat) {depth depth' : Nat} {text : String} (room : text.length ≤ depth)
    (room' : text.length ≤ depth') : TemplatesSink d text (Grammar.template depth) (Grammar.template depth') := by
  induction depth generalizing depth' text with
  | zero =>
    intro tokens scanned body line mem
    obtain ⟨t, among, kind⟩ := List.mem_map.1 mem
    have short := short_of_tokenize scanned t among
    rw [kind] at short
    exact absurd (Nat.lt_of_lt_of_le short room) (Nat.not_lt_zero _)
  | succ depth ih =>
    intro tokens scanned body line mem
    obtain ⟨t, among, kind⟩ := List.mem_map.1 mem
    have short := short_of_tokenize scanned t among
    rw [kind] at short
    have short : body.length < text.length := short
    obtain ⟨depth', rfl⟩ : ∃ n, depth' = n + 1 := ⟨depth' - 1, by omega⟩
    refine readTemplate_sinks fun p held => Placeholder.part_sinks ?_
    have shorter : (Text.trim (String.ofList p.source.reverse)).length < body.length := length_text_lt held
    exact placeholder_sinks (mem_scannedApart scanned mem held) (ih (by omega) (by omega)) line

theorem lowers_program {c : Cursor} (holds : c.Holds q.body) (sinks : ∀ body line, q.body body →
      Sinks q.d q.stray id (template body line) (template' body (line + q.d))) :
    LowersHere q (renumberBlock q.line) (program template) (program template') c := by
  have levels := lowers_outermost sinks c.size
  have statements : LowersBlock q (outermostStatement template c.size) (outermostStatement template' c.size) :=
    Statement.lowers_read levels _ _
  have turns : Lowers q (renumberBlock q.line)
      (Parser.repeatFrom [] (programTurn (outermostStatement template c.size)))
      (Parser.repeatFrom [] (programTurn (outermostStatement template' c.size))) := by
    refine .repeatFrom (g := renumberBlock q.line) (fun done => .check _ fun eof => ?_) []
    split
    · exact .done (congrArg Sum.inr (renumberBlock_reverse q.line done))
    · refine (Statement.lowers_lineOr statements).andThen fun more => .done ?_
      exact congrArg Sum.inl (renumberBlock_reverseAux q.line more done)
  unfold LowersHere
  rw [program_eq, program_eq]
  exact turns c holds

/-- A text with empty lines in front is read like the text, and every line number, of a statement or of an error,
is greater by the number of empty lines. Only an error that comes from scanning a placeholder, or a placeholder
within a placeholder, may stay on its line. -/
theorem parse_below (n : Nat) (source : String) :
    parse (emptyLines n ++ source) = lowered n (renumberBlock (· + n)) (parse source) ∨
      ∃ e, Stray source e ∧ parse source = .error e ∧ parse (emptyLines n ++ source) = .error e := by
  change Sinks n (Stray source) (renumberBlock (· + n)) (parse source) (parse (emptyLines n ++ source))
  have longer : source.length ≤ (emptyLines n ++ source).length := by
    rw [String.length_append]
    exact Nat.le_add_left _ _
  unfold parse
  rw [tokenize_below]
  cases scanned : tokenize source with
  | error e => exact .inl rfl
  | ok tokens =>
    let q := Lowering.of n source tokens
    obtain ⟨read, -⟩ := lowers_program (q := q) (c := .ofTokens tokens) (holds_of_kinds rfl)
      (templatesSink n (Nat.le_succ_of_le (Nat.le_refl _)) (Nat.le_succ_of_le longer) tokens scanned)
    rw [← Cursor.ofTokens_below (tokens_ne_nil scanned)] at read
    exact read.bind fun _ _ => .inl rfl

/-- The exception is needed: whatever line the placeholder in `f"{$}"` is on, the error is on the first. -/
theorem parse_in_placeholder : ¬∀ (n : Nat) (source : String),
    parse (emptyLines n ++ source) = lowered n (renumberBlock (· + n)) (parse source) := by
  intro all
  have above : parse "f\"\x7b$\x7d\"" = .error ⟨"invalid character '$'", 1⟩ := by cbv
  have below : parse (emptyLines 1 ++ "f\"\x7b$\x7d\"") = .error ⟨"invalid character '$'", 1⟩ := by cbv
  have both := all 1 "f\"\x7b$\x7d\""
  rw [above, below] at both
  cases both

end SnippetKernel.Source
