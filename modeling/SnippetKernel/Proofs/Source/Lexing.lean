import Mathlib.Tactic.IntervalCases
import SnippetKernel.Proofs.Source.Joining
import SnippetKernel.Proofs.Wire.Written
import SnippetKernel.Text.Quoted

/-! Which tokens a piece of text makes. What stands behind a name or a number matters, since that could go
on; a bracket or a comma is a token whatever comes next. -/
namespace SnippetKernel.Source

open Text

/-- What may stand behind any token without being part of it. -/
def delimiters : List Char := [' ', ',', ':', '(', ')', ']', '\x7d']

/-- Nothing here goes on with what ended. -/
def Delimits (rest : List Char) : Prop := ∀ c ∈ rest.head?, c ∈ delimiters

theorem Delimits.nil : Delimits [] := nofun

theorem Delimits.cons {c : Char} (mem : c ∈ delimiters) (rest : List Char) : Delimits (c :: rest) := by
  intro d found
  obtain rfl := Option.some.inj found
  exact mem

/-- A property that no delimiter has ends before one. -/
theorem Delimits.not {rest : List Char} (stops : Delimits rest) {p : Char → Bool}
    (none : delimiters.any p = false) : ∀ c ∈ rest.head?, p c = false :=
  fun c mem => Bool.eq_false_iff.2 (List.any_eq_false.1 none c (stops c mem))

theorem takeWhile_append_of_stops {p : Char → Bool} {cs rest : List Char} (all : ∀ c ∈ cs, p c = true)
    (stops : ∀ c ∈ rest.head?, p c = false) :
    (cs ++ rest).takeWhile p = cs ∧ (cs ++ rest).dropWhile p = rest := by
  induction cs with
  | nil =>
    cases rest with
    | nil => exact ⟨rfl, rfl⟩
    | cons c rest =>
      have stop := stops c rfl
      simp [stop]
  | cons c cs ih =>
    rw [List.forall_mem_cons] at all
    obtain ⟨taken, left⟩ := ih all.2
    simp [all.1, taken, left]

theorem ne_of_holds {p : Char → Bool} {c d : Char} (holds : p c = true) (fails : p d = false) : c ≠ d := by
  rintro rfl
  exact Bool.noConfusion (holds.symm.trans fails)

namespace Scan

/-- A scan within the first line. -/
def within (depth : Nat) (tokens : List Token) (rest : List Char) : Scan :=
  { rest, line := 1, depth, indents := [], tokens, atLineStart := false }

end Scan

/-- The tokens of these kinds, all on the first line. -/
def onFirst (kinds : List TokenKind) : List Token := kinds.map (⟨·, 1⟩)

/-- Before `rest`, the piece of text makes tokens of these kinds. -/
def Makes (piece : List Char) (kinds : List TokenKind) (rest : List Char) : Prop :=
  ∀ depth tokens, (Scan.within depth tokens (piece ++ rest)).run =
    (Scan.within (depthAfter depth kinds) ((onFirst kinds).reverse ++ tokens) rest).run

namespace Makes

variable {piece piece' rest : List Char} {kinds kinds' : List TokenKind}

theorem nil (rest : List Char) : Makes [] [] rest := fun _ _ => rfl

theorem append (first : Makes piece kinds (piece' ++ rest)) (second : Makes piece' kinds' rest) :
    Makes (piece ++ piece') (kinds ++ kinds') rest := by
  intro depth tokens
  have both : onFirst (kinds ++ kinds') = onFirst kinds ++ onFirst kinds' := List.map_append
  rw [List.append_assoc, first, second, depthAfter_append, both, List.reverse_append, List.append_assoc]

theorem of_step {kind : TokenKind} (some : piece ≠ [])
    (step : ∀ depth tokens, (Scan.within depth tokens (piece ++ rest)).step =
      .ok (Scan.within (kind.depth depth) (⟨kind, 1⟩ :: tokens) rest)) : Makes piece [kind] rest :=
  fun depth tokens => Scan.run_of_step (by simp [Scan.within, some]) (step depth tokens)

theorem space : Makes [' '] [] rest := fun _ _ => Scan.run_of_step (List.cons_ne_nil _ _) rfl

/-- Brackets and separators stand for themselves. -/
theorem symbol {s : Symbol} (alone : s ∈ [.openParen, .closeParen, .openBracket, .closeBracket, .openBrace,
    .closeBrace, .comma, .colon]) : Makes s.text.toList [.symbol s] rest := by
  refine of_step (List.ne_nil_of_length_pos s.text_ne_nil) fun depth tokens => ?_
  simp only [List.mem_cons, List.not_mem_nil, or_false] at alone
  rcases alone with rfl | rfl | rfl | rfl | rfl | rfl | rfl | rfl <;> rfl

theorem assign : Makes ['='] [.symbol .assign] (' ' :: rest) :=
  of_step (List.cons_ne_nil _ _) fun _ _ => rfl

end Makes

theorem Scan.run_of_failed {s : Scan} {e : SyntaxError} (more : s.rest ≠ []) (failed : s.step = .error e) :
    s.run = .error e := by
  rw [run, dif_neg more]
  split
  · next t turn =>
    rw [failed] at turn
    cases turn
  · next e' failed' =>
    rw [failed] at failed'
    rw [Except.error.inj failed']

/-- Before `rest`, the scan of the piece of text ends with the error. -/
def Refused (piece : List Char) (e : SyntaxError) (rest : List Char) : Prop :=
  ∀ depth tokens, (Scan.within depth tokens (piece ++ rest)).run = .error e

namespace Refused

variable {piece piece' rest : List Char} {kinds : List TokenKind} {e : SyntaxError}

theorem before (first : Refused piece e (piece' ++ rest)) : Refused (piece ++ piece') e rest := by
  intro depth tokens
  rw [List.append_assoc]
  exact first depth tokens

theorem after (first : Makes piece kinds (piece' ++ rest)) (second : Refused piece' e rest) :
    Refused (piece ++ piece') e rest := by
  intro depth tokens
  rw [List.append_assoc, first]
  exact second _ _

end Refused

/-! ### Names -/

theorem isDigit_of_isNameStart {c : Char} (start : isNameStart c = true) : c.isDigit = false := by
  by_contra digit
  simp only [Char.isDigit, Bool.not_eq_false, Bool.and_eq_true, decide_eq_true_eq] at digit
  have low : 48 ≤ c.toNat := digit.1
  have high : c.toNat ≤ 57 := digit.2
  have same : c = Char.ofNat c.toNat := (Char.ofNat_toNat c).symm
  generalize c.toNat = n at *
  subst same
  interval_cases n <;> exact absurd start (by decide)

/-- A name is no blank, and begins no comment. -/
theorem visible_of_isNameStart {c : Char} (start : isNameStart c = true) : c ∉ [' ', '\t', '\r', '\n', '#'] := by
  have other : [' ', '\t', '\r', '\n', '#'].any isNameStart = false := by decide
  exact fun mem => List.any_eq_false.1 other c mem start

theorem Scan.takeToken_name {c : Char} (start : isNameStart c = true) (tail : List Char) (s : Scan) :
    s.takeToken c tail = s.takeName := by
  have digit := isDigit_of_isNameStart start
  have line_end := ne_of_holds start (d := '\n') (by decide)
  have space := ne_of_holds start (d := ' ') (by decide)
  have tab := ne_of_holds start (d := '\t') (by decide)
  have back := ne_of_holds start (d := '\r') (by decide)
  have comment := ne_of_holds start (d := '#') (by decide)
  have slash := ne_of_holds start (d := '\\') (by decide)
  have point := ne_of_holds start (d := '.') (by decide)
  have double := ne_of_holds start (d := '"') (by decide)
  have single := ne_of_holds start (d := '\'') (by decide)
  simp [takeToken, line_end, space, tab, back, comment, slash, startsNumber, digit, point, isQuote, double,
    single, start]

theorem Makes.name {c : Char} {cs rest : List Char} (start : isNameStart c = true)
    (parts : cs.all isNamePart = true) (stops : Delimits rest) :
    Makes (c :: cs) [.name (String.ofList (c :: cs))] rest := by
  have all : ∀ d ∈ c :: cs, isNamePart d = true :=
    List.forall_mem_cons.2 ⟨Scan.isNamePart_of_isNameStart start, List.all_eq_true.1 parts⟩
  have ends : ∀ d ∈ rest.head?, isNamePart d = false := stops.not (by decide)
  have quotes : ∀ d ∈ rest.head?, isQuote d = false := stops.not (by decide)
  obtain ⟨taken, left⟩ := takeWhile_append_of_stops all ends
  refine of_step (List.cons_ne_nil _ _) fun depth tokens => ?_
  have step : (Scan.within depth tokens (c :: cs ++ rest)).step =
      (Scan.within depth tokens (c :: cs ++ rest)).takeToken c (cs ++ rest) := rfl
  rw [step, Scan.takeToken_name start, Scan.takeName, Scan.within]
  simp only [taken, left, Scan.takeNamed]
  split
  · next d more =>
    rw [quotes d rfl]
    rfl
  · rfl

/-! ### Numbers -/

theorem digitValue?_of_isDigit {c : Char} (digit : c.isDigit = true) :
    digitValue? c = some (c.toNat - '0'.toNat) ∧ c.toNat - '0'.toNat < 10 := by
  simp only [Char.isDigit, Bool.and_eq_true, decide_eq_true_eq] at digit
  have low : 48 ≤ c.toNat := digit.1
  have high : c.toNat ≤ 57 := digit.2
  have zero : '0'.toNat = 48 := rfl
  exact ⟨if_pos ⟨digit.1, digit.2⟩, by omega⟩

/-- Digits in base ten denote the number that they are the digits of. -/
theorem natOfDigits?_toDigits (n : Nat) : natOfDigits? 10 (Nat.toDigits 10 n) = some n := by
  have fold (cs : List Char) (digits : ∀ c ∈ cs, c.isDigit = true) (start : Nat) :
      cs.foldlM (fun n c => (digitValue? c).bind fun d => if d < 10 then some (n * 10 + d) else none) start =
        some (Nat.ofDigitChars 10 cs start) := by
    induction cs generalizing start with
    | nil => rfl
    | cons c cs ih =>
      rw [List.forall_mem_cons] at digits
      obtain ⟨value, small⟩ := digitValue?_of_isDigit digits.1
      have next : start * 10 + (c.toNat - '0'.toNat) = 10 * start + (c.toNat - '0'.toNat) := by omega
      rw [List.foldlM_cons, value, Option.bind_some, if_pos small, Nat.ofDigitChars_cons, ← next]
      exact ih digits.2 _
  rw [natOfDigits?, if_neg (by simp [Nat.toDigits_ne_nil]), fold, Nat.ofDigitChars_ten_toDigits]
  exact fun c mem => Nat.isDigit_of_mem_toDigits (by decide) (by decide) mem

theorem readDecimal_digits {done cs rest : List Char} (digits : ∀ c ∈ cs, c.isDigit = true)
    (stops : Delimits rest) : readDecimal false done (cs ++ rest) = (false, cs.reverse ++ done, rest) := by
  induction cs generalizing done with
  | nil =>
    cases rest with
    | nil => rfl
    | cons c rest =>
      have other (p : Char → Bool) (none : delimiters.any p = false) : p c = false := stops.not none c rfl
      have digit := other Char.isDigit (by decide)
      have line := other (· == '_') (by decide)
      have point := other (· == '.') (by decide)
      have lower := other (· == 'e') (by decide)
      have upper := other (· == 'E') (by decide)
      simp only [beq_eq_false_iff_ne] at line point lower upper
      simp [readDecimal, digit, line, point, lower, upper]
  | cons c cs ih =>
    rw [List.forall_mem_cons] at digits
    rw [List.cons_append, readDecimal, if_pos digits.1, ih digits.2, List.reverse_cons, List.append_assoc]
    rfl

/-- The complaint about a number that is no 64-bit integer. -/
def tooLarge (line : Nat) : SyntaxError := ⟨"integer literal too large (integers are 64-bit)", line⟩

theorem readNumber_digits (n : Nat) {rest : List Char} (stops : Delimits rest) (line : Nat) :
    readNumber line (Nat.toDigits 10 n ++ rest) =
      match narrow? n with
      | some i => .ok (.int i, rest)
      | none => .error (tooLarge line) := by
  have numeral : readNumeral line (Nat.toDigits 10 n ++ rest) =
      match narrow? n with
      | some i => .ok (.int i, rest)
      | none => .error (tooLarge line) := by
    have digits (c : Char) (mem : c ∈ Nat.toDigits 10 n) : c.isDigit = true :=
      Nat.isDigit_of_mem_toDigits (by decide) (by decide) mem
    simp only [readNumeral, readDecimal_digits digits stops, List.append_nil, List.reverse_reverse,
      natOfDigits?_toDigits, Option.bind_some]
    rfl
  rw [← numeral]
  unfold readNumber
  split
  · next letter more same =>
    -- Behind a zero there is no letter: only the number zero begins with one.
    have none : radixOf? letter = none := by
      obtain rfl | positive := Nat.eq_zero_or_pos n
      · rw [Nat.toDigits_zero] at same
        obtain ⟨-, rfl⟩ := List.cons.inj same
        have other : delimiters.all fun c => (radixOf? c).isNone := by decide
        exact Option.isNone_iff_eq_none.1 (List.all_eq_true.1 other letter (stops letter rfl))
      · have first := Wire.head_toDigits positive
        cases shown : Nat.toDigits 10 n with
        | nil => exact absurd shown Nat.toDigits_ne_nil
        | cons d ds =>
          rw [shown] at same first
          exact absurd (congrArg some (List.cons.inj same).1) first
    rw [none, same]
  · rfl

theorem Scan.step_digits (n depth : Nat) (tokens : List Token) (rest : List Char) :
    (Scan.within depth tokens (Nat.toDigits 10 n ++ rest)).step =
      (Scan.within depth tokens (Nat.toDigits 10 n ++ rest)).takeNumber := by
  cases shown : Nat.toDigits 10 n with
  | nil => exact absurd shown Nat.toDigits_ne_nil
  | cons c cs =>
    have digit : c.isDigit = true :=
      Nat.isDigit_of_mem_toDigits (by decide) (by decide) (shown ▸ List.mem_cons_self)
    have line_end := ne_of_holds digit (d := '\n') (by decide)
    have space := ne_of_holds digit (d := ' ') (by decide)
    have tab := ne_of_holds digit (d := '\t') (by decide)
    have back := ne_of_holds digit (d := '\r') (by decide)
    have comment := ne_of_holds digit (d := '#') (by decide)
    have slash := ne_of_holds digit (d := '\\') (by decide)
    have step : (Scan.within depth tokens (c :: cs ++ rest)).step =
        (Scan.within depth tokens (c :: cs ++ rest)).takeToken c (cs ++ rest) := rfl
    rw [step]
    simp only [Scan.takeToken, line_end, space, tab, back, comment, slash, startsNumber, digit, Bool.true_or,
      or_self, false_and, if_true, if_false]

theorem Makes.nat {n : Nat} {i : Int64} {rest : List Char} (fits : narrow? n = some i)
    (stops : Delimits rest) : Makes (Nat.toDigits 10 n) [.int i] rest := by
  refine of_step Nat.toDigits_ne_nil fun depth tokens => ?_
  have read := readNumber_digits n stops 1
  rw [fits] at read
  rw [Scan.step_digits]
  simp only [Scan.takeNumber, Scan.within, read]
  rfl

theorem Refused.nat {n : Nat} {rest : List Char} (outside : narrow? n = none) (stops : Delimits rest) :
    Refused (Nat.toDigits 10 n) (tooLarge 1) rest := by
  intro depth tokens
  have read := readNumber_digits n stops 1
  rw [outside] at read
  refine Scan.run_of_failed (by simp [Scan.within, Nat.toDigits_ne_nil]) ?_
  rw [Scan.step_digits]
  simp only [Scan.takeNumber, Scan.within, read]

/-- A sign before a number is a token of its own. -/
theorem Makes.minus {n : Nat} {rest : List Char} :
    Makes ['-'] [.symbol .minus] (Nat.toDigits 10 n ++ rest) := by
  refine of_step (List.cons_ne_nil _ _) fun depth tokens => ?_
  cases shown : Nat.toDigits 10 n with
  | nil => exact absurd shown Nat.toDigits_ne_nil
  | cons c cs =>
    have digit : c.isDigit = true :=
      Nat.isDigit_of_mem_toDigits (by decide) (by decide) (shown ▸ List.mem_cons_self)
    have equal := ne_of_holds digit (d := '=') (by decide)
    have arrow := ne_of_holds digit (d := '>') (by decide)
    have found : readSymbol? ('-' :: c :: (cs ++ rest)) Symbol.all = some (.minus, c :: (cs ++ rest)) := by
      simp [readSymbol?, Symbol.all, Symbol.text, afterPiece, equal.symm, arrow.symm]
    have step : (Scan.within depth tokens (['-'] ++ (c :: cs ++ rest))).step =
        (Scan.within depth tokens (['-'] ++ (c :: cs ++ rest))).takeSymbol '-' := rfl
    rw [step, Scan.takeSymbol]
    simp only [Scan.within, List.cons_append, List.nil_append, found]
    rfl

/-! ### Strings -/

theorem unsigned?_hexPair : ∀ n < 160, unsigned? 16 (hexPair n) = some n := by decide +kernel

theorem escapedCode_hexPair {c : Char} (control : isControl c = true) (line : Nat) :
    escapedCode (hexPair c.toNat) line = .ok c := by
  have small : c.toNat < 160 := by
    simp only [isControl, Bool.or_eq_true, Bool.and_eq_true, decide_eq_true_eq] at control
    omega
  rw [escapedCode, unsigned?_hexPair c.toNat small, Option.bind_some, Wire.charOfCode_toNat]

/-- The ways to write a character between quotes: behind a backslash, by its code, or as it is. -/
inductive Quoting (quote c : Char) : List Char → Prop
  | escaped {e : Char} (line_end : e ≠ '\n') (code : ¬(e = 'u' ∨ e = 'x')) (means : simpleEscape e = [c]) :
      Quoting quote c ['\\', e]
  | coded (control : isControl c = true) : Quoting quote c ('\\' :: 'x' :: hexPair c.toNat)
  | plain (other : c ≠ quote) (slash : c ≠ '\\') (line_end : c ≠ '\n') : Quoting quote c [c]

theorem quoting_quoteChar {quote : Char} (is_quote : quote = '\'' ∨ quote = '"') (c : Char) :
    Quoting quote c (quoteChar quote c) := by
  unfold quoteChar
  split
  · next same =>
    subst same
    exact .escaped (by decide) (by decide) rfl
  next slash =>
  split
  · next same =>
    subst same
    exact .escaped (by decide) (by decide) rfl
  next line_end =>
  split
  · next same =>
    subst same
    exact .escaped (by decide) (by decide) rfl
  split
  · next same =>
    subst same
    exact .escaped (by decide) (by decide) rfl
  split
  · next same =>
    subst same
    rcases is_quote with rfl | rfl <;> exact .escaped (by decide) (by decide) rfl
  next other =>
  split
  · next control => exact .coded control
  · exact .plain other slash line_end

/-- A character in a quoted text is read back. -/
theorem readString_quoteChar {quote c : Char} (is_quote : quote = '\'' ∨ quote = '"') (start line : Nat)
    (done rest : List Char) :
    readString [quote] false start line done (quoteChar quote c ++ rest) =
      readString [quote] false start line (c :: done) rest := by
  have quote_slash : quote ≠ '\\' := by rcases is_quote with rfl | rfl <;> decide
  have opened (more : List Char) : afterPiece [quote] ('\\' :: more) = none := by
    simp [afterPiece, quote_slash]
  have quoting := quoting_quoteChar is_quote c
  generalize quoteChar quote c = written at quoting ⊢
  cases quoting with
  | escaped line_end code means =>
    simp only [List.cons_append, List.nil_append]
    rw [readString.eq_def]
    simp only [opened, show ('\\' : Char) ≠ '\n' by decide, if_true, if_false]
    split
    · next same => cases same
    · next same => exact absurd (List.cons.inj same).1 line_end
    · next same => exact absurd (.inl (List.cons.inj same).1) code
    · next same => exact absurd (.inr (List.cons.inj same).1) code
    · next same =>
      cases same
      rw [if_neg code, means]
      rfl
  | coded control =>
    have code := escapedCode_hexPair control line
    rw [hexPair] at code
    simp only [hexPair, List.cons_append, List.nil_append]
    rw [readString.eq_def]
    simp only [opened, code, if_true, show ('\\' : Char) ≠ '\n' by decide, if_false]
  | plain other slash line_end =>
    have none : afterPiece [quote] (c :: rest) = none := by simp [afterPiece, Ne.symm other]
    rw [List.cons_append, List.nil_append, readString.eq_def]
    simp only [none, line_end, slash, if_false]

/-- A text between two quotes is read back, up to and with the closing one. -/
theorem readString_quoted {quote : Char} (is_quote : quote = '\'' ∨ quote = '"') (start line : Nat)
    (done cs rest : List Char) :
    readString [quote] false start line done (cs.flatMap (quoteChar quote) ++ quote :: rest) =
      .ok ⟨String.ofList (done.reverse ++ cs), rest, line⟩ := by
  induction cs generalizing done with
  | nil =>
    have closes : afterPiece [quote] (quote :: rest) = some rest := by simp [afterPiece]
    rw [List.flatMap_nil, List.nil_append, readString.eq_def, List.append_nil]
    simp only [closes]
  | cons c cs ih =>
    rw [List.flatMap_cons, List.append_assoc, readString_quoteChar is_quote, ih, List.reverse_cons,
      List.append_assoc]
    rfl

/-- The quote around a text is no part of what it begins with. -/
theorem head_quoteChar {quote : Char} (is_quote : quote = '\'' ∨ quote = '"') (c : Char) (more : List Char) :
    (quoteChar quote c ++ more).head? ≠ some quote := by
  have slash_quote : '\\' ≠ quote := by rcases is_quote with rfl | rfl <;> decide
  have quoting := quoting_quoteChar is_quote c
  generalize quoteChar quote c = written at quoting ⊢
  cases quoting with
  | escaped | coded => simpa using slash_quote
  | plain other => simpa using other

theorem openQuotes_quoted {quote : Char} (is_quote : quote = '\'' ∨ quote = '"') {cs rest : List Char}
    (stops : Delimits rest) :
    openQuotes (quote :: (cs.flatMap (quoteChar quote) ++ quote :: rest)) =
      ([quote], false, cs.flatMap (quoteChar quote) ++ quote :: rest) := by
  cases cs with
  | nil =>
    cases rest with
    | nil => rfl
    | cons c rest =>
      have other : quote ≠ c := by
        have none := stops.not (p := isQuote) (by decide) c rfl
        rintro rfl
        rcases is_quote with rfl | rfl <;> exact absurd none (by decide)
      exact if_neg fun same => other same.2
  | cons c cs =>
    have first := head_quoteChar is_quote c (cs.flatMap (quoteChar quote) ++ quote :: rest)
    rw [List.flatMap_cons, List.append_assoc]
    generalize quoteChar quote c ++ (cs.flatMap (quoteChar quote) ++ quote :: rest) = body at first
    match body with
    | [] => rfl
    | [_] => rfl
    | b :: d :: more => exact if_neg fun same => first (congrArg some same.1.symm)

theorem quoteFor_is_quote (cs : List Char) : quoteFor cs = '\'' ∨ quoteFor cs = '"' := by
  unfold quoteFor
  split
  · exact .inr rfl
  · exact .inl rfl

theorem Makes.quoted (text : String) {rest : List Char} (stops : Delimits rest) :
    Makes (quoteChars text.toList) [.str text] rest := by
  have is_quote := quoteFor_is_quote text.toList
  have body : quoteChars text.toList ++ rest = quoteFor text.toList ::
      (text.toList.flatMap (quoteChar (quoteFor text.toList)) ++ quoteFor text.toList :: rest) := by
    simp [quoteChars]
  refine of_step (List.cons_ne_nil _ _) fun depth tokens => ?_
  have taken : (Scan.within depth tokens (quoteChars text.toList ++ rest)).takeString false .str =
      .ok (Scan.within depth (⟨.str text, 1⟩ :: tokens) rest) := by
    simp only [Scan.takeString, Scan.readQuotes, Scan.within, body, openQuotes_quoted is_quote stops,
      readString_quoted is_quote, List.reverse_nil, List.nil_append, String.ofList_toList]
    rfl
  rw [body] at taken ⊢
  refine Eq.trans ?_ taken
  rcases is_quote with same | same <;> rw [same] <;> rfl

/-! ### Whole texts -/

/-- A first line without white space in front. -/
theorem Scan.run_start {c : Char} {cs : List Char} (visible : c ∉ [' ', '\t', '\r', '\n', '#']) :
    (Scan.start (String.ofList (c :: cs))).run = (Scan.within 0 [] (c :: cs)).run := by
  simp only [List.mem_cons, List.not_mem_nil, or_false, not_or] at visible
  have flush : leadingWidth 0 (c :: cs) = (0, c :: cs) := by
    rw [leadingWidth.eq_def]
    split <;> simp_all
  have steps : (Scan.start (String.ofList (c :: cs))).step = (Scan.within 0 [] (c :: cs)).step := by
    have indented (s : Scan) (none : s.indents = []) : indentTo 0 s = .ok s := by
      cases s
      cases none
      rfl
    rw [Scan.step, if_pos ⟨rfl, rfl⟩, Scan.takeLineStart, Scan.start, String.toList_ofList]
    simp only [flush, visible, if_false]
    rw [indented _ rfl]
    rfl
  have full : (Scan.start (String.ofList (c :: cs))).rest ≠ [] := by simp [Scan.start]
  have full' : (Scan.within 0 [] (c :: cs)).rest ≠ [] := List.cons_ne_nil _ _
  cases turn : (Scan.within 0 [] (c :: cs)).step with
  | ok t => rw [Scan.run_of_step full (steps.trans turn), Scan.run_of_step full' turn]
  | error e => rw [Scan.run_of_failed full (steps.trans turn), Scan.run_of_failed full' turn]

/-- A text of one line. -/
theorem tokenize_of_makes {c : Char} {cs : List Char} {kinds : List TokenKind} {last : TokenKind}
    (visible : c ∉ [' ', '\t', '\r', '\n', '#']) (makes : Makes (c :: cs) (kinds ++ [last]) [])
    (plain : last ≠ .newline ∧ last ≠ .indent ∧ last ≠ .dedent) :
    tokenize (String.ofList (c :: cs)) = .ok (onFirst (kinds ++ [last, .newline, .eof])) := by
  have made := makes 0 []
  rw [List.append_nil] at made
  rw [tokenize, Scan.run_start visible, made, Scan.run_of_rest rfl, Scan.finish_eq]
  have turned : (onFirst (kinds ++ [last])).reverse = ⟨last, 1⟩ :: (onFirst kinds).reverse := by
    simp [onFirst]
  have ended : ¬(last = .newline ∨ last = .indent ∨ last = .dedent) := by simp [plain]
  simp only [Scan.within, Scan.endLine, turned, List.append_nil, if_neg ended, Scan.push, Scan.closings,
    List.map_nil, List.reverse_cons, List.reverse_reverse]
  simp [onFirst]

theorem tokenize_of_refused {c : Char} {cs : List Char} {e : SyntaxError}
    (visible : c ∉ [' ', '\t', '\r', '\n', '#']) (refused : Refused (c :: cs) e []) :
    tokenize (String.ofList (c :: cs)) = .error e := by
  have failed := refused 0 []
  rw [List.append_nil] at failed
  rw [tokenize, Scan.run_start visible, failed]

/-- A quoted text by itself is one string literal, whatever its characters are; also the empty text, though a literal
of several lines begins with its two quotes. -/
theorem tokenize_quoted (text : String) :
    tokenize (Text.quoted text) = .ok [⟨.str text, 1⟩, ⟨.newline, 1⟩, ⟨.eof, 1⟩] := by
  have visible : quoteFor text.toList ∉ [' ', '\t', '\r', '\n', '#'] := by
    rcases quoteFor_is_quote text.toList with single | double
    · rw [single]
      decide
    · rw [double]
      decide
  have made : Makes (quoteChars text.toList) ([] ++ [.str text]) [] := .quoted text .nil
  exact tokenize_of_makes visible made ⟨nofun, nofun, nofun⟩

end SnippetKernel.Source
