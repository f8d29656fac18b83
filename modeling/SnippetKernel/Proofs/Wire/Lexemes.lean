import SnippetKernel.Proofs.Wire.ReadBack

/-! Number and string literals in every spelling that documents allow, and the readers that go over them. The grammar is
stated by itself: a literal is made of its parts, and its characters are those of the parts in their order. -/
namespace SnippetKernel.Wire

variable {s : String}

/-! ### Numbers -/

/-- Digits, at least one. -/
structure DigitRun where
  first : Char
  rest : List Char
  digits : ∀ c ∈ first :: rest, c.isDigit = true

namespace DigitRun

def chars (r : DigitRun) : List Char := r.first :: r.rest

end DigitRun

structure ExponentPart where
  capital : Bool
  /-- Whether the sign is a minus. -/
  sign : Option Bool
  digits : DigitRun

namespace ExponentPart

def letter (e : ExponentPart) : Char := if e.capital then 'E' else 'e'

def signChars (e : ExponentPart) : List Char :=
  match e.sign with
  | none => []
  | some true => ['-']
  | some false => ['+']

def chars (e : ExponentPart) : List Char := e.letter :: (e.signChars ++ e.digits.chars)

end ExponentPart

structure NumberLiteral where
  negative : Bool
  whole : DigitRun
  fraction : Option DigitRun
  exponent : Option ExponentPart
  /-- A zero in front stands alone. -/
  alone : whole.first = '0' → whole.rest = []

namespace NumberLiteral

def fractionChars (n : NumberLiteral) : List Char := n.fraction.elim [] fun digits => '.' :: digits.chars

def exponentChars (n : NumberLiteral) : List Char := n.exponent.elim [] ExponentPart.chars

def unsignedChars (n : NumberLiteral) : List Char := n.whole.chars ++ (n.fractionChars ++ n.exponentChars)

def chars (n : NumberLiteral) : List Char := (if n.negative then ['-'] else []) ++ n.unsignedChars

end NumberLiteral

/-- No digit comes next. -/
def EndsDigits (rest : List Char) : Prop := ∀ c ∈ rest.head?, c.isDigit = false

theorem EndsNumber.endsDigits {rest : List Char} (stop : EndsNumber rest) : EndsDigits rest :=
  fun c mem => (stop c mem).1

theorem not_digit_of_ahead {p : s.Pos} {rest : List Char} (h : ahead p = rest) (stop : EndsDigits rest) {c : Char}
    {q : After p} (found : next? p = some (c, q)) : c.isDigit = false := by
  refine stop c ?_
  rw [← h, ahead_of_next? found]
  rfl

section Digits

variable {start : s.Pos} {ds rest : List Char}

theorem wholeDigits_of_digits (digits : ∀ c ∈ ds, c.isDigit = true) (stop : EndsDigits rest) {p : From start}
    (h : ahead p.1 = ds ++ rest) (significand dropped : Nat) :
    ∃ n k q, Numeral.wholeDigits p significand dropped = (n, k, q) ∧ ahead q.1 = rest := by
  induction ds generalizing p significand dropped with
  | nil =>
    refine ⟨significand, dropped, p, ?_, h⟩
    cases found : next? p.1 with
    | none =>
      rw [Numeral.wholeDigits]
      simp [found]
    | some x =>
      rw [wholeDigits_of_next? found, not_digit_of_ahead h stop found]
      rfl
  | cons c ds ih =>
    obtain ⟨first, others⟩ := List.forall_mem_cons.mp digits
    obtain ⟨q, found, left⟩ := next?_of_ahead h
    rw [wholeDigits_of_next? found, if_pos first]
    split
    · exact ih others (p := (p.step q).toFrom) left _ _
    · exact ih others (p := (p.step q).toFrom) left _ _

theorem fractionDigits_of_digits (digits : ∀ c ∈ ds, c.isDigit = true) (stop : EndsDigits rest) {p : From start}
    (h : ahead p.1 = ds ++ rest) (significand kept count : Nat) :
    ∃ n k q, Numeral.fractionDigits p significand kept count = (n, k, count + ds.length, q) ∧ ahead q.1 = rest := by
  induction ds generalizing p significand kept count with
  | nil =>
    refine ⟨significand, kept, p, ?_, h⟩
    cases found : next? p.1 with
    | none =>
      rw [Numeral.fractionDigits]
      simp [found]
    | some x =>
      rw [fractionDigits_of_next? found, not_digit_of_ahead h stop found]
      rfl
  | cons c ds ih =>
    obtain ⟨first, others⟩ := List.forall_mem_cons.mp digits
    obtain ⟨q, found, left⟩ := next?_of_ahead h
    have longer : count + (c :: ds).length = count + 1 + ds.length := by
      rw [List.length_cons]
      omega
    rw [fractionDigits_of_next? found, if_pos first, longer]
    split
    · exact ih others (p := (p.step q).toFrom) left _ _ _
    · exact ih others (p := (p.step q).toFrom) left _ _ _

theorem exponentDigits_of_digits (digits : ∀ c ∈ ds, c.isDigit = true) (stop : EndsDigits rest) {p : From start}
    (h : ahead p.1 = ds ++ rest) (value count : Nat) :
    ∃ n q, Numeral.exponentDigits p value count = (n, count + ds.length, q) ∧ ahead q.1 = rest := by
  induction ds generalizing p value count with
  | nil =>
    refine ⟨value, p, ?_, h⟩
    cases found : next? p.1 with
    | none =>
      rw [Numeral.exponentDigits]
      simp [found]
    | some x =>
      rw [exponentDigits_of_next? found, not_digit_of_ahead h stop found]
      rfl
  | cons c ds ih =>
    obtain ⟨first, others⟩ := List.forall_mem_cons.mp digits
    obtain ⟨q, found, left⟩ := next?_of_ahead h
    have longer : count + (c :: ds).length = count + 1 + ds.length := by
      rw [List.length_cons]
      omega
    rw [exponentDigits_of_next? found, if_pos first, longer]
    exact ih others (p := (p.step q).toFrom) left _ _

end Digits

section Parts

variable {p : s.Pos} {rest : List Char}

theorem readFraction_of_other (other : '.' ∉ (ahead p).head?) (significand : Nat) :
    Numeral.readFraction? p significand = some (none, .here p) := by
  unfold Numeral.readFraction?
  split
  · rfl
  · next c q found =>
    rw [ahead_of_next? found] at other
    rw [if_neg]
    rintro rfl
    exact other rfl

theorem readFraction_of_digits {digits : DigitRun} (stop : EndsDigits rest)
    (h : ahead p = '.' :: (digits.chars ++ rest)) (significand : Nat) :
    ∃ x q, Numeral.readFraction? p significand = some (some x, q) ∧ ahead q.1 = rest := by
  obtain ⟨q, found, left⟩ := next?_of_ahead h
  obtain ⟨n, k, r, read, behind⟩ :=
    fractionDigits_of_digits digits.digits stop (p := .here q.1) left significand 0 0
  refine ⟨(n, k), (q.skip r).toFrom, ?_, behind⟩
  simp [Numeral.readFraction?, found, read]

theorem sign_of_chars (e : ExponentPart) (h : ahead p = e.signChars ++ (e.digits.chars ++ rest)) :
    ahead (Numeral.sign p).2.1 = e.digits.chars ++ rest := by
  unfold ExponentPart.signChars at h
  split at h
  · obtain ⟨q, found, -⟩ := next?_of_ahead h
    have digit := e.digits.digits _ List.mem_cons_self
    rw [sign_other found (ne_of_isDigit digit (by decide)) (ne_of_isDigit digit (by decide))]
    exact h
  · obtain ⟨q, found, left⟩ := next?_of_ahead h
    simp only [Numeral.sign, found]
    exact left
  · obtain ⟨q, found, left⟩ := next?_of_ahead h
    simp only [Numeral.sign, found]
    exact left

theorem readExponent_of_chars (e : ExponentPart) (stop : EndsDigits rest) (h : ahead p = e.chars ++ rest) :
    ∃ x q, Numeral.readExponent? p = some (some x, q) ∧ ahead q.1 = rest := by
  rw [ExponentPart.chars, List.cons_append, List.append_assoc] at h
  obtain ⟨q, found, left⟩ := next?_of_ahead h
  have letter : e.letter = 'e' ∨ e.letter = 'E' := by
    cases capital : e.capital <;> simp [ExponentPart.letter, capital]
  obtain ⟨n, r, read, behind⟩ := exponentDigits_of_digits e.digits.digits stop
    (p := .here (Numeral.sign q.1).2.1) (sign_of_chars e left) 0 0
  refine ⟨if (Numeral.sign q.1).1 then -(n : Int) else n, ((q.skip (Numeral.sign q.1).2).skip r).toFrom, ?_, behind⟩
  simp [Numeral.readExponent?, found, letter, read]

end Parts

namespace NumberLiteral

variable {n : NumberLiteral} {p : s.Pos} {rest : List Char}

theorem endsDigits_fraction (stop : EndsNumber rest) : EndsDigits (n.fractionChars ++ (n.exponentChars ++ rest)) := by
  intro c mem
  cases fraction : n.fraction with
  | some digits =>
    obtain rfl : '.' = c := by simpa [fractionChars, fraction] using mem
    decide
  | none =>
    cases exponent : n.exponent with
    | some e =>
      obtain rfl : e.letter = c := by
        simpa [fractionChars, fraction, exponentChars, exponent, ExponentPart.chars] using mem
      cases capital : e.capital <;> simp [ExponentPart.letter, capital]
    | none =>
      refine (stop c ?_).1
      simpa [fractionChars, fraction, exponentChars, exponent] using mem

theorem endsDigits_exponent (stop : EndsNumber rest) : EndsDigits (n.exponentChars ++ rest) ∧
    '.' ∉ (n.exponentChars ++ rest).head? := by
  cases exponent : n.exponent with
  | some e =>
    cases capital : e.capital <;>
      simp [EndsDigits, exponentChars, exponent, ExponentPart.chars, ExponentPart.letter, capital]
  | none =>
    simp only [exponentChars, exponent, Option.elim_none, List.nil_append]
    exact ⟨stop.endsDigits, fun point => (stop _ point).2.1 rfl⟩

theorem readFraction_of_ahead (stop : EndsNumber rest) (h : ahead p = n.fractionChars ++ (n.exponentChars ++ rest))
    (significand : Nat) :
    ∃ x q, Numeral.readFraction? p significand = some (x, q) ∧ ahead q.1 = n.exponentChars ++ rest := by
  have ends := endsDigits_exponent (n := n) stop
  cases fraction : n.fraction with
  | none =>
    have here : ahead p = n.exponentChars ++ rest := by simpa [fractionChars, fraction] using h
    exact ⟨none, .here p, readFraction_of_other (here ▸ ends.2) significand, here⟩
  | some digits =>
    have here : ahead p = '.' :: (digits.chars ++ (n.exponentChars ++ rest)) := by
      simpa [fractionChars, fraction] using h
    obtain ⟨x, q, read, left⟩ := readFraction_of_digits ends.1 here significand
    exact ⟨some x, q, read, left⟩

theorem readExponent_of_ahead (stop : EndsNumber rest) (h : ahead p = n.exponentChars ++ rest) :
    ∃ x q, Numeral.readExponent? p = some (x, q) ∧ ahead q.1 = rest := by
  cases exponent : n.exponent with
  | none =>
    have here : ahead p = rest := by simpa [exponentChars, exponent] using h
    exact ⟨none, .here p, Wire.readExponent_of_ahead (here ▸ stop), here⟩
  | some e =>
    have here : ahead p = e.chars ++ rest := by simpa [exponentChars, exponent] using h
    obtain ⟨x, q, read, left⟩ := readExponent_of_chars e stop.endsDigits here
    exact ⟨some x, q, read, left⟩

theorem readUnsigned_of_ahead (stop : EndsNumber rest) (h : ahead p = n.unsignedChars ++ rest) (negative : Bool) :
    ∃ m q, Numeral.readUnsigned? negative p = some (m, q) ∧ ahead q.1 = rest := by
  have parts : ahead p
      = n.whole.first :: (n.whole.rest ++ (n.fractionChars ++ (n.exponentChars ++ rest))) := by
    simpa [unsignedChars, DigitRun.chars] using h
  obtain ⟨first, others⟩ := List.forall_mem_cons.mp n.whole.digits
  obtain ⟨q, found, left⟩ := next?_of_ahead parts
  obtain ⟨significand, dropped, r, whole, left₁⟩ := wholeDigits_of_digits others (endsDigits_fraction stop)
    (p := .here q.1) left (Numeral.digitOf n.whole.first) 0
  -- The reader refuses digits behind a zero; a literal has none there.
  have alone : ¬(n.whole.first = '0' ∧ r.1 ≠ q.1) := by
    rintro ⟨zero, apart⟩
    rw [n.alone zero, List.nil_append] at left
    exact apart (ahead_inj.1 (left₁.trans left.symm))
  obtain ⟨x, t, fraction, left₂⟩ := readFraction_of_ahead stop left₁ significand
  obtain ⟨y, u, exponent, left₃⟩ := readExponent_of_ahead stop left₂
  apply Exists.intro
  refine ⟨((q.skip r).skip t).skip u, ?_, left₃⟩
  rw [Numeral.readUnsigned?]
  simp only [found]
  rw [if_pos first, whole]
  simp only [if_neg alone]
  rw [fraction]
  simp only [exponent]
  rfl

theorem chars_eq_cons (n : NumberLiteral) : ∃ c cs, n.chars = c :: cs ∧ (c = '-' ∨ c.isDigit = true) := by
  cases sign : n.negative with
  | true => exact ⟨'-', n.unsignedChars, by simp [chars, sign], .inl rfl⟩
  | false =>
    exact ⟨n.whole.first, _, by simp [chars, sign, unsignedChars, DigitRun.chars]; rfl,
      .inr (n.whole.digits _ List.mem_cons_self)⟩

theorem read_of_ahead (stop : EndsNumber rest) (h : ahead p = n.chars ++ rest) :
    ∃ m q, Numeral.read? p = some (m, q) ∧ ahead q.1 = rest := by
  cases sign : n.negative with
  | true =>
    have here : ahead p = '-' :: (n.unsignedChars ++ rest) := by simpa [chars, sign] using h
    obtain ⟨q, found, left⟩ := next?_of_ahead here
    obtain ⟨m, r, read, left₁⟩ := readUnsigned_of_ahead stop left true
    refine ⟨m, q.trans r, ?_, left₁⟩
    simp only [Numeral.read?, found, if_true, read]
    rfl
  | false =>
    have here : ahead p = n.unsignedChars ++ rest := by simpa [chars, sign] using h
    obtain ⟨m, r, read, left⟩ := readUnsigned_of_ahead stop here false
    obtain ⟨q, found, -⟩ := next?_of_ahead here
    have digit := n.whole.digits _ List.mem_cons_self
    have minus : n.whole.first ≠ '-' := ne_of_isDigit digit (by decide)
    refine ⟨m, r, ?_, left⟩
    simp only [Numeral.read?, found, if_neg minus, read]

end NumberLiteral

section Begins

variable {c d : Char}

theorem ne_of_begins (begins : c = '-' ∨ c.isDigit = true) (no_digit : d.isDigit = false) (minus : d ≠ '-') :
    c ≠ d := by
  rcases begins with rfl | digit
  · exact minus.symm
  · exact ne_of_isDigit digit no_digit

theorem isSpace_of_begins (begins : c = '-' ∨ c.isDigit = true) : isSpace c = false := by
  rcases begins with rfl | digit
  · decide
  · exact isSpace_of_isDigit digit

end Begins

/-! ### Strings -/

abbrev HexDigit := { c : Char // (hexValue? c).isSome }

namespace HexDigit

def value (d : HexDigit) : Nat := (hexValue? d.1).get d.2

theorem read_of_ahead (d : HexDigit) {p : s.Pos} {rest : List Char} (h : ahead p = d.1 :: rest) :
    ∃ q, hexDigit? p = some (d.value, q) ∧ ahead q.1 = rest := by
  obtain ⟨q, found, left⟩ := next?_of_ahead h
  refine ⟨q, ?_, left⟩
  rw [hexDigit?_of_next? found, ← Option.some_get d.2]
  rfl

end HexDigit

structure HexQuad where
  a : HexDigit
  b : HexDigit
  c : HexDigit
  d : HexDigit

namespace HexQuad

def value (n : HexQuad) : Nat := ((n.a.value * 16 + n.b.value) * 16 + n.c.value) * 16 + n.d.value

def chars (n : HexQuad) : List Char := [n.a.1, n.b.1, n.c.1, n.d.1]

def pair? (n low : HexQuad) : Option Char :=
  if isLowSurrogate low.value then charOfCode? (0x10000 + (n.value - 0xD800) * 0x400 + (low.value - 0xDC00)) else none

theorem read_of_ahead (n : HexQuad) {p : s.Pos} {rest : List Char} (h : ahead p = n.chars ++ rest) :
    ∃ q, hexQuad? p = some (n.value, q) ∧ ahead q.1 = rest := by
  obtain ⟨q₁, first, h₁⟩ := n.a.read_of_ahead h
  obtain ⟨q₂, second, h₂⟩ := n.b.read_of_ahead h₁
  obtain ⟨q₃, third, h₃⟩ := n.c.read_of_ahead h₂
  obtain ⟨q₄, fourth, h₄⟩ := n.d.read_of_ahead h₃
  refine ⟨q₁.trans (q₂.trans (q₃.trans q₄)), ?_, h₄⟩
  simp only [hexQuad?, first, second, third, fourth, Option.bind_eq_bind, Option.bind_some, Option.pure_def, value]

end HexQuad

/-- What may stand between the quotes of a string: a character for itself, a letter behind a backslash, or a code. -/
inductive Piece where
  | plain (c : Char) (quote : c ≠ '"') (slash : c ≠ '\\') (printable : ¬ c.toNat < 32)
  | short (letter c : Char) (stands : shortEscape? letter = some c)
  | code (n : HexQuad)

namespace Piece

def chars : Piece → List Char
  | plain c .. => [c]
  | short letter .. => ['\\', letter]
  | code n => '\\' :: 'u' :: n.chars

def plains (cs : List Char) (all : ∀ c ∈ cs, c ≠ '"' ∧ c ≠ '\\' ∧ ¬ c.toNat < 32) : List Piece :=
  cs.pmap (fun c h => plain c h.1 h.2.1 h.2.2) all

def literal (pieces : List Piece) : List Char := '"' :: (pieces.flatMap chars ++ ['"'])

/-- The text that a string stands for. A character beyond 16 bits is written as a pair of codes, and half a pair
stands for no text. -/
def text? : List Piece → Option (List Char)
  | [] => some []
  | plain c .. :: rest => (text? rest).map (c :: ·)
  | short _ c _ :: rest => (text? rest).map (c :: ·)
  | code n :: rest =>
    if isHighSurrogate n.value then
      match rest with
      | code low :: rest => (n.pair? low).bind fun c => (text? rest).map (c :: ·)
      | _ => none
    else (charOfCode? n.value).bind fun c => (text? rest).map (c :: ·)

end Piece

/-- The reading gives what `x` holds, and ends where what is ahead has the property; or it fails, if `x` holds
nothing. -/
def Yields {α : Type} {p : s.Pos} (a : Read α p) (x : Option α) (behind : List Char → Prop) : Prop :=
  match x with
  | some v => ∃ q, a = .ok (v, q) ∧ behind (ahead q.1)
  | none => ∃ e, a = .error e

section Yields

variable {α β : Type} {p : s.Pos} {x : Option α} {after : List Char → Prop}

theorem Yields.behind {q : After p} {a : Read α q.1} (h : Yields a x after) : Yields (.behind q a) x after := by
  cases x with
  | some v =>
    obtain ⟨r, rfl, left⟩ := h
    exact ⟨q.trans r, rfl, left⟩
  | none =>
    obtain ⟨e, rfl⟩ := h
    exact ⟨e, rfl⟩

theorem Yields.afterSpace {a : Read α (skipSpace p).1} (h : Yields a x after) : Yields (.afterSpace a) x after := by
  cases x with
  | some v =>
    obtain ⟨r, rfl, left⟩ := h
    exact ⟨(skipSpace p).step r, rfl, left⟩
  | none =>
    obtain ⟨e, rfl⟩ := h
    exact ⟨e, rfl⟩

theorem Yields.map {a : Read α p} (f : α → β) (h : Yields a x after) : Yields (a.map f) (x.map f) after := by
  cases x with
  | some v =>
    obtain ⟨r, rfl, left⟩ := h
    exact ⟨r, rfl, left⟩
  | none =>
    obtain ⟨e, rfl⟩ := h
    exact ⟨e, rfl⟩

theorem Yields.imp {a : Read α p} {also : List Char → Prop} (h : Yields a x after) (imp : ∀ cs, after cs → also cs) :
    Yields a x also := by
  cases x with
  | some v =>
    obtain ⟨q, read, left⟩ := h
    exact ⟨q, read, imp _ left⟩
  | none => exact h

end Yields

section Turns

variable {start : s.Pos} {c : Char}

theorem stringRest_malformed {p : From start} {done : String} {q : After p.1} (h : next? p.1 = some ('\\', q))
    (refused : escape? q.1 = none) : stringRest p done = .error .malformed := by
  have other : '\\' ≠ '"' := by decide
  rw [stringRest]
  simp only [h, if_neg other, if_true, refused]
  rfl

theorem stringEnd_close {p : From start} {q : After p.1} (h : next? p.1 = some ('"', q)) :
    stringEnd p = .ok ((), p.step q) := by
  rw [stringEnd]
  simp only [h, if_true]

theorem stringEnd_escape {p : From start} {q : After p.1} {r : After q.1} (h : next? p.1 = some ('\\', q))
    (escaped : escapeEnd? q.1 = some r) : stringEnd p = stringEnd (p.step (q.trans r)).toFrom := by
  have other : '\\' ≠ '"' := by decide
  rw [stringEnd]
  simp only [h, if_neg other, if_true, escaped]

theorem stringEnd_plain {p : From start} {q : After p.1} (h : next? p.1 = some (c, q)) (quote : c ≠ '"')
    (slash : c ≠ '\\') (printable : ¬ c.toNat < 32) : stringEnd p = stringEnd (p.step q).toFrom := by
  rw [stringEnd]
  simp only [h, if_neg quote, if_neg slash, if_neg printable]

end Turns

namespace Piece

variable {start p : s.Pos} {pieces : List Piece} {rest : List Char}

theorem ne_u_of_short {letter c : Char} (stands : shortEscape? letter = some c) : letter ≠ 'u' := by
  rintro rfl
  cases stands

theorem stringEnd_of_pieces {p : From start} (h : ahead p.1 = pieces.flatMap chars ++ '"' :: rest) :
    Gives (stringEnd p) () rest := by
  induction pieces generalizing p with
  | nil =>
    obtain ⟨q, found, left⟩ := next?_of_ahead h
    exact ⟨p.step q, stringEnd_close found, left⟩
  | cons piece pieces ih =>
    rw [List.flatMap_cons, List.append_assoc] at h
    cases piece with
    | plain c quote slash printable =>
      obtain ⟨q, found, left⟩ := next?_of_ahead h
      rw [stringEnd_plain found quote slash printable]
      exact ih (p := (p.step q).toFrom) left
    | short letter c stands =>
      obtain ⟨q, found, left⟩ := next?_of_ahead h
      obtain ⟨r, named, left⟩ := next?_of_ahead left
      have escaped : escapeEnd? q.1 = some r := by
        simp [escapeEnd?, named, ne_u_of_short stands, stands]
      rw [stringEnd_escape found escaped]
      exact ih (p := (p.step (q.trans r)).toFrom) left
    | code n =>
      obtain ⟨q, found, left⟩ := next?_of_ahead h
      obtain ⟨r, named, left⟩ := next?_of_ahead left
      obtain ⟨t, quad, left⟩ := n.read_of_ahead left
      have escaped : escapeEnd? q.1 = some (r.trans t) := by
        simp [escapeEnd?, named, quad]
      rw [stringEnd_escape found escaped]
      exact ih (p := (p.step (q.trans (r.trans t))).toFrom) left

theorem unicodeEscape_of_code {n : HexQuad} (alone : isHighSurrogate n.value = false)
    (h : ahead p = n.chars ++ rest) :
    ∃ q, unicodeEscape? p = (charOfCode? n.value).map (·, q) ∧ ahead q.1 = rest := by
  obtain ⟨q, quad, left⟩ := n.read_of_ahead h
  refine ⟨q, ?_, left⟩
  cases valid : charOfCode? n.value <;> simp [unicodeEscape?, quad, alone, valid]

theorem unicodeEscape_of_pair {n low : HexQuad} (high : isHighSurrogate n.value = true)
    (h : ahead p = n.chars ++ ('\\' :: 'u' :: (low.chars ++ rest))) :
    ∃ q, unicodeEscape? p = (n.pair? low).map (·, q) ∧ ahead q.1 = rest := by
  obtain ⟨q, quad, left⟩ := n.read_of_ahead h
  have second : ahead q.1 = ['\\', 'u'] ++ (low.chars ++ rest) := left
  obtain ⟨r, skipped, left⟩ := skipWord_of_ahead second
  obtain ⟨t, last, left⟩ := low.read_of_ahead left
  refine ⟨(q.skip r).trans t, ?_, left⟩
  unfold HexQuad.pair?
  cases half : isLowSurrogate low.value with
  | false => simp [unicodeEscape?, quad, high, skipped, last, half]
  | true =>
    cases valid : charOfCode? (0x10000 + (n.value - 0xD800) * 0x400 + (low.value - 0xDC00)) <;>
      simp [unicodeEscape?, quad, high, skipped, last, half, valid]

theorem unicodeEscape_of_half {n : HexQuad} (high : isHighSurrogate n.value = true)
    (no_code : ∀ low others, pieces ≠ code low :: others)
    (h : ahead p = n.chars ++ (pieces.flatMap chars ++ '"' :: rest)) : unicodeEscape? p = none := by
  obtain ⟨q, quad, left⟩ := n.read_of_ahead h
  -- No other piece begins like a code, and neither does the closing quote.
  suffices apart : skipWord ['\\', 'u'] q.1 = none by
    simp [unicodeEscape?, quad, high, apart]
  cases pieces with
  | nil =>
    obtain ⟨r, found, -⟩ := next?_of_ahead left
    simp [skipWord, found]
  | cons piece others =>
    cases piece with
    | plain c quote slash printable =>
      obtain ⟨r, found, -⟩ := next?_of_ahead left
      simp [skipWord, found, slash.symm]
    | short letter c stands =>
      obtain ⟨r, found, left⟩ := next?_of_ahead left
      obtain ⟨t, named, -⟩ := next?_of_ahead left
      simp [skipWord, found, named, (ne_u_of_short stands).symm]
    | code low => exact absurd rfl (no_code low others)

theorem map_push (done : String) (c : Char) (tail : Option (List Char)) :
    (tail.map (c :: ·)).map (fun cs => done ++ String.ofList cs)
      = tail.map fun cs => done.push c ++ String.ofList cs := by
  rw [Option.map_map]
  refine Option.map_congr fun cs _ => ?_
  rw [← String.toList_inj]
  simp

theorem stringRest_of_code {p : From start} {done : String} {q : After p.1} {r : After q.1} {t : After r.1}
    {meant : Option Char} {tail : Option (List Char)} (first : next? p.1 = some ('\\', q))
    (named : next? q.1 = some ('u', r)) (read : unicodeEscape? r.1 = meant.map (·, t))
    (goes_on : ∀ c, Yields (stringRest (p.step (q.trans (r.trans t))).toFrom (done.push c))
      (tail.map fun cs => done.push c ++ String.ofList cs) (· = rest)) :
    Yields (stringRest p done)
      ((meant.bind fun c => tail.map (c :: ·)).map fun cs => done ++ String.ofList cs) (· = rest) := by
  have escaped : escape? q.1 = (unicodeEscape? r.1).map fun (c, t) => (c, r.trans t) := by
    rw [escape?_of_next? named, if_pos rfl]
  cases meant with
  | none => exact ⟨_, stringRest_malformed first (by rw [escaped, read]; rfl)⟩
  | some c =>
    rw [stringRest_escape first (escaped.trans (by rw [read]; rfl)), Option.bind_some, map_push]
    exact goes_on c

/-- A string is read as the text that it stands for. If it stands for none, reading fails. -/
theorem stringRest_of_pieces {p : From start} (done : String)
    (h : ahead p.1 = pieces.flatMap chars ++ '"' :: rest) :
    Yields (stringRest p done) ((text? pieces).map fun cs => done ++ String.ofList cs) (· = rest) := by
  -- One case for each turn of the reader: it takes two codes at once if they are a pair.
  fun_induction text? pieces generalizing p done with
  | case1 =>
    obtain ⟨q, found, left⟩ := next?_of_ahead h
    exact ⟨p.step q, by simpa using stringRest_close found, left⟩
  | case2 c quote slash printable pieces ih =>
    rw [List.flatMap_cons, List.append_assoc] at h
    obtain ⟨q, found, left⟩ := next?_of_ahead h
    rw [stringRest_plain found quote slash printable, map_push]
    exact ih (p := (p.step q).toFrom) (done.push c) left
  | case3 letter c stands pieces ih =>
    rw [List.flatMap_cons, List.append_assoc] at h
    obtain ⟨q, found, left⟩ := next?_of_ahead h
    obtain ⟨r, named, left⟩ := next?_of_ahead left
    have escaped : escape? q.1 = some (c, r) := by
      rw [escape?_of_next? named, if_neg (ne_u_of_short stands), stands]
      rfl
    rw [stringRest_escape found escaped, map_push]
    exact ih (p := (p.step (q.trans r)).toFrom) (done.push c) left
  | case4 n high low pieces ih =>
    rw [List.flatMap_cons, List.flatMap_cons, List.append_assoc, List.append_assoc] at h
    obtain ⟨q, found, left⟩ := next?_of_ahead h
    obtain ⟨r, named, left⟩ := next?_of_ahead left
    obtain ⟨t, read, left⟩ := unicodeEscape_of_pair high left
    exact stringRest_of_code found named read fun c => ih (p := (p.step (q.trans (r.trans t))).toFrom) _ left
  | case5 n pieces high no_code =>
    rw [List.flatMap_cons, List.append_assoc] at h
    obtain ⟨q, found, left⟩ := next?_of_ahead h
    obtain ⟨r, named, left⟩ := next?_of_ahead left
    refine ⟨_, stringRest_malformed found ?_⟩
    rw [escape?_of_next? named, if_pos rfl, unicodeEscape_of_half high no_code left]
    rfl
  | case6 n pieces alone ih =>
    rw [List.flatMap_cons, List.append_assoc] at h
    obtain ⟨q, found, left⟩ := next?_of_ahead h
    obtain ⟨r, named, left⟩ := next?_of_ahead left
    obtain ⟨t, read, left⟩ := unicodeEscape_of_code (Bool.not_eq_true _ ▸ alone) left
    exact stringRest_of_code found named read fun c => ih (p := (p.step (q.trans (r.trans t))).toFrom) _ left

theorem string_of_pieces (h : ahead p = pieces.flatMap chars ++ '"' :: rest) :
    Yields (string p) ((text? pieces).map String.ofList) (· = rest) := by
  have read := stringRest_of_pieces (p := .here p) "" h
  simp only [String.empty_append] at read
  exact read

end Piece

end SnippetKernel.Wire
