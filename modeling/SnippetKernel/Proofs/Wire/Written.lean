import SnippetKernel.Proofs.Wire.Extension

/-! Reading back what was written. Each reader is followed over the characters that the writer makes, up to
whatever stands behind them. -/
namespace SnippetKernel.Wire

variable {s : String}

/-- The reading gives `x` and ends where `rest` is ahead. -/
def Gives {α : Type} {p : s.Pos} (a : Read α p) (x : α) (rest : List Char) : Prop :=
  ∃ q, a = .ok (x, q) ∧ ahead q.1 = rest

section Gives

variable {α β : Type} {p : s.Pos} {x : α} {rest : List Char}

theorem Gives.behind {q : After p} {a : Read α q.1} (h : Gives a x rest) :
    Gives (.behind q a) x rest := by
  obtain ⟨r, rfl, left⟩ := h
  exact ⟨q.trans r, rfl, left⟩

theorem Gives.afterSpace {a : Read α (skipSpace p).1} (h : Gives a x rest) :
    Gives (.afterSpace a) x rest := by
  obtain ⟨r, rfl, left⟩ := h
  exact ⟨(skipSpace p).step r, rfl, left⟩

theorem Gives.map {a : Read α p} (f : α → β) (h : Gives a x rest) : Gives (a.map f) (f x) rest := by
  obtain ⟨r, rfl, left⟩ := h
  exact ⟨r, rfl, left⟩

end Gives

/-- No blanks are skipped where none stand. -/
theorem skipSpace_of_ahead {p : s.Pos} {c : Char} {cs : List Char} (h : ahead p = c :: cs)
    (visible : isSpace c = false) : (skipSpace p).1 = p := by
  obtain ⟨q, found, _⟩ := next?_of_ahead h
  show spaceEnd p = p
  rw [spaceEnd_of_next? found, visible]
  rfl

/-- The next character, when it is no blank. -/
theorem nextVisible_of_ahead {p : s.Pos} {c : Char} {cs : List Char} (h : ahead p = c :: cs)
    (visible : isSpace c = false) :
    ∃ q, next? (skipSpace p).1 = some (c, q) ∧ ahead q.1 = cs :=
  next?_of_ahead ((congrArg ahead (skipSpace_of_ahead h visible)).trans h)

/-! ### Strings -/

/-- The characters that stand for a text between quotes. -/
def quoted (cs : List Char) : List Char := cs.flatMap fun c => (Json.escape c).toList

theorem toList_quote (text : String) :
    (Json.quote text).toList = '"' :: (quoted text.toList ++ ['"']) := by
  have step (cs : List Char) (out : String) :
      (cs.foldl (fun out c => out ++ Json.escape c) out).toList = out.toList ++ quoted cs := by
    induction cs generalizing out with
    | nil => simp [quoted]
    | cons c cs ih => simp [ih, quoted]
  rw [Json.quote, String.foldl_eq_foldl_toList, String.toList_append, step]
  rfl

theorem hexValue_hexDigit : ∀ n < 16, hexValue? (Json.hexDigit n) = some n := by decide

theorem skipWord_of_ahead {word : List Char} {p : s.Pos} {rest : List Char}
    (h : ahead p = word ++ rest) : ∃ q, skipWord word p = some q ∧ ahead q.1 = rest := by
  induction word generalizing p with
  | nil => exact ⟨.here p, rfl, h⟩
  | cons c word ih =>
    obtain ⟨q, found, left⟩ := next?_of_ahead h
    obtain ⟨r, read, left'⟩ := ih left
    exact ⟨(q.skip r).toFrom, by simp only [skipWord, found, if_true, read], left'⟩

theorem hexDigit_of_ahead {p : s.Pos} {n : Nat} {rest : List Char} (small : n < 16)
    (h : ahead p = Json.hexDigit n :: rest) : ∃ q, hexDigit? p = some (n, q) ∧ ahead q.1 = rest := by
  obtain ⟨q, found, left⟩ := next?_of_ahead h
  exact ⟨q, by rw [hexDigit?_of_next? found, hexValue_hexDigit n small]; rfl, left⟩

/-- The three ways in which a character is written. -/
theorem escape_cases (c : Char) :
    (∃ e, (Json.escape c).toList = ['\\', e] ∧ e ≠ 'u' ∧ shortEscape? e = some c) ∨
      (c.toNat < 32 ∧ (Json.escape c).toList =
        ['\\', 'u', '0', '0', Json.hexDigit (c.toNat / 16), Json.hexDigit (c.toNat % 16)]) ∨
      ((Json.escape c).toList = [c] ∧ c ≠ '"' ∧ c ≠ '\\' ∧ ¬ c.toNat < 32) := by
  unfold Json.escape
  split
  · exact .inl ⟨'"', by decide⟩
  · exact .inl ⟨'\\', by decide⟩
  · exact .inl ⟨'n', by decide⟩
  · exact .inl ⟨'r', by decide⟩
  · exact .inl ⟨'t', by decide⟩
  · exact .inl ⟨'b', by decide⟩
  · exact .inl ⟨'f', by decide⟩
  · next quote slash _ _ _ _ _ =>
    split
    · next control => exact .inr (.inl ⟨control, by simp⟩)
    · next printable => exact .inr (.inr ⟨by simp, quote, slash, printable⟩)

theorem hexQuad_of_ahead {p : s.Pos} {n : Nat} {rest : List Char} (small : n < 32)
    (h : ahead p = '0' :: '0' :: Json.hexDigit (n / 16) :: Json.hexDigit (n % 16) :: rest) :
    ∃ q, hexQuad? p = some (n, q) ∧ ahead q.1 = rest := by
  obtain ⟨q₁, first, h₁⟩ := hexDigit_of_ahead (n := 0) (by decide) h
  obtain ⟨q₂, second, h₂⟩ := hexDigit_of_ahead (n := 0) (by decide) h₁
  obtain ⟨q₃, third, h₃⟩ := hexDigit_of_ahead (by omega) h₂
  obtain ⟨q₄, fourth, h₄⟩ := hexDigit_of_ahead (Nat.mod_lt _ (by decide)) h₃
  refine ⟨q₁.trans (q₂.trans (q₃.trans q₄)), ?_, h₄⟩
  simp only [hexQuad?, first, second, third, fourth, Option.bind_eq_bind, Option.bind_some,
    Option.pure_def, Nat.zero_mul, Nat.zero_add, Nat.div_add_mod']

theorem charOfCode_toNat (c : Char) : charOfCode? c.toNat = some c := by
  have valid : c.toNat.isValidChar := c.valid
  rw [charOfCode?, dif_pos valid]
  rfl

theorem unicodeEscape_of_ahead {p : s.Pos} {c : Char} {rest : List Char} (control : c.toNat < 32)
    (h : ahead p = '0' :: '0' :: Json.hexDigit (c.toNat / 16) :: Json.hexDigit (c.toNat % 16) :: rest) :
    ∃ q, unicodeEscape? p = some (c, q) ∧ ahead q.1 = rest := by
  obtain ⟨q, quad, left⟩ := hexQuad_of_ahead control h
  have low : isHighSurrogate c.toNat = false := by simp [isHighSurrogate]; omega
  exact ⟨q, by simp [unicodeEscape?, quad, low, charOfCode_toNat], left⟩

/-- A written character is read back, and reading goes on behind it. -/
theorem stringRest_of_escape {start : s.Pos} {p : From start} {c : Char} {rest : List Char}
    (done : String) (h : ahead p.1 = (Json.escape c).toList ++ rest) :
    ∃ q : From start, stringRest p done = stringRest q (done.push c) ∧ ahead q.1 = rest := by
  rcases escape_cases c with ⟨e, text, other, short⟩ | ⟨control, text⟩ | ⟨text, quote, slash, control⟩
  · rw [text] at h
    obtain ⟨q, found, h₁⟩ := next?_of_ahead h
    obtain ⟨r, letter, h₂⟩ := next?_of_ahead h₁
    have escaped : escape? q.1 = some (c, r) := by
      rw [escape?_of_next? letter, if_neg other, short]
      rfl
    refine ⟨(p.step (q.trans r)).toFrom, ?_, h₂⟩
    exact stringRest_escape found escaped
  · rw [text] at h
    obtain ⟨q, found, h₁⟩ := next?_of_ahead h
    obtain ⟨r, letter, h₂⟩ := next?_of_ahead h₁
    obtain ⟨t, code, h₃⟩ := unicodeEscape_of_ahead control h₂
    have escaped : escape? q.1 = some (c, r.trans t) := by
      rw [escape?_of_next? letter, if_pos rfl, code]
      rfl
    refine ⟨(p.step (q.trans (r.trans t))).toFrom, ?_, h₃⟩
    exact stringRest_escape found escaped
  · rw [text] at h
    obtain ⟨q, found, h₁⟩ := next?_of_ahead h
    refine ⟨(p.step q).toFrom, ?_, h₁⟩
    exact stringRest_plain found quote slash control

theorem stringRest_of_quoted {start : s.Pos} {cs rest : List Char} {p : From start} (done : String)
    (h : ahead p.1 = quoted cs ++ '"' :: rest) :
    Gives (stringRest p done) (done ++ String.ofList cs) rest := by
  induction cs generalizing p done with
  | nil =>
    obtain ⟨q, found, left⟩ := next?_of_ahead h
    exact ⟨p.step q, by simpa using stringRest_close found, left⟩
  | cons c cs ih =>
    rw [quoted, List.flatMap_cons, List.append_assoc] at h
    obtain ⟨q, step, left⟩ := stringRest_of_escape done h
    have grown : done ++ String.ofList (c :: cs) = done.push c ++ String.ofList cs := by
      rw [← String.toList_inj]
      simp
    rw [step, grown]
    exact ih (done.push c) left

/-- A quoted text is read back, from behind its opening quote. -/
theorem string_of_quoted {p : s.Pos} {text : String} {rest : List Char}
    (h : ahead p = quoted text.toList ++ '"' :: rest) : Gives (string p) text rest := by
  have := stringRest_of_quoted (p := .here p) "" h
  rwa [String.ofList_toList, String.empty_append] at this

/-! ### Numbers -/

/-- Nothing here goes on with a number that ended. -/
def EndsNumber (rest : List Char) : Prop :=
  ∀ c ∈ rest.head?, c.isDigit = false ∧ c ≠ '.' ∧ c ≠ 'e' ∧ c ≠ 'E'

theorem le_ofDigitChars (ds : List Char) (n : Nat) : n ≤ Nat.ofDigitChars 10 ds n := by
  rw [Nat.ofDigitChars_eq_ofDigitChars_zero]
  have := Nat.mul_le_mul_right n (Nat.one_le_pow ds.length 10 (by decide))
  omega

theorem wholeDigits_of_ahead {start : s.Pos} {ds rest : List Char} {p : From start} {n : Nat}
    (h : ahead p.1 = ds ++ rest) (digits : ∀ c ∈ ds, c.isDigit = true)
    (stop : ∀ c ∈ rest.head?, c.isDigit = false)
    (fits : Nat.ofDigitChars 10 ds n ≤ Numeral.maxSignificand) :
    ∃ q, Numeral.wholeDigits p n 0 = (Nat.ofDigitChars 10 ds n, 0, q) ∧ ahead q.1 = rest := by
  induction ds generalizing p n with
  | nil =>
    refine ⟨p, ?_, h⟩
    cases found : next? p.1 with
    | none =>
      rw [Numeral.wholeDigits]
      simp [found]
    | some x =>
      obtain ⟨c, q⟩ := x
      have other : c.isDigit = false := by
        apply stop
        rw [List.nil_append] at h
        rw [← h, ahead_of_next? found]
        rfl
      rw [wholeDigits_of_next? found, other]
      simp
  | cons c ds ih =>
    obtain ⟨q, found, left⟩ := next?_of_ahead h
    have value : n * 10 + Numeral.digitOf c = 10 * n + (c.toNat - '0'.toNat) := by
      rw [Numeral.digitOf, Nat.mul_comm]
      rfl
    rw [Nat.ofDigitChars_cons, ← value] at fits ⊢
    have grows := le_ofDigitChars ds (n * 10 + Numeral.digitOf c)
    obtain ⟨r, read, left'⟩ := ih (p := (p.step q).toFrom) left
      (fun d mem => digits d (List.mem_cons_of_mem _ mem)) fits
    refine ⟨r, ?_, left'⟩
    rw [wholeDigits_of_next? found, if_pos (digits c List.mem_cons_self),
      if_pos ⟨rfl, Nat.le_trans grows fits⟩, read]

/-- Only zero itself begins with a zero. -/
theorem head_toDigits {n : Nat} (positive : 0 < n) : (Nat.toDigits 10 n).head? ≠ some '0' := by
  induction n using Nat.strongRecOn with
  | _ n ih =>
    by_cases small : n < 10
    · have digit : ∀ m < 10, 0 < m → m.digitChar ≠ '0' := by decide
      rw [Nat.toDigits_of_lt_base small]
      simpa using digit n small positive
    · rw [Nat.toDigits_of_base_le (by decide) (Nat.le_of_not_lt small)]
      have shorter := ih (n / 10) (by omega) (by omega)
      cases digits : Nat.toDigits 10 (n / 10) with
      | nil => exact absurd digits Nat.toDigits_ne_nil
      | cons d ds => simpa [digits] using shorter

theorem readFraction_of_ahead {p : s.Pos} {n : Nat} (stop : EndsNumber (ahead p)) :
    Numeral.readFraction? p n = some (none, .here p) := by
  unfold Numeral.readFraction?
  split
  · rfl
  · next c q found =>
    have other := stop c (by rw [ahead_of_next? found]; rfl)
    rw [if_neg other.2.1]

theorem readExponent_of_ahead {p : s.Pos} (stop : EndsNumber (ahead p)) :
    Numeral.readExponent? p = some (none, .here p) := by
  unfold Numeral.readExponent?
  split
  · rfl
  · next c q found =>
    have other := stop c (by rw [ahead_of_next? found]; rfl)
    rw [if_neg (not_or.2 other.2.2)]

theorem numeral_of_digits {p : s.Pos} {n : Nat} {rest : List Char} (fits : n ≤ Numeral.maxSignificand)
    (h : ahead p = Nat.toDigits 10 n ++ rest) (stop : EndsNumber rest) :
    ∃ q, Numeral.read? p = some (⟨false, n, 0, true⟩, q) ∧ ahead q.1 = rest := by
  have all_digits (c : Char) (mem : c ∈ Nat.toDigits 10 n) : c.isDigit = true :=
    Nat.isDigit_of_mem_toDigits (by decide) (by decide) mem
  have total : Nat.ofDigitChars 10 (Nat.toDigits 10 n) 0 = n := Nat.ofDigitChars_ten_toDigits
  cases digits : Nat.toDigits 10 n with
  | nil => exact absurd digits Nat.toDigits_ne_nil
  | cons d ds =>
    rw [digits] at h all_digits total
    have first := all_digits d List.mem_cons_self
    obtain ⟨q, found, left⟩ := next?_of_ahead h
    have start : Nat.ofDigitChars 10 ds (Numeral.digitOf d) = n := by
      rw [Nat.ofDigitChars_cons] at total
      simpa [Numeral.digitOf] using total
    obtain ⟨r, whole, left'⟩ := wholeDigits_of_ahead (p := .here q.1) left
      (fun c mem => all_digits c (List.mem_cons_of_mem _ mem)) (fun c mem => (stop c mem).1)
      (by rw [start]; exact fits)
    rw [start] at whole
    have alone : ¬(d = '0' ∧ r.1 ≠ q.1) := by
      rintro ⟨rfl, apart⟩
      by_cases zero : n = 0
      · rw [zero, Nat.toDigits_zero] at digits
        cases digits
        exact apart (ahead_inj.1 (left'.trans left.symm))
      · exact head_toDigits (Nat.pos_of_ne_zero zero) (by rw [digits]; rfl)
    have stop' : EndsNumber (ahead r.1) := left' ▸ stop
    refine ⟨((q.skip r).skip (.here r.1)).skip (.here r.1), ?_, left'⟩
    have minus : d ≠ '-' := by
      rintro rfl
      exact absurd first (by decide)
    have unsigned : Numeral.read? p = Numeral.readUnsigned? false p := by
      simp only [Numeral.read?, found, if_neg minus]
    have here : Numeral.readExponent? (From.here r.1).1 = some (none, .here r.1) :=
      readExponent_of_ahead stop'
    rw [unsigned, Numeral.readUnsigned?]
    simp only [found]
    rw [if_pos first, whole]
    simp only [if_neg alone]
    rw [readFraction_of_ahead stop']
    simp only [here]
    rfl

/-- An integer that fits 64 bits is read back. -/
theorem number_of_natural {p : s.Pos} {n : UInt64} {rest : List Char}
    (h : ahead p = (JsonNumber.natural n).text.toList ++ rest) (stop : EndsNumber rest) :
    Gives (number p) (.number (.natural n)) rest := by
  have fits : n.toNat ≤ Numeral.maxSignificand := Nat.le_sub_one_of_lt n.toNat_lt
  have text : (JsonNumber.natural n).text.toList = Nat.toDigits 10 n.toNat := Nat.toList_repr
  rw [text] at h
  obtain ⟨q, read, left⟩ := numeral_of_digits fits h stop
  exact ⟨q, by simp [number, read, Numeral.value?], left⟩

end SnippetKernel.Wire
