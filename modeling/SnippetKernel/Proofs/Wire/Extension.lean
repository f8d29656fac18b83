import SnippetKernel.Wire.Reader

/-! Readers do not look behind what they read. A reading that ends before the end of a text ends in the
same way when the text goes on, and one that ends with a quote or a bracket does so even at the end. -/
namespace SnippetKernel.Wire

/-! ### What lies ahead of a place

Readers go by positions; what they find depends only on the characters ahead, so everything about them is said in those
terms. -/

variable {s : String}

/-- The characters from a place to the end of the text. -/
def ahead (p : s.Pos) : List Char := (s.sliceFrom p).copy.toList

theorem ahead_startPos : ahead s.startPos = s.toList := by
  have whole := s.startPos.splits.eq_right (String.splits_startPos s)
  rw [ahead, whole]

theorem ahead_eq_nil_iff {p : s.Pos} : ahead p = [] ↔ p = s.endPos := by
  rw [ahead, String.toList_eq_nil_iff, ← p.splits.eq_endPos_iff]

theorem ahead_inj {p q : s.Pos} : ahead p = ahead q ↔ p = q := by
  constructor
  · intro same
    have eq : (s.sliceFrom p).copy = (s.sliceFrom q).copy := String.toList_inj.1 same
    exact p.splits.pos_eq_of_eq_right (eq ▸ q.splits)
  · rintro rfl
    rfl

theorem ahead_of_next? {p : s.Pos} {c : Char} {q : After p} (h : next? p = some (c, q)) :
    ahead p = c :: ahead q.1 := by
  simp only [next?] at h
  split at h
  · cases h
  · next more =>
    cases h
    have split := p.splits.eq_right (String.Pos.splits_next_right p more)
    simp [ahead, split]

theorem next?_eq_none_iff {p : s.Pos} : next? p = none ↔ ahead p = [] := by
  rw [ahead_eq_nil_iff, next?]
  split <;> simp_all

theorem next?_of_ahead {p : s.Pos} {c : Char} {cs : List Char} (h : ahead p = c :: cs) :
    ∃ q : After p, next? p = some (c, q) ∧ ahead q.1 = cs := by
  cases found : next? p with
  | none => rw [next?_eq_none_iff.1 found] at h; cases h
  | some x =>
    obtain ⟨d, q⟩ := x
    rw [ahead_of_next? found] at h
    cases h
    exact ⟨q, rfl, rfl⟩

/-! ### One turn of a reader

What a reader does with the next character, for each reader that goes on by itself. -/

section Turns

variable {start : s.Pos} {c : Char}

theorem spaceEnd_of_next? {p : s.Pos} {q : After p} (h : next? p = some (c, q)) :
    spaceEnd p = if isSpace c then spaceEnd q.1 else p := by
  rw [spaceEnd, h]

theorem hexDigit?_of_next? {p : s.Pos} {q : After p} (h : next? p = some (c, q)) :
    hexDigit? p = (hexValue? c).map (·, q) := by
  simp only [hexDigit?, h, Option.bind_eq_bind, Option.bind_some]
  cases hexValue? c <;> rfl

theorem escape?_of_next? {p : s.Pos} {q : After p} (h : next? p = some (c, q)) :
    escape? p =
      if c = 'u' then (unicodeEscape? q.1).map fun (d, r) => (d, q.trans r)
      else (shortEscape? c).map (·, q) := by
  simp only [escape?, h, Option.bind_eq_bind, Option.bind_some]
  split
  · cases unicodeEscape? q.1 <;> rfl
  · cases shortEscape? c <;> rfl

theorem stringRest_close {p : From start} {done : String} {q : After p.1}
    (h : next? p.1 = some ('"', q)) : stringRest p done = .ok (done, p.step q) := by
  rw [stringRest]
  simp only [h, if_true]

theorem stringRest_escape {p : From start} {done : String} {q : After p.1} {d : Char} {r : After q.1}
    (h : next? p.1 = some ('\\', q)) (escaped : escape? q.1 = some (d, r)) :
    stringRest p done = stringRest (p.step (q.trans r)).toFrom (done.push d) := by
  have other : '\\' ≠ '"' := by decide
  rw [stringRest]
  simp only [h, if_neg other, if_true, escaped]

theorem stringRest_plain {p : From start} {done : String} {q : After p.1} (h : next? p.1 = some (c, q))
    (quote : c ≠ '"') (slash : c ≠ '\\') (printable : ¬ c.toNat < 32) :
    stringRest p done = stringRest (p.step q).toFrom (done.push c) := by
  rw [stringRest]
  simp only [h, if_neg quote, if_neg slash, if_neg printable]

theorem wholeDigits_of_next? {p : From start} {significand dropped : Nat} {q : After p.1}
    (h : next? p.1 = some (c, q)) :
    Numeral.wholeDigits p significand dropped =
      if c.isDigit then
        if dropped = 0 ∧ significand * 10 + Numeral.digitOf c ≤ Numeral.maxSignificand then
          Numeral.wholeDigits (p.step q).toFrom (significand * 10 + Numeral.digitOf c) 0
        else Numeral.wholeDigits (p.step q).toFrom significand (dropped + 1)
      else (significand, dropped, p) := by
  rw [Numeral.wholeDigits]
  simp only [h]

theorem fractionDigits_of_next? {p : From start} {significand kept count : Nat} {q : After p.1}
    (h : next? p.1 = some (c, q)) :
    Numeral.fractionDigits p significand kept count =
      if c.isDigit then
        if kept = count ∧ significand * 10 + Numeral.digitOf c ≤ Numeral.maxSignificand then
          Numeral.fractionDigits (p.step q).toFrom (significand * 10 + Numeral.digitOf c) (kept + 1)
            (count + 1)
        else Numeral.fractionDigits (p.step q).toFrom significand kept (count + 1)
      else (significand, kept, count, p) := by
  rw [Numeral.fractionDigits]
  simp only [h]

theorem exponentDigits_of_next? {p : From start} {value count : Nat} {q : After p.1}
    (h : next? p.1 = some (c, q)) :
    Numeral.exponentDigits p value count =
      if c.isDigit then
        Numeral.exponentDigits (p.step q).toFrom
          (min (value * 10 + Numeral.digitOf c) Numeral.maxExponent) (count + 1)
      else (value, count, p) := by
  rw [Numeral.exponentDigits]
  simp only [h]

variable {σ : Type} {element : σ → (p : s.Pos) → Read σ p} {member : String → σ → (p : s.Pos) → Read σ p}
  {state state' : σ} {first : Bool}

theorem elements_close {p : From start} {q : After (skipSpace p.1).1}
    (h : next? (skipSpace p.1).1 = some (']', q)) :
    elements element first state p = .ok (state, p.step ((skipSpace p.1).step q)) := by
  rw [elements]
  simp only [h, if_true]

theorem elements_first {p : From start} {q : After (skipSpace p.1).1} {r : After p.1}
    (h : next? (skipSpace p.1).1 = some (c, q)) (more : c ≠ ']')
    (read : element state p.1 = .ok (state', r)) :
    elements element true state p = elements element false state' (p.step r).toFrom := by
  rw [elements]
  simp only [h, if_neg more, if_true, read]

theorem elements_comma {p : From start} {q : After (skipSpace p.1).1} {r : After q.1}
    (h : next? (skipSpace p.1).1 = some (',', q))
    (more : (next? (skipSpace q.1).1).any (·.1 = ']') = false)
    (read : element state q.1 = .ok (state', r)) :
    elements element false state p =
      elements element false state' (p.step ((skipSpace p.1).step (q.trans r))).toFrom := by
  rw [elements]
  simp [h, more, read]

theorem members_close {p : From start} {q : After (skipSpace p.1).1}
    (h : next? (skipSpace p.1).1 = some ('\x7d', q)) :
    members member first state p = .ok (state, p.step ((skipSpace p.1).step q)) := by
  rw [members]
  simp only [h, if_true]

theorem members_first {p : From start} {q : After (skipSpace p.1).1} {r : After p.1}
    (h : next? (skipSpace p.1).1 = some (c, q)) (more : c ≠ '\x7d')
    (read : keyed member state p.1 = .ok (state', r)) :
    members member true state p = members member false state' (p.step r).toFrom := by
  rw [members]
  simp only [h, if_neg more, if_true, read]

theorem members_comma {p : From start} {q : After (skipSpace p.1).1} {r : After q.1}
    (h : next? (skipSpace p.1).1 = some (',', q)) (read : keyed member state q.1 = .ok (state', r)) :
    members member false state p =
      members member false state' (p.step ((skipSpace p.1).step (q.trans r))).toFrom := by
  rw [members]
  simp [h, read]

end Turns

end SnippetKernel.Wire

/-! ### Texts that go on -/
namespace SnippetKernel.Wire

variable {s t : String} {more : List Char}

/-- At `p'` stands what stands at `p`, and then more. -/
def Extends (more : List Char) (p : s.Pos) (p' : t.Pos) : Prop := ahead p' = ahead p ++ more

theorem Extends.next {p : s.Pos} {p' : t.Pos} {c : Char} {q : After p} (grown : Extends more p p')
    (h : next? p = some (c, q)) : ∃ q', next? p' = some (c, q') ∧ Extends more q.1 q'.1 := by
  rw [Extends, ahead_of_next? h, List.cons_append] at grown
  exact next?_of_ahead grown

/-- Two places of one text coincide exactly when the places that extend them do. -/
theorem Extends.eq_iff {p q : s.Pos} {p' q' : t.Pos} (hp : Extends more p p') (hq : Extends more q q') :
    p' = q' ↔ p = q := by
  rw [← ahead_inj, hp, hq, List.append_left_inj, ahead_inj]

theorem Extends.spaceEnd {p : s.Pos} {p' : t.Pos} (grown : Extends more p p')
    (inside : ahead (spaceEnd p) ≠ []) : Extends more (spaceEnd p) (spaceEnd p') := by
  fun_induction Wire.spaceEnd p generalizing p' with
  | case1 p h => exact absurd (next?_eq_none_iff.1 h) inside
  | case2 p c q h _ blank ih =>
    obtain ⟨q', h', grown'⟩ := grown.next h
    rw [spaceEnd_of_next? h', if_pos blank]
    exact ih grown' inside
  | case3 p c q h _ blank =>
    obtain ⟨q', h', grown'⟩ := grown.next h
    rw [spaceEnd_of_next? h', if_neg blank]
    exact grown

theorem Extends.behindSpace {p : s.Pos} {p' : t.Pos} {x : Char × After (skipSpace p).1}
    (grown : Extends more p p') (h : next? (skipSpace p).1 = some x) :
    Extends more (skipSpace p).1 (skipSpace p').1 := by
  obtain ⟨c, q⟩ := x
  have seen : ahead (skipSpace p).1 = c :: ahead q.1 := ahead_of_next? h
  exact grown.spaceEnd fun empty => List.cons_ne_nil _ _ (seen.symm.trans empty)

/-- The next character behind blanks. -/
theorem Extends.nextVisible {p : s.Pos} {p' : t.Pos} {c : Char} {q : After (skipSpace p).1}
    (grown : Extends more p p') (h : next? (skipSpace p).1 = some (c, q)) :
    ∃ q', next? (skipSpace p').1 = some (c, q') ∧ Extends more q.1 q'.1 :=
  (grown.behindSpace h).next h

theorem Extends.word {word : List Char} {p : s.Pos} {p' : t.Pos} {r : From p} (grown : Extends more p p')
    (h : skipWord word p = some r) : ∃ r', skipWord word p' = some r' ∧ Extends more r.1 r'.1 := by
  induction word generalizing p p' with
  | nil =>
    cases h
    exact ⟨_, rfl, grown⟩
  | cons c word ih =>
    simp only [skipWord] at h
    split at h
    · cases h
    · next d q found =>
      obtain ⟨q', found', grown'⟩ := grown.next found
      split at h
      · next same =>
        split at h
        · next r' rest =>
          cases h
          obtain ⟨r'', rest', grown''⟩ := ih grown' rest
          exact ⟨(q'.skip r'').toFrom, by simp only [skipWord, found', if_pos same, rest'], grown''⟩
        · cases h
      · cases h

/-! ### Strings -/

theorem Extends.hexDigit {p : s.Pos} {p' : t.Pos} {n : Nat} {q : After p} (grown : Extends more p p')
    (h : hexDigit? p = some (n, q)) : ∃ q', hexDigit? p' = some (n, q') ∧ Extends more q.1 q'.1 := by
  cases found : next? p with
  | none => simp [hexDigit?, found] at h
  | some x =>
    obtain ⟨c, r⟩ := x
    rw [hexDigit?_of_next? found, Option.map_eq_some_iff] at h
    obtain ⟨_, value, eq⟩ := h
    cases eq
    obtain ⟨q', found', grown'⟩ := grown.next found
    exact ⟨q', by rw [hexDigit?_of_next? found', value]; rfl, grown'⟩

theorem Extends.hexQuad {p : s.Pos} {p' : t.Pos} {n : Nat} {q : After p} (grown : Extends more p p')
    (h : hexQuad? p = some (n, q)) : ∃ q', hexQuad? p' = some (n, q') ∧ Extends more q.1 q'.1 := by
  simp only [hexQuad?, Option.bind_eq_bind, Option.bind_eq_some_iff, Prod.exists] at h
  obtain ⟨a, q₁, ha, b, q₂, hb, c, q₃, hc, d, q₄, hd, eq⟩ := h
  cases eq
  obtain ⟨q₁', ha', e₁⟩ := grown.hexDigit ha
  obtain ⟨q₂', hb', e₂⟩ := e₁.hexDigit hb
  obtain ⟨q₃', hc', e₃⟩ := e₂.hexDigit hc
  obtain ⟨q₄', hd', e₄⟩ := e₃.hexDigit hd
  exact ⟨q₁'.trans (q₂'.trans (q₃'.trans q₄')), by simp [hexQuad?, ha', hb', hc', hd'], e₄⟩

theorem Extends.unicodeEscape {p : s.Pos} {p' : t.Pos} {c : Char} {q : After p}
    (grown : Extends more p p') (h : unicodeEscape? p = some (c, q)) :
    ∃ q', unicodeEscape? p' = some (c, q') ∧ Extends more q.1 q'.1 := by
  simp only [unicodeEscape?, Option.bind_eq_bind, Option.bind_eq_some_iff, Prod.exists] at h
  obtain ⟨n, q₁, quad, h⟩ := h
  obtain ⟨q₁', quad', e₁⟩ := grown.hexQuad quad
  split at h
  · next high =>
    simp only [Option.bind_eq_some_iff, Prod.exists] at h
    obtain ⟨r, gap, low, q₂, second, h⟩ := h
    obtain ⟨r', gap', e₂⟩ := e₁.word gap
    obtain ⟨q₂', second', e₃⟩ := e₂.hexQuad second
    split at h
    · next isLow =>
      simp only [Option.bind_eq_some_iff] at h
      obtain ⟨d, code, eq⟩ := h
      cases eq
      refine ⟨(q₁'.skip r').trans q₂', ?_, e₃⟩
      simp [unicodeEscape?, quad', high, gap', second', isLow, code]
    · cases h
  · next high =>
    simp only [Option.bind_eq_some_iff] at h
    obtain ⟨d, code, eq⟩ := h
    cases eq
    exact ⟨q₁', by simp [unicodeEscape?, quad', high, code], e₁⟩

theorem Extends.escape {p : s.Pos} {p' : t.Pos} {c : Char} {q : After p} (grown : Extends more p p')
    (h : escape? p = some (c, q)) : ∃ q', escape? p' = some (c, q') ∧ Extends more q.1 q'.1 := by
  cases found : next? p with
  | none => simp [escape?, found] at h
  | some x =>
    obtain ⟨d, r⟩ := x
    obtain ⟨r', found', grown'⟩ := grown.next found
    rw [escape?_of_next? found] at h
    rw [escape?_of_next? found']
    split at h
    · next code =>
      rw [if_pos code]
      simp only [Option.map_eq_some_iff, Prod.exists] at h
      obtain ⟨e, u, escaped, eq⟩ := h
      cases eq
      obtain ⟨u', escaped', grown''⟩ := grown'.unicodeEscape escaped
      exact ⟨r'.trans u', by simp [escaped'], grown''⟩
    · next code =>
      rw [if_neg code]
      simp only [Option.map_eq_some_iff] at h
      obtain ⟨e, escaped, eq⟩ := h
      cases eq
      exact ⟨r', by simp [escaped], grown'⟩

theorem Extends.stringRest {start : s.Pos} {start' : t.Pos} {p : From start} {p' : From start'}
    {done x : String} {q : After start} (grown : Extends more p.1 p'.1)
    (h : stringRest p done = .ok (x, q)) :
    ∃ q', Wire.stringRest p' done = .ok (x, q') ∧ Extends more q.1 q'.1 := by
  fun_induction Wire.stringRest p done generalizing p' with
  | case1 => cases h
  | case2 p done r _ found =>
    cases h
    obtain ⟨r', found', grown'⟩ := grown.next found
    exact ⟨p'.step r', stringRest_close found', grown'⟩
  | case3 p done r _ found _ bad => cases h
  | case4 p done r _ d u escaped _ found _ ih =>
    obtain ⟨r', found', grown'⟩ := grown.next found
    obtain ⟨u', escaped', grown''⟩ := grown'.escape escaped
    rw [stringRest_escape found' escaped']
    exact ih grown'' h
  | case5 => cases h
  | case6 p done c r found _ quote slash control ih =>
    obtain ⟨r', found', grown'⟩ := grown.next found
    rw [stringRest_plain found' quote slash control]
    exact ih grown' h

/-! ### Numbers

The end of a number shows only in what stands behind it. -/

theorem Extends.wholeDigits {start : s.Pos} {start' : t.Pos} {p : From start} {p' : From start'}
    {n d n' d' : Nat} {r : From start} (grown : Extends more p.1 p'.1)
    (h : Numeral.wholeDigits p n d = (n', d', r)) (inside : ahead r.1 ≠ []) :
    ∃ r', Numeral.wholeDigits p' n d = (n', d', r') ∧ Extends more r.1 r'.1 := by
  fun_induction Numeral.wholeDigits p n d generalizing p'
  case case1 p n d found =>
    cases h
    exact absurd (next?_eq_none_iff.1 found) inside
  case case2 p n d c q found _ _ digit _ fits ih =>
    obtain ⟨q', found', grown'⟩ := grown.next found
    rw [wholeDigits_of_next? found', if_pos digit, if_pos fits]
    exact ih grown' h
  case case3 p n d c q found _ _ digit _ fits ih =>
    obtain ⟨q', found', grown'⟩ := grown.next found
    rw [wholeDigits_of_next? found', if_pos digit, if_neg fits]
    exact ih grown' h
  case case4 p n d c q found _ digit =>
    cases h
    obtain ⟨q', found', _⟩ := grown.next found
    exact ⟨p', by rw [wholeDigits_of_next? found', if_neg digit], grown⟩

theorem Extends.fractionDigits {start : s.Pos} {start' : t.Pos} {p : From start} {p' : From start'}
    {n k c n' k' c' : Nat} {r : From start} (grown : Extends more p.1 p'.1)
    (h : Numeral.fractionDigits p n k c = (n', k', c', r)) (inside : ahead r.1 ≠ []) :
    ∃ r', Numeral.fractionDigits p' n k c = (n', k', c', r') ∧ Extends more r.1 r'.1 := by
  fun_induction Numeral.fractionDigits p n k c generalizing p'
  case case1 p n k c found =>
    cases h
    exact absurd (next?_eq_none_iff.1 found) inside
  case case2 p n k c d q found _ _ digit _ fits ih =>
    obtain ⟨q', found', grown'⟩ := grown.next found
    rw [fractionDigits_of_next? found', if_pos digit, if_pos fits]
    exact ih grown' h
  case case3 p n k c d q found _ _ digit _ fits ih =>
    obtain ⟨q', found', grown'⟩ := grown.next found
    rw [fractionDigits_of_next? found', if_pos digit, if_neg fits]
    exact ih grown' h
  case case4 p n k c d q found _ digit =>
    cases h
    obtain ⟨q', found', _⟩ := grown.next found
    exact ⟨p', by rw [fractionDigits_of_next? found', if_neg digit], grown⟩

theorem Extends.exponentDigits {start : s.Pos} {start' : t.Pos} {p : From start} {p' : From start'}
    {v c v' c' : Nat} {r : From start} (grown : Extends more p.1 p'.1)
    (h : Numeral.exponentDigits p v c = (v', c', r)) (inside : ahead r.1 ≠ []) :
    ∃ r', Numeral.exponentDigits p' v c = (v', c', r') ∧ Extends more r.1 r'.1 := by
  fun_induction Numeral.exponentDigits p v c generalizing p'
  case case1 p v c found =>
    cases h
    exact absurd (next?_eq_none_iff.1 found) inside
  case case2 p v c d q found _ digit ih =>
    obtain ⟨q', found', grown'⟩ := grown.next found
    rw [exponentDigits_of_next? found', if_pos digit]
    exact ih grown' h
  case case3 p v c d q found _ digit =>
    cases h
    obtain ⟨q', found', _⟩ := grown.next found
    exact ⟨p', by rw [exponentDigits_of_next? found', if_neg digit], grown⟩

theorem ahead_ne_nil_of_le {p q : s.Pos} (le : p ≤ q) (inside : ahead q ≠ []) : ahead p ≠ [] := by
  intro empty
  rw [ahead_eq_nil_iff] at empty
  subst empty
  exact inside (ahead_eq_nil_iff.2 (Std.le_antisymm (String.Pos.le_endPos q) le))

theorem sign_other {p : s.Pos} {c : Char} {q : After p} (found : next? p = some (c, q)) (minus : c ≠ '-')
    (plus : c ≠ '+') : Numeral.sign p = (false, .here p) := by
  unfold Numeral.sign
  split
  · next same => cases found.symm.trans same; exact absurd rfl minus
  · next same => cases found.symm.trans same; exact absurd rfl plus
  · rfl

theorem Extends.sign {p : s.Pos} {p' : t.Pos} (grown : Extends more p p')
    (inside : ahead p ≠ []) :
    (Numeral.sign p').1 = (Numeral.sign p).1 ∧ Extends more (Numeral.sign p).2.1 (Numeral.sign p').2.1 := by
  obtain ⟨c, cs, eq⟩ := List.exists_cons_of_ne_nil inside
  obtain ⟨q, found, _⟩ := next?_of_ahead eq
  obtain ⟨q', found', grown'⟩ := grown.next found
  by_cases minus : c = '-'
  · subst minus
    simp only [Numeral.sign, found, found', true_and]
    exact grown'
  by_cases plus : c = '+'
  · subst plus
    simp only [Numeral.sign, found, found', true_and]
    exact grown'
  · rw [sign_other found minus plus, sign_other found' minus plus]
    exact ⟨rfl, grown⟩

theorem Extends.readFraction {p : s.Pos} {p' : t.Pos} {n : Nat} {fraction : Option (Nat × Nat)}
    {r : From p} (grown : Extends more p p') (h : Numeral.readFraction? p n = some (fraction, r))
    (inside : ahead r.1 ≠ []) :
    ∃ r', Numeral.readFraction? p' n = some (fraction, r') ∧ Extends more r.1 r'.1 := by
  obtain ⟨c, cs, eq⟩ := List.exists_cons_of_ne_nil (ahead_ne_nil_of_le r.2 inside)
  obtain ⟨q, found, _⟩ := next?_of_ahead eq
  obtain ⟨q', found', grown'⟩ := grown.next found
  simp only [Numeral.readFraction?, found] at h
  simp only [Numeral.readFraction?, found']
  split at h
  · next point =>
    rcases digits : Numeral.fractionDigits (.here q.1) n 0 0 with ⟨n', k', count, u⟩
    rw [digits] at h
    split at h
    · cases h
    · next some_digits =>
      cases h
      have at_here : Extends more (From.here q.1).1 (From.here q'.1).1 := grown'
      obtain ⟨u', digits', grown''⟩ := at_here.fractionDigits digits inside
      rw [if_pos point, digits']
      exact ⟨(q'.skip u').toFrom, if_neg some_digits, grown''⟩
  · next point =>
    cases h
    exact ⟨.here p', by rw [if_neg point], grown⟩

theorem Extends.readExponent {p : s.Pos} {p' : t.Pos} {exponent : Option Int} {r : From p}
    (grown : Extends more p p') (h : Numeral.readExponent? p = some (exponent, r))
    (inside : ahead r.1 ≠ []) :
    ∃ r', Numeral.readExponent? p' = some (exponent, r') ∧ Extends more r.1 r'.1 := by
  obtain ⟨c, cs, eq⟩ := List.exists_cons_of_ne_nil (ahead_ne_nil_of_le r.2 inside)
  obtain ⟨q, found, _⟩ := next?_of_ahead eq
  obtain ⟨q', found', grown'⟩ := grown.next found
  simp only [Numeral.readExponent?, found] at h
  simp only [Numeral.readExponent?, found']
  split at h
  · next letter =>
    rcases digits : Numeral.exponentDigits (.here (Numeral.sign q.1).2.1) 0 0 with ⟨value, count, u⟩
    rw [digits] at h
    split at h
    · cases h
    · next some_digits =>
      cases h
      have behind : ahead (Numeral.sign q.1).2.1 ≠ [] := ahead_ne_nil_of_le u.2 inside
      obtain ⟨negative, after⟩ := grown'.sign (ahead_ne_nil_of_le (Numeral.sign q.1).2.2 behind)
      have at_here : Extends more (From.here (Numeral.sign q.1).2.1).1
        (From.here (Numeral.sign q'.1).2.1).1 := after
      obtain ⟨u', digits', grown''⟩ := at_here.exponentDigits digits inside
      rw [if_pos letter, digits', negative]
      exact ⟨((q'.skip (Numeral.sign q'.1).2).skip u').toFrom, if_neg some_digits, grown''⟩
  · next letter =>
    cases h
    exact ⟨.here p', by rw [if_neg letter], grown⟩

theorem Extends.readUnsigned {negative : Bool} {p : s.Pos} {p' : t.Pos} {n : Numeral} {r : After p}
    (grown : Extends more p p') (h : Numeral.readUnsigned? negative p = some (n, r))
    (inside : ahead r.1 ≠ []) :
    ∃ r', Numeral.readUnsigned? negative p' = some (n, r') ∧ Extends more r.1 r'.1 := by
  obtain ⟨c, cs, eq⟩ := List.exists_cons_of_ne_nil (ahead_ne_nil_of_le (Std.le_of_lt r.2) inside)
  obtain ⟨q, found, _⟩ := next?_of_ahead eq
  obtain ⟨q', found', grown'⟩ := grown.next found
  simp only [Numeral.readUnsigned?, found] at h
  simp only [Numeral.readUnsigned?, found']
  split at h
  · next digit =>
    rcases digits : Numeral.wholeDigits (.here q.1) (Numeral.digitOf c) 0 with ⟨whole, dropped, u⟩
    rw [digits] at h
    split at h
    · cases h
    next zero =>
    split at h
    · cases h
    next fraction v fractionRead =>
    split at h
    · cases h
    next exponent w exponentRead =>
    cases h
    have afterFraction : ahead v.1 ≠ [] := ahead_ne_nil_of_le w.2 inside
    have afterWhole : ahead u.1 ≠ [] := ahead_ne_nil_of_le v.2 afterFraction
    have at_here : Extends more (From.here q.1).1 (From.here q'.1).1 := grown'
    obtain ⟨u', digits', e₁⟩ := at_here.wholeDigits digits afterWhole
    obtain ⟨v', fractionRead', e₂⟩ := e₁.readFraction fractionRead afterFraction
    obtain ⟨w', exponentRead', e₃⟩ := e₂.readExponent exponentRead inside
    have zero' : ¬(c = '0' ∧ u'.1 ≠ q'.1) := by rwa [ne_eq, e₁.eq_iff grown']
    rw [if_pos digit, digits']
    simp only [if_neg zero', fractionRead', exponentRead']
    exact ⟨((q'.skip u').skip v').skip w', rfl, e₃⟩
  · cases h

theorem Extends.numeral {p : s.Pos} {p' : t.Pos} {n : Numeral} {r : After p} (grown : Extends more p p')
    (h : Numeral.read? p = some (n, r)) (inside : ahead r.1 ≠ []) :
    ∃ r', Numeral.read? p' = some (n, r') ∧ Extends more r.1 r'.1 := by
  obtain ⟨c, cs, eq⟩ := List.exists_cons_of_ne_nil (ahead_ne_nil_of_le (Std.le_of_lt r.2) inside)
  obtain ⟨q, found, _⟩ := next?_of_ahead eq
  obtain ⟨q', found', grown'⟩ := grown.next found
  simp only [Numeral.read?, found] at h
  simp only [Numeral.read?, found']
  split at h
  · next minus =>
    simp only [Option.map_eq_some_iff, Prod.exists] at h
    obtain ⟨m, u, unsigned, same⟩ := h
    cases same
    obtain ⟨u', unsigned', grown''⟩ := grown'.readUnsigned unsigned inside
    exact ⟨q'.trans u', by rw [if_pos minus, unsigned']; rfl, grown''⟩
  · next minus =>
    rw [if_neg minus]
    exact grown.readUnsigned h inside

/-! ### Values -/

/-- What `a` reads, `b` reads too, in a text that goes on with `more`. If `atEnd` is false this is said only
of readings after which something is left of the shorter text. -/
def Carries {α : Type} (more : List Char) (atEnd : Bool) {p : s.Pos} {p' : t.Pos} (a : Read α p)
    (b : Read α p') : Prop :=
  ∀ x q, a = .ok (x, q) → (atEnd = false → ahead q.1 ≠ []) → ∃ q', b = .ok (x, q') ∧ Extends more q.1 q'.1

section Carries

variable {α β : Type} {atEnd : Bool} {p : s.Pos} {p' : t.Pos}

theorem Carries.error {e : JsonError} {b : Read α p'} : Carries more atEnd (.error e : Read α p) b := by
  intro x q h
  cases h

theorem Carries.weaken {a : Read α p} {b : Read α p'} (h : Carries more true a b) :
    Carries more atEnd a b := fun x q read _ => h x q read (by simp)

theorem Carries.behind {q : After p} {q' : After p'} {a : Read α q.1} {b : Read α q'.1}
    (h : Carries more atEnd a b) : Carries more atEnd (.behind q a) (.behind q' b) := by
  intro x r read inside
  cases a with
  | error e => cases read
  | ok found =>
    obtain ⟨y, u⟩ := found
    cases read
    obtain ⟨u', found, grown⟩ := h x u rfl inside
    exact ⟨q'.trans u', by rw [found]; rfl, grown⟩

theorem Carries.afterSpace {a : Read α (skipSpace p).1} {b : Read α (skipSpace p').1}
    (h : Carries more atEnd a b) : Carries more atEnd (.afterSpace a) (.afterSpace b) := by
  intro x r read inside
  cases a with
  | error e => cases read
  | ok found =>
    obtain ⟨y, u⟩ := found
    cases read
    obtain ⟨u', found, grown⟩ := h x u rfl inside
    exact ⟨(skipSpace p').step u', by rw [found]; rfl, grown⟩

theorem Carries.map {a : Read α p} {b : Read α p'} (f : α → β) (h : Carries more atEnd a b) :
    Carries more atEnd (a.map f) (b.map f) := by
  intro x r read inside
  cases a with
  | error e => cases read
  | ok found =>
    obtain ⟨y, u⟩ := found
    cases read
    obtain ⟨u', found, grown⟩ := h y r rfl inside
    exact ⟨u', by simp only [found, Read.map], grown⟩

theorem Extends.carriesString (grown : Extends more p p') :
    Carries more atEnd (string p) (string p') := by
  have here : Extends more (From.here p).1 (From.here p').1 := grown
  intro x q read _
  exact here.stringRest read

theorem Extends.carriesWord {q : After p} {q' : After p'} (grown : Extends more q.1 q'.1)
    (rest : List Char) (x : α) : Carries more atEnd (Wire.word q rest x) (Wire.word q' rest x) := by
  intro y r read _
  simp only [Wire.word] at read ⊢
  split at read
  · next u found =>
    cases read
    obtain ⟨u', found', grown'⟩ := grown.word found
    exact ⟨q'.skip u', by rw [found'], grown'⟩
  · cases read

theorem Extends.carriesNumber (grown : Extends more p p') : Carries more false (number p) (number p') := by
  intro x q read inside
  simp only [number] at read ⊢
  split at read
  · cases read
  · next n r numeral =>
    split at read
    · next v value =>
      cases read
      obtain ⟨r', numeral', grown'⟩ := grown.numeral numeral (inside rfl)
      exact ⟨r', by simp only [numeral', value], grown'⟩
    · cases read

theorem Extends.carriesScalar (grown : Extends more p p') : Carries more false (scalar p) (scalar p') := by
  intro x q read inside
  cases found : next? p with
  | none =>
    rw [scalar, found] at read
    cases read
  | some first =>
    obtain ⟨c, r⟩ := first
    obtain ⟨r', found', grown'⟩ := grown.next found
    unfold scalar at read ⊢
    simp only [found, found'] at read ⊢
    split at read
    · exact grown'.carriesWord _ _ x q read inside
    · exact grown'.carriesWord _ _ x q read inside
    · exact grown'.carriesWord _ _ x q read inside
    · exact (grown'.carriesString.behind.map _) x q read inside
    · exact grown.carriesNumber x q read inside

theorem Extends.carriesColon (grown : Extends more p p') : Carries more atEnd (colon p) (colon p') := by
  refine Carries.afterSpace ?_
  intro x q read _
  split at read
  · next r found =>
    cases read
    obtain ⟨r', found', grown'⟩ := grown.nextVisible found
    exact ⟨r', by simp only [found'], grown'⟩
  · cases read

theorem Extends.carriesKey (grown : Extends more p p') : Carries more atEnd (key p) (key p') := by
  refine Carries.afterSpace ?_
  intro x q read inside
  split at read
  · next r found =>
    obtain ⟨r', found', grown'⟩ := grown.nextVisible found
    rw [found']
    exact grown'.carriesString.behind x q read inside
  · cases read

end Carries

/-! ### Arrays and objects -/

section Brackets

variable {σ : Type} {start : s.Pos} {start' : t.Pos}

/-- A reader of elements or members that looks only at what it reads, wherever in the two texts. -/
def Local {s t : String} {σ : Type} (more : List Char) (a : σ → (p : s.Pos) → Read σ p)
    (b : σ → (p : t.Pos) → Read σ p) : Prop :=
  ∀ state p p', Extends more p p' → Carries more false (a state p) (b state p')

theorem ahead_ne_nil_of_visible {p : s.Pos} {x : Char × After (skipSpace p).1}
    (h : next? (skipSpace p).1 = some x) : ahead p ≠ [] := by
  obtain ⟨c, q⟩ := x
  exact ahead_ne_nil_of_le (skipSpace p).2 (by simp [ahead_of_next? h])

theorem ahead_of_elements {a : σ → (p : s.Pos) → Read σ p} {first : Bool} {state : σ} {p : From start}
    {x : σ × After start} (h : Wire.elements a first state p = .ok x) : ahead p.1 ≠ [] := by
  rw [Wire.elements] at h
  split at h
  · cases h
  · next found => exact ahead_ne_nil_of_visible found

theorem Extends.elements {a : σ → (p : s.Pos) → Read σ p} {b : σ → (p : t.Pos) → Read σ p}
    (isLocal : Local more a b)
    (visible : ∀ state p x, a state p = .ok x → next? (skipSpace p).1 ≠ none)
    {first : Bool} {state : σ} {p : From start} {p' : From start'} (grown : Extends more p.1 p'.1) :
    Carries more true (Wire.elements a first state p) (Wire.elements b first state p') := by
  intro x q read _
  fun_induction Wire.elements a first state p generalizing p' with
  | case1 => cases read
  | case2 first state p r found =>
    cases read
    obtain ⟨r', found', grown'⟩ := grown.nextVisible found
    exact ⟨p'.step ((skipSpace p'.1).step r'), elements_close found', grown'⟩
  | case3 => cases read
  | case4 state p c r found other next u element _ ih =>
    obtain ⟨r', found', _⟩ := grown.nextVisible found
    have inside := ahead_of_elements (p := (p.step u).toFrom) read
    obtain ⟨u', element', grown'⟩ := isLocal _ _ _ grown next u element fun _ => inside
    rw [elements_first found' other element']
    exact ih grown' read
  | case5 => cases read
  | case6 => cases read
  | case7 => cases read
  | case8 first state p c r found other later comma trailing next u element _ ih =>
    obtain rfl : c = ',' := by simpa using comma
    obtain rfl : first = false := by simpa using later
    obtain ⟨r', found', grown'⟩ := grown.nextVisible found
    have inside := ahead_of_elements (p := (p.step ((skipSpace p.1).step (r.trans u))).toFrom) read
    obtain ⟨u', element', grown''⟩ := isLocal _ _ _ grown' next u element fun _ => inside
    have more_comes : (next? (skipSpace r'.1).1).any (·.1 = ']') = false := by
      obtain ⟨⟨d, v⟩, seen⟩ := Option.ne_none_iff_exists'.1 (visible _ _ _ element)
      obtain ⟨v', seen', _⟩ := grown'.nextVisible seen
      simpa [seen, seen'] using trailing
    rw [elements_comma found' more_comes element']
    exact ih grown'' read

theorem Extends.keyed {a : String → σ → (p : s.Pos) → Read σ p} {b : String → σ → (p : t.Pos) → Read σ p}
    (isLocal : ∀ name, Local more (a name) (b name)) : Local more (Wire.keyed a) (Wire.keyed b) := by
  intro state p p' grown x q read inside
  unfold Wire.keyed at read ⊢
  split at read
  · cases read
  · next name r found =>
    have keys : Carries more true (key p) (key p') := grown.carriesKey
    obtain ⟨r', found', grown'⟩ := keys name r found (by simp)
    simp only [found']
    exact (isLocal name _ _ _ grown').behind x q read inside

theorem ahead_of_members {a : String → σ → (p : s.Pos) → Read σ p} {first : Bool} {state : σ}
    {p : From start} {x : σ × After start} (h : Wire.members a first state p = .ok x) :
    ahead p.1 ≠ [] := by
  rw [Wire.members] at h
  split at h
  · cases h
  · next found => exact ahead_ne_nil_of_visible found

theorem Extends.members {a : String → σ → (p : s.Pos) → Read σ p}
    {b : String → σ → (p : t.Pos) → Read σ p} (isLocal : ∀ name, Local more (a name) (b name))
    {first : Bool} {state : σ} {p : From start} {p' : From start'} (grown : Extends more p.1 p'.1) :
    Carries more true (Wire.members a first state p) (Wire.members b first state p') := by
  have keyedLocal := Extends.keyed isLocal
  intro x q read _
  fun_induction Wire.members a first state p generalizing p' with
  | case1 => cases read
  | case2 first state p r found =>
    cases read
    obtain ⟨r', found', grown'⟩ := grown.nextVisible found
    exact ⟨p'.step ((skipSpace p'.1).step r'), members_close found', grown'⟩
  | case3 => cases read
  | case4 state p c r found other next u member _ ih =>
    obtain ⟨r', found', _⟩ := grown.nextVisible found
    have inside := ahead_of_members (p := (p.step u).toFrom) read
    obtain ⟨u', member', grown'⟩ := keyedLocal _ _ _ grown next u member fun _ => inside
    rw [members_first found' other member']
    exact ih grown' read
  | case5 => cases read
  | case6 => cases read
  | case7 first state p c r found other later comma next u member _ ih =>
    obtain rfl : c = ',' := by simpa using comma
    obtain rfl : first = false := by simpa using later
    obtain ⟨r', found', grown'⟩ := grown.nextVisible found
    have inside := ahead_of_members (p := (p.step ((skipSpace p.1).step (r.trans u))).toFrom) read
    obtain ⟨u', member', grown''⟩ := keyedLocal _ _ _ grown' next u member fun _ => inside
    rw [members_comma found' member']
    exact ih grown'' read

end Brackets

/-- A value begins with something that can be seen. -/
theorem visible_of_value {room : Nat} {p : s.Pos} {x : Json × After p} (h : value room p = .ok x) :
    next? (skipSpace p).1 ≠ none := by
  intro empty
  cases room <;> simp [value, empty, scalar, Read.afterSpace, Read.malformed] at h

/-- How a value is read depends on its first character alone. -/
theorem value_square {room : Nat} {p : s.Pos} {q : After (skipSpace p).1}
    (h : next? (skipSpace p).1 = some ('[', q)) :
    value (room + 1) p =
      .afterSpace (.behind q ((elements (addElement (value room)) true [] (.here q.1)).map
        fun items => .array items.reverse)) := by
  simp only [value, h]

theorem value_curly {room : Nat} {p : s.Pos} {q : After (skipSpace p).1}
    (h : next? (skipSpace p).1 = some ('\x7b', q)) :
    value (room + 1) p =
      .afterSpace (.behind q ((members (addMember (value room)) true [] (.here q.1)).map
        fun members => .object members.reverse)) := by
  simp only [value, h]

theorem value_scalar {room : Nat} {p : s.Pos} {c : Char} {q : After (skipSpace p).1}
    (h : next? (skipSpace p).1 = some (c, q)) (square : c ≠ '[') (curly : c ≠ '\x7b') :
    value room p = .afterSpace (scalar (skipSpace p).1) := by
  cases room with
  | zero =>
    rw [value]
    congr 1
    split
    · next same => cases h.symm.trans same; exact absurd rfl square
    · next same => cases h.symm.trans same; exact absurd rfl curly
    · rfl
  | succ room =>
    rw [value]
    congr 1
    split
    · next same => cases h.symm.trans same; exact absurd rfl square
    · next same => cases h.symm.trans same; exact absurd rfl curly
    · rfl

theorem value_bracket {p : s.Pos} {c : Char} {q : After (skipSpace p).1}
    (h : next? (skipSpace p).1 = some (c, q)) (bracket : c = '[' ∨ c = '\x7b') :
    value 0 p = .malformed := by
  rcases bracket with rfl | rfl <;> simp only [value, h] <;> rfl

theorem Extends.carriesAfterColon {α : Type} {atEnd : Bool} {a : (p : s.Pos) → Read α p}
    {b : (p : t.Pos) → Read α p} (isLocal : ∀ p p', Extends more p p' → Carries more atEnd (a p) (b p'))
    {p : s.Pos} {p' : t.Pos} (grown : Extends more p p') :
    Carries more atEnd (afterColon a p) (afterColon b p') := by
  intro x q read inside
  unfold afterColon at read ⊢
  split at read
  · cases read
  · next r found =>
    have colons : Carries more true (colon p) (colon p') := grown.carriesColon
    obtain ⟨r', found', grown'⟩ := colons () r found (by simp)
    simp only [found']
    exact (isLocal _ _ grown').behind x q read inside

theorem Extends.carriesValue (room : Nat) {p : s.Pos} {p' : t.Pos} (grown : Extends more p p') :
    Carries more false (value room p) (value room p') := by
  induction room generalizing p p' with
  | zero =>
    intro x q read inside
    obtain ⟨⟨c, r⟩, found⟩ := Option.ne_none_iff_exists'.1 (visible_of_value read)
    obtain ⟨r', found', grown'⟩ := grown.nextVisible found
    by_cases bracket : c = '[' ∨ c = '\x7b'
    · rw [value_bracket found bracket] at read
      cases read
    · rw [not_or] at bracket
      rw [value_scalar found bracket.1 bracket.2] at read
      rw [value_scalar found' bracket.1 bracket.2]
      exact (grown.behindSpace found).carriesScalar.afterSpace x q read inside
  | succ room ih =>
    intro x q read inside
    obtain ⟨⟨c, r⟩, found⟩ := Option.ne_none_iff_exists'.1 (visible_of_value read)
    obtain ⟨r', found', grown'⟩ := grown.nextVisible found
    have here : Extends more (From.here r.1).1 (From.here r'.1).1 := grown'
    by_cases square : c = '['
    · subst square
      have isLocal : Local more (addElement (s := s) (value room)) (addElement (value room)) :=
        fun _ _ _ on => (ih on).map _
      have visible : ∀ done (p : s.Pos) x, addElement (value room) done p = .ok x →
          next? (skipSpace p).1 ≠ none := by
        intro done p x read
        cases first : value room p with
        | error e => simp [addElement, first, Read.map] at read
        | ok y => exact visible_of_value first
      rw [value_square found] at read
      rw [value_square found']
      exact ((here.elements isLocal visible).weaken.map _).behind.afterSpace x q read inside
    by_cases curly : c = '\x7b'
    · subst curly
      have isLocal : ∀ name, Local more (addMember (s := s) (value room) name)
          (addMember (value room) name) :=
        fun _ _ _ _ on => (Extends.carriesAfterColon (fun _ _ => ih) on).map _
      rw [value_curly found] at read
      rw [value_curly found']
      exact ((here.members isLocal).weaken.map _).behind.afterSpace x q read inside
    · rw [value_scalar found square curly] at read
      rw [value_scalar found' square curly]
      exact (grown.behindSpace found).carriesScalar.afterSpace x q read inside

end SnippetKernel.Wire
