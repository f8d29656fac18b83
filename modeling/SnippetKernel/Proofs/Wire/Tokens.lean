import SnippetKernel.Proofs.Wire.Lexemes

/-! Documents as sequences of tokens. Blanks may stand between any two tokens and around them all, and no reader sees
whether they do. -/
namespace SnippetKernel.Wire

variable {s : String}

/-- The characters are the tokens in their order, with any blanks in front of each and behind the last. -/
inductive Spaced : (tokens : List (List Char)) → List Char → Prop
  | blanks {blanks : List Char} (all : ∀ c ∈ blanks, isSpace c = true) : Spaced [] blanks
  | token {blanks t cs : List Char} {ts : List (List Char)} (all : ∀ c ∈ blanks, isSpace c = true)
      (rest : Spaced ts cs) : Spaced (t :: ts) (blanks ++ (t ++ cs))

theorem ahead_skipSpace {p : s.Pos} {blanks cs : List Char} (all : ∀ c ∈ blanks, isSpace c = true)
    (visible : ∀ c ∈ cs.head?, isSpace c = false) (h : ahead p = blanks ++ cs) : ahead (skipSpace p).1 = cs := by
  induction blanks generalizing p with
  | nil =>
    cases cs with
    | nil =>
      have stays : spaceEnd p = p := by rw [spaceEnd, next?_eq_none_iff.2 h]
      exact (congrArg ahead stays).trans h
    | cons c cs => exact (congrArg ahead (skipSpace_of_ahead h (visible c rfl))).trans h
  | cons c blanks ih =>
    obtain ⟨first, others⟩ := List.forall_mem_cons.mp all
    obtain ⟨q, found, left⟩ := next?_of_ahead h
    have step : spaceEnd p = spaceEnd q.1 := by rw [spaceEnd_of_next? found, if_pos first]
    exact (congrArg ahead step).trans (ih others left)

namespace Spaced

theorem evenly {blanks : List Char} (all : ∀ c ∈ blanks, isSpace c = true) (ts : List (List Char)) :
    Spaced ts (ts.flatMap (blanks ++ ·)) := by
  induction ts with
  | nil => exact .blanks nofun
  | cons t ts ih =>
    rw [List.flatMap_cons, List.append_assoc]
    exact .token all ih

variable {p : s.Pos} {c : Char} {t : List Char} {ts : List (List Char)}

/-- Behind the blanks stands the next token. -/
theorem ahead_token (h : Spaced ((c :: t) :: ts) (ahead p)) (visible : isSpace c = false) :
    ∃ cs, ahead (skipSpace p).1 = c :: (t ++ cs) ∧ Spaced ts cs := by
  generalize chars : ahead p = all at h
  cases h with
  | @token blanks _ cs _ all rest =>
    refine ⟨cs, ahead_skipSpace all ?_ chars, rest⟩
    rintro _ ⟨⟩
    exact visible

theorem next (h : Spaced ((c :: t) :: ts) (ahead p)) (visible : isSpace c = false) :
    ∃ q cs, next? (skipSpace p).1 = some (c, q) ∧ ahead q.1 = t ++ cs ∧ Spaced ts cs := by
  obtain ⟨cs, here, rest⟩ := h.ahead_token visible
  obtain ⟨q, found, left⟩ := next?_of_ahead here
  exact ⟨q, cs, found, left, rest⟩

theorem mark (h : Spaced ([c] :: ts) (ahead p)) (visible : isSpace c = false) :
    ∃ q, next? (skipSpace p).1 = some (c, q) ∧ Spaced ts (ahead q.1) := by
  obtain ⟨q, cs, found, left, rest⟩ := h.next visible
  exact ⟨q, found, left ▸ rest⟩

theorem end_eq (h : Spaced [] (ahead p)) : spaceEnd p = s.endPos := by
  generalize chars : ahead p = all at h
  cases h with
  | blanks all =>
    have nothing : ahead (skipSpace p).1 = [] := ahead_skipSpace all nofun (by rw [chars, List.append_nil])
    exact ahead_eq_nil_iff.1 nothing

end Spaced

/-! ### Trees -/

/-- A document as it is spelled: the pieces of its strings and the digits of its numbers. -/
inductive Tree where
  | null
  | bool (b : Bool)
  | number (n : NumberLiteral)
  | string (pieces : List Piece)
  | array (items : List Tree)
  | object (members : List (List Piece × Tree))

namespace Tree

mutual

def tokens : Tree → List (List Char)
  | null => [['n', 'u', 'l', 'l']]
  | bool true => [['t', 'r', 'u', 'e']]
  | bool false => [['f', 'a', 'l', 's', 'e']]
  | number n => [n.chars]
  | string pieces => [Piece.literal pieces]
  | array items => ['['] :: itemTokens true items
  | object members => ['\x7b'] :: memberTokens true members

/-- The items of an array, up to its closing bracket. -/
def itemTokens (first : Bool) : List Tree → List (List Char)
  | [] => [[']']]
  | item :: rest => (if first then [] else [[',']]) ++ (item.tokens ++ itemTokens false rest)

/-- The members of an object, up to its closing bracket. -/
def memberTokens (first : Bool) : List (List Piece × Tree) → List (List Char)
  | [] => [['\x7d']]
  | (key, value) :: rest =>
    (if first then [] else [[',']])
      ++ (Piece.literal key :: [':'] :: (value.tokens ++ memberTokens false rest))

end

theorem head_tokens (t : Tree) : ∃ c cs us, t.tokens = (c :: cs) :: us ∧ isSpace c = false ∧ c ≠ ']' := by
  match t with
  | null => exact ⟨_, _, _, rfl, by decide⟩
  | bool true => exact ⟨_, _, _, rfl, by decide⟩
  | bool false => exact ⟨_, _, _, rfl, by decide⟩
  | number n =>
    obtain ⟨c, cs, chars, begins⟩ := n.chars_eq_cons
    exact ⟨c, cs, [], by rw [tokens, chars], isSpace_of_begins begins, ne_of_begins begins (by decide) (by decide)⟩
  | string pieces => exact ⟨_, _, _, rfl, by decide⟩
  | array items => exact ⟨_, _, _, rfl, by decide⟩
  | object members => exact ⟨_, _, _, rfl, by decide⟩

/-- What may come behind a value. -/
def EndsValue (ts : List (List Char)) : Prop := ∀ t ∈ ts.head?, t = [','] ∨ t = [']'] ∨ t = ['\x7d']

theorem endsValue_items (items : List Tree) (ts : List (List Char)) : EndsValue (itemTokens false items ++ ts) := by
  intro t mem
  cases items with
  | nil =>
    obtain rfl : [']'] = t := by simpa [itemTokens] using mem
    exact .inr (.inl rfl)
  | cons item rest =>
    obtain rfl : [','] = t := by simpa [itemTokens] using mem
    exact .inl rfl

theorem endsValue_members (members : List (List Piece × Tree)) (ts : List (List Char)) :
    EndsValue (memberTokens false members ++ ts) := by
  intro t mem
  cases members with
  | nil =>
    obtain rfl : ['\x7d'] = t := by simpa [memberTokens] using mem
    exact .inr (.inr rfl)
  | cons m rest =>
    obtain rfl : [','] = t := by simpa [memberTokens] using mem
    exact .inl rfl

theorem EndsValue.endsNumber {ts : List (List Char)} {cs : List Char} (ends : EndsValue ts) (h : Spaced ts cs) :
    EndsNumber cs := by
  have blank (c : Char) (space : isSpace c = true) : c.isDigit = false ∧ c ≠ '.' ∧ c ≠ 'e' ∧ c ≠ 'E' := by
    simp only [isSpace, Bool.or_eq_true, decide_eq_true_eq] at space
    rcases space with ((rfl | rfl) | rfl) | rfl <;> decide
  -- What comes next is a blank, or the token behind the value.
  intro c mem
  cases h with
  | blanks all => exact blank c (all c (List.mem_of_mem_head? mem))
  | @token blanks t cs ts all rest =>
    cases blanks with
    | cons b blanks =>
      obtain rfl : b = c := Option.some.inj mem
      exact blank b (all b List.mem_cons_self)
    | nil =>
      rcases ends t rfl with rfl | rfl | rfl
      all_goals
        obtain rfl := Option.some.inj mem
        decide

end Tree

/-! ### Reading over values -/

section Turns

variable {start : s.Pos} {c : Char} {opened : List Bracket}

theorem valueEnd_scalar {p : From start} {q : After (skipSpace p.1).1} {t : After (skipSpace p.1).1}
    (h : next? (skipSpace p.1).1 = some (c, q)) (square : c ≠ '[') (curly : c ≠ '\x7b')
    (read : scalarEnd (skipSpace p.1).1 = .ok ((), t)) :
    valueEnd opened p = closedEnd opened (p.step ((skipSpace p.1).step t)) := by
  rw [valueEnd]
  simp only [h, if_neg square, if_neg curly, read]

theorem valueEnd_array {p : From start} {q : After (skipSpace p.1).1} {r : After (skipSpace q.1).1}
    (h : next? (skipSpace p.1).1 = some ('[', q)) (found : next? (skipSpace q.1).1 = some (c, r)) :
    valueEnd opened p =
      if c = ']' then closedEnd opened (p.step (((skipSpace p.1).step q).trans ((skipSpace q.1).step r)))
      else valueEnd (.square :: opened) (p.step ((skipSpace p.1).step q)).toFrom := by
  rw [valueEnd]
  simp only [h, if_true, found]
  rfl

theorem valueEnd_object_empty {p : From start} {q : After (skipSpace p.1).1} {r : After (skipSpace q.1).1}
    (h : next? (skipSpace p.1).1 = some ('\x7b', q)) (found : next? (skipSpace q.1).1 = some ('\x7d', r)) :
    valueEnd opened p = closedEnd opened (p.step (((skipSpace p.1).step q).trans ((skipSpace q.1).step r))) := by
  have other : '\x7b' ≠ '[' := by decide
  rw [valueEnd]
  simp only [h, if_neg other, if_true, found]
  rfl

theorem valueEnd_object {p : From start} {q : After (skipSpace p.1).1} {r : After (skipSpace q.1).1} {u : After q.1}
    (h : next? (skipSpace p.1).1 = some ('\x7b', q)) (found : next? (skipSpace q.1).1 = some (c, r))
    (more : c ≠ '\x7d') (read : keyEnd q.1 = .ok ((), u)) :
    valueEnd opened p = valueEnd (.curly :: opened) (p.step (((skipSpace p.1).step q).trans u)).toFrom := by
  have other : '\x7b' ≠ '[' := by decide
  rw [valueEnd]
  simp only [h, if_neg other, if_true, found, Bracket.closing, if_neg more, read]
  rfl

theorem closedEnd_close {p : After start} {b : Bracket} {q : After (skipSpace p.1).1}
    (h : next? (skipSpace p.1).1 = some (b.closing, q)) :
    closedEnd (b :: opened) p = closedEnd opened (p.trans ((skipSpace p.1).step q)) := by
  rw [closedEnd]
  simp only [h, if_true]

theorem closedEnd_item {p : After start} {q : After (skipSpace p.1).1}
    (h : next? (skipSpace p.1).1 = some (',', q)) :
    closedEnd (.square :: opened) p
      = valueEnd (.square :: opened) (p.trans ((skipSpace p.1).step q)).toFrom := by
  have other : ',' ≠ Bracket.closing .square := by decide
  rw [closedEnd]
  simp only [h, if_neg other, if_true]
  rfl

theorem closedEnd_member {p : After start} {q : After (skipSpace p.1).1} {u : After q.1}
    (h : next? (skipSpace p.1).1 = some (',', q)) (read : keyEnd q.1 = .ok ((), u)) :
    closedEnd (.curly :: opened) p
      = valueEnd (.curly :: opened) (p.trans (((skipSpace p.1).step q).trans u)).toFrom := by
  have other : ',' ≠ Bracket.closing .curly := by decide
  rw [closedEnd]
  simp only [h, if_neg other, if_true, read]
  rfl

end Turns

section Parts

variable {p : s.Pos} {ts : List (List Char)}

theorem colon_of_spaced (h : Spaced ([':'] :: ts) (ahead p)) : Yields (colon p) (some ()) (Spaced ts) := by
  obtain ⟨q, found, rest⟩ := h.mark (by decide)
  exact ⟨(skipSpace p).step q, by simp only [colon, found]; rfl, rest⟩

theorem afterColon_of_spaced {α : Type} {read : (p : s.Pos) → Read α p} {x : Option α}
    {us : List (List Char)} (h : Spaced ([':'] :: ts) (ahead p))
    (reads : ∀ q : s.Pos, Spaced ts (ahead q) → Yields (read q) x (Spaced us)) :
    Yields (afterColon read p) x (Spaced us) := by
  obtain ⟨q, found, rest⟩ := colon_of_spaced h
  rw [afterColon, found]
  exact (reads q.1 rest).behind

/-- A string token, from behind its opening quote. -/
theorem literal_of_spaced {pieces : List Piece} (h : Spaced (Piece.literal pieces :: ts) (ahead p)) :
    ∃ q cs, next? (skipSpace p).1 = some ('"', q) ∧ ahead q.1 = pieces.flatMap Piece.chars ++ '"' :: cs ∧
      Spaced ts cs := by
  obtain ⟨q, cs, found, left, rest⟩ := h.next (by decide)
  exact ⟨q, cs, found, by simpa using left, rest⟩

theorem keyEnd_of_spaced {key : List Piece} (h : Spaced (Piece.literal key :: [':'] :: ts) (ahead p)) :
    ∃ q, keyEnd p = .ok ((), q) ∧ Spaced ts (ahead q.1) := by
  obtain ⟨q, cs, found, left, rest⟩ := literal_of_spaced h
  obtain ⟨r, ended, behind⟩ := Piece.stringEnd_of_pieces (p := .here q.1) left
  obtain ⟨t, parted, rest⟩ := colon_of_spaced (p := r.1) (behind ▸ rest)
  refine ⟨(skipSpace p).step ((q.trans r).trans t), ?_, rest⟩
  simp only [keyEnd, found, ended, parted]
  rfl

/-- A key is read as its text; if it stands for none, reading fails. -/
theorem key_of_spaced {pieces : List Piece} (h : Spaced (Piece.literal pieces :: ts) (ahead p)) :
    Yields (key p) ((Piece.text? pieces).map String.ofList) (Spaced ts) := by
  obtain ⟨q, cs, found, left, rest⟩ := literal_of_spaced h
  have read : Yields (string q.1) ((Piece.text? pieces).map String.ofList) (Spaced ts) :=
    (Piece.string_of_pieces left).imp fun _ same => same ▸ rest
  simp only [key, found]
  exact read.behind.afterSpace

end Parts

section Values

variable {start : s.Pos} {opened : List Bracket} {ts : List (List Char)}

theorem valueEnd_of_scalar {p : From start} {c : Char} {cs : List Char} (h : Spaced ((c :: cs) :: ts) (ahead p.1))
    (visible : isSpace c = false) (square : c ≠ '[') (curly : c ≠ '\x7b')
    (reads : ∀ (q : s.Pos) (r : After q) (left : List Char), next? q = some (c, r) → ahead r.1 = cs ++ left →
      Spaced ts left → ∃ u, scalarEnd q = .ok ((), u) ∧ Spaced ts (ahead u.1)) :
    ∃ q : After start, valueEnd opened p = closedEnd opened q ∧ Spaced ts (ahead q.1) := by
  obtain ⟨r, left, found, here, rest⟩ := h.next visible
  obtain ⟨u, read, rest⟩ := reads _ r left found here rest
  exact ⟨_, valueEnd_scalar found square curly read, rest⟩

theorem word_of_spaced {p : s.Pos} {q : After p} {letters left : List Char} (here : ahead q.1 = letters ++ left)
    (rest : Spaced ts left) : ∃ u, word q letters () = .ok ((), u) ∧ Spaced ts (ahead u.1) := by
  obtain ⟨u, read, behind⟩ := word_of_ahead () here
  exact ⟨u, read, behind ▸ rest⟩

theorem scalarEnd_of_number {p : s.Pos} {c : Char} {q : After p} (found : next? p = some (c, q))
    (begins : c = '-' ∨ c.isDigit = true) :
    scalarEnd p = .ofOption ((Numeral.read? p).map fun (_, r) => ((), r)) := by
  unfold scalarEnd
  simp only [found]
  split
  · exact absurd rfl (ne_of_begins begins (by decide) (by decide))
  · exact absurd rfl (ne_of_begins begins (by decide) (by decide))
  · exact absurd rfl (ne_of_begins begins (by decide) (by decide))
  · exact absurd rfl (ne_of_begins begins (by decide) (by decide))
  · rfl

theorem valueEnd_of_number {p : From start} {n : NumberLiteral} (ends : Tree.EndsValue ts)
    (h : Spaced (n.chars :: ts) (ahead p.1)) :
    ∃ q : After start, valueEnd opened p = closedEnd opened q ∧ Spaced ts (ahead q.1) := by
  obtain ⟨c, cs, chars, begins⟩ := n.chars_eq_cons
  rw [chars] at h
  refine valueEnd_of_scalar h (isSpace_of_begins begins) (ne_of_begins begins (by decide) (by decide))
    (ne_of_begins begins (by decide) (by decide)) fun q r left found here rest => ?_
  have whole : ahead q = n.chars ++ left := by rw [ahead_of_next? found, here, chars, List.cons_append]
  obtain ⟨m, u, read, behind⟩ := n.read_of_ahead (ends.endsNumber rest) whole
  exact ⟨u, by rw [scalarEnd_of_number found begins, read]; rfl, behind ▸ rest⟩

mutual

/-- A value is read over to its end, whatever is spelled in it. -/
theorem valueEnd_of_spaced (t : Tree) {opened : List Bracket} {ts : List (List Char)} {p : From start}
    (ends : Tree.EndsValue ts) (h : Spaced (t.tokens ++ ts) (ahead p.1)) :
    ∃ q : After start, valueEnd opened p = closedEnd opened q ∧ Spaced ts (ahead q.1) := by
  match t with
  | .null =>
    refine valueEnd_of_scalar h (by decide) (by decide) (by decide) fun q r left found here rest => ?_
    simp only [scalarEnd, found]
    exact word_of_spaced here rest
  | .bool true =>
    refine valueEnd_of_scalar h (by decide) (by decide) (by decide) fun q r left found here rest => ?_
    simp only [scalarEnd, found]
    exact word_of_spaced here rest
  | .bool false =>
    refine valueEnd_of_scalar h (by decide) (by decide) (by decide) fun q r left found here rest => ?_
    simp only [scalarEnd, found]
    exact word_of_spaced here rest
  | .number n => exact valueEnd_of_number ends h
  | .string pieces =>
    refine valueEnd_of_scalar h (by decide) (by decide) (by decide) fun q r left found here rest => ?_
    have quoted : ahead r.1 = pieces.flatMap Piece.chars ++ '"' :: left := by simpa using here
    obtain ⟨u, read, behind⟩ := Piece.stringEnd_of_pieces (p := .here r.1) quoted
    simp only [scalarEnd, found, read]
    exact ⟨_, rfl, behind ▸ rest⟩
  | .array [] =>
    obtain ⟨q, found, rest⟩ := Spaced.mark h (by decide)
    obtain ⟨r, closes, rest⟩ := Spaced.mark rest (by decide)
    exact ⟨_, (valueEnd_array found closes).trans (if_pos rfl), rest⟩
  | .array (item :: others) =>
    obtain ⟨q, found, rest⟩ := Spaced.mark h (by decide)
    have inside : Spaced (item.tokens ++ (Tree.itemTokens false others ++ ts)) (ahead q.1) := by
      simpa [Tree.itemTokens] using rest
    -- The reader looks for the closing bracket before it reads the first item.
    obtain ⟨c, cs, us, begins, visible, other⟩ := item.head_tokens
    obtain ⟨r, -, first, -, -⟩ := Spaced.next (p := q.1) (by rw [begins] at inside; exact inside) visible
    rw [valueEnd_array found first, if_neg other]
    obtain ⟨u, read, rest⟩ := valueEnd_of_spaced item (p := (p.step ((skipSpace p.1).step q)).toFrom)
      (Tree.endsValue_items others ts) inside
    rw [read]
    exact closedEnd_of_items others rest
  | .object [] =>
    obtain ⟨q, found, rest⟩ := Spaced.mark h (by decide)
    obtain ⟨r, closes, rest⟩ := Spaced.mark rest (by decide)
    exact ⟨_, valueEnd_object_empty found closes, rest⟩
  | .object ((key, value) :: others) =>
    obtain ⟨q, found, rest⟩ := Spaced.mark h (by decide)
    have inside : Spaced (Piece.literal key :: [':'] :: (value.tokens ++ (Tree.memberTokens false others ++ ts)))
        (ahead q.1) := by
      simpa [Tree.memberTokens] using rest
    obtain ⟨r, -, first, -, -⟩ := literal_of_spaced inside
    obtain ⟨u, named, rest⟩ := keyEnd_of_spaced inside
    rw [valueEnd_object found first (by decide) named]
    obtain ⟨v, read, rest⟩ := valueEnd_of_spaced value
      (p := (p.step (((skipSpace p.1).step q).trans u)).toFrom) (Tree.endsValue_members others ts) rest
    rw [read]
    exact closedEnd_of_members others rest

theorem closedEnd_of_items (items : List Tree) {opened : List Bracket} {ts : List (List Char)} {p : After start}
    (h : Spaced (Tree.itemTokens false items ++ ts) (ahead p.1)) :
    ∃ q : After start, closedEnd (.square :: opened) p = closedEnd opened q ∧ Spaced ts (ahead q.1) := by
  match items with
  | [] =>
    obtain ⟨q, found, rest⟩ := Spaced.mark h (by decide)
    exact ⟨_, closedEnd_close found, rest⟩
  | item :: others =>
    obtain ⟨q, found, rest⟩ := Spaced.mark (p := p.1) (c := ',') (by simpa [Tree.itemTokens] using h) (by decide)
    rw [closedEnd_item found]
    obtain ⟨r, read, rest⟩ := valueEnd_of_spaced item (p := (p.trans ((skipSpace p.1).step q)).toFrom)
      (Tree.endsValue_items others ts) rest
    rw [read]
    exact closedEnd_of_items others rest

theorem closedEnd_of_members (members : List (List Piece × Tree)) {opened : List Bracket} {ts : List (List Char)}
    {p : After start} (h : Spaced (Tree.memberTokens false members ++ ts) (ahead p.1)) :
    ∃ q : After start, closedEnd (.curly :: opened) p = closedEnd opened q ∧ Spaced ts (ahead q.1) := by
  match members with
  | [] =>
    obtain ⟨q, found, rest⟩ := Spaced.mark h (by decide)
    exact ⟨_, closedEnd_close found, rest⟩
  | (key, value) :: others =>
    obtain ⟨q, found, rest⟩ := Spaced.mark (p := p.1) (c := ',') (by simpa [Tree.memberTokens] using h) (by decide)
    obtain ⟨u, named, rest⟩ := keyEnd_of_spaced rest
    rw [closedEnd_member found named]
    obtain ⟨r, read, rest⟩ := valueEnd_of_spaced value
      (p := (p.trans (((skipSpace p.1).step q).trans u)).toFrom) (Tree.endsValue_members others ts) rest
    rw [read]
    exact closedEnd_of_members others rest

end

theorem skipValue_of_spaced (t : Tree) {p : s.Pos} (ends : Tree.EndsValue ts)
    (h : Spaced (t.tokens ++ ts) (ahead p)) : Yields (skipValue p) (some ()) (Spaced ts) := by
  obtain ⟨q, read, rest⟩ := valueEnd_of_spaced t (p := .here p) ends h
  exact ⟨q, by rw [skipValue, read, closedEnd], rest⟩

end Values

end SnippetKernel.Wire
