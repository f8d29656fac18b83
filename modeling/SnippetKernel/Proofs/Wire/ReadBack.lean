import SnippetKernel.Proofs.Wire.Written

/-! Reading back whole values. The writer puts a value behind what it has written, the reader takes it from
in front of what is left; between the two stands the list of characters that the value is written as. -/
namespace SnippetKernel.Wire

variable {s : String}

/-- The items of an array as they are written, up to its closing bracket. -/
def itemChars (first : Bool) : List Json → List Char
  | [] => [']']
  | item :: rest => (if first then [] else [',']) ++ (item.text.toList ++ itemChars false rest)

/-- The members of an object as they are written, up to its closing bracket. -/
def memberChars (first : Bool) : List (String × Json) → List Char
  | [] => ['\x7d']
  | (key, value) :: rest =>
    (if first then [] else [',']) ++ ((Json.quote key).toList
      ++ ':' :: (value.text.toList ++ memberChars false rest))

mutual

theorem toList_write (out : String) (j : Json) : (j.write out).toList = out.toList ++ j.text.toList := by
  cases j with
  | null => simp [Json.text, Json.write]
  | bool b => simp [Json.text, Json.write]
  | number n => simp [Json.text, Json.write]
  | string text => simp [Json.text, Json.write]
  | array items =>
    have whole (before : String) :
        (Json.write before (.array items)).toList = before.toList ++ '[' :: itemChars true items := by
      simpa [Json.write] using toList_writeItems true (before ++ "[") items
    rw [Json.text, whole, whole]
    simp
  | object members =>
    have whole (before : String) :
        (Json.write before (.object members)).toList
          = before.toList ++ '\x7b' :: memberChars true members := by
      simpa [Json.write] using toList_writeMembers true (before ++ "\x7b") members
    rw [Json.text, whole, whole]
    simp

theorem toList_writeItems (first : Bool) (out : String) (items : List Json) :
    (Json.writeItems first out items).toList ++ [']'] = out.toList ++ itemChars first items := by
  cases items with
  | nil => simp [Json.writeItems, itemChars]
  | cons item rest =>
    rw [Json.writeItems, toList_writeItems, toList_write, itemChars]
    cases first <;> simp

theorem toList_writeMembers (first : Bool) (out : String) (members : List (String × Json)) :
    (Json.writeMembers first out members).toList ++ ['\x7d']
      = out.toList ++ memberChars first members := by
  cases members with
  | nil => simp [Json.writeMembers, memberChars]
  | cons member rest =>
    obtain ⟨key, value⟩ := member
    rw [Json.writeMembers, toList_writeMembers, toList_write, memberChars]
    cases first <;> simp

end

theorem toList_text_array (items : List Json) :
    (Json.array items).text.toList = '[' :: itemChars true items := by
  simpa [Json.text, Json.write] using toList_writeItems true "[" items

theorem toList_text_object (members : List (String × Json)) :
    (Json.object members).text.toList = '\x7b' :: memberChars true members := by
  simpa [Json.text, Json.write] using toList_writeMembers true "\x7b" members

theorem toList_text_string (text : String) :
    (Json.string text).text.toList = '"' :: (quoted text.toList ++ ['"']) := by
  simp [Json.text, Json.write, toList_quote]

/-- A text is read back where a text is expected. -/
theorem text_of_ahead {expected text : String} {p : s.Pos} {rest : List Char}
    (h : ahead p = (Json.string text).text.toList ++ rest) : Gives (Wire.text expected p) text rest := by
  rw [toList_text_string] at h
  obtain ⟨q, found, left⟩ := nextVisible_of_ahead h (by decide)
  have read : Gives (string q.1) text rest := string_of_quoted (by simpa using left)
  have shown : Wire.text expected p = .afterSpace (.behind q (string q.1)) := by
    rw [Wire.text]
    simp only [found]
  rw [shown]
  exact read.behind.afterSpace

/-! ### Objects and arrays, one part at a time -/

section Parts

variable {σ : Type} {member : String → σ → (p : s.Pos) → Read σ p} {element : σ → (p : s.Pos) → Read σ p}
  {state state' x : σ} {first : Bool} {rest : List Char} {start : s.Pos}

theorem colon_of_ahead {p : s.Pos} (h : ahead p = ':' :: rest) : Gives (colon p) () rest := by
  obtain ⟨q, found, left⟩ := nextVisible_of_ahead h (by decide)
  exact Gives.afterSpace ⟨q, by simp only [found], left⟩

theorem afterColon_of_ahead {α : Type} {read : (p : s.Pos) → Read α p} {p : s.Pos} {a : α}
    {tail : List Char} (h : ahead p = ':' :: tail)
    (reads : ∀ q : s.Pos, ahead q = tail → Gives (read q) a rest) : Gives (afterColon read p) a rest := by
  obtain ⟨q, found, left⟩ := colon_of_ahead h
  rw [afterColon, found]
  exact (reads q.1 left).behind

theorem key_of_ahead {p : s.Pos} {name : String} (h : ahead p = (Json.quote name).toList ++ rest) :
    Gives (key p) name rest := by
  rw [toList_quote] at h
  obtain ⟨q, found, left⟩ := nextVisible_of_ahead h (by decide)
  have read : Gives (string q.1) name rest := string_of_quoted (by simpa using left)
  have shown : key p = .afterSpace (.behind q (string q.1)) := by
    rw [key]
    simp only [found]
  rw [shown]
  exact read.behind.afterSpace

theorem keyed_of_ahead {p : s.Pos} {name : String} {tail : List Char}
    (h : ahead p = (Json.quote name).toList ++ tail)
    (reads : ∀ q : s.Pos, ahead q = tail → Gives (member name state q) state' rest) :
    Gives (keyed member state p) state' rest := by
  obtain ⟨q, found, left⟩ := key_of_ahead h
  rw [keyed, found]
  exact (reads q.1 left).behind

theorem members_nil_of_ahead {p : From start} (h : ahead p.1 = memberChars first [] ++ rest) :
    Gives (members member first state p) state rest := by
  obtain ⟨q, found, left⟩ := nextVisible_of_ahead h (by decide)
  exact ⟨p.step ((skipSpace p.1).step q), members_close found, left⟩

/-- An object is read member by member. -/
theorem members_cons_of_ahead {p : From start} {name : String} {j : Json} {others : List (String × Json)}
    (h : ahead p.1 = memberChars first ((name, j) :: others) ++ rest)
    (reads : ∀ q : s.Pos, ahead q = ':' :: (j.text.toList ++ (memberChars false others ++ rest)) →
      Gives (member name state q) state' (memberChars false others ++ rest))
    (goes_on : ∀ q : From start, ahead q.1 = memberChars false others ++ rest →
      Gives (members member false state' q) x rest) :
    Gives (members member first state p) x rest := by
  cases first with
  | true =>
    have keys : ahead p.1 = (Json.quote name).toList
        ++ ':' :: (j.text.toList ++ (memberChars false others ++ rest)) := by
      simpa [memberChars] using h
    obtain ⟨r, read, left⟩ := keyed_of_ahead keys reads
    rw [toList_quote] at keys
    obtain ⟨q, found, _⟩ := nextVisible_of_ahead keys (by decide)
    rw [members_first found (by decide) read]
    exact goes_on (p.step r).toFrom left
  | false =>
    obtain ⟨q, found, behind⟩ := nextVisible_of_ahead h (by decide)
    have keys : ahead q.1 = (Json.quote name).toList
        ++ ':' :: (j.text.toList ++ (memberChars false others ++ rest)) := by
      simpa using behind
    obtain ⟨r, read, left⟩ := keyed_of_ahead keys reads
    rw [members_comma found read]
    exact goes_on (p.step ((skipSpace p.1).step (q.trans r))).toFrom left

theorem elements_nil_of_ahead {p : From start} (h : ahead p.1 = itemChars first [] ++ rest) :
    Gives (elements element first state p) state rest := by
  obtain ⟨q, found, left⟩ := nextVisible_of_ahead h (by decide)
  exact ⟨p.step ((skipSpace p.1).step q), elements_close found, left⟩

/-- An array is read item by item. -/
theorem elements_cons_of_ahead {p : From start} {c : Char} {cs : List Char} {item : Json}
    {others : List Json} (begins : item.text.toList = c :: cs) (visible : isSpace c = false)
    (other : c ≠ ']') (h : ahead p.1 = itemChars first (item :: others) ++ rest)
    (reads : ∀ q : s.Pos, ahead q = item.text.toList ++ (itemChars false others ++ rest) →
      Gives (element state q) state' (itemChars false others ++ rest))
    (goes_on : ∀ q : From start, ahead q.1 = itemChars false others ++ rest →
      Gives (elements element false state' q) x rest) :
    Gives (elements element first state p) x rest := by
  cases first with
  | true =>
    have items : ahead p.1 = item.text.toList ++ (itemChars false others ++ rest) := by
      simpa [itemChars] using h
    obtain ⟨r, read, left⟩ := reads p.1 items
    rw [begins] at items
    obtain ⟨q, found, _⟩ := nextVisible_of_ahead items visible
    rw [elements_first found other read]
    exact goes_on (p.step r).toFrom left
  | false =>
    obtain ⟨q, found, behind⟩ := nextVisible_of_ahead h (by decide)
    have items : ahead q.1 = item.text.toList ++ (itemChars false others ++ rest) := by
      simpa using behind
    obtain ⟨r, read, left⟩ := reads q.1 items
    rw [begins] at items
    obtain ⟨t, seen, _⟩ := nextVisible_of_ahead items visible
    have more_comes : (next? (skipSpace q.1).1).any (·.1 = ']') = false := by
      simp [seen, other]
    rw [elements_comma found more_comes read]
    exact goes_on (p.step ((skipSpace p.1).step (q.trans r))).toFrom left

end Parts

/-! ### Values -/

/-- Values without floats and negative numbers, with at most `room` brackets inside one another. -/
inductive Plain : (room : Nat) → Json → Prop
  | null {room : Nat} : Plain room .null
  | bool {room : Nat} (b : Bool) : Plain room (.bool b)
  | natural {room : Nat} (n : UInt64) : Plain room (.number (.natural n))
  | string {room : Nat} (text : String) : Plain room (.string text)
  | array {room : Nat} {items : List Json} (inside : ∀ j ∈ items, Plain room j) :
      Plain (room + 1) (.array items)
  | object {room : Nat} {members : List (String × Json)} (inside : ∀ m ∈ members, Plain room m.2) :
      Plain (room + 1) (.object members)

/-- A value is read back from in front of anything that does not go on with it. -/
def ReadsBack (room : Nat) (j : Json) : Prop :=
  ∀ (s : String) (p : s.Pos) (rest : List Char), EndsNumber rest → ahead p = j.text.toList ++ rest →
    Gives (value room p) j rest

theorem endsNumber_itemChars (items : List Json) (rest : List Char) :
    EndsNumber (itemChars false items ++ rest) := by
  intro c mem
  cases items <;> (simp [itemChars] at mem; subst mem; decide)

theorem endsNumber_memberChars (members : List (String × Json)) (rest : List Char) :
    EndsNumber (memberChars false members ++ rest) := by
  intro c mem
  cases members <;> (simp [memberChars] at mem; subst mem; decide)

theorem ne_of_isDigit {c d : Char} (digit : c.isDigit = true) (other : d.isDigit = false) : c ≠ d := by
  rintro rfl
  rw [digit] at other
  cases other

theorem isSpace_of_isDigit {c : Char} (digit : c.isDigit = true) : isSpace c = false := by
  have blank := ne_of_isDigit digit (d := ' ') (by decide)
  have line := ne_of_isDigit digit (d := '\n') (by decide)
  have tab := ne_of_isDigit digit (d := '\t') (by decide)
  have back := ne_of_isDigit digit (d := '\r') (by decide)
  simp [isSpace, blank, line, tab, back]

theorem toList_text_natural (n : UInt64) :
    ∃ c cs, (Json.number (.natural n)).text.toList = c :: cs ∧ c.isDigit = true := by
  have digits : (Json.number (.natural n)).text.toList = Nat.toDigits 10 n.toNat := by
    simp [Json.text, Json.write, JsonNumber.text]
  cases shown : Nat.toDigits 10 n.toNat with
  | nil => exact absurd shown Nat.toDigits_ne_nil
  | cons d ds =>
    have digit : d.isDigit = true :=
      Nat.isDigit_of_mem_toDigits (by decide) (by decide) (shown ▸ List.mem_cons_self)
    exact ⟨d, ds, digits.trans shown, digit⟩

/-- The first character of a value is no blank and no bracket that closes. -/
theorem Plain.head {room : Nat} {j : Json} (plain : Plain room j) :
    ∃ c cs, j.text.toList = c :: cs ∧ isSpace c = false ∧ c ≠ ']' := by
  cases plain with
  | null => exact ⟨'n', ['u', 'l', 'l'], by decide⟩
  | bool b =>
    cases b with
    | false => exact ⟨'f', ['a', 'l', 's', 'e'], by decide⟩
    | true => exact ⟨'t', ['r', 'u', 'e'], by decide⟩
  | natural n =>
    obtain ⟨c, cs, text, digit⟩ := toList_text_natural n
    exact ⟨c, cs, text, isSpace_of_isDigit digit, ne_of_isDigit digit (by decide)⟩
  | string text => exact ⟨'"', _, toList_text_string text, by decide⟩
  | array inside => exact ⟨'[', _, toList_text_array _, by decide⟩
  | object inside => exact ⟨'\x7b', _, toList_text_object _, by decide⟩

theorem word_of_ahead {α : Type} {p : s.Pos} {q : After p} {letters rest : List Char} (a : α)
    (h : ahead q.1 = letters ++ rest) : Gives (word q letters a) a rest := by
  obtain ⟨r, found, left⟩ := skipWord_of_ahead h
  exact ⟨q.skip r, by rw [word, found], left⟩

/-- A value without brackets, by what its first character makes of it. -/
theorem value_of_scalar {room : Nat} {p : s.Pos} {c : Char} {cs rest : List Char} {j : Json}
    (h : ahead p = c :: cs) (visible : isSpace c = false) (square : c ≠ '[') (curly : c ≠ '\x7b')
    (reads : ∀ (p : s.Pos) (q : After p), ahead p = c :: cs → next? p = some (c, q) → ahead q.1 = cs →
      Gives (scalar p) j rest) : Gives (value room p) j rest := by
  obtain ⟨q, found, left⟩ := nextVisible_of_ahead h visible
  rw [value_scalar found square curly]
  exact (reads _ q ((ahead_of_next? found).trans (by rw [left])) found left).afterSpace

theorem scalar_of_digit {p : s.Pos} {c : Char} {q : After p} (found : next? p = some (c, q))
    (digit : c.isDigit = true) : scalar p = number p := by
  unfold scalar
  simp only [found]
  split
  · exact absurd digit (by decide)
  · exact absurd digit (by decide)
  · exact absurd digit (by decide)
  · exact absurd digit (by decide)
  · rfl

theorem elements_readBack {room : Nat} {items : List Json} (plain : ∀ j ∈ items, Plain room j)
    (inside : ∀ j ∈ items, ReadsBack room j) {start : s.Pos} {p : From start} {first : Bool}
    (done : List Json) {rest : List Char} (h : ahead p.1 = itemChars first items ++ rest) :
    Gives (elements (addElement (value room)) first done p) (items.reverse ++ done) rest := by
  induction items generalizing p first done with
  | nil => exact elements_nil_of_ahead h
  | cons item others ih =>
    obtain ⟨c, cs, begins, visible, other⟩ := (plain item List.mem_cons_self).head
    have reads (q : s.Pos) (left : ahead q = item.text.toList ++ (itemChars false others ++ rest)) :
        Gives (addElement (value room) done q) (item :: done) (itemChars false others ++ rest) :=
      (inside item List.mem_cons_self s q _ (endsNumber_itemChars others rest) left).map (· :: done)
    refine elements_cons_of_ahead begins visible other h reads fun q left => ?_
    have := ih (fun j mem => plain j (List.mem_cons_of_mem _ mem))
      (fun j mem => inside j (List.mem_cons_of_mem _ mem)) (item :: done) left
    simpa using this

theorem members_readBack {room : Nat} {fields : List (String × Json)}
    (inside : ∀ m ∈ fields, ReadsBack room m.2) {start : s.Pos} {p : From start} {first : Bool}
    (done : List (String × Json)) {rest : List Char} (h : ahead p.1 = memberChars first fields ++ rest) :
    Gives (members (addMember (value room)) first done p) (fields.reverse ++ done) rest := by
  induction fields generalizing p first done with
  | nil => exact members_nil_of_ahead h
  | cons field others ih =>
    obtain ⟨name, j⟩ := field
    have reads (q : s.Pos)
        (left : ahead q = ':' :: (j.text.toList ++ (memberChars false others ++ rest))) :
        Gives (addMember (value room) name done q) ((name, j) :: done)
          (memberChars false others ++ rest) := by
      refine Gives.map _ (afterColon_of_ahead left fun r behind => ?_)
      exact inside (name, j) List.mem_cons_self s r _ (endsNumber_memberChars others rest) behind
    refine members_cons_of_ahead h reads fun q left => ?_
    have := ih (fun m mem => inside m (List.mem_cons_of_mem _ mem)) ((name, j) :: done) left
    simpa using this

theorem Plain.readsBack {room : Nat} {j : Json} (plain : Plain room j) : ReadsBack room j := by
  induction plain with
  | null =>
    intro s p rest _ h
    refine value_of_scalar h (by decide) (by decide) (by decide) fun p q _ found left => ?_
    simp only [scalar, found]
    exact word_of_ahead _ left
  | bool b =>
    intro s p rest _ h
    cases b with
    | false =>
      refine value_of_scalar h (by decide) (by decide) (by decide) fun p q _ found left => ?_
      simp only [scalar, found]
      exact word_of_ahead _ left
    | true =>
      refine value_of_scalar h (by decide) (by decide) (by decide) fun p q _ found left => ?_
      simp only [scalar, found]
      exact word_of_ahead _ left
  | natural n =>
    intro s p rest stop h
    obtain ⟨c, cs, text, digit⟩ := toList_text_natural n
    have begins : ahead p = c :: (cs ++ rest) := by rw [h, text, List.cons_append]
    refine value_of_scalar begins (isSpace_of_isDigit digit) (ne_of_isDigit digit (by decide))
      (ne_of_isDigit digit (by decide)) fun p q here found _ => ?_
    rw [scalar_of_digit found digit]
    refine number_of_natural ?_ stop
    rw [here, ← List.cons_append, ← text]
    simp [Json.text, Json.write]
  | string text =>
    intro s p rest _ h
    rw [toList_text_string] at h
    refine value_of_scalar h (by decide) (by decide) (by decide) fun p q _ found left => ?_
    have read : Gives (Wire.string q.1) text rest := string_of_quoted (by simpa using left)
    simp only [scalar, found]
    exact read.behind.map _
  | @array room items inside ih =>
    intro s p rest _ h
    rw [toList_text_array] at h
    obtain ⟨q, found, left⟩ := nextVisible_of_ahead h (by decide)
    have read : Gives (elements (addElement (value room)) true [] (.here q.1)) items.reverse rest := by
      simpa using elements_readBack inside ih (p := .here q.1) [] left
    rw [value_square found]
    simpa using (read.map fun items => Json.array items.reverse).behind.afterSpace
  | @object room fields inside ih =>
    intro s p rest _ h
    rw [toList_text_object] at h
    obtain ⟨q, found, left⟩ := nextVisible_of_ahead h (by decide)
    have read : Gives (members (addMember (value room)) true [] (.here q.1)) fields.reverse rest := by
      simpa using members_readBack ih (p := .here q.1) [] left
    rw [value_curly found]
    simpa using (read.map fun members => Json.object members.reverse).behind.afterSpace

/-! ### Line breaks -/

theorem newline_not_mem_escape (c : Char) : '\n' ∉ (Json.escape c).toList := by
  rcases escape_cases c with ⟨e, text, _, short⟩ | ⟨control, text⟩ | ⟨text, _, _, printable⟩
  · have other : e ≠ '\n' := by
      rintro rfl
      cases short
    rw [text]
    simpa using other.symm
  · have digit : ∀ n < 16, Json.hexDigit n ≠ '\n' := by decide
    have high := digit (c.toNat / 16) (by omega)
    have low := digit (c.toNat % 16) (by omega)
    rw [text]
    simp [high.symm, low.symm]
  · have other : c ≠ '\n' := by
      rintro rfl
      exact printable (by decide)
    rw [text]
    simpa using other.symm

theorem newline_not_mem_quote (text : String) : '\n' ∉ (Json.quote text).toList := by
  simp only [toList_quote, quoted, List.mem_cons, List.mem_append, List.mem_flatMap]
  rintro (first | ⟨c, _, inside⟩ | last)
  · cases first
  · exact newline_not_mem_escape c inside
  · simp at last

/-- A value is written on one line. -/
theorem Plain.newline_not_mem {room : Nat} {j : Json} (plain : Plain room j) :
    '\n' ∉ j.text.toList := by
  induction plain with
  | null => decide
  | bool b => cases b <;> decide
  | natural n =>
    intro inside
    have digits : '\n' ∈ Nat.toDigits 10 n.toNat := by
      simpa [Json.text, Json.write, JsonNumber.text] using inside
    have digit : '\n'.isDigit = true := Nat.isDigit_of_mem_toDigits (by decide) (by decide) digits
    exact absurd digit (by decide)
  | string text => simpa [Json.text, Json.write] using newline_not_mem_quote text
  | @array room items _ ih =>
    have rest (first : Bool) (items : List Json) (inside : ∀ j ∈ items, '\n' ∉ j.text.toList) :
        '\n' ∉ itemChars first items := by
      induction items generalizing first with
      | nil => simp [itemChars]
      | cons item others ih =>
        have head := inside item List.mem_cons_self
        have tail := ih false fun j mem => inside j (List.mem_cons_of_mem _ mem)
        cases first <;> simp [itemChars, head, tail]
    rw [toList_text_array]
    simpa using rest true items ih
  | @object room fields _ ih =>
    have rest (first : Bool) (fields : List (String × Json))
        (inside : ∀ m ∈ fields, '\n' ∉ m.2.text.toList) : '\n' ∉ memberChars first fields := by
      induction fields generalizing first with
      | nil => simp [memberChars]
      | cons field others ih =>
        have key := newline_not_mem_quote field.1
        have head := inside field List.mem_cons_self
        have tail := ih false fun m mem => inside m (List.mem_cons_of_mem _ mem)
        cases first <;> simp [memberChars, key, head, tail]
    rw [toList_text_object]
    simpa using rest true fields ih

/-- A reading that leaves nothing has read a whole text. -/
theorem whole_of_gives {α : Type} {read : (p : s.Pos) → Read α p} {x : α}
    (h : Gives (read s.startPos) x []) : whole s read = .ok x := by
  obtain ⟨q, found, left⟩ := h
  have finished : q.1 = s.endPos := ahead_eq_nil_iff.1 left
  have behind : spaceEnd q.1 = s.endPos := by
    rw [spaceEnd, next?_eq_none_iff.2 left]
    exact finished
  rw [whole, found]
  exact if_pos behind

end SnippetKernel.Wire
