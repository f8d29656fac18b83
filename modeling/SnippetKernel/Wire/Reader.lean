import SnippetKernel.Wire.JsonError
import SnippetKernel.Wire.Numeral

/-! Reading documents from left to right. A reader begins at a place and ends behind what it read; the
first thing that does not fit ends the reading. -/
namespace SnippetKernel.Wire

variable {s : String}

/-- What a reader gives that begins at `p`. -/
abbrev Read (α : Type) (p : s.Pos) := Except JsonError (α × After p)

namespace Read

variable {α : Type}

def malformed {p : s.Pos} : Read α p := .error .malformed

def ofOption {p : s.Pos} : Option (α × After p) → Read α p
  | some x => .ok x
  | none => malformed

/-- A reader that begins where another one ended. -/
def behind {p : s.Pos} (q : After p) : Read α q.1 → Read α p
  | .ok (a, r) => .ok (a, q.trans r)
  | .error e => .error e

/-- A reader that begins behind the blanks here. -/
def afterSpace {p : s.Pos} : Read α (skipSpace p).1 → Read α p
  | .ok (a, q) => .ok (a, (skipSpace p).step q)
  | .error e => .error e

def map {β : Type} {p : s.Pos} (f : α → β) : Read α p → Read β p
  | .ok (a, q) => .ok (f a, q)
  | .error e => .error e

end Read

/-! ### Strings -/

def hexValue? (c : Char) : Option Nat :=
  if c.isDigit then some (c.toNat - 48)
  else if 'a' ≤ c ∧ c ≤ 'f' then some (c.toNat - 87)
  else if 'A' ≤ c ∧ c ≤ 'F' then some (c.toNat - 55)
  else none

def hexDigit? (p : s.Pos) : Option (Nat × After p) := do
  let (c, q) ← next? p
  return (← hexValue? c, q)

/-- Four digits in base sixteen. -/
def hexQuad? (p : s.Pos) : Option (Nat × After p) := do
  let (a, q) ← hexDigit? p
  let (b, r) ← hexDigit? q.1
  let (c, t) ← hexDigit? r.1
  let (d, u) ← hexDigit? t.1
  return (((a * 16 + b) * 16 + c) * 16 + d, q.trans (r.trans (t.trans u)))

def isHighSurrogate (n : Nat) : Bool := 0xD800 ≤ n && n ≤ 0xDBFF

def isLowSurrogate (n : Nat) : Bool := 0xDC00 ≤ n && n ≤ 0xDFFF

/-- The character of an escape, from behind `\u`. A character beyond 16 bits is written as a pair of
escapes, and half a pair is refused. -/
def unicodeEscape? (p : s.Pos) : Option (Char × After p) := do
  let (n, q) ← hexQuad? p
  if isHighSurrogate n then
    let r ← skipWord ['\\', 'u'] q.1
    let (low, t) ← hexQuad? r.1
    if isLowSurrogate low then
      let c ← charOfCode? (0x10000 + (n - 0xD800) * 0x400 + (low - 0xDC00))
      return (c, (q.skip r).trans t)
    else none
  else return (← charOfCode? n, q)

def shortEscape? : Char → Option Char
  | '"' => some '"'
  | '\\' => some '\\'
  | '/' => some '/'
  | 'b' => some '\x08'
  | 'f' => some '\x0c'
  | 'n' => some '\n'
  | 'r' => some '\r'
  | 't' => some '\t'
  | _ => none

/-- The character of an escape, from behind the backslash. -/
def escape? (p : s.Pos) : Option (Char × After p) := do
  let (c, q) ← next? p
  if c = 'u' then
    let (d, r) ← unicodeEscape? q.1
    return (d, q.trans r)
  else return (← shortEscape? c, q)

/-- The rest of a string, behind `done`. -/
def stringRest {start : s.Pos} (p : From start) (done : String) : Read String start :=
  match next? p.1 with
  | none => .malformed
  | some (c, q) =>
    have := q.2
    if c = '"' then .ok (done, p.step q)
    else if c = '\\' then
      match escape? q.1 with
      | none => .malformed
      | some (d, r) =>
        have := (q.trans r).2
        stringRest (p.step (q.trans r)).toFrom (done.push d)
    else if c.toNat < 32 then .malformed
    else stringRest (p.step q).toFrom (done.push c)
  termination_by p.1

/-- A string, from behind its opening quote. -/
def string (p : s.Pos) : Read String p := stringRest (.here p) ""

/-- The end of an escape whose character does not matter, from behind the backslash. -/
def escapeEnd? (p : s.Pos) : Option (After p) := do
  let (c, q) ← next? p
  if c = 'u' then
    let (_, r) ← hexQuad? q.1
    return q.trans r
  else
    let _ ← shortEscape? c
    return q

/-- The end of a string whose characters do not matter; half a pair of escapes will do. -/
def stringEnd {start : s.Pos} (p : From start) : Read Unit start :=
  match next? p.1 with
  | none => .malformed
  | some (c, q) =>
    have := q.2
    if c = '"' then .ok ((), p.step q)
    else if c = '\\' then
      match escapeEnd? q.1 with
      | none => .malformed
      | some r =>
        have := (q.trans r).2
        stringEnd (p.step (q.trans r)).toFrom
    else if c.toNat < 32 then .malformed
    else stringEnd (p.step q).toFrom
  termination_by p.1

/-! ### Scalars -/

/-- The rest of a word whose first character has been read, and what the word stands for. -/
def word {α : Type} {p : s.Pos} (q : After p) (rest : List Char) (a : α) : Read α p :=
  match skipWord rest q.1 with
  | some r => .ok (a, q.skip r)
  | none => .malformed

def number (p : s.Pos) : Read Json p :=
  match Numeral.read? p with
  | none => .malformed
  | some (n, q) =>
    match n.value? with
    | some v => .ok (.number v, q)
    | none => .malformed

/-- A value that is neither an array nor an object. -/
def scalar (p : s.Pos) : Read Json p :=
  match next? p with
  | none => .malformed
  | some (c, q) =>
    match c with
    | 'n' => word q ['u', 'l', 'l'] .null
    | 't' => word q ['r', 'u', 'e'] (.bool true)
    | 'f' => word q ['a', 'l', 's', 'e'] (.bool false)
    | '"' => (Read.behind q (string q.1)).map .string
    | _ => number p

/-- What stands here, for a message about its type. Of an array or object, the bracket is enough. -/
def found (p : s.Pos) : Except JsonError Found :=
  match next? p with
  | some ('[', _) => .ok .sequence
  | some ('\x7b', _) => .ok .map
  | _ =>
    match scalar p with
    | .ok (j, _) => .ok (.ofJson j)
    | .error e => .error e

/-- What stands here is not what was expected. -/
def wrongType {α : Type} (expected : String) (p : s.Pos) : Read α p :=
  match found p with
  | .ok f => .error (.invalidType f expected)
  | .error e => .error e

/-- A string, or an error that says what was expected. -/
def text (expected : String) (p : s.Pos) : Read String p :=
  .afterSpace <|
    match next? (skipSpace p).1 with
    | some ('"', q) => .behind q (string q.1)
    | _ => wrongType expected _

/-- A string, or `null`. -/
def optionalText (expected : String) (p : s.Pos) : Read (Option String) p :=
  match next? (skipSpace p).1 with
  | some ('n', q) => .afterSpace (word q ['u', 'l', 'l'] none)
  | _ => (text expected p).map some

/-! ### Arrays and objects -/

/-- The elements of an array, from behind its bracket on; `element` adds one to what was read before. -/
def elements {σ : Type} (element : σ → (p : s.Pos) → Read σ p) {start : s.Pos} (first : Bool)
    (state : σ) (p : From start) : Read σ start :=
  match next? (skipSpace p.1).1 with
  | none => .malformed
  | some (c, q) =>
    if c = ']' then .ok (state, p.step ((skipSpace p.1).step q))
    else if first then
      match element state p.1 with
      | .error e => .error e
      | .ok (state, r) =>
        have := r.2
        elements element false state (p.step r).toFrom
    else if c ≠ ',' then .malformed
    else if (next? (skipSpace q.1).1).any (·.1 = ']') then .malformed
    else
      match element state q.1 with
      | .error e => .error e
      | .ok (state, r) =>
        have := ((skipSpace p.1).step (q.trans r)).2
        elements element false state (p.step ((skipSpace p.1).step (q.trans r))).toFrom
  termination_by p.1

/-- The colon between a key and its value. -/
def colon (p : s.Pos) : Read Unit p :=
  .afterSpace <|
    match next? (skipSpace p).1 with
    | some (':', q) => .ok ((), q)
    | _ => .malformed

/-- What a reader gives from behind a colon. -/
def afterColon {α : Type} (read : (p : s.Pos) → Read α p) (p : s.Pos) : Read α p :=
  match colon p with
  | .error e => .error e
  | .ok (_, q) => .behind q (read q.1)

/-- The key of a member. -/
def key (p : s.Pos) : Read String p :=
  .afterSpace <|
    match next? (skipSpace p).1 with
    | some ('"', q) => .behind q (string q.1)
    | _ => .malformed

/-- A member with its key; `member` reads from behind the key. -/
def keyed {σ : Type} (member : String → σ → (p : s.Pos) → Read σ p) (state : σ) (p : s.Pos) : Read σ p :=
  match key p with
  | .error e => .error e
  | .ok (name, q) => .behind q (member name state q.1)

/-- The members of an object, from behind its bracket on; `member` reads from behind a key. -/
def members {σ : Type} (member : String → σ → (p : s.Pos) → Read σ p) {start : s.Pos} (first : Bool)
    (state : σ) (p : From start) : Read σ start :=
  match next? (skipSpace p.1).1 with
  | none => .malformed
  | some (c, q) =>
    if c = '\x7d' then .ok (state, p.step ((skipSpace p.1).step q))
    else if first then
      match keyed member state p.1 with
      | .error e => .error e
      | .ok (state, r) =>
        have := r.2
        members member false state (p.step r).toFrom
    else if c ≠ ',' then .malformed
    else
      match keyed member state q.1 with
      | .error e => .error e
      | .ok (state, r) =>
        have := ((skipSpace p.1).step (q.trans r)).2
        members member false state (p.step ((skipSpace p.1).step (q.trans r))).toFrom
  termination_by p.1

/-! ### Whole values -/

/-- One more element, given a reader of values; the last one comes first. -/
def addElement (value : (p : s.Pos) → Read Json p) (done : List Json) (p : s.Pos) : Read (List Json) p :=
  (value p).map (· :: done)

/-- One more member, from behind its key. -/
def addMember (value : (p : s.Pos) → Read Json p) (name : String) (done : List (String × Json))
    (p : s.Pos) : Read (List (String × Json)) p :=
  (afterColon value p).map fun v => (name, v) :: done

/-- A value with at most `room` arrays and objects inside one another. -/
def value : (room : Nat) → (p : s.Pos) → Read Json p
  | 0, p => .afterSpace <|
    match next? (skipSpace p).1 with
    | some ('[', _) | some ('\x7b', _) => .malformed
    | _ => scalar _
  | room + 1, p => .afterSpace <|
    match next? (skipSpace p).1 with
    | some ('[', q) =>
      .behind q <| (elements (addElement (value room)) true [] (.here q.1)).map fun items =>
        .array items.reverse
    | some ('\x7b', q) =>
      .behind q <| (members (addMember (value room)) true [] (.here q.1)).map fun members =>
        .object members.reverse
    | _ => scalar _

/-- An array or an object that is open around the place of reading. -/
inductive Bracket where
  | square | curly
  deriving DecidableEq

namespace Bracket

def closing : Bracket → Char
  | square => ']'
  | curly => '\x7d'

end Bracket

/-- The end of a key whose characters do not matter, and of the colon behind it. -/
def keyEnd (p : s.Pos) : Read Unit p :=
  .afterSpace <|
    match next? (skipSpace p).1 with
    | some ('"', q) =>
      match stringEnd (.here q.1) with
      | .error e => .error e
      | .ok (_, r) => .behind (q.trans r) (colon r.1)
    | _ => .malformed

/-- The end of a value that is neither an array nor an object. A number may be out of range. -/
def scalarEnd (p : s.Pos) : Read Unit p :=
  match next? p with
  | none => .malformed
  | some (c, q) =>
    match c with
    | 'n' => word q ['u', 'l', 'l'] ()
    | 't' => word q ['r', 'u', 'e'] ()
    | 'f' => word q ['a', 'l', 's', 'e'] ()
    | '"' => .behind q (stringEnd (.here q.1))
    | _ => .ofOption ((Numeral.read? p).map fun (_, r) => ((), r))

mutual

/-- The end of a value of any depth whose contents do not matter, and of the brackets around it. -/
def valueEnd {start : s.Pos} (opened : List Bracket) (p : From start) : Read Unit start :=
  let q := skipSpace p.1
  match next? q.1 with
  | none => .malformed
  | some (c, r) =>
    have := (q.step r).2
    let inside (b : Bracket) : Read Unit start :=
      match next? (skipSpace r.1).1 with
      | none => .malformed
      | some (d, t) =>
        let t' := (q.step r).trans ((skipSpace r.1).step t)
        have := t'.2
        if d = b.closing then closedEnd opened (p.step t')
        else
          match b with
          | .square => valueEnd (b :: opened) ⟨r.1, Std.le_of_lt (p.step (q.step r)).2⟩
          | .curly =>
            match keyEnd r.1 with
            | .error e => .error e
            | .ok (_, u) =>
              have := ((q.step r).trans u).2
              valueEnd (b :: opened) ⟨u.1, Std.le_of_lt (p.step ((q.step r).trans u)).2⟩
    if c = '[' then inside .square
    else if c = '\x7b' then inside .curly
    else
      match scalarEnd q.1 with
      | .error e => .error e
      | .ok (_, t) =>
        have := (q.step t).2
        closedEnd opened (p.step (q.step t))
  termination_by p.1

/-- The end of the brackets around a value that has been read. -/
def closedEnd {start : s.Pos} (opened : List Bracket) (p : After start) : Read Unit start :=
  match opened with
  | [] => .ok ((), p)
  | b :: outer =>
    let q := skipSpace p.1
    match next? q.1 with
    | none => .malformed
    | some (c, r) =>
      have := (q.step r).2
      let r' := p.trans (q.step r)
      if c = b.closing then closedEnd outer r'
      else if c = ',' then
        match b with
        | .square => valueEnd opened ⟨r.1, Std.le_of_lt r'.2⟩
        | .curly =>
          match keyEnd r.1 with
          | .error e => .error e
          | .ok (_, u) =>
            have := ((q.step r).trans u).2
            valueEnd opened ⟨u.1, Std.le_of_lt (r'.trans u).2⟩
      else .malformed
  termination_by p.1

end

/-- Reads over a value of any depth. -/
def skipValue (p : s.Pos) : Read Unit p := valueEnd [] (.here p)

/-- A reader of a whole text: nothing but blanks may follow. -/
def whole {α : Type} (s : String) (read : (p : s.Pos) → Read α p) : Except JsonError α :=
  match read s.startPos with
  | .error e => .error e
  | .ok (a, q) => if spaceEnd q.1 = s.endPos then .ok a else .error .malformed

end SnippetKernel.Wire
