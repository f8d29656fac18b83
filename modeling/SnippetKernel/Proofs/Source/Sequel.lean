import Mathlib.Data.List.Forall2
import SnippetKernel.Proofs.Source.Reading

/-! Reading a text that more text follows. One parser reads the tokens of a text alone, up to their end; the
other reads copies of them, renumbered, with the tokens of a sequel behind. As long as the second text does
not go on with the last statement of the first, both read the same statements. Inside of a line the two
parsers see the same; only between statements may the first one have come to its end. -/
namespace SnippetKernel.Source

/-- Words that go on with a statement after one of its blocks. -/
def goingOn : List String := ["elif", "else", "except", "finally"]

/-- A token that no statement begins with, but that may come where one could begin. -/
def TokenKind.startless : TokenKind → Bool
  | .newline | .indent | .dedent | .eof => true
  | .name word => goingOn.contains word
  | _ => false

/-- What is different for the second parser. -/
structure Sequel where
  lines : Nat → Nat
  tokens : List Token
  fresh : ∀ t ∈ tokens.head?, ∀ word ∈ goingOn, t.kind ≠ .name word
  /-- The brackets that are open at the end of the first text, when some are open now. Statements close what
  they open, so this does not change. -/
  brackets : Nat → Nat
  /-- How many tokens the second parser has in all. -/
  size : Nat

/-- Where a parser is: before a token of a line, or where the text may be over, in so many blocks. -/
inductive Place where
  | inside (blocks : Nat)
  | between (blocks : Nat)

def Place.blocks : Place → Nat
  | .inside blocks | .between blocks => blocks

/-- A token and its copy. The lines of tokens where no statement begins do not matter. -/
structure Token.Twin (g : Nat → Nat) (t t' : Token) : Prop where
  kind : t.kind = t'.kind
  line : t.kind.isLayout = false → t'.line = g t.line

/-- Tokens up to the end of a text, and their copies. -/
structure Region (q : Sequel) (place : Place) (ts ts' : List Token) : Prop where
  twins : List.Forall₂ (Token.Twin q.lines) ts ts'
  no_eof : ∀ t ∈ ts, t.kind ≠ .eof
  ended : ∀ t ∈ ts.getLast?, t.kind.isLayout = true
  blocks : ts.countP Token.isDedent = ts.countP Token.isIndent + place.blocks
  brackets : ∀ n, depthAfter n (ts.map (·.kind)) = q.brackets n
  more : ∀ blocks, place = .inside blocks → ts ≠ []

/-- The line of a token does not depend on what follows the text. -/
theorem lineKinds_of_ended {ts ts' : List Token} (same : ts.map (·.kind) = ts'.map (·.kind))
    (more : ts ≠ []) (ended : ∀ t ∈ ts.getLast?, t.kind.isLayout = true) (after after' : List Token) :
    lineKinds (ts ++ after) = lineKinds (ts' ++ after') := by
  induction ts generalizing ts' with
  | nil => exact absurd rfl more
  | cons t ts ih =>
    obtain ⟨t', ts', rfl, first, rest⟩ := List.map_eq_cons_iff.1 same.symm
    rw [List.cons_append, List.cons_append, lineKinds, lineKinds, first]
    split
    · rfl
    · next word =>
      cases ts with
      | nil => exact absurd (ended t rfl) word
      | cons u ts => rw [ih rest.symm (List.cons_ne_nil _ _) ended]

theorem take_lineKinds {ts : List Token} {n : Nat} (within : n < (lineKinds ts).length) :
    (lineKinds ts).take n = (ts.take n).map (·.kind) ∧ ∀ t ∈ ts.take n, t.kind.isLayout = false := by
  induction ts generalizing n with
  | nil =>
    obtain rfl : n = 0 := Nat.lt_one_iff.1 within
    exact ⟨rfl, List.forall_mem_nil _⟩
  | cons t ts ih =>
    cases n with
    | zero => exact ⟨rfl, List.forall_mem_nil _⟩
    | succ n =>
      unfold lineKinds at within ⊢
      split at within
      · simp at within
      · next word =>
        obtain ⟨same, words⟩ := ih (Nat.lt_of_succ_lt_succ within)
        rw [if_neg word, List.take_succ_cons, List.take_succ_cons, List.map_cons, same]
        exact ⟨rfl, List.forall_mem_cons.2 ⟨Bool.eq_false_iff.2 word, words⟩⟩

namespace Region

variable {q : Sequel} {place : Place} {t t' : Token} {ts ts' : List Token} {blocks n : Nat}

theorem kinds (region : Region q place ts ts') : ts.map (·.kind) = ts'.map (·.kind) := by
  have twins := region.twins
  clear region
  induction twins with
  | nil => rfl
  | cons twin _ ih => rw [List.map_cons, List.map_cons, twin.kind, ih]

/-- Before the last token of a block the text is not over. -/
theorem in_block (region : Region q (.between (blocks + 1)) ts ts') :
    Region q (.inside (blocks + 1)) ts ts' := by
  refine { region with blocks := region.blocks, more := fun _ _ => ?_ }
  rintro rfl
  exact absurd region.blocks (by simp [Place.blocks])

theorem inside (region : Region q (.between blocks) ts ts') (more : ts ≠ []) :
    Region q (.inside blocks) ts ts' := { region with blocks := region.blocks, more := fun _ _ => more }

theorem between (region : Region q (.inside blocks) ts ts') : Region q (.between blocks) ts ts' :=
  { region with blocks := region.blocks, more := nofun }

/-- What is left after a token that is no bracket. -/
theorem tail (region : Region q place (t :: ts) (t' :: ts')) (flat : ∀ n, t.kind.depth n = n)
    (counted : ts.countP Token.isDedent = ts.countP Token.isIndent + blocks) :
    Region q (.between blocks) ts ts' where
  twins := (List.forall₂_cons.1 region.twins).2
  no_eof := fun u later => region.no_eof u (List.mem_cons_of_mem _ later)
  ended := fun u last => by
    refine region.ended u ?_
    rw [List.getLast?_cons, Option.mem_def.1 last]
    rfl
  blocks := counted
  brackets := fun n => by
    have read := region.brackets n
    rw [List.map_cons, depthAfter, List.foldl_cons, flat] at read
    exact read
  more := nofun

theorem tail_newline (region : Region q (.inside blocks) (t :: ts) (t' :: ts'))
    (newline : t.kind = .newline) : Region q (.between blocks) ts ts' := by
  have counted := region.blocks
  simp only [List.countP_cons, Token.isDedent, Token.isIndent, newline] at counted
  exact region.tail (fun n => by rw [newline]; rfl) counted

theorem tail_indent (region : Region q (.inside blocks) (t :: ts) (t' :: ts'))
    (indent : t.kind = .indent) : Region q (.inside (blocks + 1)) ts ts' := by
  have counted := region.blocks
  simp [Token.isDedent, Token.isIndent, indent, Place.blocks] at counted
  exact (region.tail (fun n => by rw [indent]; rfl) (by omega)).in_block

theorem tail_dedent (region : Region q (.inside (blocks + 1)) (t :: ts) (t' :: ts'))
    (dedent : t.kind = .dedent) : Region q (.between blocks) ts ts' := by
  have counted := region.blocks
  simp [Token.isDedent, Token.isIndent, dedent, Place.blocks] at counted
  exact region.tail (fun n => by rw [dedent]; rfl) (by omega)

theorem count_words {words : List Token} (inside : ∀ t ∈ words, t.kind.isLayout = false) :
    words.countP Token.isDedent = 0 ∧ words.countP Token.isIndent = 0 := by
  simp only [List.countP_eq_zero]
  refine ⟨fun t word dedent => ?_, fun t word indent => ?_⟩
  · have stays := inside t word
    rw [of_decide_eq_true dedent] at stays
    cases stays
  · have stays := inside t word
    rw [of_decide_eq_true indent] at stays
    cases stays

/-- Words of a line are followed by more of it. -/
theorem drop (region : Region q (.inside blocks) ts ts')
    (words : ∀ t ∈ ts.take n, t.kind.isLayout = false)
    (flat : ∀ depth, depthAfter depth ((ts.take n).map (·.kind)) = depth) :
    Region q (.inside blocks) (ts.drop n) (ts'.drop n) := by
  have inside : n < ts.length := by
    refine Nat.lt_of_not_le fun past => ?_
    rw [List.take_of_length_le past] at words
    have more := region.more blocks rfl
    have layout := region.ended _ (List.getLast?_eq_some_getLast more)
    rw [words _ (List.getLast_mem more)] at layout
    cases layout
  refine ⟨List.forall₂_drop n region.twins, fun t later => region.no_eof t (List.mem_of_mem_drop later),
    ?_, ?_, fun depth => ?_, fun _ _ past => ?_⟩
  · rw [List.getLast?_drop, if_neg (Nat.not_le.2 inside)]
    exact region.ended
  · have counted := region.blocks
    obtain ⟨dedents, indents⟩ := count_words words
    rw [← List.take_append_drop n ts, List.countP_append, List.countP_append, dedents, indents] at counted
    simpa only [Nat.zero_add] using counted
  · have read := region.brackets depth
    rw [← List.take_append_drop n ts, List.map_append, depthAfter_append, flat] at read
    exact read
  · rw [List.drop_eq_nil_iff] at past
    exact absurd inside (Nat.not_lt.2 past)

theorem tail_word (region : Region q (.inside blocks) (t :: ts) (t' :: ts'))
    (word : t.kind.isLayout = false) (flat : ∀ n, t.kind.depth n = n) :
    Region q (.inside blocks) ts ts' :=
  region.drop (n := 1) (List.forall_mem_singleton.2 word) flat

end Region

/-- The first parser at a place in the text, and the second one at its copy. -/
structure Beside (q : Sequel) (place : Place) (c c' : Cursor) : Prop where
  room : c.size ≤ c'.size
  size : c'.size = q.size
  region : ∃ ts ts' line, c.rest = ts ++ [⟨.eof, line⟩] ∧ c'.rest = ts' ++ q.tokens ∧ Region q place ts ts'

namespace Beside

variable {q : Sequel} {place : Place} {c c' : Cursor} {blocks : Nat}

theorem between (beside : Beside q (.inside blocks) c c') : Beside q (.between blocks) c c' := by
  obtain ⟨ts, ts', line, rest, rest', region⟩ := beside.region
  exact ⟨beside.room, beside.size, ts, ts', line, rest, rest', region.between⟩

theorem in_block (beside : Beside q (.between (blocks + 1)) c c') : Beside q (.inside (blocks + 1)) c c' := by
  obtain ⟨ts, ts', line, rest, rest', region⟩ := beside.region
  exact ⟨beside.room, beside.size, ts, ts', line, rest, rest', region.in_block⟩

theorem inside (beside : Beside q (.between blocks) c c') (more : c.peek ≠ .eof) :
    Beside q (.inside blocks) c c' := by
  obtain ⟨ts, ts', line, rest, rest', region⟩ := beside.region
  refine ⟨beside.room, beside.size, ts, ts', line, rest, rest', region.inside ?_⟩
  rintro rfl
  exact more (by rw [Cursor.peek, rest]; rfl)

theorem heads (beside : Beside q (.inside blocks) c c') :
    ∃ t ts t' ts' line, c.rest = t :: ts ++ [⟨.eof, line⟩] ∧ c'.rest = t' :: ts' ++ q.tokens ∧
      Region q (.inside blocks) (t :: ts) (t' :: ts') := by
  obtain ⟨ts, ts', line, rest, rest', region⟩ := beside.region
  obtain ⟨t, ts, rfl⟩ := List.exists_cons_of_ne_nil (region.more blocks rfl)
  cases region.twins with
  | cons twin twins => exact ⟨t, ts, _, _, line, rest, rest', region⟩

theorem alike (beside : Beside q (.inside blocks) c c') : Alike c c' := by
  obtain ⟨ts, ts', line, rest, rest', region⟩ := beside.region
  refine ⟨beside.room, ?_⟩
  rw [rest, rest']
  exact lineKinds_of_ended region.kinds (region.more blocks rfl) region.ended _ _

theorem drop (beside : Beside q (.inside blocks) c c') {n : Nat} (within : n < (lineKinds c.rest).length)
    (flat : ∀ depth, depthAfter depth ((lineKinds c.rest).take n) = depth) :
    Beside q (.inside blocks) (c.drop n) (c'.drop n) := by
  obtain ⟨ts, ts', line, rest, rest', region⟩ := beside.region
  have same : lineKinds c.rest = lineKinds ts := by
    rw [rest, lineKinds_of_ended rfl (region.more blocks rfl) region.ended _ [], List.append_nil]
  rw [same] at within flat
  obtain ⟨taken, words⟩ := take_lineKinds within
  rw [taken] at flat
  have region' := region.drop words flat
  have short : n ≤ ts.length := by
    refine Nat.le_of_not_le fun past => ?_
    exact region'.more blocks rfl (List.drop_eq_nil_iff.2 past)
  have short' : n ≤ ts'.length := region.twins.length_eq ▸ short
  refine ⟨beside.room, beside.size, ts.drop n, ts'.drop n, line, ?_, ?_, region'⟩
  · simp only [Cursor.drop, rest, List.drop_append_of_le_length short]
  · simp only [Cursor.drop, rest', List.drop_append_of_le_length short']

theorem peek_ne_eof (beside : Beside q (.inside blocks) c c') : c.peek ≠ .eof := by
  obtain ⟨t, ts, _, _, line, rest, -, region⟩ := beside.heads
  rw [Cursor.peek, rest]
  exact region.no_eof t List.mem_cons_self

theorem line (beside : Beside q (.inside blocks) c c') (word : c.peek.isLayout = false) :
    c'.line = q.lines c.line := by
  obtain ⟨t, ts, t', ts', line, rest, rest', region⟩ := beside.heads
  rw [Cursor.peek, rest] at word
  rw [Cursor.line, Cursor.line, rest, rest']
  exact (List.forall₂_cons.1 region.twins).1.line word

theorem skip (beside : Beside q (.inside blocks) c c')
    (passes : ∀ {t ts t' ts'}, t.kind = c.peek → Region q (.inside blocks) (t :: ts) (t' :: ts') →
      Region q place ts ts') : Beside q place (c.drop 1) (c'.drop 1) := by
  obtain ⟨t, ts, t', ts', line, rest, rest', region⟩ := beside.heads
  have next : t.kind = c.peek := by rw [Cursor.peek, rest]; rfl
  refine ⟨beside.room, beside.size, ts, ts', line, ?_, ?_, passes next region⟩
  · rw [Cursor.drop, rest]; rfl
  · rw [Cursor.drop, rest']; rfl

theorem skip_newline (beside : Beside q (.inside blocks) c c') (newline : c.peek = .newline) :
    Beside q (.between blocks) (c.drop 1) (c'.drop 1) :=
  beside.skip fun next region => region.tail_newline (next.trans newline)

theorem skip_indent (beside : Beside q (.inside blocks) c c') (indent : c.peek = .indent) :
    Beside q (.inside (blocks + 1)) (c.drop 1) (c'.drop 1) :=
  beside.skip fun next region => region.tail_indent (next.trans indent)

theorem skip_dedent (beside : Beside q (.inside (blocks + 1)) c c') (dedent : c.peek = .dedent) :
    Beside q (.between blocks) (c.drop 1) (c'.drop 1) :=
  beside.skip fun next region => region.tail_dedent (next.trans dedent)

theorem skip_word {kind : TokenKind} (word : kind.isLayout = false) (flat : ∀ n, kind.depth n = n)
    (beside : Beside q (.inside blocks) c c') (found : c.peek = kind) :
    Beside q (.inside blocks) (c.drop 1) (c'.drop 1) := by
  refine beside.skip fun next region => ?_
  have same := next.trans found
  exact region.tail_word (same ▸ word) (same ▸ flat)

/-- At the end of the first text, the second parser is before the sequel. -/
theorem atEof (beside : Beside q (.between blocks) c c') (atEof : c.peek = .eof) :
    c.rest.length = 1 ∧ c'.rest = q.tokens ∧ ∀ n, q.brackets n = n := by
  obtain ⟨ts, ts', line, rest, rest', region⟩ := beside.region
  obtain rfl : ts = [] := by
    cases ts with
    | nil => rfl
    | cons t ts =>
      rw [Cursor.peek, rest] at atEof
      exact absurd atEof (region.no_eof t List.mem_cons_self)
  obtain rfl : ts' = [] := List.map_eq_nil_iff.1 region.kinds.symm
  exact ⟨by rw [rest]; rfl, rest', fun n => (region.brackets n).symm⟩

/-- The second text does not go on with the statements of the first. -/
theorem peek_goingOn (beside : Beside q (.between blocks) c c') {word : String} (on : word ∈ goingOn) :
    c'.peek = .name word ↔ c.peek = .name word := by
  by_cases atEof : c.peek = .eof
  · rw [atEof, Cursor.peek, (beside.atEof atEof).2.1]
    refine ⟨fun same => ?_, nofun⟩
    cases tokens : q.tokens with
    | nil => rw [tokens] at same; cases same
    | cons t more =>
      rw [tokens] at same
      exact absurd same (q.fresh t (by rw [tokens]; rfl) word on)
  · rw [(beside.inside atEof).alike.peek]

end Beside

open Source.Parser

/-- What the first parser reads, the second one reads too, up to the renumbering `image`, and then they are
again at one place of the text. -/
def CopiesHere {α : Type} (q : Sequel) (after : α → Place) (image : α → α) (p p' : Parser α)
    (c c' : Cursor) : Prop :=
  ∀ x r, p c = .ok (x, r) → ∃ n r', r = c.drop n ∧ p' c' = .ok (image x, r') ∧ Beside q (after x) r r'

def Copies {α : Type} (q : Sequel) (before : Place) (after : α → Place) (image : α → α)
    (p p' : Parser α) : Prop :=
  ∀ c c', Beside q before c c' → CopiesHere q after image p p' c c'

/-- The same where the next token is known. -/
def CopiesAt {α : Type} (q : Sequel) (kind : TokenKind) (before : Place) (after : α → Place)
    (image : α → α) (p p' : Parser α) : Prop :=
  ∀ c c', Beside q before c c' → c.peek = kind → CopiesHere q after image p p' c c'

section

variable {α β : Type} {q : Sequel} {before : Place} {after : α → Place} {last : β → Place}
  {image : α → α} {image' : β → β} {p p' : Parser α} {f f' : α → Parser β} {blocks : Nat}

theorem Copies.give {place : Place} {x y : α} (stays : after x = place) (same : image x = y) :
    Copies q place after image (pure x) (pure y) := by
  subst stays same
  intro c c' beside x r h
  cases h
  exact ⟨0, c', rfl, rfl, beside⟩

theorem Copies.fail (message : String) (p : Parser α) :
    Copies q before after image (Parser.fail message) p :=
  fun _ _ _ _ _ h => nomatch h

theorem CopiesHere.andThen {c c' : Cursor} (first : CopiesHere q after image p p' c c')
    (second : ∀ x, Copies q (after x) last image' (f x) (f' (image x))) :
    CopiesHere q last image' (p >>= f) (p' >>= f') c c' := by
  intro y r h
  obtain ⟨x, r₁, read, rest⟩ := bind_ok.1 h
  obtain ⟨n, r₁', rfl, read', beside⟩ := first x r₁ read
  obtain ⟨m, r', rfl, rest', beside'⟩ := second x _ _ beside y r rest
  exact ⟨n + m, r', c.drop_drop n m, bind_ok.2 ⟨_, _, read', rest'⟩, beside'⟩

theorem Copies.andThen (first : Copies q before after image p p')
    (second : ∀ x, Copies q (after x) last image' (f x) (f' (image x))) :
    Copies q before last image' (p >>= f) (p' >>= f') :=
  fun c c' beside => (first c c' beside).andThen second

theorem Copies.at (copies : Copies q before after image p p') (kind : TokenKind) :
    CopiesAt q kind before after image p p' := fun c c' beside _ => copies c c' beside

theorem CopiesAt.give {kind : TokenKind} {place : Place} {x y : α} (stays : after x = place)
    (same : image x = y) : CopiesAt q kind place after image (pure x) (pure y) :=
  (Copies.give stays same).at kind

theorem Copies.of_between (copies : Copies q (.between blocks) after image p p') :
    Copies q (.inside blocks) after image p p' := fun c c' beside => copies c c' beside.between

theorem Copies.in_block (copies : Copies q (.inside (blocks + 1)) after image p p') :
    Copies q (.between (blocks + 1)) after image p p' := fun c c' beside => copies c c' beside.in_block

/-- What is read in a line is read in both. -/
theorem Reads.copies (reads : Reads 0 0 p p') :
    Copies q (.inside blocks) (fun _ => .inside blocks) id p p' := by
  intro c c' beside x r h
  obtain ⟨n, within, rfl, read, flat⟩ := reads c c' beside.alike x r h
  exact ⟨n, c'.drop n, rfl, read, beside.drop within flat⟩

theorem Reads.thenCopies (reads : Reads 0 0 p p')
    (second : ∀ x, Copies q (.inside blocks) last image' (f x) (f' x)) :
    Copies q (.inside blocks) last image' (p >>= f) (p' >>= f') :=
  reads.copies.andThen second

theorem Copies.peek {f f' : TokenKind → Parser β}
    (next : ∀ kind, kind ≠ .eof → CopiesAt q kind (.inside blocks) last image' (f kind) (f' kind)) :
    Copies q (.inside blocks) last image' (Parser.peek >>= f) (Parser.peek >>= f') := by
  intro c c' beside x r h
  obtain ⟨n, r', rest, read, beside'⟩ := next c.peek beside.peek_ne_eof c c' beside rfl x r h
  refine ⟨n, r', rest, ?_, beside'⟩
  change f' c'.peek c' = _
  rw [beside.alike.peek]
  exact read

theorem drop_one (c : Cursor) : Parser.skip c = .ok ((), c.drop 1) := by
  simp only [Cursor.drop, List.drop_one]
  rfl

theorem CopiesAt.skip {kind : TokenKind} {mid : Place} {f f' : Unit → Parser β}
    (passes : ∀ {c c'}, Beside q before c c' → c.peek = kind → Beside q mid (c.drop 1) (c'.drop 1))
    (next : Copies q mid last image' (f ()) (f' ())) :
    CopiesAt q kind before last image' (Parser.skip >>= f) (Parser.skip >>= f') := by
  intro c c' beside found
  suffices skips : CopiesHere q (fun _ => mid) id Parser.skip Parser.skip c c' from skips.andThen fun _ => next
  intro x r h
  rw [drop_one] at h
  cases h
  exact ⟨1, c'.drop 1, rfl, drop_one c', passes beside found⟩

theorem Copies.eat {kind : TokenKind} {mid : Place} {f f' : Bool → Parser β}
    (passes : ∀ {c c'}, Beside q (.inside blocks) c c' → c.peek = kind →
      Beside q mid (c.drop 1) (c'.drop 1))
    (taken : Copies q mid last image' (f true) (f' true))
    (left : Copies q (.inside blocks) last image' (f false) (f' false)) :
    Copies q (.inside blocks) last image' (Parser.eat kind >>= f) (Parser.eat kind >>= f') := by
  rw [eat_bind, eat_bind]
  refine .peek fun next _ => ?_
  by_cases same : next = kind
  · subst same
    simp only [if_true]
    exact .skip passes taken
  · simp only [if_neg same]
    exact left.at next

/-- Inside of a line, neither text is over. -/
theorem Copies.notOver {f f' : Bool → Parser β}
    (next : Copies q (.inside blocks) last image' (f false) (f' false)) :
    Copies q (.inside blocks) last image' (Parser.check .eof >>= f) (Parser.check .eof >>= f') := by
  rw [check_bind, check_bind]
  refine .peek fun kind more => ?_
  rw [decide_eq_false more]
  exact next.at kind

/-- What does not read the end of a text has something to read. -/
theorem Copies.of_inside (fails : ∀ c : Cursor, c.peek = .eof → ∀ x r, p c ≠ .ok (x, r))
    (copies : Copies q (.inside blocks) after image p p') : Copies q (.between blocks) after image p p' :=
  fun c c' beside x r h => copies c c' (beside.inside fun atEof => fails c atEof x r h) x r h

/-- A word that goes on with a statement comes in both texts or in none. -/
theorem Copies.eatGoingOn {word : String} (on : word ∈ goingOn) {f f' : Bool → Parser β}
    (taken : Copies q (.inside blocks) last image' (f true) (f' true))
    (left : Copies q (.between blocks) last image' (f false) (f' false)) :
    Copies q (.between blocks) last image' (Parser.eatWord word >>= f) (Parser.eatWord word >>= f') := by
  have found (f : Bool → Parser β) (c : Cursor) : (Parser.eatWord word >>= f) c =
      (if c.peek = .name word then Parser.skip >>= fun _ => f true else f false) c :=
    congrFun (eat_bind (.name word) f) c
  intro c c' beside x r h
  rw [found] at h ⊢
  by_cases same : c.peek = .name word
  · rw [if_pos same] at h
    rw [if_pos ((beside.peek_goingOn on).2 same)]
    have more : c.peek ≠ .eof := by rw [same]; nofun
    have skips : CopiesAt q (.name word) (.inside blocks) last image'
        (Parser.skip >>= fun _ => f true) (Parser.skip >>= fun _ => f' true) :=
      .skip (Beside.skip_word rfl fun _ => rfl) taken
    exact skips c c' (beside.inside more) same x r h
  · rw [if_neg same] at h
    rw [if_neg (mt (beside.peek_goingOn on).1 same)]
    exact left c c' beside x r h

theorem Copies.turns {σ : Type} {g : σ → σ} {step step' : σ → Parser (σ ⊕ α)}
    (steps : ∀ s, Copies q before (Sum.elim (fun _ => before) after) (Sum.map g image) (step s)
      (step' (g s))) {n n' : Nat} (room : n ≤ n') (s : σ) :
    Copies q before after image (Parser.turns step n s) (Parser.turns step' n' (g s)) := by
  induction n generalizing n' s with
  | zero => exact .fail _ _
  | succ n ih =>
    obtain ⟨n', rfl⟩ := Nat.exists_eq_add_of_le' room
    refine (steps s).andThen fun turn => ?_
    cases turn with
    | inl s => exact ih (Nat.le_of_succ_le_succ room) s
    | inr a => exact .give rfl rfl

theorem Copies.repeatFrom {σ : Type} {g : σ → σ} {step step' : σ → Parser (σ ⊕ α)}
    (steps : ∀ s, Copies q before (Sum.elim (fun _ => before) after) (Sum.map g image) (step s)
      (step' (g s))) (s : σ) :
    Copies q before after image (Parser.repeatFrom s step) (Parser.repeatFrom (g s) step') :=
  fun c c' beside => Copies.turns steps (Nat.succ_le_succ beside.room) s c c' beside

end

end SnippetKernel.Source
