import SnippetKernel.Proofs.Wire.Framing
import SnippetKernel.Proofs.Wire.Tokens
import SnippetKernel.Wire.Request

/-! Requests in any spelling. What an object means as a request is a function of its members, and neither the order of
these, nor members that are unknown, nor blanks change it. -/
namespace SnippetKernel.Request

open Wire

variable {s : String}

/-- A member as it is spelled: the pieces of its key, and its value. -/
abbrev Member := List Piece × Tree

/-- The name of a member. A key may be spelled so that it stands for no text. -/
def Member.name? (m : Member) : Option String := (Piece.text? m.1).map String.ofList

/-- What the value of a known member stands for: a text, or nothing if it is `null`. -/
def textOf? : Tree → Option (Option String)
  | .null => some none
  | .string pieces => (Piece.text? pieces).map fun cs => some (String.ofList cs)
  | _ => none

inductive Known where
  | action | code | pattern
  deriving DecidableEq

namespace Known

def name : Known → String
  | action => "action"
  | code => "code"
  | pattern => "pattern"

def ofName? : String → Option Known
  | "action" => some action
  | "code" => some code
  | "pattern" => some pattern
  | _ => none

theorem name_of_ofName? {name : String} {k : Known} (known : ofName? name = some k) : name = k.name := by
  unfold ofName? at known
  split at known <;> cases known <;> rfl

theorem ofName?_eq_none_iff {name : String} :
    ofName? name = none ↔ name ≠ "action" ∧ name ≠ "code" ∧ name ≠ "pattern" := by
  unfold ofName?
  split <;> simp_all

end Known

namespace Fields

def get (f : Fields) : Known → Option (Option String)
  | .action => f.action
  | .code => f.code
  | .pattern => f.pattern

def set (f : Fields) (k : Known) (v : Option String) : Fields :=
  match k with
  | .action => { f with action := some v }
  | .code => { f with code := some v }
  | .pattern => { f with pattern := some v }

/-- The fields after a known member. None may come twice. -/
def put (f : Fields) (k : Known) (v : Tree) : Option Fields :=
  if (f.get k).isSome then none else (textOf? v).map (f.set k)

def take (f : Fields) (m : Member) : Option Fields :=
  m.name?.bind fun name =>
    match Known.ofName? name with
    | some k => f.put k m.2
    | none => some f

end Fields

/-- The request that an object with these members stands for. -/
def meant? (ms : List Member) : Option Request := (ms.foldlM Fields.take .empty).bind (·.request.toOption)

/-! ### Reading the members -/

section Reading

variable {p : s.Pos} {ts : List (List Char)}

theorem optionalText_refused {expected : String} {c : Char} {q : After (skipSpace p).1}
    (found : next? (skipSpace p).1 = some (c, q)) (word : c ≠ 'n') (quote : c ≠ '"') :
    ∃ e, optionalText expected p = .error e := by
  have refused : ∃ e, (wrongType expected (skipSpace p).1 : Read String _) = .error e := by
    unfold wrongType
    split
    · exact ⟨_, rfl⟩
    · exact ⟨_, rfl⟩
  obtain ⟨e, refused⟩ := refused
  refine ⟨e, ?_⟩
  have same : Wire.text expected p = .error e := by
    unfold Wire.text
    split
    · next q same => exact absurd (congrArg Prod.fst (Option.some.inj (found.symm.trans same))) quote
    · rw [refused]
      rfl
  unfold optionalText
  split
  · next q same => exact absurd (congrArg Prod.fst (Option.some.inj (found.symm.trans same))) word
  · rw [same]
    rfl

theorem optionalText_of_spaced {expected : String} (t : Tree) (h : Spaced (t.tokens ++ ts) (ahead p)) :
    Yields (optionalText expected p) (textOf? t) (Spaced ts) := by
  match t with
  | .null =>
    obtain ⟨q, cs, found, left, rest⟩ := Spaced.next h (by decide)
    obtain ⟨r, read, behind⟩ := word_of_ahead (none : Option String) left
    have here : Yields (word q ['u', 'l', 'l'] (none : Option String)) (some none) (Spaced ts) :=
      ⟨r, read, behind ▸ rest⟩
    simp only [optionalText, found]
    exact here.afterSpace
  | .string pieces =>
    obtain ⟨q, cs, found, left, rest⟩ := literal_of_spaced h
    have read := (Piece.string_of_pieces left).imp fun _ same => same ▸ rest
    have whole : Yields (Wire.text expected p) ((Piece.text? pieces).map String.ofList) (Spaced ts) := by
      simp only [Wire.text, found]
      exact read.behind.afterSpace
    simp only [optionalText, found]
    simpa [Function.comp_def, textOf?] using whole.map some
  | .bool true =>
    obtain ⟨q, cs, found, -⟩ := Spaced.next h (by decide)
    exact optionalText_refused found (by decide) (by decide)
  | .bool false =>
    obtain ⟨q, cs, found, -⟩ := Spaced.next h (by decide)
    exact optionalText_refused found (by decide) (by decide)
  | .number n =>
    obtain ⟨c, cs, chars, begins⟩ := n.chars_eq_cons
    have first : Spaced ((c :: cs) :: ts) (ahead p) := by
      rw [← chars]
      exact h
    obtain ⟨q, left, found, -⟩ := first.next (isSpace_of_begins begins)
    exact optionalText_refused found (ne_of_begins begins (by decide) (by decide))
      (ne_of_begins begins (by decide) (by decide))
  | .array items =>
    obtain ⟨q, cs, found, -⟩ := Spaced.next h (by decide)
    exact optionalText_refused found (by decide) (by decide)
  | .object members =>
    obtain ⟨q, cs, found, -⟩ := Spaced.next h (by decide)
    exact optionalText_refused found (by decide) (by decide)

theorem member_of_known (k : Known) (f : Fields) : Fields.member k.name f p =
    if (f.get k).isSome then .error (.duplicateField k.name) else (Fields.memberText p).map (f.set k) := by
  cases k <;> rfl

theorem member_of_unknown {name : String} (unknown : Known.ofName? name = none) (f : Fields) :
    Fields.member name f p = (afterColon skipValue p).map fun _ => f := by
  obtain ⟨action, code, pattern⟩ := Known.ofName?_eq_none_iff.mp unknown
  unfold Fields.member
  split
  · exact absurd rfl action
  · exact absurd rfl code
  · exact absurd rfl pattern
  · rfl

theorem member_of_spaced {name : String} (f : Fields) {t : Tree} (ends : Tree.EndsValue ts)
    (h : Spaced ([':'] :: (t.tokens ++ ts)) (ahead p)) :
    Yields (Fields.member name f p)
      (match Known.ofName? name with
        | some k => f.put k t
        | none => some f) (Spaced ts) := by
  cases known : Known.ofName? name with
  | some k =>
    rw [Known.name_of_ofName? known, member_of_known]
    simp only [Fields.put]
    split
    · exact ⟨_, rfl⟩
    · exact (afterColon_of_spaced h fun q => optionalText_of_spaced t).map (f.set k)
  | none =>
    rw [member_of_unknown known]
    exact (afterColon_of_spaced h fun q => skipValue_of_spaced t ends).map fun _ => f

theorem keyed_of_spaced (f : Fields) (m : Member) (ends : Tree.EndsValue ts)
    (h : Spaced (Piece.literal m.1 :: [':'] :: (m.2.tokens ++ ts)) (ahead p)) :
    Yields (keyed Fields.member f p) (f.take m) (Spaced ts) := by
  have named := key_of_spaced h
  unfold keyed
  cases meant : (Piece.text? m.1).map String.ofList with
  | none =>
    rw [meant] at named
    obtain ⟨e, refused⟩ := named
    simp only [Fields.take, Member.name?, meant, refused]
    exact ⟨e, rfl⟩
  | some name =>
    rw [meant] at named
    obtain ⟨q, read, rest⟩ := named
    simp only [Fields.take, Member.name?, meant, read, Option.bind_some]
    exact (member_of_spaced f ends rest).behind

end Reading

theorem members_first_error {start : s.Pos} {p : From start} {f : Fields} {c : Char} {q : After (skipSpace p.1).1}
    {e : JsonError} (h : next? (skipSpace p.1).1 = some (c, q)) (more : c ≠ '\x7d')
    (refused : keyed Fields.member f p.1 = .error e) : members Fields.member true f p = .error e := by
  rw [members]
  simp only [h, if_neg more, if_true, refused]

theorem members_comma_error {start : s.Pos} {p : From start} {f : Fields} {q : After (skipSpace p.1).1}
    {e : JsonError} (h : next? (skipSpace p.1).1 = some (',', q)) (refused : keyed Fields.member f q.1 = .error e) :
    members Fields.member false f p = .error e := by
  rw [members]
  simp [h, refused]

/-- The members of an object are taken one after another. -/
theorem members_of_spaced (ms : List Member) {start : s.Pos} {p : From start} {first : Bool} {f : Fields}
    {ts : List (List Char)} (h : Spaced (Tree.memberTokens first ms ++ ts) (ahead p.1)) :
    Yields (members Fields.member first f p) (ms.foldlM Fields.take f) (Spaced ts) := by
  -- Whether a comma comes first changes only where the member begins.
  induction ms generalizing p first f with
  | nil =>
    obtain ⟨q, found, rest⟩ := Spaced.mark h (by decide)
    exact ⟨_, members_close found, rest⟩
  | cons m ms ih =>
    obtain ⟨key, value⟩ := m
    have ends := Tree.endsValue_members ms ts
    rw [List.foldlM_cons, Option.bind_eq_bind]
    cases first with
    | true =>
      have inside : Spaced (Piece.literal key :: [':'] :: (value.tokens ++ (Tree.memberTokens false ms ++ ts)))
          (ahead p.1) := by
        simpa [Tree.memberTokens] using h
      obtain ⟨q, -, found, -, -⟩ := literal_of_spaced inside
      have taken := keyed_of_spaced f (key, value) ends inside
      cases result : f.take (key, value) with
      | none =>
        rw [result] at taken
        obtain ⟨e, refused⟩ := taken
        exact ⟨e, members_first_error found (by decide) refused⟩
      | some g =>
        rw [result] at taken
        obtain ⟨r, read, rest⟩ := taken
        rw [members_first found (by decide) read, Option.bind_some]
        exact ih (p := (p.step r).toFrom) rest
    | false =>
      obtain ⟨q, found, rest⟩ := Spaced.mark (p := p.1) (c := ',') (by simpa [Tree.memberTokens] using h) (by decide)
      have taken := keyed_of_spaced f (key, value) ends rest
      cases result : f.take (key, value) with
      | none =>
        rw [result] at taken
        obtain ⟨e, refused⟩ := taken
        exact ⟨e, members_comma_error found refused⟩
      | some g =>
        rw [result] at taken
        obtain ⟨r, read, rest⟩ := taken
        rw [members_comma found read, Option.bind_some]
        exact ih (p := (p.step ((skipSpace p.1).step (q.trans r))).toFrom) rest

theorem read_of_spaced (ms : List Member) {p : s.Pos} {ts : List (List Char)}
    (h : Spaced ((Tree.object ms).tokens ++ ts) (ahead p)) : Yields (read p) (meant? ms) (Spaced ts) := by
  obtain ⟨q, found, rest⟩ := Spaced.mark h (by decide)
  have fields := (members_of_spaced ms (f := .empty) (p := .here q.1) rest).behind.afterSpace
  unfold read meant?
  simp only [found]
  cases result : ms.foldlM Fields.take .empty with
  | none =>
    rw [result] at fields
    obtain ⟨e, refused⟩ := fields
    rw [refused]
    exact ⟨e, rfl⟩
  | some f =>
    rw [result] at fields
    obtain ⟨r, taken, rest⟩ := fields
    rw [taken]
    rw [Option.bind_some]
    cases meaning : f.request with
    | ok request =>
      simp only [Except.toOption]
      exact ⟨r, by simp only [meaning], rest⟩
    | error failure =>
      simp only [Except.toOption]
      exact ⟨_, by simp only [meaning]; rfl⟩

/-- A text that spells an object is decoded to the request that its members mean, and refused if they mean none. -/
theorem ofFrame_of_spaced {text : String} {ms : List Member}
    (spelled : Spaced (Tree.object ms).tokens text.toList) (r : Request) :
    ofFrame text.toUTF8 = .ok r ↔ meant? ms = some r := by
  have whole : Yields (read text.startPos) (meant? ms) (Spaced []) :=
    read_of_spaced ms (by simpa [ahead_startPos] using spelled)
  have steps : ofFrame text.toUTF8 = .ok r ↔ ofText text = .ok r := by
    rw [ofFrame, fromUTF8_toUTF8]
    simp only
    split
    · next meaning => simp [meaning]
    · next meaning => simp [meaning]
  rw [steps, ofText, Wire.whole]
  cases meaning : meant? ms with
  | none =>
    rw [meaning] at whole
    obtain ⟨e, refused⟩ := whole
    simp [refused]
  | some r' =>
    rw [meaning] at whole
    obtain ⟨q, read, rest⟩ := whole
    simp [read, rest.end_eq]

/-! ### Members in another order -/

namespace Fields

variable {f : Fields} {k l : Known}

theorem get_set_self (f : Fields) (k : Known) (v : Option String) : (f.set k v).get k = some v := by
  cases k <;> rfl

theorem get_set_of_ne (f : Fields) (v : Option String) (apart : k ≠ l) : (f.set k v).get l = f.get l := by
  cases k <;> cases l <;> first | rfl | exact absurd rfl apart

theorem set_comm (f : Fields) (v w : Option String) (apart : k ≠ l) :
    (f.set k v).set l w = (f.set l w).set k v := by
  cases k <;> cases l <;> first | rfl | exact absurd rfl apart

theorem put_twice (f : Fields) (k : Known) (v w : Tree) : (f.put k v).bind (·.put k w) = none := by
  unfold put
  split
  · rfl
  · cases textOf? v with
    | none => rfl
    | some x => simp [get_set_self]

theorem put_comm (f : Fields) (v w : Tree) (apart : k ≠ l) :
    (f.put k v).bind (·.put l w) = (f.put l w).bind (·.put k v) := by
  have here (x : Option String) : (f.set k x).get l = f.get l := get_set_of_ne f x apart
  have there (x : Option String) : (f.set l x).get k = f.get k := get_set_of_ne f x apart.symm
  unfold put
  cases first : (f.get k).isSome <;> cases second : (f.get l).isSome <;> cases textOf? v <;> cases textOf? w <;>
    simp [here, there, first, second, set_comm f _ _ apart]

theorem take_of_nameless {m : Member} (nameless : m.name? = none) (f : Fields) : f.take m = none := by
  rw [take, nameless, Option.bind_none]

theorem take_of_unknown {m : Member} {name : String} (named : m.name? = some name)
    (unknown : Known.ofName? name = none) (f : Fields) : f.take m = some f := by
  rw [take, named, Option.bind_some, unknown]

theorem take_of_known {m : Member} {name : String} (named : m.name? = some name)
    (known : Known.ofName? name = some k) (f : Fields) : f.take m = f.put k m.2 := by
  rw [take, named, Option.bind_some, known]

/-- The three kinds of members: without a name, unknown, and known. -/
theorem take_cases (m : Member) : (∀ f : Fields, f.take m = none) ∨ (∀ f : Fields, f.take m = some f) ∨
    ∃ k, ∀ f : Fields, f.take m = f.put k m.2 := by
  cases named : m.name? with
  | none => exact .inl (take_of_nameless named)
  | some name =>
    cases known : Known.ofName? name with
    | none => exact .inr (.inl (take_of_unknown named known))
    | some k => exact .inr (.inr ⟨k, take_of_known named known⟩)

/-- Two members can be taken in either order. -/
theorem take_comm (f : Fields) (m n : Member) : (f.take m).bind (·.take n) = (f.take n).bind (·.take m) := by
  rcases take_cases m with refused | unknown | ⟨k, first⟩
  · simp [refused]
  · simp [unknown]
  · rcases take_cases n with refused | unknown | ⟨l, second⟩
    · simp [refused]
    · simp [unknown]
    · simp only [first, second]
      by_cases same : k = l
      · rw [same, put_twice, put_twice]
      · exact put_comm f m.2 n.2 same

end Fields

theorem foldlM_perm {ms ms' : List Member} (rearranged : ms.Perm ms') (f : Fields) :
    ms.foldlM Fields.take f = ms'.foldlM Fields.take f := by
  induction rearranged generalizing f with
  | nil => rfl
  | cons m _ ih =>
    rw [List.foldlM_cons, List.foldlM_cons]
    exact Option.bind_congr fun g _ => ih g
  | swap m n ms =>
    simp only [List.foldlM_cons, Option.bind_eq_bind]
    rw [← Option.bind_assoc, Fields.take_comm, Option.bind_assoc]
  | trans _ _ first second => exact (first f).trans (second f)

theorem foldlM_of_unknown {ms : List Member} (unknown : ∀ m ∈ ms, ∀ f : Fields, f.take m = some f) (f : Fields) :
    ms.foldlM Fields.take f = some f := by
  induction ms with
  | nil => rfl
  | cons m ms ih =>
    obtain ⟨first, others⟩ := List.forall_mem_cons.mp unknown
    rw [List.foldlM_cons, first f]
    exact ih others

theorem meant?_perm {ms ms' : List Member} (rearranged : ms.Perm ms') : meant? ms = meant? ms' := by
  rw [meant?, meant?, foldlM_perm rearranged]

theorem meant?_append {ms others : List Member} (unknown : ∀ m ∈ others, ∀ f : Fields, f.take m = some f) :
    meant? (ms ++ others) = meant? ms := by
  rw [meant?, meant?, List.foldlM_append]
  cases ms.foldlM Fields.take .empty with
  | none => rfl
  | some f =>
    rw [Option.bind_eq_bind, Option.bind_some, foldlM_of_unknown unknown]

theorem meant?_of_nameless {ms : List Member} {m : Member} (inside : m ∈ ms) (nameless : m.name? = none) :
    meant? ms = none := by
  obtain ⟨front, behind, rfl⟩ := List.append_of_mem inside
  rw [meant?_perm List.perm_middle, meant?, List.foldlM_cons, Fields.take_of_nameless nameless]
  rfl

/-- An object with its members in another order, with more members of other names and with blanks anywhere is decoded
to the same request, or refused as well. The values of the new members do not matter. Only a new member whose key
stands for no text has the object refused, wherever it is. -/
theorem ofFrame_rearranged {text changed : String} {ms others ms' : List Member}
    (spelled : Spaced (Tree.object ms).tokens text.toList) (respelled : Spaced (Tree.object ms').tokens changed.toList)
    (rearranged : ms'.Perm (ms ++ others))
    (unknown : ∀ m ∈ others, ∀ name, m.name? = some name → name ∉ ["action", "code", "pattern"]) :
    ((∀ m ∈ others, m.name?.isSome) →
      ∀ r, ofFrame changed.toUTF8 = .ok r ↔ ofFrame text.toUTF8 = .ok r) ∧
    ((∃ m ∈ others, m.name? = none) → ∀ r, ofFrame changed.toUTF8 ≠ .ok r) := by
  refine ⟨fun named r => ?_, fun ⟨m, inside, nameless⟩ r decoded => ?_⟩
  · have ignored : ∀ m ∈ others, ∀ f : Fields, f.take m = some f := by
      intro m inside
      obtain ⟨name, given⟩ := Option.isSome_iff_exists.mp (named m inside)
      refine Fields.take_of_unknown given (Known.ofName?_eq_none_iff.mpr ?_)
      simpa using unknown m inside name given
    rw [ofFrame_of_spaced respelled, ofFrame_of_spaced spelled, meant?_perm rearranged, meant?_append ignored]
  · have among : m ∈ ms' := rearranged.mem_iff.mpr (List.mem_append_right ms inside)
    rw [ofFrame_of_spaced respelled, meant?_of_nameless among nameless] at decoded
    cases decoded

/-- A document that is only code, and the same code behind an unknown member, with a blank in front of every token. -/
theorem ofFrame_rearranged_of_note :
    let text := "\x7b\"code\":\"x\"\x7d"
    let changed := " \x7b \"note\" : [ null , 1 ] , \"code\" : \"x\" \x7d"
    ofFrame text.toUTF8 = .ok (.execute "x") ∧ ofFrame changed.toUTF8 = .ok (.execute "x") := by
  intro text changed
  let code : Member := (Piece.plains ['c', 'o', 'd', 'e'] (by simp), .string (Piece.plains ['x'] (by simp)))
  let one : NumberLiteral := ⟨false, ⟨'1', [], by simp⟩, none, none, fun _ => rfl⟩
  let note : Member := (Piece.plains ['n', 'o', 't', 'e'] (by simp), .array [.null, .number one])
  have spelled : Spaced (Tree.object [code]).tokens text.toList := by
    have chars : text.toList = (Tree.object [code]).tokens.flatMap ([] ++ ·) := by decide
    rw [chars]
    exact .evenly (by simp) _
  have respelled : Spaced (Tree.object [note, code]).tokens changed.toList := by
    have chars : changed.toList = (Tree.object [note, code]).tokens.flatMap ([' '] ++ ·) := by decide
    rw [chars]
    exact .evenly (by simp [isSpace]) _
  have named : note.name? = some "note" := by decide
  have unknown : ∀ m ∈ [note], ∀ name, m.name? = some name → name ∉ ["action", "code", "pattern"] := by
    intro m inside name given
    obtain rfl := List.mem_singleton.mp inside
    obtain rfl := Option.some.inj (named.symm.trans given)
    decide
  have texts : ∀ m ∈ [note], m.name?.isSome := by
    intro m inside
    obtain rfl := List.mem_singleton.mp inside
    rw [named]
    rfl
  have same := (ofFrame_rearranged spelled respelled (List.Perm.swap code note []) unknown).1 texts
  have decoded : ofFrame text.toUTF8 = .ok (.execute "x") := (ofFrame_of_spaced spelled _).mpr (by decide)
  exact ⟨decoded, (same _).mpr decoded⟩

/-- A member whose key is half a pair of escapes, next to the member of a status request. -/
theorem refused_half_pair :
    let text := "\x7b\"action\":\"status\"\x7d"
    let changed := "\x7b\"action\":\"status\",\"\\ud800\":1\x7d"
    ∃ (ms : List Member) (m : Member), Spaced (Tree.object ms).tokens text.toList ∧
      Spaced (Tree.object (ms ++ [m])).tokens changed.toList ∧
      m.name? ∉ [some "action", some "code", some "pattern"] ∧
      ofFrame text.toUTF8 = .ok .status ∧ ofFrame changed.toUTF8 ≠ .ok .status := by
  intro text changed
  let action : Member := (Piece.plains ['a', 'c', 't', 'i', 'o', 'n'] (by simp),
    .string (Piece.plains ['s', 't', 'a', 't', 'u', 's'] (by simp)))
  let half : HexQuad := ⟨⟨'d', by decide⟩, ⟨'8', by decide⟩, ⟨'0', by decide⟩, ⟨'0', by decide⟩⟩
  let one : NumberLiteral := ⟨false, ⟨'1', [], by simp⟩, none, none, fun _ => rfl⟩
  have spelled : Spaced (Tree.object [action]).tokens text.toList := by
    have chars : text.toList = (Tree.object [action]).tokens.flatMap ([] ++ ·) := by decide
    rw [chars]
    exact .evenly (by simp) _
  let member : Member := ([.code half], .number one)
  have respelled : Spaced (Tree.object ([action] ++ [member])).tokens changed.toList := by
    have chars : changed.toList = (Tree.object ([action] ++ [member])).tokens.flatMap ([] ++ ·) := by decide
    rw [chars]
    exact .evenly (by simp) _
  refine ⟨[action], member, spelled, respelled, by decide, ?_, ?_⟩
  · exact (ofFrame_of_spaced spelled _).mpr (by decide)
  · rw [ne_eq, ofFrame_of_spaced respelled]
    decide

end SnippetKernel.Request
