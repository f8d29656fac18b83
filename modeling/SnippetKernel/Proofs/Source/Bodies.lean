import SnippetKernel.Proofs.Source.Joining
import SnippetKernel.Source.Grammar

/-! The body of a template is shorter than the text it stands in, and a placeholder is shorter than the template
that it stands in. So templates do not nest deeper than a text is long. -/
namespace SnippetKernel.Source

open Text

theorem length_simpleEscape_le (c : Char) : (simpleEscape c).length ≤ 2 := by
  unfold simpleEscape
  split <;> simp

theorem readString_value {close : List Char} {multiline : Bool} {start line : Nat} {done cs : List Char}
    {p : Piece String} (h : readString close multiline start line done cs = .ok p) :
    p.value.length ≤ done.length + cs.length := by
  fun_induction readString close multiline start line done cs
  case case2 =>
    cases h
    simp
  case case12 done c _ _ _ _ _ _ _ ih =>
    have counted := ih h
    have two := length_simpleEscape_le c
    simp only [List.length_append, List.length_reverse, List.length_cons] at counted ⊢
    omega
  all_goals first
    | contradiction
    | next ih =>
      have counted := ih h
      simp only [List.length_cons] at counted ⊢
      omega

/-- A template that is shorter than `n`, or a token that is no template. -/
def TokenKind.Short (n : Nat) : TokenKind → Prop
  | .template body => body.length < n
  | _ => True

namespace Scan

/-- All templates that were read are shorter than `n`. -/
def Short (n : Nat) (s : Scan) : Prop := ∀ t ∈ s.tokens, t.kind.Short n

namespace Short

variable {n : Nat} {s t : Scan}

theorem push (short : Short n s) {kind : TokenKind} (fits : kind.Short n) : Short n (s.push kind) :=
  List.forall_mem_cons.2 ⟨fits, short⟩

theorem endLine (short : Short n s) : Short n s.endLine := by
  unfold Scan.endLine
  split
  · exact short
  · split
    · exact short
    · exact short.push trivial

theorem closeBlocks (short : Short n s) (width : Nat) (widths : List Nat) :
    Short n (Scan.closeBlocks width s widths) := by
  induction widths generalizing s with
  | nil => exact short
  | cons inner outer ih =>
    rw [Scan.closeBlocks]
    split
    · exact ih (short.push trivial)
    · exact short

theorem indentTo (short : Short n s) {width : Nat} (h : Scan.indentTo width s = .ok t) : Short n t := by
  unfold Scan.indentTo at h
  dsimp only at h
  split at h
  · cases h
    exact short.push trivial
  · split at h
    · cases h
      exact short.closeBlocks width s.indents
    · cases h

theorem takeString (short : Short n s) {raw : Bool} {kind : String → TokenKind}
    (fits : ∀ p, s.readQuotes raw = .ok p → (kind p.value).Short n) (h : s.takeString raw kind = .ok t) :
    Short n t := by
  obtain ⟨p, read, rfl⟩ := takeString_ok h
  exact List.forall_mem_cons.2 ⟨fits p read, short⟩

theorem takeNamed (short : Short n s) {name : List Char} (room : s.rest.length < n)
    (h : s.takeNamed name = .ok t) : Short n t := by
  cases named_of_takeNamed h with
  | alone => exact short.push trivial
  | @template c tail _ _ behind _ took =>
    refine short.takeString (fun p read => ?_) took
    unfold readQuotes at read
    rw [behind] at read
    have value : p.value.length ≤ 0 + (openQuotes (c :: tail)).2.2.length := readString_value read
    have opened := openQuotes_length c tail
    rw [behind, List.length_cons] at room
    show p.value.length < n
    omega
  | rawStr _ _ _ took =>
    refine short.takeString ?_ took
    exact fun _ _ => trivial

theorem takeNumber (short : Short n s) (h : s.takeNumber = .ok t) : Short n t := by
  have numeral {line : Nat} {cs rest : List Char} {kind : TokenKind}
      (h : readNumeral line cs = .ok (kind, rest)) : kind.Short n := by
    unfold readNumeral at h
    split at h <;> split at h <;> cases h <;> trivial
  have number {kind : TokenKind} {rest : List Char} (h : readNumber s.line s.rest = .ok (kind, rest)) :
      kind.Short n := by
    unfold readNumber at h
    split at h
    · split at h
      · unfold readRadix at h
        dsimp only at h
        split at h <;> cases h
        trivial
      · exact numeral h
    · exact numeral h
  obtain ⟨kind, rest, read, rfl⟩ := takeNumber_ok h
  exact List.forall_mem_cons.2 ⟨number read, short⟩

theorem takeSymbol (short : Short n s) {c : Char} (h : s.takeSymbol c = .ok t) : Short n t := by
  obtain ⟨symbol, rest, -, rfl⟩ := takeSymbol_ok h
  exact List.forall_mem_cons.2 ⟨trivial, short⟩

theorem takeToken (short : Short n s) {c : Char} {tail : List Char} (begins : s.rest = c :: tail)
    (room : s.rest.length ≤ n) (h : s.takeToken c tail = .ok t) : Short n t := by
  cases taken_of_takeToken h with
  | lineEnd =>
    unfold Scan.passLineEnd
    split
    · exact endLine (s := { s with rest := tail }) short
    · exact short
  | blank | comment | goesOn => exact short
  | number _ took => exact short.takeNumber took
  | string _ took =>
    refine short.takeString ?_ took
    exact fun _ _ => trivial
  | name start took =>
    have part := isNamePart_of_isNameStart start
    have after := length_dropWhile_le isNamePart tail
    refine takeNamed (s := { s with rest := s.rest.dropWhile isNamePart }) short ?_ took
    rw [begins, List.length_cons] at room
    rw [begins, List.dropWhile_cons, if_pos part]
    exact Nat.lt_of_le_of_lt after room
  | symbol took => exact short.takeSymbol took

theorem takeLineStart (short : Short n s) (room : s.rest.length ≤ n) (h : s.takeLineStart = .ok t) :
    Short n t := by
  have le := leadingWidth_length 0 s.rest
  cases begun_of_takeLineStart h with
  | nothing | lineEnd | comment => exact short
  | @counts _ c tail _ _ white _ _ indented took =>
    have rest := indentTo_rest indented
    have begun := indentTo (s := { s with rest := c :: tail, atLineStart := false }) short indented
    refine begun.takeToken rest ?_ took
    rw [white] at le
    rw [rest]
    exact Nat.le_trans le room

theorem step (short : Short n s) (room : s.rest.length ≤ n) (h : s.step = .ok t) : Short n t := by
  unfold Scan.step at h
  split at h
  · exact short.takeLineStart room h
  · split at h
    · cases h
      exact short
    · next begins => exact short.takeToken begins room h

theorem finish (short : Short n s) : ∀ t ∈ s.finish, t.kind.Short n := by
  rw [finish_eq]
  simp only [List.forall_mem_append, List.mem_reverse, List.forall_mem_singleton]
  refine ⟨⟨short.endLine, fun t closing => ?_⟩, trivial⟩
  obtain ⟨_, -, rfl⟩ := List.mem_map.1 closing
  trivial

theorem run (short : Short n s) (room : s.rest.length ≤ n) {tokens : List Token} (h : s.run = .ok tokens) :
    ∀ t ∈ tokens, t.kind.Short n := by
  induction s using run.induct with
  | case1 s done =>
    rw [run_of_rest done] at h
    cases h
    exact short.finish
  | case2 s more t turn shorter ih =>
    rw [run_of_step more turn] at h
    exact ih (short.step room turn) (by omega) h
  | case3 s more e failed =>
    obtain ⟨t, turn, -⟩ := step_of_run more h
    rw [turn] at failed
    cases failed

end Short

end Scan

theorem short_of_tokenize {source : String} {tokens : List Token} (h : tokenize source = .ok tokens) :
    ∀ t ∈ tokens, t.kind.Short source.length :=
  Scan.Short.run (s := Scan.start source) (List.forall_mem_nil _) (Nat.le_of_eq String.length_toList) h

/-! Placeholders. -/

theorem length_trim_le (text : String) : (Text.trim text).length ≤ text.length := by
  have start := length_dropWhile_le isBlank text.toList
  have ends := length_dropWhile_le isBlank (text.toList.dropWhile isBlank).reverse
  rw [List.length_reverse] at ends
  rw [Text.trim, String.length_ofList, ← String.length_toList, dropEnds, dropEnd, dropStart, List.length_reverse]
  exact Nat.le_trans ends start

theorem Placeholder.read?_source {p q : Placeholder} {depth : Nat} {quote : Option Char} {cs rest : List Char}
    (h : p.read? depth quote cs = some (q, rest)) :
    q.source.length + rest.length < p.source.length + cs.length := by
  have pushed (c : Char) (p : Placeholder) : (p.push c).source.length ≤ p.source.length + 1 := by
    unfold push
    split <;> simp
  induction cs generalizing p depth quote with
  | nil => cases h
  | cons c cs ih =>
    have one := pushed c p
    unfold read? at h
    rw [List.length_cons]
    repeat' split at h
    all_goals first
      | have shorter := ih h
        omega
      | have shorter := ih h
        dsimp only at shorter
        omega
      | cases h
        omega

end SnippetKernel.Source
