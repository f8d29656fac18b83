import SnippetKernel.Program.Builtins
import SnippetKernel.Proofs.Program.Slicing

/-! Looking for a piece of a text. Splitting, counting, replacing, finding and `in` all mean the same occurrences: the
leftmost ones that do not overlap. -/
namespace SnippetKernel

namespace Text

variable {piece cs before after : List Char}

/-! ### Where a piece is -/

theorem afterPiece_eq_none_iff : afterPiece piece cs = none ↔ ¬piece <+: cs := by
  constructor
  · rintro none ⟨rest, same⟩
    rw [afterPiece_eq_some_iff.2 same.symm] at none
    cases none
  · intro other
    cases found : afterPiece piece cs with
    | none => rfl
    | some rest => exact absurd ⟨rest, (afterPiece_eq_some_iff.1 found).symm⟩ other

/-- On the way to the first occurrence there is none. -/
theorem cutFrom_some {seen : List Char} (found : cutFrom piece seen cs = some (before, after)) :
    ∃ front, before = seen.reverse ++ front ∧ ∀ i < front.length, ¬piece <+: cs.drop i := by
  induction cs generalizing seen with
  | nil =>
    rw [cutFrom] at found
    split at found
    · obtain ⟨rfl, -⟩ := Prod.mk.inj (Option.some.inj found)
      exact ⟨[], by simp, fun i inside => absurd inside (Nat.not_lt_zero i)⟩
    · cases found
  | cons c rest ih =>
    rw [cutFrom] at found
    split at found
    · obtain ⟨rfl, -⟩ := Prod.mk.inj (Option.some.inj found)
      exact ⟨[], by simp, fun i inside => absurd inside (Nat.not_lt_zero i)⟩
    · next other =>
      obtain ⟨front, same, none⟩ := ih found
      refine ⟨c :: front, by simp [same], fun i inside => ?_⟩
      cases i with
      | zero => exact afterPiece_eq_none_iff.1 other
      | succ i => exact none i (Nat.lt_of_succ_lt_succ inside)

theorem cutFrom_none {seen : List Char} (missed : cutFrom piece seen cs = none) (i : Nat) :
    ¬piece <+: cs.drop i := by
  induction cs generalizing seen i with
  | nil =>
    rw [cutFrom] at missed
    split at missed
    · cases missed
    · next full =>
      rw [List.drop_nil, List.prefix_nil]
      simpa using full
  | cons c rest ih =>
    rw [cutFrom] at missed
    split at missed
    · cases missed
    · next other =>
      cases i with
      | zero => exact afterPiece_eq_none_iff.1 other
      | succ i => exact ih missed i

theorem prefix_drop (found : cut? piece cs = some (before, after)) : piece <+: cs.drop before.length := by
  rw [eq_of_cut? found, List.append_assoc, List.drop_left]
  exact List.prefix_append _ _

theorem first_of_cut? (found : cut? piece cs = some (before, after)) :
    ∀ i < before.length, ¬piece <+: cs.drop i := by
  obtain ⟨front, same, none⟩ := cutFrom_some found
  rwa [same]

theorem cut?_eq_none_iff : cut? piece cs = none ↔ ¬piece <:+: cs := by
  constructor
  · rintro missed ⟨front, back, rfl⟩
    refine cutFrom_none missed front.length ?_
    rw [List.append_assoc, List.drop_left]
    exact List.prefix_append _ _
  · intro other
    cases found : cut? piece cs with
    | none => rfl
    | some parts =>
      exact absurd ⟨parts.1, parts.2, (eq_of_cut? found).symm⟩ other

theorem contains_iff : contains piece cs = true ↔ piece <:+: cs := by
  rw [contains, Option.isSome_iff_ne_none, ne_eq, cut?_eq_none_iff, Classical.not_not]

/-- In front of the first occurrence there is no other. -/
theorem not_infix_before (full : piece ≠ []) (found : cut? piece cs = some (before, after)) :
    ¬piece <:+: before := by
  rintro ⟨front, back, rfl⟩
  have positive := List.length_pos_iff.2 full
  refine first_of_cut? found front.length ?_ ?_
  · simp only [List.length_append]
    omega
  · rw [eq_of_cut? found]
    simp only [List.append_assoc, List.drop_left]
    exact List.prefix_append _ _

theorem find?_eq_none_iff : find? piece cs = none ↔ ¬piece <:+: cs := by
  rw [find?, Option.map_eq_none_iff, cut?_eq_none_iff]

theorem find?_eq_some {i : Nat} (found : find? piece cs = some i) :
    piece <+: cs.drop i ∧ ∀ j < i, ¬piece <+: cs.drop j := by
  obtain ⟨⟨before, after⟩, cut, rfl⟩ := Option.map_eq_some_iff.1 found
  exact ⟨prefix_drop cut, first_of_cut? cut⟩

/-! ### Pieces between occurrences -/

variable {separator : List Char} {limit : Option Nat}

theorem split_ne_nil (separator : List Char) (limit : Option Nat) (cs : List Char) :
    split separator limit cs ≠ [] := by
  rw [split]
  split
  · exact List.cons_ne_nil _ _
  · split <;> exact List.cons_ne_nil _ _

theorem join_cons_of_ne_nil (first : List Char) {rest : List (List Char)} (more : rest ≠ []) :
    join separator (first :: rest) = first ++ separator ++ join separator rest := by
  cases rest with
  | nil => exact absurd rfl more
  | cons second rest => simp [join]

/-- The pieces with the separator between them are the whole text again. -/
theorem join_split (separator : List Char) (limit : Option Nat) (cs : List Char) :
    join separator (split separator limit cs) = cs := by
  fun_induction split separator limit cs with
  | case1 => simp [join]
  | case2 => simp [join]
  | case3 limit cs _ before after found _ ih =>
    rw [join_cons_of_ne_nil _ (split_ne_nil _ _ _), ih, eq_of_cut? found]

theorem length_split_le {limit : Nat} (cs : List Char) : (split separator (some limit) cs).length ≤ limit + 1 := by
  generalize same : some limit = bound
  fun_induction split separator bound cs generalizing limit with
  | case1 => exact Nat.succ_le_succ (Nat.zero_le _)
  | case2 => exact Nat.succ_le_succ (Nat.zero_le _)
  | case3 bound cs stop before after found _ ih =>
    subst same
    have positive : limit ≠ 0 := fun zero => stop (.inr (congrArg some zero))
    have shorter := @ih (limit - 1) rfl
    rw [List.length_cons]
    omega

section

variable (full : separator ≠ [])

theorem split_of_none (missed : cut? separator cs = none) : split separator limit cs = [cs] := by
  rw [split]
  split
  · rfl
  · split
    · rfl
    · next found =>
      rw [missed] at found
      cases found

include full in
theorem split_of_some (more : limit ≠ some 0) (found : cut? separator cs = some (before, after)) :
    split separator limit cs = before :: split separator (limit.map (· - 1)) after := by
  rw [split, dif_neg (not_or.2 ⟨full, more⟩)]
  split
  · next missed =>
    rw [missed] at found
    cases found
  · next found' =>
    obtain ⟨rfl, rfl⟩ := Prod.mk.inj (Option.some.inj (found'.symm.trans found))
    rfl

include full in
theorem length_split (cs : List Char) : (split separator none cs).length = count separator cs + 1 := by
  fun_induction count separator cs with
  | case1 => contradiction
  | case2 cs _ missed => rw [split_of_none missed, List.length_singleton]
  | case3 cs _ before after found _ ih =>
    have unlimited : (none : Option Nat) ≠ some 0 := nofun
    rw [split_of_some full unlimited found, List.length_cons, Option.map_none, ih]

include full in
/-- Only the last piece may hold the separator. -/
theorem not_infix_dropLast (limit : Option Nat) (cs : List Char) :
    ∀ part ∈ (split separator limit cs).dropLast, ¬separator <:+: part := by
  fun_induction split separator limit cs with
  | case1 => exact nofun
  | case2 => exact nofun
  | case3 limit cs _ before after found _ ih =>
    rw [List.dropLast_cons_of_ne_nil (split_ne_nil _ _ _), List.forall_mem_cons]
    exact ⟨not_infix_before full found, ih⟩

include full in
/-- Without a limit the last piece does not hold it either. -/
theorem not_infix_split (cs : List Char) : ∀ part ∈ split separator none cs, ¬separator <:+: part := by
  generalize none : (none : Option Nat) = limit
  fun_induction split separator limit cs with
  | case1 limit cs stop =>
    subst none
    rcases stop with empty | reached
    · exact absurd empty full
    · cases reached
  | case2 limit cs _ missed =>
    rw [List.forall_mem_singleton]
    exact cut?_eq_none_iff.1 missed
  | case3 limit cs _ before after found _ ih =>
    subst none
    exact List.forall_mem_cons.2 ⟨not_infix_before full found, ih rfl⟩

end

theorem cutFrom_eq (piece seen cs : List Char) :
    cutFrom piece seen cs = (cut? piece cs).map fun parts => (seen.reverse ++ parts.1, parts.2) := by
  have all (before : List Char) : cutFrom piece (before ++ seen) cs =
      (cutFrom piece before cs).map fun parts => (seen.reverse ++ parts.1, parts.2) := by
    induction cs generalizing before with
    | nil =>
      rw [cutFrom, cutFrom]
      split <;> simp
    | cons c rest ih =>
      rw [cutFrom, cutFrom]
      split
      · simp
      · exact ih (c :: before)
  exact all []

/-- A character where the piece is not found belongs to the first piece. -/
theorem join_split_cons (new : List Char) {c : Char} (other : afterPiece separator (c :: cs) = none)
    (more : limit ≠ some 0) :
    join new (split separator limit (c :: cs)) = c :: join new (split separator limit cs) := by
  have full : separator ≠ [] := by
    rintro rfl
    cases other
  have passed : cut? separator (c :: cs) = (cut? separator cs).map fun parts => (c :: parts.1, parts.2) := by
    rw [cut?, cutFrom, other]
    exact cutFrom_eq separator [c] cs
  cases found : cut? separator cs with
  | none =>
    rw [found, Option.map_none] at passed
    rw [split_of_none passed, split_of_none found]
    rfl
  | some parts =>
    rw [found, Option.map_some] at passed
    rw [split_of_some full more passed, split_of_some full more found]
    rfl

/-- Text with occurrences replaced is the pieces with the new text between them. -/
theorem replaceFrom_eq (old new done : List Char) (limit : Option Nat) (cs : List Char) :
    replaceFrom old new done limit cs = done.reverse ++ join new (split old limit cs) := by
  fun_induction replaceFrom old new done limit cs with
  | case1 done limit cs stop =>
    rw [split, dif_pos stop]
    simp [join]
  | case2 done limit cs stop after found _ ih =>
    obtain ⟨full, more⟩ := not_or.1 stop
    have cut : cut? old cs = some ([], after) := by
      cases cs with
      | nil =>
        cases old with
        | nil => exact absurd rfl full
        | cons => cases found
      | cons c rest => rw [cut?, cutFrom, found]; rfl
    have same : new.attach.reverse.unattach = new.reverse := by simp
    rw [same] at ih
    rw [ih, split_of_some full more cut, join_cons_of_ne_nil _ (split_ne_nil _ _ _)]
    simp
  | case3 done limit stop missed =>
    have cut : cut? old [] = none := by
      rw [cut?, cutFrom, if_neg]
      simpa using (not_or.1 stop).1
    rw [split_of_none cut]
    simp [join]
  | case4 done limit stop c rest missed ih =>
    rw [ih, join_split_cons new missed (not_or.1 stop).2]
    simp

theorem replace_eq (new cs : List Char) {old : List Char} (full : old ≠ []) (limit : Option Nat) :
    replace old new limit cs = join new (split old limit cs) := by
  rw [replace, if_neg (by simpa using full), replaceFrom_eq]
  rfl

end Text

/-! ### Windows -/

/-- The slice of some items, from the given place on. -/
def Slice.window (i count : Nat) : Slice := ⟨some (Int64.ofNat i), some (Int64.ofNat (i + count)), none⟩

theorem Slice.positions_window {i count length : Nat} (inside : i + count ≤ length) (fits : length < 2 ^ 63) :
    (window i count).positions length = List.range' i count := by
  have one : (window i count).stride = 1 := rfl
  have start : (Int64.ofNat i).toInt = i := Int64.toInt_ofNat_of_lt (by omega)
  have stop : (Int64.ofNat (i + count)).toInt = (i + count : Nat) := Int64.toInt_ofNat_of_lt (by omega)
  have first : (window i count).first length = i := by
    change max 0 (min (length : Int) (if (Int64.ofNat i).toInt < 0 then _ else (Int64.ofNat i).toInt)) = _
    rw [start]
    omega
  have limit : (window i count).limit length = (i + count : Nat) := by
    change max 0 (min (length : Int) (if (Int64.ofNat (i + count)).toInt < 0 then _ else
      (Int64.ofNat (i + count)).toInt)) = _
    rw [stop]
    omega
  rw [positions_of_one one, first, limit, Int.toNat_natCast]
  congr
  omega

theorem filterMap_range' {α : Type} (l : List α) (i count : Nat) :
    (List.range' i count).filterMap (l[·]?) = (l.drop i).take count := by
  induction count generalizing i with
  | zero => rfl
  | succ count ih =>
    rw [List.range'_succ]
    by_cases inside : i < l.length
    · rw [List.filterMap_cons_some (List.getElem?_eq_getElem inside), ih, List.drop_eq_getElem_cons inside,
        List.take_succ_cons]
    · have beyond : l.length ≤ i := Nat.le_of_not_lt inside
      rw [List.filterMap_cons_none (List.getElem?_eq_none beyond), ih, List.drop_of_length_le beyond,
        List.drop_of_length_le (Nat.le_succ_of_le beyond), List.take_nil, List.take_nil]

theorem Value.slice_window {text : String} {i count : Nat} (inside : i + count ≤ text.length)
    (fits : text.length < 2 ^ 63) (h : Cells) : (str text).slice (.window i count) h =
      .ok (.str (String.ofList ((text.toList.drop i).take count))) h := by
  have one : (Slice.window i count).stride = 1 := rfl
  have moves : (Slice.window i count).stride ≠ 0 := one ▸ Int.one_ne_zero
  have size : text.toList.toArray.size = text.length := text.length_toList
  rw [slice_str moves, picked, size, Slice.positions_window inside fits]
  simp only [List.getElem?_toArray, filterMap_range']

/-! ### Calls -/

/-- What is reached once a list of texts was made. -/
def Reach.withTexts (r : Reach) (texts : List String) : Reach :=
  { r with cells.lists := r.cells.lists.push (texts.map Value.str).toArray }

theorem Reach.list_withTexts (r : Reach) (texts : List String) :
    ((r.withTexts texts).cells.list r.cells.lists.size).toList = texts.map Value.str := by
  simp [withTexts, Cells.list]

namespace TextMethods

variable {s p : String} (full : p ≠ "") (r : Reach)

/-- The pieces of a text, as texts. -/
def pieces (s p : String) (limit : Option Int64) : List String :=
  (Text.split p.toList (limitOf limit) s.toList).map String.ofList

theorem toList_pieces (limit : Option Int64) :
    (pieces s p limit).map String.toList = Text.split p.toList (limitOf limit) s.toList := by
  rw [pieces, List.map_map]
  refine (List.map_congr_left fun cs _ => ?_).trans (List.map_id _)
  exact String.toList_ofList

include full in
theorem split_call (limit : Option Int64) :
    apply .split s (.str p :: limit.toList.map Value.int) [] r =
      .ok (.list r.cells.lists.size) (r.withTexts (pieces s p limit)) := by
  let made : Work Value := ofPieces (Text.split p.toList (limitOf limit) s.toList)
  have steps : apply .split s (.str p :: limit.toList.map Value.int) [] r =
      (if p.isEmpty then Work.raise .value "empty separator" >>= fun (_ : Unit) => made else made) r := by
    cases limit <;> rfl
  have some_text : p.isEmpty = false := by simpa using full
  rw [steps, some_text, if_neg Bool.false_ne_true]
  simp only [made, Reach.withTexts, pieces, List.map_map]
  rfl

theorem join_call (t : String) (limit : Option Int64) :
    apply .join t [.list r.cells.lists.size] [] (r.withTexts (pieces s p limit)) =
      .ok (.str (String.ofList (Text.join t.toList (Text.split p.toList (limitOf limit) s.toList))))
        (r.withTexts (pieces s p limit)) := by
  rw [join_texts (r.list_withTexts _), toList_pieces]

include full in
theorem replace_call (t : String) (limit : Option Int64) :
    apply .replace s (.str p :: .str t :: limit.toList.map Value.int) [] r =
      .ok (.str (String.ofList (Text.join t.toList (Text.split p.toList (limitOf limit) s.toList)))) r := by
  have steps : apply .replace s (.str p :: .str t :: limit.toList.map Value.int) [] r =
      .ok (.str (String.ofList (Text.replace p.toList t.toList (limitOf limit) s.toList))) r := by
    cases limit <;> rfl
  have characters : p.toList ≠ [] := by simpa using full
  rw [steps, Text.replace_eq _ _ characters]

include full in
theorem count_call :
    apply .count s [.str p] [] r = .ok (.int (Int64.ofNat (Text.count p.toList s.toList))) r := by
  have steps : apply .count s [.str p] [] r = .ok (.int (Int64.ofNat (count s p))) r := rfl
  have some_text : p.isEmpty = false := by simpa using full
  rw [steps, count, some_text, if_neg Bool.false_ne_true]

theorem len_texts (texts : List String) :
    Builtins.len (.list r.cells.lists.size) (r.withTexts texts) =
      .ok (.int (Int64.ofNat texts.length)) (r.withTexts texts) := by
  have size : ((r.withTexts texts).cells.list r.cells.lists.size).size = texts.length := by
    rw [← Array.length_toList, r.list_withTexts, List.length_map]
  rw [← size]
  rfl

/-- What `find` answers to the place of a piece. -/
def answer : Option Nat → Int64
  | some i => Int64.ofNat i
  | none => -1

theorem find_call : apply .find s [.str p] [] r =
    .ok (.int (answer (Text.find? p.toList s.toList))) r := by
  unfold apply
  simp only [Arguments.text, Arguments.first, List.headD_cons, pure_bind]
  cases Text.find? p.toList s.toList <;> rfl

/-- A piece is not in a text if it is nowhere in it. -/
theorem not_isIn_iff (h : Cells) :
    Value.compareBy h .isIn (.str p) (.str s) = .ok false ↔ ¬p.toList <:+: s.toList := by
  change Except.ok (Text.contains p.toList s.toList) = Except.ok false ↔ _
  rw [← Text.contains_iff, Bool.not_eq_true]
  exact ⟨Except.ok.inj, congrArg _⟩

/-- A window shows the piece where the rest of the text begins with it. -/
theorem window_iff {i : Nat} (inside : i + p.length ≤ s.length) (fits : s.length < 2 ^ 63) (h : Cells) :
    (Value.str s).slice (.window i p.length) h = .ok (.str p) h ↔ p.toList <+: s.toList.drop i := by
  rw [Value.slice_window inside fits, List.prefix_iff_eq_take, String.length_toList]
  constructor
  · intro same
    have text : String.ofList ((s.toList.drop i).take p.length) = p := by
      injection same with value
      injection value
    rw [← String.toList_inj, String.toList_ofList] at text
    exact text.symm
  · intro same
    rw [← same, String.ofList_toList]

end TextMethods

namespace TextMethods

/-- What the search for a piece comes to: where the text begins with it for the first time. -/
structure Found (s p : String) (h : Cells) (found : Int64) : Prop where
  missed : found = -1 ↔ Value.compareBy h .isIn (.str p) (.str s) = .ok false
  nowhere : found = -1 ↔
    ∀ i, i + p.length ≤ s.length → (Value.str s).slice (.window i p.length) h ≠ .ok (.str p) h
  first : found ≠ -1 → ∃ i : Nat, found.toInt = i ∧ i + p.length ≤ s.length ∧
    (Value.str s).slice (.window i p.length) h = .ok (.str p) h ∧
    ∀ j < i, (Value.str s).slice (.window j p.length) h ≠ .ok (.str p) h

theorem found_find? {s p : String} (full : p ≠ "") (fits : s.length < 2 ^ 63) (h : Cells) :
    Found s p h (answer (Text.find? p.toList s.toList)) := by
  cases place : Text.find? p.toList s.toList with
  | none =>
    have missed : ¬p.toList <:+: s.toList := Text.find?_eq_none_iff.1 place
    refine ⟨iff_of_true rfl ((not_isIn_iff h).2 missed), iff_of_true rfl fun i inside shown => ?_, absurd rfl⟩
    have there : p.toList <+: s.toList.drop i := (window_iff inside fits h).1 shown
    exact missed (there.isInfix.trans (List.drop_suffix i s.toList).isInfix)
  | some i =>
    obtain ⟨there, least⟩ := Text.find?_eq_some place
    have inside : i + p.length ≤ s.length := by
      have positive : 0 < p.length := by
        rw [← String.length_toList]
        exact List.length_pos_iff.2 (by simpa using full)
      have length := there.length_le
      rw [List.length_drop, String.length_toList, String.length_toList] at length
      omega
    have value : (Int64.ofNat i).toInt = i := Int64.toInt_ofNat_of_lt (by omega)
    have other : Int64.ofNat i ≠ -1 := by
      intro same
      have minus : (-1 : Int64).toInt = -1 := by decide
      rw [same, minus] at value
      omega
    have shown := (window_iff inside fits h).2 there
    refine ⟨iff_of_false other fun missed => ?_, iff_of_false other fun none => none i inside shown, fun _ => ?_⟩
    · exact (not_isIn_iff h).1 missed (there.isInfix.trans (List.drop_suffix i s.toList).isInfix)
    · exact ⟨i, value, inside, shown, fun j before => mt (window_iff (by omega) fits h).1 (least j before)⟩

end TextMethods

section

open TextMethods

/-- The methods of a text that look for a piece agree. However many cuts are allowed, joining the pieces with what
they were cut at gives the text again, and joining them with another text is the same as replacing; only the last piece
may hold what was cut at, and without a limit there is one piece more than there are occurrences. What is found is the
first place where a slice of the text shows the piece, in a text that a machine can hold. -/
theorem text_searches (s p t : String) (full : p ≠ "") (r : Reach) :
    (∀ limit : Option Int64, ∃ parts : List String,
      apply .split s (.str p :: limit.toList.map Value.int) [] r =
        .ok (.list r.cells.lists.size) (r.withTexts parts) ∧
      apply .join p [.list r.cells.lists.size] [] (r.withTexts parts) = .ok (.str s) (r.withTexts parts) ∧
      (∃ text, apply .join t [.list r.cells.lists.size] [] (r.withTexts parts) =
          .ok (.str text) (r.withTexts parts) ∧
        apply .replace s (.str p :: .str t :: limit.toList.map Value.int) [] r = .ok (.str text) r) ∧
      (∀ part ∈ parts.dropLast, Value.compareBy r.cells .isIn (.str p) (.str part) = .ok false) ∧
      (∀ m ∈ limit, 0 ≤ m → parts.length ≤ m.toInt.toNat + 1) ∧
      (limit = none →
        (∀ part ∈ parts, Value.compareBy r.cells .isIn (.str p) (.str part) = .ok false) ∧
        ∃ n, parts.length = n + 1 ∧ apply .count s [.str p] [] r = .ok (.int (Int64.ofNat n)) r ∧
          Builtins.len (.list r.cells.lists.size) (r.withTexts parts) =
            .ok (.int (Int64.ofNat (n + 1))) (r.withTexts parts))) ∧
    (s.length < 2 ^ 63 → ∃ found : Int64,
      apply .find s [.str p] [] r = .ok (.int found) r ∧ Found s p r.cells found) := by
  have characters : p.toList ≠ [] := by simpa using full
  refine ⟨fun limit => ⟨pieces s p limit, split_call full r limit, ?_, ?_, ?_, ?_, ?_⟩, fun fits => ?_⟩
  · rw [join_call, Text.join_split, String.ofList_toList]
  · exact ⟨_, join_call r t limit, replace_call full r t limit⟩
  · intro part mem
    rw [pieces, ← List.map_dropLast] at mem
    obtain ⟨cs, inside, rfl⟩ := List.mem_map.1 mem
    rw [not_isIn_iff, String.toList_ofList]
    exact Text.not_infix_dropLast characters _ _ cs inside
  · rintro m rfl least
    have limited : limitOf (some m) = some m.toInt.toNat := if_neg (Int64.not_lt.2 least)
    rw [pieces, List.length_map, limited]
    exact Text.length_split_le _
  · rintro rfl
    have length : (pieces s p none).length = Text.count p.toList s.toList + 1 := by
      rw [pieces, List.length_map]
      exact Text.length_split characters _
    refine ⟨fun part mem => ?_, _, length, count_call full r, ?_⟩
    · obtain ⟨cs, inside, rfl⟩ := List.mem_map.1 mem
      rw [not_isIn_iff, String.toList_ofList]
      exact Text.not_infix_split characters _ cs inside
    · rw [len_texts, length]
  · exact ⟨_, find_call r, found_find? full fits r.cells⟩

/-- Occurrences that overlap: the first one counts. -/
theorem text_searches_of_overlap :
    let r : Reach := ⟨.empty, ⟨default, default⟩, #[]⟩
    "aa" ≠ "" ∧ "baaac".length < 2 ^ 63 ∧ Found "baaac" "aa" r.cells 1 ∧
    ∃ parts, apply .split "baaac" [.str "aa"] [] r = .ok (.list 0) (r.withTexts parts) ∧
      apply .join "aa" [.list 0] [] (r.withTexts parts) = .ok (.str "baaac") (r.withTexts parts) := by
  intro r
  have full : "aa" ≠ "" := by decide
  have fits : "baaac".length < 2 ^ 63 := by decide
  obtain ⟨splits, finds⟩ := text_searches "baaac" "aa" "-" full r
  obtain ⟨parts, made, joined, -⟩ := splits none
  obtain ⟨found, call, first⟩ := finds fits
  have one : apply .find "baaac" [.str "aa"] [] r = .ok (.int 1) r := rfl
  have same : found = 1 := by
    rw [call] at one
    injection one with value
    injection value
  exact ⟨full, fits, same ▸ first, parts, made, joined⟩

end

end SnippetKernel
