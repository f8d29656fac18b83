import SnippetKernel.Proofs.Value.Comparison
import SnippetKernel.Value.Items

/-! Two values have the same structure if they can be taken apart in the same way, down to numbers, texts, ranges and
things that are equal to nothing but themselves. The parts of a key show the structure of the value they are taken
from, as they also show where the key ends; and `==` shows it of all values that have no cycle, no floating point
number and no bound method in them. -/
namespace SnippetKernel.Value

/-- The two values have the same structure. Integers and booleans have the same number, texts are the same text,
items are alike place by place, entries can be paired off with keys alike and values alike, ranges have the same
integers in the same order. Anything else is one and the same. -/
inductive Alike (h : Cells) : Value → Value → Prop
  | number {a b : Value} {i : Int64} (first : a.int? = some i) (second : b.int? = some i) : Alike h a b
  | text (text : String) : Alike h (str text) (str text)
  | lists {r s : Nat} (size : (h.list r).toList.length = (h.list s).toList.length)
    (items : ∀ (i : Nat) (x y), (h.list r).toList[i]? = some x → (h.list s).toList[i]? = some y → Alike h x y) :
    Alike h (list r) (list s)
  | tuples (i j : Nat) {xs ys : List Value} (size : xs.length = ys.length)
    (items : ∀ (i : Nat) (x y), xs[i]? = some x → ys[i]? = some y → Alike h x y) : Alike h (tuple i xs) (tuple j ys)
  | dicts {r s : Nat} (pairs : List ((Value × Value) × (Value × Value)))
    (first : (pairs.map Prod.fst).Perm (h.dict r).toList) (second : (pairs.map Prod.snd).Perm (h.dict s).toList)
    (keys : ∀ p ∈ pairs, Alike h p.1.1 p.2.1) (values : ∀ p ∈ pairs, Alike h p.1.2 p.2.2) :
    Alike h (dict r) (dict s)
  | ranges {r s : Range} (integers : r.toList = s.toList) : Alike h (range r) (range s)
  | plain {a b : Value} (plain : a.Plain) (one : a.same b = true) : Alike h a b

variable {h : Cells} {a b : Value}

theorem Alike.symm (alike : Alike h a b) : Alike h b a := by
  induction alike with
  | number first second => exact .number second first
  | text text => exact .text text
  | lists size _ ih => exact .lists size.symm fun i x y here there => ih i y x there here
  | tuples i j size _ ih => exact .tuples j i size.symm fun i x y here there => ih i y x there here
  | dicts pairs first second _ _ keys values =>
    refine .dicts (pairs.map Prod.swap) ?_ ?_ (List.forall_mem_map.mpr keys) (List.forall_mem_map.mpr values)
    · simpa [Function.comp_def] using second
    · simpa [Function.comp_def] using first
  | ranges integers => exact .ranges integers.symm
  | plain plain one => exact .plain (plain.of_same one) (same_symm one)

/-- There is no cycle, no floating point number and no bound method in the value. -/
structure Tame (h : Cells) (v : Value) : Prop where
  acyclic : Acyclic h v
  whole : Throughout h NotFloat v
  unbound : Throughout h NotMethod v

theorem Tame.held {v part : Value} (tame : Tame h v) (held : part ∈ v.parts h) : Tame h part :=
  ⟨tame.acyclic.held held, tame.whole.held held, tame.unbound.held held⟩

theorem tame_of_parts {v : Value} (whole : v.NotFloat) (unbound : v.NotMethod)
    (parts : ∀ part ∈ v.parts h, Tame h part) : Tame h v :=
  ⟨acyclic_of_parts fun part held => (parts part held).acyclic,
    throughout_iff.mpr ⟨whole, fun part held => (parts part held).whole⟩,
    throughout_iff.mpr ⟨unbound, fun part held => (parts part held).unbound⟩⟩

/-- A value is like itself, unless it has a cycle in it. -/
theorem Alike.refl (tame : Tame h a) : Alike h a a := by
  have descent := tame.acyclic.acc
  induction descent with
  | intro a _ ih =>
    have parts (x : Value) (held : x ∈ a.parts h) : Alike h x x := ih x held (tame.held held)
    have items {i : Nat} {x y : Value} {xs : List Value} (held : ∀ x ∈ xs, x ∈ a.parts h) (here : xs[i]? = some x)
        (there : xs[i]? = some y) : Alike h x y := by
      obtain rfl := Option.some.inj (here.symm.trans there)
      exact parts x (held x (List.mem_of_getElem? here))
    cases a with
    | bool b => exact .number rfl rfl
    | int i => exact .number rfl rfl
    | float d => exact absurd rfl (tame.whole.here d)
    | str text => exact .text text
    | list ref => exact .lists rfl fun i x y => items fun x mem => mem
    | tuple id xs => exact .tuples id id rfl fun i x y => items fun x mem => mem
    | dict ref =>
      refine .dicts ((h.dict ref).toList.map fun e => (e, e)) (by simp [Function.comp_def])
        (by simp [Function.comp_def]) ?_ ?_
      all_goals
        refine List.forall_mem_map.mpr fun e mem => parts _ (List.mem_flatMap.mpr ⟨e, mem, ?_⟩)
        simp
    | range r => exact .ranges rfl
    | listMethod | tupleMethod | dictMethod | strMethod | streamMethod => exact absurd rfl tame.unbound.here
    | _ => exact .plain trivial (by simp [same])

/-! ### Keys -/

theorem key_tuple {id : Nat} {items : List Value} {k : Key} (hashed : (tuple id items).key = .ok k) :
    ∃ parts, keys items = .ok parts ∧ k = .tuple items.length :: parts := by
  rw [key] at hashed
  cases inner : keys items with
  | error e => simp [inner] at hashed
  | ok parts => exact ⟨parts, rfl, by simpa [inner] using hashed.symm⟩

theorem keys_cons {v : Value} {rest : List Value} {k : Key} (hashed : keys (v :: rest) = .ok k) :
    ∃ first more, v.key = .ok first ∧ keys rest = .ok more ∧ k = first ++ more := by
  rw [keys] at hashed
  cases head : v.key with
  | error e => simp [head] at hashed
  | ok first =>
    cases tail : keys rest with
    | error e => simp [head, tail] at hashed
    | ok more => exact ⟨first, more, rfl, rfl, by simpa [head, tail] using hashed.symm⟩

/-- What makes up a key, if it is not a floating point number. -/
inductive Hashed : Value → Key → Prop
  | none : Hashed none [.none]
  | number {a : Value} {i : Int64} (number : a.int? = some i) : Hashed a [.int i]
  | text (text : String) : Hashed (str text) [.str text]
  | tuple (id : Nat) {items : List Value} {parts : Key} (inner : keys items = .ok parts) :
    Hashed (tuple id items) (.tuple items.length :: parts)

theorem hashed_of_key {k : Key} (whole : a.NotFloat) (hashed : a.key = .ok k) : Hashed a k := by
  cases a with
  | tuple id items =>
    obtain ⟨parts, inner, rfl⟩ := key_tuple hashed
    exact .tuple id inner
  | float d => exact absurd rfl (whole d)
  | none =>
    cases hashed
    exact .none
  | str text =>
    cases hashed
    exact .text text
  | bool _ | int _ =>
    cases hashed
    exact .number rfl
  | _ => simp [key] at hashed

mutual

/-- The parts of a key show where they end, and which values have them. -/
theorem alike_of_parts {k k' more more' : Key} (a b : Value) (wholeA : Throughout h NotFloat a)
    (wholeB : Throughout h NotFloat b) (first : a.key = .ok k) (second : b.key = .ok k')
    (parts : k ++ more = k' ++ more') : Alike h a b ∧ more = more' := by
  have hashedA := hashed_of_key wholeA.here first
  cases hashed_of_key wholeB.here second with
  | none =>
    cases hashedA with
    | none => exact ⟨.plain trivial rfl, List.tail_eq_of_cons_eq parts⟩
    | _ => simp at parts
  | number number =>
    cases hashedA with
    | number number' =>
      obtain ⟨same, rest⟩ := List.cons_eq_cons.mp parts
      cases same
      exact ⟨.number number' number, rest⟩
    | _ => simp at parts
  | text text =>
    cases hashedA with
    | text text' =>
      obtain ⟨same, rest⟩ := List.cons_eq_cons.mp parts
      cases same
      exact ⟨.text text, rest⟩
    | _ => simp at parts
  | @tuple j ys _ innerB =>
    cases hashedA with
    | @tuple i xs _ innerA =>
      obtain ⟨same, rest⟩ := List.cons_eq_cons.mp parts
      have size : xs.length = ys.length := by simpa using same
      obtain ⟨items, rest⟩ :=
        alike_of_all_parts xs ys size (fun x => wholeA.held) (fun y => wholeB.held) innerA innerB rest
      exact ⟨.tuples i j size items, rest⟩
    | _ => simp at parts
termination_by sizeOf a

theorem alike_of_all_parts {k k' more more' : Key} (xs ys : List Value) (size : xs.length = ys.length)
    (wholeX : ∀ x ∈ xs, Throughout h NotFloat x) (wholeY : ∀ y ∈ ys, Throughout h NotFloat y)
    (first : keys xs = .ok k) (second : keys ys = .ok k') (parts : k ++ more = k' ++ more') :
    (∀ (i : Nat) (x y), xs[i]? = some x → ys[i]? = some y → Alike h x y) ∧ more = more' := by
  match xs, ys with
  | [], [] =>
    cases first
    cases second
    exact ⟨nofun, parts⟩
  | x :: xs, y :: ys =>
    rw [List.forall_mem_cons] at wholeX wholeY
    obtain ⟨front, back, headX, tailX, rfl⟩ := keys_cons first
    obtain ⟨front', back', headY, tailY, rfl⟩ := keys_cons second
    rw [List.append_assoc, List.append_assoc] at parts
    obtain ⟨head, parts⟩ := alike_of_parts x y wholeX.1 wholeY.1 headX headY parts
    obtain ⟨tail, parts⟩ := alike_of_all_parts xs ys (Nat.succ.inj size) wholeX.2 wholeY.2 tailX tailY parts
    refine ⟨fun i v w here there => ?_, parts⟩
    cases i with
    | zero =>
      cases here
      cases there
      exact head
    | succ i => exact tail i v w here there
termination_by sizeOf xs

end

theorem alike_of_key {k : Key} (wholeA : Throughout h NotFloat a) (wholeB : Throughout h NotFloat b)
    (first : a.key = .ok k) (second : b.key = .ok k) : Alike h a b :=
  (alike_of_parts a b wholeA wholeB first second (rfl : k ++ [] = k ++ [])).1

theorem number?_of_int? {i : Int64} (number : a.int? = some i) : a.number? = some (.int i) := by
  cases a <;> simp_all [int?, number?]

theorem keys_eq {xs ys : List Value} {k k' : Key} (size : xs.length = ys.length)
    (items : ∀ (i : Nat) (x y), xs[i]? = some x → ys[i]? = some y → ∀ {k k' : Key}, x.key = .ok k → y.key = .ok k' →
      k = k') (first : keys xs = .ok k) (second : keys ys = .ok k') : k = k' := by
  induction xs generalizing ys k k' with
  | nil =>
    obtain rfl := List.length_eq_zero_iff.mp size.symm
    exact Except.ok.inj (first.symm.trans second)
  | cons x xs ih =>
    obtain ⟨y, ys, rfl⟩ := List.exists_cons_of_length_eq_add_one size.symm
    obtain ⟨front, back, headX, tailX, rfl⟩ := keys_cons first
    obtain ⟨front', back', headY, tailY, rfl⟩ := keys_cons second
    rw [items 0 x y rfl rfl headX headY, ih (Nat.succ.inj size) (fun i => items (i + 1)) tailX tailY]

theorem eq_none_of_key {k : Key} (plain : a.Plain) (hashed : a.key = .ok k) : a = none := by
  cases a <;> first | rfl | exact False.elim plain | simp [key] at hashed

theorem parts_of_alike {k k' : Key} (alike : Alike h a b) (first : a.key = .ok k) (second : b.key = .ok k') :
    k = k' := by
  induction alike generalizing k k' with
  | @number a b i here there =>
    have single {v : Value} {k : Key} (number : v.int? = some i) (hashed : v.key = .ok k) : k = [.int i] := by
      cases v <;> simp_all [int?, key]
    rw [single here first, single there second]
  | text => exact Except.ok.inj (first.symm.trans second)
  | lists => simp [key] at first
  | @tuples i j xs ys size _ ih =>
    obtain ⟨parts, inner, rfl⟩ := key_tuple first
    obtain ⟨parts', inner', rfl⟩ := key_tuple second
    rw [size, keys_eq size ih inner inner']
  | dicts => simp [key] at first
  | ranges => simp [key] at first
  | @plain a b plain one =>
    obtain rfl := eq_none_of_key plain first
    obtain rfl := eq_none_of_key (plain.of_same one) second
    exact Except.ok.inj (first.symm.trans second)

/-! ### Equality -/

variable {listed : Nat → Listing} {d : Nat}

/-- Values that are equal have the same structure. -/
theorem alike_of_equal (shows : ∀ ref, (h.dict ref).Shows (listed ref)) (tameA : Tame h a) (tameB : Tame h b)
    (yes : equalWithin h d a b = .ok true) : Alike h a b := by
  induction d using Nat.strong_induction_on generalizing a b with
  | _ d ih =>
    cases agrees shows yes with
    | numbers first second equal =>
      obtain ⟨i, here, rfl⟩ := number?_of_notFloat tameA.whole.here first
      obtain ⟨j, there, rfl⟩ := number?_of_notFloat tameB.whole.here second
      obtain rfl : i = j := by simpa [Number.eq] using equal
      exact .number here there
    | text text => exact .text text
    | oneList => exact .refl tameA
    | oneDict => exact .refl tameA
    | @lists d r s agree =>
      exact .lists agree.size fun i x y here there => ih d (Nat.lt_succ_self d)
        (tameA.held (List.mem_of_getElem? here)) (tameB.held (List.mem_of_getElem? there))
        (agree.items i x y here there)
    | @tuples d i j xs ys agree =>
      exact .tuples i j agree.size fun i x y here there => ih d (Nat.lt_succ_self d)
        (tameA.held (List.mem_of_getElem? here)) (tameB.held (List.mem_of_getElem? there))
        (agree.items i x y here there)
    | @dicts d r s agree =>
      obtain ⟨pairs, first, second, entries⟩ := agree.paired
      have inside (p) (mem : p ∈ pairs) : p.1 ∈ listed r ∧ p.2 ∈ listed s :=
        ⟨first ▸ List.mem_map_of_mem mem, second.subset (List.mem_map_of_mem mem)⟩
      refine .dicts (pairs.map fun p => (p.1.entry, p.2.entry)) ?_ ?_ ?_ ?_
      · rw [(shows r).entries, ← first]
        simp [Function.comp_def]
      · rw [(shows s).entries]
        simpa [Function.comp_def] using second.map (·.entry)
      · refine List.forall_mem_map.mpr fun p mem => ?_
        obtain ⟨here, there⟩ := inside p mem
        have key := (shows s).keyed p.2 there
        rw [(entries p mem).1] at key
        exact alike_of_key (tameA.held (value_mem_parts shows here).2).whole
          (tameB.held (value_mem_parts shows there).2).whole ((shows r).keyed p.1 here) key
      · refine List.forall_mem_map.mpr fun p mem => ?_
        obtain ⟨here, there⟩ := inside p mem
        exact (ih d (Nat.lt_succ_self d) (tameB.held (value_mem_parts shows there).1)
          (tameA.held (value_mem_parts shows here).1) (entries p mem).2).symm
    | ranges integers => exact .ranges integers
    | plain plain one => exact .plain plain one

/-- Values with the same structure do not differ, as far as they are compared. -/
theorem equal_of_alike (shows : ∀ ref, (h.dict ref).Shows (listed ref)) (alike : Alike h a b) :
    equalWithin h d a b ≠ .ok false := by
  induction d using Nat.strong_induction_on generalizing a b with
  | _ d ih =>
    intro no
    cases alike with
    | number first second =>
      rw [equalWithin_numbers (number?_of_int? first) (number?_of_int? second)] at no
      simp [Number.eq] at no
    | text => simp [equalWithin_text, same] at no
    | lists size items =>
      rw [equalWithin_list] at no
      split at no
      · cases no
      · obtain ⟨e, rfl, i, x, y, here, there, differs⟩ := equalItems_false size no
        exact ih e (Nat.lt_succ_self e) (items i x y here there) differs
    | tuples i j size items =>
      rw [equalWithin_tuple] at no
      obtain ⟨e, rfl, i, x, y, here, there, differs⟩ := equalItems_false size no
      exact ih e (Nat.lt_succ_self e) (items i x y here there) differs
    | @dicts r s pairs first second keys values =>
      rw [equalWithin_dict] at no
      split at no
      · cases no
      · rw [(shows r).entries] at first
        rw [(shows s).entries] at second
        have length : (listed r).length = (listed s).length := by
          have here := first.length_eq
          have there := second.length_eq
          simp only [List.length_map] at here there
          exact here.symm.trans there
        obtain ⟨e, rfl, f, here, differs⟩ := equalEntries_false (shows r) (shows s) length no
        obtain ⟨p, paired, entry⟩ := List.mem_map.mp (first.symm.subset (List.mem_map_of_mem here))
        obtain ⟨g, there, entry'⟩ := List.mem_map.mp (second.subset (List.mem_map_of_mem paired))
        have key := keys p paired
        have value := values p paired
        rw [entry, ← entry'] at key value
        have parts := parts_of_alike key ((shows r).keyed f here) ((shows s).keyed g there)
        exact ih e (Nat.lt_succ_self e) value.symm (differs g there parts.symm)
    | ranges integers =>
      rw [equalWithin_range, (Range.same_iff _ _).mpr integers] at no
      cases no
    | plain plain one =>
      rw [equalWithin_plain (.inl plain), one] at no
      cases no

/-- `==` gives an answer unless both values nest too deep, and whenever it does: the order of the two does not
matter, values without floating point numbers that equal a third are equal, and without cycles and bound methods
they are equal exactly if they have the same structure. -/
theorem equal_as_structure (made : h.Made) :
    (∀ a b, Answered h maxDepth a b (compareBy h .eq a b)) ∧
      (∀ a b p q, compareBy h .eq a b = .ok p → compareBy h .eq b a = .ok q → p = q) ∧
      (∀ a b c p, Throughout h NotFloat a → Throughout h NotFloat b → Throughout h NotFloat c →
        compareBy h .eq a b = .ok true → compareBy h .eq b c = .ok true → compareBy h .eq a c = .ok p → p = true) ∧
      ∀ a b p, Tame h a → Tame h b → compareBy h .eq a b = .ok p → (p = true ↔ Alike h a b) := by
  choose listed shows using made.shows
  refine ⟨answered shows maxDepth, ?_, ?_, ?_⟩
  · intro a b p q first second
    cases p with
    | true =>
      cases q with
      | true => rfl
      | false => exact (equal_symm shows first second).elim
    | false =>
      cases q with
      | true => exact (equal_symm shows second first).elim
      | false => rfl
  · intro a b c p wholeA wholeB wholeC first second third
    cases p with
    | true => rfl
    | false => exact (equal_trans shows wholeA wholeB wholeC first second third).elim
  · intro a b p tameA tameB compared
    constructor
    · rintro rfl
      exact alike_of_equal shows tameA tameB compared
    · intro alike
      cases p with
      | true => rfl
      | false => exact (equal_of_alike shows alike compared).elim

/-- Two dicts with the same entries in different orders. -/
def twoOrders : Cells where
  lists := #[#[.int 1, .str "x"], #[.bool true, .str "x"]]
  dicts := #[
    (DictOperation.all Dict.perform .empty [.insert (.int 1) (.list 0), .insert (.str "k") .none]).2,
    (DictOperation.all Dict.perform .empty [.insert (.str "k") .none, .insert (.bool true) (.list 1)]).2]
  fresh := 0

theorem twoOrders_made : twoOrders.Made := by
  intro d mem
  obtain rfl | rfl : d = _ ∨ d = _ := by simpa [twoOrders] using mem
  · exact ⟨_, rfl⟩
  · exact ⟨_, rfl⟩

theorem toList_made (ops : List DictOperation) : (DictOperation.all Dict.perform .empty ops).2.toList =
    (DictOperation.all Listing.perform [] ops).2.map (·.entry) :=
  (Dict.all_shows Dict.Shows.empty (Nat.zero_le _) ops).2.1.entries

theorem twoOrders_first : (twoOrders.dict 0).toList = [(int 1, list 0), (str "k", none)] := (toList_made _).trans rfl

theorem twoOrders_second : (twoOrders.dict 1).toList = [(str "k", none), (bool true, list 1)] :=
  (toList_made _).trans rfl

theorem parts_twoOrders : (dict 0).parts twoOrders = [int 1, list 0, str "k", none] ∧
    (dict 1).parts twoOrders = [str "k", none, bool true, list 1] ∧
    (list 0).parts twoOrders = [int 1, str "x"] ∧ (list 1).parts twoOrders = [bool true, str "x"] :=
  ⟨by simp [parts, Cells.contents, twoOrders_first], by simp [parts, Cells.contents, twoOrders_second], rfl, rfl⟩

theorem twoOrders_tame : Tame twoOrders (dict 0) ∧ Tame twoOrders (dict 1) := by
  have number (i : Int64) : Tame twoOrders (int i) := tame_of_parts nofun nofun (by simp)
  have truth (b : Bool) : Tame twoOrders (bool b) := tame_of_parts nofun nofun (by simp)
  have text (t : String) : Tame twoOrders (str t) := tame_of_parts nofun nofun (by simp)
  have nothing : Tame twoOrders none := tame_of_parts nofun nofun (by simp)
  have first : Tame twoOrders (list 0) := tame_of_parts nofun nofun (by simp [parts_twoOrders, number, text])
  have second : Tame twoOrders (list 1) := tame_of_parts nofun nofun (by simp [parts_twoOrders, truth, text])
  exact ⟨tame_of_parts nofun nofun (by simp [parts_twoOrders, number, text, nothing, first]),
    tame_of_parts nofun nofun (by simp [parts_twoOrders, truth, text, nothing, second])⟩

theorem twoOrders_shallow : Shallow twoOrders 2 (dict 0) := by
  simp [Shallow, parts_twoOrders]

theorem twoOrders_alike : Alike twoOrders (dict 0) (dict 1) := by
  have one : Alike twoOrders (int 1) (bool true) := .number (i := 1) rfl rfl
  have lists : Alike twoOrders (list 0) (list 1) := by
    refine .lists rfl fun i x y here there => ?_
    match i, here, there with
    | 0, here, there =>
      cases here
      cases there
      exact one
    | 1, here, there =>
      cases here
      cases there
      exact .text "x"
  refine .dicts [((int 1, list 0), (bool true, list 1)), ((str "k", none), (str "k", none))] ?_ ?_ ?_ ?_
  · rw [twoOrders_first]
    rfl
  · rw [twoOrders_second]
    exact .swap _ _ _
  · simpa using ⟨one, .text "k"⟩
  · simpa using ⟨lists, .plain trivial rfl⟩

theorem equal_as_structure_of_two_orders :
    twoOrders.Made ∧ Tame twoOrders (dict 0) ∧ Tame twoOrders (dict 1) ∧ Alike twoOrders (dict 0) (dict 1) ∧
      compareBy twoOrders .eq (dict 0) (dict 1) = .ok true ∧ compareBy twoOrders .eq (dict 1) (dict 0) = .ok true ∧
      compareBy twoOrders .eq (dict 0) (dict 0) = .ok true := by
  obtain ⟨tame, tame'⟩ := twoOrders_tame
  obtain ⟨answers, turned, passed, structural⟩ := equal_as_structure twoOrders_made
  have shallow : Shallow twoOrders maxDepth (dict 0) := twoOrders_shallow.deeper (by decide)
  have forth : compareBy twoOrders .eq (dict 0) (dict 1) = .ok true := by
    obtain ⟨p, forth⟩ := (answers (dict 0) (dict 1)).resolve_right fun deep => deep.2.1 shallow
    rwa [(structural _ _ p tame tame' forth).mpr twoOrders_alike] at forth
  have back : compareBy twoOrders .eq (dict 1) (dict 0) = .ok true := by
    obtain ⟨q, back⟩ := (answers (dict 1) (dict 0)).resolve_right fun deep => deep.2.2 shallow
    rwa [← turned _ _ _ q forth back] at back
  obtain ⟨p, around⟩ := (answers (dict 0) (dict 0)).resolve_right fun deep => deep.2.1 shallow
  have third := passed _ _ _ p tame.whole tame'.whole tame.whole forth back around
  exact ⟨twoOrders_made, tame, tame', twoOrders_alike, forth, back, third ▸ around⟩

end SnippetKernel.Value
