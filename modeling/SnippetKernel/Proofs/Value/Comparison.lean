import Mathlib
import SnippetKernel.Proofs.Value.Containment
import SnippetKernel.Proofs.Value.InsertionOrder
import SnippetKernel.Proofs.Value.Selection
import SnippetKernel.Value.Equality

/-! What a comparison for equality comes to, kind by kind, at any depth. It gives an answer or it is too deep, the
order of the two values does not matter, and without floating point numbers two values that equal a third are equal.
Each of these goes from the parts of containers to the containers, by induction on the depth that is left. -/
namespace SnippetKernel.Double

/-! ### Floating point numbers

Numerical equality does not depend on the order of the two, and a number is equal to itself unless it is a NaN, which
shows in its bits. -/

open Float.Model

theorem eq_comm (a b : Double) : a.eq b = b.eq a := by
  rw [Bool.eq_iff_iff]
  simp only [eq, Float.beq_iff_ne_nan_and_eq]
  grind

/-! ### Bits -/

/-- The bits from a place on, as far as a mask goes. -/
theorem land_shiftLeft (n width place : Nat) :
    n &&& ((2 ^ width - 1) <<< place) = (n >>> place % 2 ^ width) <<< place := by
  apply Nat.eq_of_testBit_eq
  intro i
  simp only [Nat.testBit_and, Nat.testBit_shiftLeft, Nat.testBit_mod_two_pow, Nat.testBit_shiftRight,
    Nat.testBit_two_pow_sub_one]
  by_cases below : place ≤ i
  · have back : place + (i - place) = i := by omega
    simp [below, back, Bool.and_comm]
  · simp [below]

theorem exponent_all (bits : UInt64) :
    @UnpackedFloat.unpackExponent Format.binary64 bits.toBitVec = -1#11
      ↔ bits &&& exponentMask = exponentMask := by
  have field : (@UnpackedFloat.unpackExponent Format.binary64 bits.toBitVec).toNat
      = bits.toNat >>> 52 % 2 ^ 11 := rfl
  have mask : (bits &&& exponentMask).toNat = (bits.toNat >>> 52 % 2 ^ 11) <<< 52 := by
    rw [UInt64.toNat_and, ← land_shiftLeft]
    rfl
  have all : exponentMask.toNat = 2047 <<< 52 := rfl
  have ones : (-1#11 : BitVec 11).toNat = 2047 := rfl
  rw [← BitVec.toNat_inj, ← UInt64.toNat_inj, field, mask, all, Nat.shiftLeft_eq, Nat.shiftLeft_eq,
    Nat.mul_right_cancel_iff (by decide)]
  exact Iff.rfl

theorem fraction_none (bits : UInt64) :
    @UnpackedFloat.unpackMantissa Format.binary64 bits.toBitVec = 0#52 ↔ bits &&& fractionMask = 0 := by
  have field : (@UnpackedFloat.unpackMantissa Format.binary64 bits.toBitVec).toNat
      = bits.toNat >>> 0 % 2 ^ 52 := rfl
  have mask : (bits &&& fractionMask).toNat = (bits.toNat >>> 0 % 2 ^ 52) <<< 0 := by
    rw [UInt64.toNat_and, ← land_shiftLeft]
    rfl
  rw [← BitVec.toNat_inj, ← UInt64.toNat_inj, field, mask, Nat.shiftLeft_zero]
  exact Iff.rfl

theorem isNaNBits_eq (d : Double) :
    @UnpackedFloat.isNaNBits Format.binary64 d.bits.toBitVec = d.isNaN := by
  rw [Bool.eq_iff_iff]
  simp only [UnpackedFloat.isNaNBits, isNaN, decide_eq_true_eq, Bool.and_eq_true, beq_iff_eq, bne_iff_ne]
  exact and_congr (exponent_all d.bits) (not_congr (fraction_none d.bits))

theorem isNaN_unpack (b : BitVec Format.binary64.numBits) :
    (UnpackedFloat.unpack Format.binary64 b).isNaN = UnpackedFloat.isNaNBits b := by
  unfold UnpackedFloat.unpack UnpackedFloat.isNaNBits
  dsimp only
  split
  · split <;> simp_all [UnpackedFloat.isNaN]
  · split
    · split <;> simp_all [UnpackedFloat.isNaN]
    · simp_all [UnpackedFloat.isNaN]

theorem isNaN_toFloat (d : Double) : d.toFloat.isNaN = d.isNaN := by
  have unpacked : d.toFloat.isNaN = (UnpackedFloat.unpack Format.binary64
      (UnpackedFloat.pack Format.binary64 (UnpackedFloat.unpack Format.binary64 d.bits.toBitVec))).isNaN := rfl
  rw [unpacked, UnpackedFloat.pack_unpack, isNaN_unpack, isNaNBits_eq]
  cases notNumber : d.isNaN with
  | true => exact UnpackedFloat.isNaNBits_packedNaN
  | false => simp [isNaNBits_eq, notNumber]

/-- Only a NaN is not equal to itself. -/
theorem eq_self (d : Double) : d.eq d = !d.isNaN := by
  rw [← isNaN_toFloat, Bool.eq_iff_iff]
  simp [eq, Float.isNaN_eq_decide_eq_nan]

end SnippetKernel.Double

/-! ### What comparisons come to -/
namespace SnippetKernel

namespace Listing

variable {l other : Listing} {e : Listed} {k : Key} {v : Value}

theorem find?_of_mem (distinct : (l.map (·.parts)).Nodup) (listed : e ∈ l) : l.find? e.parts = some e.value := by
  obtain ⟨before, behind, rfl⟩ := List.append_of_mem listed
  exact find?_middle (apart_of_nodup distinct).1 rfl

theorem mem_of_find? (found : l.find? k = some v) : ∃ e ∈ l, e.parts = k ∧ e.value = v := by
  obtain ⟨e, here, rfl⟩ := Option.map_eq_some_iff.mp found
  exact ⟨e, List.mem_of_find?_eq_some here, by simpa using List.find?_some here, rfl⟩

/-- If each key of a listing is in another of the same length, their entries pair off. -/
theorem paired (distinct : (l.map (·.parts)).Nodup) (length : l.length = other.length)
    (there : ∀ e ∈ l, ∃ f ∈ other, f.parts = e.parts) :
    ∃ pairs : List (Listed × Listed), pairs.map Prod.fst = l ∧ (pairs.map Prod.snd).Perm other ∧
      ∀ p ∈ pairs, p.2.parts = p.1.parts := by
  have chosen : ∃ pairs : List (Listed × Listed), pairs.map Prod.fst = l ∧
      ∀ p ∈ pairs, p.2 ∈ other ∧ p.2.parts = p.1.parts := by
    clear distinct length
    induction l with
    | nil => exact ⟨[], rfl, List.forall_mem_nil _⟩
    | cons e rest ih =>
      obtain ⟨first, more⟩ := List.forall_mem_cons.mp there
      obtain ⟨f, listed, parts⟩ := first
      obtain ⟨pairs, rfl, paired⟩ := ih more
      exact ⟨(e, f) :: pairs, rfl, List.forall_mem_cons.mpr ⟨⟨listed, parts⟩, paired⟩⟩
  obtain ⟨pairs, rfl, matched⟩ := chosen
  refine ⟨pairs, rfl, ?_, fun p mem => (matched p mem).2⟩
  -- the second halves have the keys of the first, so no two of them are one
  have parts : (pairs.map Prod.snd).map (·.parts) = (pairs.map Prod.fst).map (·.parts) := by
    simp only [List.map_map]
    exact List.map_congr_left fun p mem => (matched p mem).2
  have apart : (pairs.map Prod.snd).Nodup := .of_map _ (parts ▸ distinct)
  have within : pairs.map Prod.snd ⊆ other := by
    intro f mem
    obtain ⟨p, paired, rfl⟩ := List.mem_map.mp mem
    exact (matched p paired).1
  exact (List.subperm_of_subset apart within).perm_of_length_le (by simpa using length.ge)

end Listing

/-- Each dict is what operations on dicts made of the empty one. There is no other way to come by a dict. -/
def Cells.Made (h : Cells) : Prop := ∀ d ∈ h.dicts, ∃ ops, (DictOperation.all Dict.perform .empty ops).2 = d

theorem Cells.Made.shows {h : Cells} (made : h.Made) (ref : Nat) : ∃ l, (h.dict ref).Shows l := by
  unfold Cells.dict
  cases there : h.dicts[ref]? with
  | none => exact ⟨[], Dict.Shows.empty⟩
  | some d =>
    obtain ⟨ops, rfl⟩ := made d (Array.mem_of_getElem? there)
    exact ⟨_, (Dict.all_shows Dict.Shows.empty (Nat.zero_le _) ops).2.1⟩

namespace Value

variable {h : Cells} {d : Nat} {a b c : Value}

/-! ### Identity -/

/-- What tells a value from all others. -/
inductive Identity where
  | none
  | bool (b : Bool)
  | int (i : Int64)
  | str (text : String)
  | list (ref : Nat)
  | dict (ref : Nat)
  | tuple (id : Nat)
  | function (id : Nat)
  | exception (id : Nat)
  | type (t : ValueType)
  | module (m : Module)
  | builtin (b : Builtin)
  | stream (s : Stream)

/-- Floating point numbers, ranges and methods have none. -/
def identity? : Value → Option Identity
  | none => some .none
  | bool b => some (.bool b)
  | int i => some (.int i)
  | str text => some (.str text)
  | list ref => some (.list ref)
  | dict ref => some (.dict ref)
  | tuple id _ => some (.tuple id)
  | function id _ _ _ => some (.function id)
  | exception id _ => some (.exception id)
  | type t => some (.type t)
  | module m => some (.module m)
  | builtin b => some (.builtin b)
  | stream s => some (.stream s)
  | _ => Option.none

theorem same_iff : a.same b = true ↔ a.identity? = b.identity? ∧ a.identity?.isSome := by
  cases a <;> cases b <;> simp [same, identity?]

theorem same_symm (one : a.same b = true) : b.same a = true := by
  rw [same_iff] at one ⊢
  exact ⟨one.1.symm, one.1 ▸ one.2⟩

theorem same_trans (first : a.same b = true) (second : b.same c = true) : a.same c = true := by
  rw [same_iff] at first second ⊢
  exact ⟨first.1.trans second.1, first.2⟩

/-- Neither a number, a text, a container nor a range. -/
def Plain : Value → Prop
  | bool _ | int _ | float _ | str _ | list _ | tuple .. | dict _ | range _ => False
  | _ => True

theorem eq_text_of_same {text : String} (one : (str text).same b = true) : b = str text := by
  rw [same_iff] at one
  revert one
  cases b <;> simp [identity?, eq_comm]

theorem Plain.of_same (plain : a.Plain) (one : a.same b = true) : b.Plain := by
  rw [same_iff] at one
  revert plain one
  cases a <;> cases b <;> simp [Plain, identity?]

theorem equalWithin_plain (plain : a.Plain ∨ b.Plain) : equalWithin h d a b = .ok (a.same b) := by
  cases a <;> cases b <;> first | cases d <;> rfl | cases plain <;> contradiction

/-! ### Numbers and texts -/

theorem Number.eq_comm (x y : Number) : x.eq y = y.eq x := by
  cases x <;> cases y <;> first | exact Bool.beq_comm | exact Double.eq_comm _ _

theorem equalWithin_numbers {x y : Number} (first : a.number? = some x) (second : b.number? = some y) :
    equalWithin h d a b = .ok (x.eq y) := by
  unfold equalWithin
  rw [first, second]
  rfl

theorem equalWithin_text {text : String} : equalWithin h d (str text) b = .ok ((str text).same b) := by
  cases b <;> cases d <;> rfl

theorem number?_of_notFloat (whole : a.NotFloat) {x : Number} (number : a.number? = some x) :
    ∃ i, a.int? = some i ∧ x = .int i := by
  cases a with
  | bool b => exact ⟨boolInt b, rfl, by simpa [number?] using number.symm⟩
  | int i => exact ⟨i, rfl, by simpa [number?] using number.symm⟩
  | float d => exact absurd rfl (whole d)
  | _ => cases number

/-! ### Containers and ranges -/

/-- Items place by place, one container deeper. -/
def equalItems (h : Cells) (depth : Nat) (xs ys : List Value) : Except Exception Bool :=
  if xs.length ≠ ys.length then .ok false else inside depth fun depth => allEqual (equalWithin h depth) xs ys

/-- Entries key by key, one container deeper. -/
def equalEntries (h : Cells) (depth : Nat) (a b : Dict) : Except Exception Bool :=
  if a.size ≠ b.size then .ok false else inside depth fun depth => allIn (equalWithin h depth) b a.toList

theorem equalWithin_list (r s : Nat) : equalWithin h d (list r) (list s) =
    if r = s then .ok true else equalItems h d (h.list r).toList (h.list s).toList := by
  cases d <;> simp [equalWithin, equalItems, inside, number?] <;> rfl

theorem equalWithin_tuple (i j : Nat) (xs ys : List Value) :
    equalWithin h d (tuple i xs) (tuple j ys) = equalItems h d xs ys := by
  cases d <;> rfl

theorem equalWithin_dict (r s : Nat) : equalWithin h d (dict r) (dict s) =
    if r = s then .ok true else equalEntries h d (h.dict r) (h.dict s) := by
  cases d <;> simp [equalWithin, equalEntries, inside, number?] <;> rfl

theorem equalWithin_range (r s : Range) : equalWithin h d (range r) (range s) = .ok (r.same s) := by
  cases d <;> rfl

/-! ### Parts of containers -/

theorem both_true {r s : Except Exception Bool} :
    (do if ← r then s else return false) = .ok true ↔ r = .ok true ∧ s = .ok true := by
  cases r with
  | error e => simp [bind, Except.bind]
  | ok p => cases p <;> simp [bind, Except.bind, pure, Except.pure]

theorem both_false {r s : Except Exception Bool} (no : (do if ← r then s else return false) = .ok false) :
    r = .ok false ∨ s = .ok false := by
  cases r with
  | error e => cases no
  | ok p =>
    cases p with
    | false => exact .inl rfl
    | true => exact .inr no

/-- Whatever holds of answers, and of the results of both comparisons, holds of the result. -/
theorem both_ends {ends : Except Exception Bool → Prop} {r s : Except Exception Bool} (answer : ∀ p, ends (.ok p))
    (first : ends r) (second : ends s) : ends (do if ← r then s else return false) := by
  cases r with
  | error e => exact first
  | ok p =>
    cases p with
    | false => exact answer false
    | true => exact second

section Parts

variable {eq : Value → Value → Except Exception Bool} {ends : Except Exception Bool → Prop} {xs ys : List Value}

theorem allEqual_true :
    allEqual eq xs ys = .ok true ↔ ∀ (i : Nat) (x y), xs[i]? = some x → ys[i]? = some y → eq x y = .ok true := by
  fun_induction allEqual eq xs ys with
  | case1 x xs y ys ih =>
    rw [both_true, ih]
    constructor
    · rintro ⟨first, rest⟩ (_ | i) x' y' here there
      · cases here
        cases there
        exact first
      · exact rest i x' y' here there
    · intro all
      exact ⟨all 0 x y rfl rfl, fun i => all (i + 1)⟩
  | case2 xs ys short =>
    refine ⟨fun _ i x y here there => ?_, fun _ => rfl⟩
    match xs, ys, here, there with
    | x :: xs, y :: ys, _, _ => exact (short x xs y ys rfl rfl).elim

theorem allEqual_false (no : allEqual eq xs ys = .ok false) :
    ∃ (i : Nat) (x y : Value), xs[i]? = some x ∧ ys[i]? = some y ∧ eq x y = .ok false := by
  fun_induction allEqual eq xs ys with
  | case1 x xs y ys ih =>
    obtain first | rest := both_false no
    · exact ⟨0, x, y, rfl, rfl, first⟩
    · obtain ⟨i, found⟩ := ih rest
      exact ⟨i + 1, found⟩
  | case2 => cases no

theorem allEqual_ends (answer : ∀ p, ends (.ok p))
    (each : ∀ (i : Nat) (x y), xs[i]? = some x → ys[i]? = some y → ends (eq x y)) : ends (allEqual eq xs ys) := by
  fun_induction allEqual eq xs ys with
  | case1 x xs y ys ih => exact both_ends answer (each 0 x y rfl rfl) (ih fun i => each (i + 1))
  | case2 => exact answer true

variable {dct : Dict} {l listed : Listing}

theorem get?_listed (shows : dct.Shows l) {e : Listed} (keyed : e.key.key = .ok e.parts) :
    dct.get? e.key = .ok (l.find? e.parts) := by
  rw [Dict.get?, keyed, ← shows.find?_eq]
  rfl

theorem allIn_cons (shows : dct.Shows l) {e : Listed} (keyed : e.key.key = .ok e.parts) (es : List (Value × Value)) :
    allIn eq dct (e.entry :: es) = match l.find? e.parts with
      | Option.none => .ok false
      | some other => do if ← eq other e.value then allIn eq dct es else return false := by
  rw [Listed.entry, allIn, get?_listed shows keyed]
  cases l.find? e.parts <;> rfl

theorem allIn_true (shows : dct.Shows l) (keyed : ∀ e ∈ listed, e.key.key = .ok e.parts)
    (yes : allIn eq dct (listed.map (·.entry)) = .ok true) :
    ∀ e ∈ listed, ∃ f ∈ l, f.parts = e.parts ∧ eq f.value e.value = .ok true := by
  induction listed with
  | nil => exact List.forall_mem_nil _
  | cons e rest ih =>
    rw [List.forall_mem_cons] at keyed ⊢
    rw [List.map_cons, allIn_cons shows keyed.1] at yes
    cases found : l.find? e.parts with
    | none => simp [found] at yes
    | some other =>
      simp only [found, both_true] at yes
      obtain ⟨f, there, parts, rfl⟩ := Listing.mem_of_find? found
      exact ⟨⟨f, there, parts, yes.1⟩, ih keyed.2 yes.2⟩

theorem allIn_of_each (shows : dct.Shows l) (keyed : ∀ e ∈ listed, e.key.key = .ok e.parts)
    (each : ∀ e ∈ listed, ∃ f ∈ l, f.parts = e.parts ∧ eq f.value e.value = .ok true) :
    allIn eq dct (listed.map (·.entry)) = .ok true := by
  induction listed with
  | nil => rfl
  | cons e rest ih =>
    rw [List.forall_mem_cons] at keyed each
    obtain ⟨⟨f, there, parts, equal⟩, more⟩ := each
    have found : l.find? e.parts = some f.value := parts ▸ Listing.find?_of_mem shows.distinct there
    rw [List.map_cons, allIn_cons shows keyed.1, found]
    exact both_true.mpr ⟨equal, ih keyed.2 more⟩

theorem allIn_false (shows : dct.Shows l) (keyed : ∀ e ∈ listed, e.key.key = .ok e.parts)
    (no : allIn eq dct (listed.map (·.entry)) = .ok false) :
    ∃ e ∈ listed, ∀ f ∈ l, f.parts = e.parts → eq f.value e.value = .ok false := by
  induction listed with
  | nil => cases no
  | cons e rest ih =>
    rw [List.forall_mem_cons] at keyed
    rw [List.map_cons, allIn_cons shows keyed.1] at no
    have there (f : Listed) (mem : f ∈ l) (parts : f.parts = e.parts) : l.find? e.parts = some f.value :=
      parts ▸ Listing.find?_of_mem shows.distinct mem
    cases found : l.find? e.parts with
    | none =>
      refine ⟨e, List.mem_cons_self, fun f mem parts => ?_⟩
      cases (there f mem parts).symm.trans found
    | some other =>
      simp only [found] at no
      obtain first | later := both_false no
      · refine ⟨e, List.mem_cons_self, fun f mem parts => ?_⟩
        rwa [Option.some.inj ((there f mem parts).symm.trans found)]
      · obtain ⟨e, mem, differs⟩ := ih keyed.2 later
        exact ⟨e, List.mem_cons_of_mem _ mem, differs⟩

theorem allIn_ends (shows : dct.Shows l) (keyed : ∀ e ∈ listed, e.key.key = .ok e.parts)
    (answer : ∀ p, ends (.ok p)) (each : ∀ e ∈ listed, ∀ f ∈ l, ends (eq f.value e.value)) :
    ends (allIn eq dct (listed.map (·.entry))) := by
  induction listed with
  | nil => exact answer true
  | cons e rest ih =>
    rw [List.forall_mem_cons] at keyed each
    rw [List.map_cons, allIn_cons shows keyed.1]
    cases found : l.find? e.parts with
    | none => exact answer false
    | some other =>
      obtain ⟨f, there, -, rfl⟩ := Listing.mem_of_find? found
      exact both_ends answer (each.1 f there) (ih keyed.2 each.2)

end Parts

/-! ### One container deeper -/

variable {ends : Except Exception Bool → Prop} {xs ys : List Value} {left right : Dict} {l m : Listing}

/-- Items are equal place by place. -/
structure ItemsAgree (h : Cells) (d : Nat) (xs ys : List Value) : Prop where
  size : xs.length = ys.length
  items : ∀ (i : Nat) (x y), xs[i]? = some x → ys[i]? = some y → equalWithin h d x y = .ok true

/-- Entries pair off by their keys, with equal values. -/
structure EntriesAgree (h : Cells) (d : Nat) (l m : Listing) : Prop where
  paired : ∃ pairs : List (Listed × Listed), pairs.map Prod.fst = l ∧ (pairs.map Prod.snd).Perm m ∧
    ∀ p ∈ pairs, p.2.parts = p.1.parts ∧ equalWithin h d p.2.value p.1.value = .ok true

namespace EntriesAgree

theorem of_each (first : (l.map (·.parts)).Nodup) (second : (m.map (·.parts)).Nodup) (length : l.length = m.length)
    (each : ∀ f ∈ l, ∃ g ∈ m, g.parts = f.parts ∧ equalWithin h d g.value f.value = .ok true) :
    EntriesAgree h d l m := by
  obtain ⟨pairs, fst, snd, parts⟩ := Listing.paired first length fun f mem =>
    let ⟨g, there, parts, _⟩ := each f mem; ⟨g, there, parts⟩
  refine ⟨pairs, fst, snd, fun p mem => ⟨parts p mem, ?_⟩⟩
  obtain ⟨g, there, same, equal⟩ := each p.1 (fst ▸ List.mem_map_of_mem mem)
  have paired : p.2 ∈ m := snd.subset (List.mem_map_of_mem mem)
  rwa [List.inj_on_of_nodup_map second paired there ((parts p mem).trans same.symm)]

theorem length (agree : EntriesAgree h d l m) : l.length = m.length := by
  obtain ⟨pairs, rfl, second, -⟩ := agree.paired
  rw [← second.length_eq, List.length_map, List.length_map]

theorem counterpart (agree : EntriesAgree h d l m) {f : Listed} (mem : f ∈ l) :
    ∃ g ∈ m, g.parts = f.parts ∧ equalWithin h d g.value f.value = .ok true := by
  obtain ⟨pairs, rfl, second, entries⟩ := agree.paired
  obtain ⟨p, paired, rfl⟩ := List.mem_map.mp mem
  exact ⟨p.2, second.subset (List.mem_map_of_mem paired), entries p paired⟩

theorem counterpart_back (agree : EntriesAgree h d l m) {g : Listed} (mem : g ∈ m) :
    ∃ f ∈ l, g.parts = f.parts ∧ equalWithin h d g.value f.value = .ok true := by
  obtain ⟨pairs, rfl, second, entries⟩ := agree.paired
  obtain ⟨p, paired, rfl⟩ := List.mem_map.mp (second.symm.subset mem)
  exact ⟨p.1, List.mem_map_of_mem paired, entries p paired⟩

end EntriesAgree

theorem equalItems_true (yes : equalItems h d xs ys = .ok true) : ∃ e, d = e + 1 ∧ ItemsAgree h e xs ys := by
  rw [equalItems] at yes
  split at yes
  · cases yes
  · next length =>
    cases d with
    | zero => cases yes
    | succ e => exact ⟨e, rfl, not_not.mp length, allEqual_true.mp yes⟩

theorem equalItems_false (length : xs.length = ys.length) (no : equalItems h d xs ys = .ok false) :
    ∃ e, d = e + 1 ∧
      ∃ (i : Nat) (x y : Value), xs[i]? = some x ∧ ys[i]? = some y ∧ equalWithin h e x y = .ok false := by
  rw [equalItems, if_neg (not_not.mpr length)] at no
  cases d with
  | zero => cases no
  | succ e => exact ⟨e, rfl, allEqual_false no⟩

theorem equalItems_ends (answer : ∀ p, ends (.ok p)) (deep : d = 0 → ends (.error tooDeep))
    (each : ∀ e, d = e + 1 → ∀ (i : Nat) (x y), xs[i]? = some x → ys[i]? = some y → ends (equalWithin h e x y)) :
    ends (equalItems h d xs ys) := by
  unfold equalItems
  split
  · exact answer false
  · cases d with
    | zero => exact deep rfl
    | succ e => exact allEqual_ends answer (each e rfl)

theorem equalEntries_true (first : left.Shows l) (second : right.Shows m)
    (yes : equalEntries h d left right = .ok true) : ∃ e, d = e + 1 ∧ EntriesAgree h e l m := by
  rw [equalEntries] at yes
  split at yes
  · cases yes
  · next size =>
    cases d with
    | zero => cases yes
    | succ e =>
      have length : l.length = m.length := by rw [← first.live, ← second.live]; exact not_not.mp size
      rw [inside, first.entries] at yes
      exact ⟨e, rfl, .of_each first.distinct second.distinct length (allIn_true second first.keyed yes)⟩

theorem equalEntries_false (first : left.Shows l) (second : right.Shows m) (length : l.length = m.length)
    (no : equalEntries h d left right = .ok false) :
    ∃ e, d = e + 1 ∧ ∃ f ∈ l, ∀ g ∈ m, g.parts = f.parts → equalWithin h e g.value f.value = .ok false := by
  have size : left.size = right.size := first.live.trans (length.trans second.live.symm)
  rw [equalEntries, if_neg (not_not.mpr size)] at no
  cases d with
  | zero => cases no
  | succ e =>
    rw [inside, first.entries] at no
    exact ⟨e, rfl, allIn_false second first.keyed no⟩

theorem equalEntries_ends (first : left.Shows l) (second : right.Shows m) (answer : ∀ p, ends (.ok p))
    (deep : d = 0 → ends (.error tooDeep))
    (each : ∀ e, d = e + 1 → ∀ f ∈ l, ∀ g ∈ m, ends (equalWithin h e g.value f.value)) :
    ends (equalEntries h d left right) := by
  unfold equalEntries
  split
  · exact answer false
  · cases d with
    | zero => exact deep rfl
    | succ e =>
      rw [inside, first.entries]
      exact allIn_ends second first.keyed answer (each e rfl)

/-! ### Every comparison -/

/-- What a comparison comes to, by the kinds of the two values. -/
inductive Compared (h : Cells) (d : Nat) : Value → Value → Except Exception Bool → Prop
  | numbers {a b : Value} {x y : Number} (first : a.number? = some x) (second : b.number? = some y) :
    Compared h d a b (.ok (x.eq y))
  | text (text : String) (b : Value) : Compared h d (str text) b (.ok ((str text).same b))
  | lists (r s : Nat) : Compared h d (list r) (list s)
    (if r = s then .ok true else equalItems h d (h.list r).toList (h.list s).toList)
  | tuples (i j : Nat) (xs ys : List Value) : Compared h d (tuple i xs) (tuple j ys) (equalItems h d xs ys)
  | dicts (r s : Nat) : Compared h d (dict r) (dict s)
    (if r = s then .ok true else equalEntries h d (h.dict r) (h.dict s))
  | ranges (r s : Range) : Compared h d (range r) (range s) (.ok (r.same s))
  | plain {a : Value} (plain : a.Plain) (b : Value) : Compared h d a b (.ok (a.same b))
  | unlike (a b : Value) : Compared h d a b (.ok false)

theorem compared (h : Cells) (d : Nat) (a b : Value) : Compared h d a b (equalWithin h d a b) := by
  have unlike (no : equalWithin h d a b = .ok false) : Compared h d a b (equalWithin h d a b) := no ▸ .unlike a b
  have alone (plain : a.Plain) : Compared h d a b (equalWithin h d a b) :=
    equalWithin_plain (.inl plain) ▸ .plain plain b
  cases a with
  | bool _ | int _ | float _ =>
    cases b with
    | bool _ | int _ | float _ =>
      rw [equalWithin_numbers rfl rfl]
      exact .numbers rfl rfl
    | _ => exact unlike (by cases d <;> rfl)
  | str text =>
    rw [equalWithin_text]
    exact .text text b
  | list r =>
    cases b with
    | list s =>
      rw [equalWithin_list]
      exact .lists r s
    | _ => exact unlike (by cases d <;> rfl)
  | tuple i xs =>
    cases b with
    | tuple j ys =>
      rw [equalWithin_tuple]
      exact .tuples i j xs ys
    | _ => exact unlike (by cases d <;> rfl)
  | dict r =>
    cases b with
    | dict s =>
      rw [equalWithin_dict]
      exact .dicts r s
    | _ => exact unlike (by cases d <;> rfl)
  | range r =>
    cases b with
    | range s =>
      rw [equalWithin_range]
      exact .ranges r s
    | _ => exact unlike (by cases d <;> rfl)
  | _ => exact alone trivial

variable {listed : Nat → Listing}

theorem value_mem_parts (shows : ∀ ref, (h.dict ref).Shows (listed ref)) {ref : Nat} {e : Listed}
    (mem : e ∈ listed ref) : e.value ∈ (dict ref).parts h ∧ e.key ∈ (dict ref).parts h := by
  have entry : e.entry ∈ (h.dict ref).toList := (shows ref).entries ▸ List.mem_map_of_mem mem
  constructor <;> exact List.mem_flatMap.mpr ⟨e.entry, entry, by simp [Listed.entry]⟩

/-- There is an answer, or both values have containers nested deeper than the comparison looks. -/
def Answered (h : Cells) (d : Nat) (a b : Value) (r : Except Exception Bool) : Prop :=
  (∃ p, r = .ok p) ∨ r = .error tooDeep ∧ ¬ Shallow h d a ∧ ¬ Shallow h d b

theorem Answered.symm {r : Except Exception Bool} (answered : Answered h d a b r) : Answered h d b a r :=
  answered.imp_right fun ⟨raised, deepA, deepB⟩ => ⟨raised, deepB, deepA⟩

theorem Answered.part {x y : Value} {r : Except Exception Bool} (answered : Answered h d x y r) (here : x ∈ a.parts h)
    (there : y ∈ b.parts h) : Answered h (d + 1) a b r :=
  answered.imp_right fun ⟨raised, deepX, deepY⟩ =>
    ⟨raised, fun shallow => deepX (shallow x here), fun shallow => deepY (shallow y there)⟩

theorem answered (shows : ∀ ref, (h.dict ref).Shows (listed ref)) (d : Nat) (a b : Value) :
    Answered h d a b (equalWithin h d a b) := by
  induction d using Nat.strong_induction_on generalizing a b with
  | _ d ih =>
    have result := compared h d a b
    generalize equalWithin h d a b = r at result
    have answer (p : Bool) : Answered h d a b (.ok p) := .inl ⟨p, rfl⟩
    cases result with
    | numbers | text | ranges | plain | unlike => exact answer _
    | lists r s =>
      split
      · exact answer true
      · refine equalItems_ends answer (fun none => none ▸ .inr ⟨rfl, id, id⟩) fun e deeper i x y here there => ?_
        exact deeper ▸ (ih e (by omega) x y).part (List.mem_of_getElem? here) (List.mem_of_getElem? there)
    | tuples i j xs ys =>
      refine equalItems_ends answer (fun none => none ▸ .inr ⟨rfl, id, id⟩) fun e deeper i x y here there => ?_
      exact deeper ▸ (ih e (by omega) x y).part (List.mem_of_getElem? here) (List.mem_of_getElem? there)
    | dicts r s =>
      split
      · exact answer true
      · refine equalEntries_ends (shows r) (shows s) answer (fun none => none ▸ .inr ⟨rfl, id, id⟩)
          fun e deeper f here g there => ?_
        have part := ih e (by omega) g.value f.value
        exact deeper ▸ part.symm.part (value_mem_parts shows here).1 (value_mem_parts shows there).1

/-- Why two values are equal at some depth. -/
inductive Agrees (h : Cells) (listed : Nat → Listing) : Nat → Value → Value → Prop
  | numbers {d : Nat} {a b : Value} {x y : Number} (first : a.number? = some x) (second : b.number? = some y)
    (equal : x.eq y = true) : Agrees h listed d a b
  | text {d : Nat} (text : String) : Agrees h listed d (str text) (str text)
  | oneList {d : Nat} (ref : Nat) : Agrees h listed d (list ref) (list ref)
  | lists {d : Nat} {r s : Nat} (agree : ItemsAgree h d (h.list r).toList (h.list s).toList) :
    Agrees h listed (d + 1) (list r) (list s)
  | tuples {d : Nat} (i j : Nat) {xs ys : List Value} (agree : ItemsAgree h d xs ys) :
    Agrees h listed (d + 1) (tuple i xs) (tuple j ys)
  | oneDict {d : Nat} (ref : Nat) : Agrees h listed d (dict ref) (dict ref)
  | dicts {d : Nat} {r s : Nat} (agree : EntriesAgree h d (listed r) (listed s)) :
    Agrees h listed (d + 1) (dict r) (dict s)
  | ranges {d : Nat} {r s : Range} (integers : r.toList = s.toList) : Agrees h listed d (range r) (range s)
  | plain {d : Nat} {a b : Value} (plain : a.Plain) (one : a.same b = true) : Agrees h listed d a b

theorem agrees (shows : ∀ ref, (h.dict ref).Shows (listed ref)) (yes : equalWithin h d a b = .ok true) :
    Agrees h listed d a b := by
  have result := compared h d a b
  rw [yes] at result
  generalize outcome : Except.ok true = r at result
  cases result with
  | numbers first second => exact .numbers first second (Except.ok.inj outcome).symm
  | text text b =>
    obtain rfl := eq_text_of_same (Except.ok.inj outcome).symm
    exact .text text
  | lists r s =>
    split at outcome
    · next one => exact one ▸ .oneList r
    · obtain ⟨e, rfl, agree⟩ := equalItems_true outcome.symm
      exact .lists agree
  | tuples i j xs ys =>
    obtain ⟨e, rfl, agree⟩ := equalItems_true outcome.symm
    exact .tuples i j agree
  | dicts r s =>
    split at outcome
    · next one => exact one ▸ .oneDict r
    · obtain ⟨e, rfl, agree⟩ := equalEntries_true (shows r) (shows s) outcome.symm
      exact .dicts agree
  | ranges r s => exact .ranges ((Range.same_iff r s).mp (Except.ok.inj outcome).symm)
  | plain plain b => exact .plain plain (Except.ok.inj outcome).symm
  | unlike => cases outcome

/-! ### The same answer from what agrees -/

theorem ItemsAgree.equalItems (agree : ItemsAgree h d xs ys) : equalItems h (d + 1) xs ys = .ok true := by
  rw [Value.equalItems, if_neg (not_not.mpr agree.size)]
  exact allEqual_true.mpr agree.items

theorem EntriesAgree.equalEntries (first : left.Shows l) (second : right.Shows m) (agree : EntriesAgree h d l m) :
    equalEntries h (d + 1) left right = .ok true := by
  have size : left.size = right.size := first.live.trans (agree.length.trans second.live.symm)
  rw [Value.equalEntries, if_neg (not_not.mpr size), inside, first.entries]
  exact allIn_of_each second first.keyed fun f mem => agree.counterpart mem

theorem equal_of_agrees (shows : ∀ ref, (h.dict ref).Shows (listed ref)) (agrees : Agrees h listed d a b) :
    equalWithin h d a b = .ok true := by
  cases agrees with
  | numbers first second equal => rw [equalWithin_numbers first second, equal]
  | text text => simp [equalWithin_text, same]
  | oneList r => rw [equalWithin_list, if_pos rfl]
  | oneDict r => rw [equalWithin_dict, if_pos rfl]
  | lists agree => rw [equalWithin_list, agree.equalItems, ite_self]
  | tuples i j agree => rw [equalWithin_tuple, agree.equalItems]
  | @dicts _ r s agree => rw [equalWithin_dict, agree.equalEntries (shows r) (shows s), ite_self]
  | ranges integers => rw [equalWithin_range, (Range.same_iff _ _).mpr integers]
  | plain plain one => rw [equalWithin_plain (.inl plain), one]

/-! ### Either way around -/

theorem ItemsAgree.symm (turned : ∀ x y, equalWithin h d x y = .ok true → equalWithin h d y x = .ok true)
    (agree : ItemsAgree h d xs ys) : ItemsAgree h d ys xs :=
  ⟨agree.size.symm, fun i y x there here => turned x y (agree.items i x y here there)⟩

theorem EntriesAgree.symm (turned : ∀ x y, equalWithin h d x y = .ok true → equalWithin h d y x = .ok true)
    (first : left.Shows l) (second : right.Shows m) (agree : EntriesAgree h d l m) : EntriesAgree h d m l := by
  refine .of_each second.distinct first.distinct agree.length.symm fun g there => ?_
  obtain ⟨f, here, parts, equal⟩ := agree.counterpart_back there
  exact ⟨f, here, parts.symm, turned _ _ equal⟩

theorem equalWithin_symm (shows : ∀ ref, (h.dict ref).Shows (listed ref)) (yes : equalWithin h d a b = .ok true) :
    equalWithin h d b a = .ok true := by
  induction d using Nat.strong_induction_on generalizing a b with
  | _ d ih =>
    apply equal_of_agrees shows
    cases agrees shows yes with
    | numbers first second equal => exact .numbers second first ((Number.eq_comm _ _).trans equal)
    | text text => exact .text text
    | oneList r => exact .oneList r
    | oneDict r => exact .oneDict r
    | @lists d r s agree => exact .lists (agree.symm fun x y => ih d (Nat.lt_succ_self d))
    | @tuples d i j xs ys agree => exact .tuples j i (agree.symm fun x y => ih d (Nat.lt_succ_self d))
    | @dicts d r s agree => exact .dicts (agree.symm (fun x y => ih d (Nat.lt_succ_self d)) (shows r) (shows s))
    | ranges integers => exact .ranges integers.symm
    | plain plain one => exact .plain (plain.of_same one) (same_symm one)

theorem equal_symm (shows : ∀ ref, (h.dict ref).Shows (listed ref)) (yes : equalWithin h d a b = .ok true) :
    equalWithin h d b a ≠ .ok false := by
  rw [equalWithin_symm shows yes]
  simp

/-! ### Equal to a third -/

theorem Agrees.number {y : Number} (agrees : Agrees h listed d b c) (number : b.number? = some y) :
    ∃ z, c.number? = some z ∧ y.eq z = true := by
  cases agrees with
  | @numbers _ _ _ _ z first second equal =>
    obtain rfl := Option.some.inj (number.symm.trans first)
    exact ⟨z, second, equal⟩
  | plain plain one => cases b <;> first | exact False.elim plain | cases number
  | _ => cases number

theorem ItemsAgree.trans {zs : List Value}
    (passed : ∀ x ∈ xs, ∀ y ∈ ys, ∀ z ∈ zs, equalWithin h d x y = .ok true → equalWithin h d y z = .ok true →
      equalWithin h d x z = .ok true)
    (agree : ItemsAgree h d xs ys) (agree' : ItemsAgree h d ys zs) : ItemsAgree h d xs zs := by
  refine ⟨agree.size.trans agree'.size, fun i x z here there => ?_⟩
  obtain ⟨inside, -⟩ := List.getElem?_eq_some_iff.mp here
  rw [agree.size] at inside
  have between : ys[i]? = some ys[i] := List.getElem?_eq_getElem inside
  exact passed x (List.mem_of_getElem? here) _ (List.mem_of_getElem? between) z (List.mem_of_getElem? there)
    (agree.items i x _ here between) (agree'.items i _ z between there)

/-- An entry, its counterpart in the second dict, and the counterpart of that in the third. -/
theorem EntriesAgree.trans {n : Listing}
    (passed : ∀ f ∈ l, ∀ g ∈ m, ∀ k ∈ n, equalWithin h d k.value g.value = .ok true →
      equalWithin h d g.value f.value = .ok true → equalWithin h d k.value f.value = .ok true)
    (first : left.Shows l) (third : right.Shows n) (agree : EntriesAgree h d l m) (agree' : EntriesAgree h d m n) :
    EntriesAgree h d l n := by
  refine .of_each first.distinct third.distinct (agree.length.trans agree'.length) fun f here => ?_
  obtain ⟨g, between, parts, equal⟩ := agree.counterpart here
  obtain ⟨k, there, parts', equal'⟩ := agree'.counterpart between
  exact ⟨k, there, parts'.trans parts, passed f here g between k there equal' equal⟩

theorem equalWithin_trans (shows : ∀ ref, (h.dict ref).Shows (listed ref)) (wholeA : Throughout h NotFloat a)
    (wholeB : Throughout h NotFloat b) (wholeC : Throughout h NotFloat c)
    (first : equalWithin h d a b = .ok true) (second : equalWithin h d b c = .ok true) :
    equalWithin h d a c = .ok true := by
  induction d using Nat.strong_induction_on generalizing a b c with
  | _ d ih =>
    have agrees_second := agrees shows second
    cases agrees shows first with
    | text => exact second
    | oneList => exact second
    | oneDict => exact second
    | numbers here there equal =>
      obtain ⟨z, third, equal'⟩ := agrees_second.number there
      obtain ⟨i, -, rfl⟩ := number?_of_notFloat wholeA.here here
      obtain ⟨j, -, rfl⟩ := number?_of_notFloat wholeB.here there
      obtain ⟨k, -, rfl⟩ := number?_of_notFloat wholeC.here third
      simp only [Number.eq, beq_iff_eq] at equal equal'
      rw [equalWithin_numbers here third]
      simp [Number.eq, equal, equal']
    | @lists d r s agree =>
      cases agrees_second with
      | numbers third => cases third
      | plain plain => exact False.elim plain
      | oneList => exact first
      | @lists _ _ t agree' =>
        exact equal_of_agrees shows (.lists (agree.trans (fun x here y there z third =>
          ih d (Nat.lt_succ_self d) (wholeA.held here) (wholeB.held there) (wholeC.held third)) agree'))
    | @tuples d i j xs ys agree =>
      cases agrees_second with
      | numbers third => cases third
      | plain plain => exact False.elim plain
      | @tuples _ _ k _ zs agree' =>
        exact equal_of_agrees shows (.tuples i k (agree.trans (fun x here y there z third =>
          ih d (Nat.lt_succ_self d) (wholeA.held here) (wholeB.held there) (wholeC.held third)) agree'))
    | @dicts d r s agree =>
      cases agrees_second with
      | numbers third => cases third
      | plain plain => exact False.elim plain
      | oneDict => exact first
      | @dicts _ _ t agree' =>
        -- the values are compared the other way around, so the third dict comes first
        exact equal_of_agrees shows (.dicts (agree.trans (fun f here g between k there =>
          ih d (Nat.lt_succ_self d) (wholeC.held (value_mem_parts shows there).1)
            (wholeB.held (value_mem_parts shows between).1) (wholeA.held (value_mem_parts shows here).1))
          (shows r) (shows t) agree'))
    | ranges integers =>
      cases agrees_second with
      | ranges integers' => exact equal_of_agrees shows (.ranges (integers.trans integers'))
      | numbers first => cases first
      | plain plain => cases plain
    | plain plain one =>
      rw [equalWithin_plain (.inl (plain.of_same one))] at second
      rw [equalWithin_plain (.inl plain), same_trans one (Except.ok.inj second)]

theorem equal_trans (shows : ∀ ref, (h.dict ref).Shows (listed ref)) (wholeA : Throughout h NotFloat a)
    (wholeB : Throughout h NotFloat b) (wholeC : Throughout h NotFloat c)
    (first : equalWithin h d a b = .ok true) (second : equalWithin h d b c = .ok true) :
    equalWithin h d a c ≠ .ok false := by
  rw [equalWithin_trans shows wholeA wholeB wholeC first second]
  simp

end Value

end SnippetKernel
