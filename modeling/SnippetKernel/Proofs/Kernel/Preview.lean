import SnippetKernel.Kernel.Describe
import SnippetKernel.Proofs.Value.Rendering

/-! What a preview shows. The text of a value is cut short at a number of bytes, and what is shown is counted in
characters; the cut text and the whole one begin in the same way, as far as anything is shown. -/
namespace SnippetKernel

namespace Value

variable {h : Cells} {v : Value} {bound : Option Nat} {limit room : Nat} {around : List Container}
  {text cut full : String}

/-! ### What is written for each kind of value -/

theorem write_overfull (large : overfull bound text) : v.write h bound room around text = text := by
  unfold write
  exact if_pos large

theorem write_other (scalar : ¬ v.IsContainer) (fits : ¬ overfull bound text) :
    v.write h bound room around text = text ++ v.scalarText := by
  unfold write
  rw [if_neg fits]
  cases v with
  | list _ | tuple _ _ | dict _ => exact absurd trivial scalar
  | _ => cases room <;> rfl

theorem write_elided (container : v.IsContainer) (fits : ¬ overfull bound text) :
    v.write h bound 0 around text = text ++ v.ellipsis := by
  unfold write
  rw [if_neg fits]
  cases v with
  | list _ | tuple _ _ | dict _ => rfl
  | _ => cases container

theorem write_list_open (ref : Nat) (fits : ¬ overfull bound text) :
    (list ref).write h bound (room + 1) around text =
      if around.contains (.list ref) then text ++ "[...]"
      else writeItems (write h bound room (.list ref :: around)) bound true (text.push '[') (h.list ref).toList ++ "]" := by
  rw [write, if_neg fits]

theorem write_tuple_open (id : Nat) (items : List Value) (fits : ¬ overfull bound text) :
    (tuple id items).write h bound (room + 1) around text =
      writeItems (write h bound room around) bound true (text.push '(') items ++
        if items.length = 1 then ",)" else ")" := by
  rw [write, if_neg fits]

theorem write_dict_open (ref : Nat) (fits : ¬ overfull bound text) :
    (dict ref).write h bound (room + 1) around text =
      if around.contains (.dict ref) then text ++ "\x7b...\x7d"
      else
        writeEntries (write h bound room (.dict ref :: around)) bound true (text.push '\x7b') (h.dict ref).toList ++
          "\x7d" := by
  rw [write, if_neg fits]

/-! ### Writing only adds -/

/-- The second text begins with the first. -/
def Begins (front text : String) : Prop := front.toList <+: text.toList

theorem Begins.refl (text : String) : Begins text text := List.prefix_refl _

theorem Begins.trans {front text more : String} (first : Begins front text) (second : Begins text more) :
    Begins front more := List.IsPrefix.trans first second

theorem begins_append (text more : String) : Begins text (text ++ more) := by
  unfold Begins
  rw [String.toList_append]
  exact List.prefix_append _ _

theorem Begins.append {front text : String} (begins : Begins front text) (more : String) :
    Begins front (text ++ more) := begins.trans (begins_append text more)

theorem begins_push (text : String) (c : Char) : Begins text (text.push c) := by
  rw [String.push_eq_append]
  exact begins_append text _

theorem begins_comma (first : Bool) (text : String) : Begins text (if first then text else text ++ ", ") := by
  split
  · exact .refl text
  · exact begins_append text _

section

variable {write : String → Value → String}

theorem begins_writeItems (adds : ∀ text v, Begins text (write text v)) (first : Bool) (text : String)
    (items : List Value) : Begins text (writeItems write bound first text items) := by
  induction items generalizing first text with
  | nil => exact .refl text
  | cons item rest ih =>
    unfold writeItems
    split
    · exact .refl text
    · exact ((begins_comma first text).trans (adds _ item)).trans (ih false _)

theorem begins_writeEntries (adds : ∀ text v, Begins text (write text v)) (first : Bool) (text : String)
    (entries : List (Value × Value)) : Begins text (writeEntries write bound first text entries) := by
  induction entries generalizing first text with
  | nil => exact .refl text
  | cons entry rest ih =>
    unfold writeEntries
    split
    · exact .refl text
    · have keyed := ((begins_comma first text).trans (adds _ entry.1)).append ": "
      exact (keyed.trans (adds _ entry.2)).trans (ih false _)

end

theorem begins_write (h : Cells) (bound : Option Nat) (room : Nat) (around : List Container) (text : String)
    (v : Value) : Begins text (v.write h bound room around text) := by
  by_cases large : overfull bound text
  · rw [write_overfull large]
    exact .refl text
  induction room generalizing around text v with
  | zero =>
    by_cases container : v.IsContainer
    · rw [write_elided container large]
      exact begins_append text _
    · rw [write_other container large]
      exact begins_append text _
  | succ room ih =>
    have adds (around : List Container) (text : String) (v : Value) :
        Begins text (v.write h bound room around text) := by
      by_cases large : overfull bound text
      · rw [write_overfull large]
        exact .refl text
      · exact ih around text v large
    cases v with
    | list ref =>
      rw [write_list_open ref large]
      split
      · exact begins_append text _
      · exact ((begins_push text _).trans (begins_writeItems (adds _) true _ _)).append _
    | tuple id items =>
      rw [write_tuple_open id items large]
      exact ((begins_push text _).trans (begins_writeItems (adds _) true _ _)).append _
    | dict ref =>
      rw [write_dict_open ref large]
      split
      · exact begins_append text _
      · exact ((begins_push text _).trans (begins_writeEntries (adds _) true _ _)).append _
    | _ =>
      rw [write_other id large]
      exact begins_append text _

/-! ### Cut short and in full -/

/-- The two texts are the same, or they begin with the same text of more than `limit` bytes. -/
def AgreeTo (limit : Nat) (cut full : String) : Prop :=
  cut = full ∨ ∃ front, overfull (some limit) front ∧ Begins front cut ∧ Begins front full

theorem not_overfull_none : ¬ overfull Option.none text := Bool.false_ne_true

theorem Begins.overfull {front text : String} (begins : Begins front text) (large : overfull (some limit) front) :
    overfull (some limit) text := by
  obtain ⟨more, whole⟩ := begins
  have split : text = front ++ String.ofList more := by
    rw [← String.toList_inj, String.toList_append, String.toList_ofList, whole]
  simp only [Value.overfull, decide_eq_true_eq] at large ⊢
  rw [split, String.utf8ByteSize_append]
  omega

namespace AgreeTo

theorem append (agree : AgreeTo limit cut full) (more : String) : AgreeTo limit (cut ++ more) (full ++ more) := by
  obtain rfl | ⟨front, large, left, right⟩ := agree
  · exact .inl rfl
  · exact .inr ⟨front, large, left.append more, right.append more⟩

/-- Nothing was left out as long as the cut text is not overfull. -/
theorem same (agree : AgreeTo limit cut full) (fits : ¬ overfull (some limit) cut) : cut = full := by
  obtain same | ⟨front, large, left, -⟩ := agree
  · exact same
  · exact absurd (left.overfull large) fits

/-- What is added to the whole text when the cut one is overfull comes after what they share. -/
theorem beyond (agree : AgreeTo limit cut full) (large : overfull (some limit) cut) (added : Begins full text) :
    AgreeTo limit cut text := by
  obtain rfl | ⟨front, large, left, right⟩ := agree
  · exact .inr ⟨cut, large, .refl cut, added⟩
  · exact .inr ⟨front, large, left, right.trans added⟩

end AgreeTo

section

variable {short whole : String → Value → String}

theorem agree_writeItems (each : ∀ cut full v, AgreeTo limit cut full → AgreeTo limit (short cut v) (whole full v))
    (adds : ∀ text v, Begins text (whole text v)) (first : Bool) (agree : AgreeTo limit cut full)
    (items : List Value) :
    AgreeTo limit (writeItems short (some limit) first cut items) (writeItems whole Option.none first full items) := by
  induction items generalizing first cut full with
  | nil => exact agree
  | cons item rest ih =>
    by_cases large : overfull (some limit) cut
    · rw [writeItems, if_pos large]
      exact agree.beyond large (begins_writeItems adds first full _)
    · obtain rfl := agree.same large
      rw [writeItems, if_neg large, writeItems, if_neg not_overfull_none]
      exact ih false (each _ _ item (.inl rfl))

theorem agree_writeEntries (each : ∀ cut full v, AgreeTo limit cut full → AgreeTo limit (short cut v) (whole full v))
    (adds : ∀ text v, Begins text (whole text v)) (first : Bool) (agree : AgreeTo limit cut full)
    (entries : List (Value × Value)) :
    AgreeTo limit (writeEntries short (some limit) first cut entries)
      (writeEntries whole Option.none first full entries) := by
  induction entries generalizing first cut full with
  | nil => exact agree
  | cons entry rest ih =>
    by_cases large : overfull (some limit) cut
    · rw [writeEntries, if_pos large]
      exact agree.beyond large (begins_writeEntries adds first full _)
    · obtain rfl := agree.same large
      rw [writeEntries, if_neg large, writeEntries, if_neg not_overfull_none]
      exact ih false (each _ _ entry.2 ((each _ _ entry.1 (.inl rfl)).append ": "))

end

/-- Writing goes on from texts that agree to texts that agree. -/
theorem agree_write (h : Cells) (room : Nat) (around : List Container) (v : Value) (agree : AgreeTo limit cut full) :
    AgreeTo limit (v.write h (some limit) room around cut) (v.write h Option.none room around full) := by
  induction room generalizing around cut full v with
  | zero =>
    by_cases large : overfull (some limit) cut
    · rw [write_overfull large]
      exact agree.beyond large (begins_write h _ 0 around full v)
    · obtain rfl := agree.same large
      by_cases container : v.IsContainer
      · rw [write_elided container large, write_elided container not_overfull_none]
        exact .inl rfl
      · rw [write_other container large, write_other container not_overfull_none]
        exact .inl rfl
  | succ room ih =>
    by_cases large : overfull (some limit) cut
    · rw [write_overfull large]
      exact agree.beyond large (begins_write h _ (room + 1) around full v)
    · obtain rfl := agree.same large
      have adds (around : List Container) := begins_write h Option.none room around
      cases v with
      | list ref =>
        rw [write_list_open ref large, write_list_open ref not_overfull_none]
        split
        · exact .inl rfl
        · exact (agree_writeItems (fun _ _ v => ih _ v) (adds _) true (.inl rfl) _).append _
      | tuple id items =>
        rw [write_tuple_open id items large, write_tuple_open id items not_overfull_none]
        exact (agree_writeItems (fun _ _ v => ih _ v) (adds _) true (.inl rfl) _).append _
      | dict ref =>
        rw [write_dict_open ref large, write_dict_open ref not_overfull_none]
        split
        · exact .inl rfl
        · exact (agree_writeEntries (fun _ _ v => ih _ v) (adds _) true (.inl rfl) _).append _
      | _ =>
        rw [write_other id large, write_other id not_overfull_none]
        exact .inl rfl

theorem agree_reprWithin (h : Cells) (limit : Nat) (v : Value) : AgreeTo limit (v.reprWithin h limit) (v.repr h) :=
  agree_write h maxOpen [] v (.inl rfl)

/-! ### Bytes and characters -/

/-- No character has more than four bytes. -/
theorem utf8Len_le (cs : List Char) : String.utf8Len cs ≤ 4 * cs.length := by
  induction cs with
  | nil => simp
  | cons c rest ih =>
    have := c.utf8Size_le_four
    simp only [String.utf8Len_cons, List.length_cons]
    omega

/-- A limit that has room for `n` characters of any kind is beyond what is shown of `n` characters. -/
theorem AgreeTo.take {n : Nat} (agree : AgreeTo limit cut full) (wide : 4 * n ≤ limit) :
    (n < cut.length ↔ n < full.length) ∧ cut.toList.take n = full.toList.take n := by
  obtain rfl | ⟨front, large, left, right⟩ := agree
  · exact ⟨Iff.rfl, rfl⟩
  · have long : n < front.toList.length := by
      have bytes := utf8Len_le front.toList
      rw [← String.utf8ByteSize_ofList, String.ofList_toList] at bytes
      simp only [overfull, decide_eq_true_eq] at large
      omega
    have first := left.length_le
    have second := right.length_le
    have shared {text : String} (begins : Begins front text) : text.toList.take n = front.toList.take n := by
      obtain ⟨more, whole⟩ := begins
      rw [← whole, List.take_append_of_le_length (Nat.le_of_lt long)]
    simp only [String.length_toList] at first second long
    exact ⟨by omega, (shared left).trans (shared right).symm⟩

end Value

open Value

/-- A preview is the text of the value if that has at most 50 characters, and otherwise its first 50 characters and
an ellipsis, whatever the value holds and however many bytes its characters take. -/
theorem Describe.preview_repr (h : Cells) (v : Value) :
    preview h v = if (v.repr h).length ≤ 50 then v.repr h else String.ofList ((v.repr h).toList.take 50) ++ "..." := by
  have agree := agree_reprWithin h (previewLength * 4 + 4) v
  have shown : preview h v = if 50 < (v.reprWithin h (previewLength * 4 + 4)).length then
      String.ofList ((v.reprWithin h (previewLength * 4 + 4)).toList.take 50) ++ "..."
    else v.reprWithin h (previewLength * 4 + 4) := rfl
  obtain ⟨longer, front⟩ := agree.take (n := 50) (by decide)
  rw [shown]
  by_cases long : 50 < (v.repr h).length
  · rw [if_pos (longer.mpr long), if_neg (Nat.not_le_of_lt long), front]
  · have short := longer.not.mpr long
    rw [if_neg short, if_pos (Nat.le_of_not_lt long)]
    rw [← String.length_toList] at short long
    rwa [List.take_of_length_le (Nat.le_of_not_lt short), List.take_of_length_le (Nat.le_of_not_lt long),
      String.toList_inj] at front

end SnippetKernel
