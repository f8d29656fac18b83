import SnippetKernel.Proofs.Value.Chains
import SnippetKernel.Proofs.Value.Datum

/-! How values are written. The containers that are open around a value say whether an ellipsis is written for it; a
container that is not elided is written with all that it holds, however often the same things are in it. -/
namespace SnippetKernel.Value

/-- What is written for a container that is not looked into. -/
def ellipsis : Value → String
  | list _ => "[...]"
  | tuple .. => "(...)"
  | _ => "\x7b...\x7d"

/-- The list or dict is open already, or no more containers may be opened. -/
def Elided (opened : List Value) (v : Value) : Prop :=
  v ∈ opened ∧ (∀ id items, v ≠ tuple id items) ∨ opened.length = maxOpen

/-- The text is what is written for the value inside the containers `opened`, the innermost of them first. Exactly
the containers that are `elided` there are written as an ellipsis. -/
inductive Written (h : Cells) (elided : List Value → Value → Prop) : List Value → Value → String → Prop
  | scalar {opened : List Value} {v : Value} (scalar : ¬ v.IsContainer) : Written h elided opened v v.scalarText
  | ellipsis {opened : List Value} {v : Value} (container : v.IsContainer) (why : elided opened v) :
    Written h elided opened v v.ellipsis
  | list {opened : List Value} {ref : Nat} (text : Value → String) (whole : ¬ elided opened (list ref))
    (items : ∀ v ∈ (h.list ref).toList, Written h elided (list ref :: opened) v (text v)) :
    Written h elided opened (list ref) ("[" ++ ", ".intercalate ((h.list ref).toList.map text) ++ "]")
  | tuple {opened : List Value} {id : Nat} {items : List Value} (text : Value → String)
    (whole : ¬ elided opened (tuple id items))
    (inner : ∀ v ∈ items, Written h elided (tuple id items :: opened) v (text v)) :
    Written h elided opened (tuple id items)
      ("(" ++ ", ".intercalate (items.map text) ++ if items.length = 1 then ",)" else ")")
  | dict {opened : List Value} {ref : Nat} (text : Value → String) (whole : ¬ elided opened (dict ref))
    (keys : ∀ entry ∈ (h.dict ref).toList, Written h elided (dict ref :: opened) entry.1 (text entry.1))
    (values : ∀ entry ∈ (h.dict ref).toList, Written h elided (dict ref :: opened) entry.2 (text entry.2)) :
    Written h elided opened (dict ref)
      ("\x7b" ++ ", ".intercalate ((h.dict ref).toList.map fun entry => text entry.1 ++ ": " ++ text entry.2) ++ "\x7d")

variable {h : Cells}

/-! ### Things with commas between them -/

section Commas

variable {α : Type} {write : String → α → String} {shown : α → String}

/-- Writes all things. -/
def writeEach (write : String → α → String) (first : Bool) (text : String) : List α → String
  | [] => text
  | a :: rest => writeEach write false (write (if first then text else text ++ ", ") a) rest

theorem writeItems_eq (write : String → Value → String) (first : Bool) (text : String) (items : List Value) :
    writeItems write Option.none first text items = writeEach write first text items := by
  induction items generalizing first text with
  | nil => rfl
  | cons item rest ih =>
    rw [writeItems, if_neg (by simp [overfull]), ih]
    rfl

theorem writeEntries_eq (write : String → Value → String) (first : Bool) (text : String)
    (entries : List (Value × Value)) : writeEntries write Option.none first text entries =
      writeEach (fun text entry => write (write text entry.1 ++ ": ") entry.2) first text entries := by
  induction entries generalizing first text with
  | nil => rfl
  | cons entry rest ih =>
    rw [writeEntries, if_neg (by simp [overfull])]
    exact ih false _

theorem writeEach_joined {as : List α} (each : ∀ a ∈ as, ∀ text, write text a = text ++ shown a) (text : String) :
    writeEach write true text as = text ++ ", ".intercalate (as.map shown) := by
  induction as generalizing text with
  | nil => simp [writeEach]
  | cons a rest ih =>
    rw [List.forall_mem_cons] at each
    cases rest with
    | nil => simp [writeEach, each.1]
    | cons b rest =>
      -- a comma and then the others, as if they were the first
      have more := ih each.2 (text ++ shown a ++ ", ")
      rw [writeEach, if_pos rfl, each.1]
      refine Eq.trans ?_ (more.trans ?_)
      · rfl
      · simp [String.intercalate_cons_cons, String.append_assoc]

end Commas

/-! ### Each value -/

section

variable {room : Nat} {opened : List Value} {around : List Container} {v : Value}

theorem write_container_full (container : v.IsContainer) (text : String) :
    v.write h Option.none 0 around text = text ++ v.ellipsis := by
  cases v with
  | list _ | tuple _ _ | dict _ =>
    rw [write, if_neg (by simp [overfull])]
    rfl
  | _ => cases container

theorem write_list (ref : Nat) (text : String) : (list ref).write h Option.none (room + 1) around text =
    if around.contains (.list ref) then text ++ "[...]"
    else writeEach (write h Option.none room (.list ref :: around)) true (text ++ "[") (h.list ref).toList ++ "]" := by
  rw [write, if_neg (by simp [overfull])]
  simp only [writeItems_eq, String.push_eq_append]
  rfl

theorem write_tuple (id : Nat) (items : List Value) (text : String) :
    (tuple id items).write h Option.none (room + 1) around text =
      writeEach (write h Option.none room around) true (text ++ "(") items ++
        if items.length = 1 then ",)" else ")" := by
  rw [write, if_neg (by simp [overfull])]
  simp only [writeItems_eq, String.push_eq_append]
  rfl

theorem write_dict (ref : Nat) (text : String) : (dict ref).write h Option.none (room + 1) around text =
    if around.contains (.dict ref) then text ++ "\x7b...\x7d"
    else
      writeEach (fun text entry => write h Option.none room (.dict ref :: around)
          (write h Option.none room (.dict ref :: around) text entry.1 ++ ": ") entry.2) true (text ++ "\x7b")
        (h.dict ref).toList ++ "\x7d" := by
  rw [write, if_neg (by simp [overfull])]
  simp only [writeEntries_eq, String.push_eq_append]
  rfl

theorem mem_around_cons (same : ∀ c : Container, c ∈ around ↔ c.value ∈ opened) (new c : Container) :
    c ∈ new :: around ↔ c.value ∈ new.value :: opened := by
  have one : c = new ↔ c.value = new.value := by cases c <;> cases new <;> simp [Container.value]
  rw [List.mem_cons, List.mem_cons, same, one]

theorem written_of_scalar (scalar : ¬ v.IsContainer) :
    ∃ t, (∀ text, v.write h Option.none room around text = text ++ t) ∧ Written h Elided opened v t := by
  refine ⟨v.scalarText, write_scalar (fun ref id items => ⟨?_, ?_, ?_⟩) room around, .scalar scalar⟩
  all_goals
    rintro rfl
    exact scalar trivial

/-- Each value is written as it has to be, whatever the heap is like. -/
theorem write_written (full : opened.length + room = maxOpen)
    (same : ∀ c : Container, c ∈ around ↔ c.value ∈ opened) (v : Value) :
    ∃ t, (∀ text, v.write h Option.none room around text = text ++ t) ∧ Written h Elided opened v t := by
  induction room generalizing opened around v with
  | zero =>
    by_cases container : v.IsContainer
    · exact ⟨_, write_container_full container, .ellipsis container (.inr full)⟩
    · exact written_of_scalar container
  | succ room ih =>
    have few : opened.length ≠ maxOpen := by omega
    have full' (new : Value) : (new :: opened).length + room = maxOpen := by
      rw [List.length_cons]
      omega
    cases v with
    | list ref =>
      by_cases again : list ref ∈ opened
      · refine ⟨"[...]", fun text => ?_, .ellipsis trivial (.inl ⟨again, nofun⟩)⟩
        rw [write_list, if_pos (by simpa using (same (.list ref)).mpr again)]
      · choose text written shown using ih (full' (list ref)) (mem_around_cons same (.list ref))
        refine ⟨_, fun before => ?_, .list text (not_or.mpr ⟨fun there => again there.1, few⟩) fun v _ => shown v⟩
        rw [write_list, if_neg (by simpa using (same (.list ref)).not.mpr again),
          writeEach_joined fun v _ => written v]
        simp only [String.append_assoc]
    | tuple id items =>
      have around' (c : Container) : c ∈ around ↔ c.value ∈ tuple id items :: opened := by
        rw [same, List.mem_cons]
        cases c <;> simp [Container.value]
      choose text written shown using ih (full' (tuple id items)) around'
      refine ⟨_, fun before => ?_, .tuple text (not_or.mpr ⟨fun there => there.2 id items rfl, few⟩) fun v _ => shown v⟩
      rw [write_tuple, writeEach_joined fun v _ => written v]
      simp only [String.append_assoc]
    | dict ref =>
      by_cases again : dict ref ∈ opened
      · refine ⟨"\x7b...\x7d", fun text => ?_, .ellipsis trivial (.inl ⟨again, nofun⟩)⟩
        rw [write_dict, if_pos (by simpa using (same (.dict ref)).mpr again)]
      · choose text written shown using ih (full' (dict ref)) (mem_around_cons same (.dict ref))
        refine ⟨_, fun before => ?_, .dict text (not_or.mpr ⟨fun there => again there.1, few⟩)
          (fun entry _ => shown entry.1) fun entry _ => shown entry.2⟩
        have each : ∀ entry ∈ (h.dict ref).toList, ∀ before,
            write h Option.none room (.dict ref :: around)
                (write h Option.none room (.dict ref :: around) before entry.1 ++ ": ") entry.2
              = before ++ (text entry.1 ++ ": " ++ text entry.2) := by
          intro entry _ before
          rw [written, written]
          simp only [String.append_assoc]
        rw [write_dict, if_neg (by simpa using (same (.dict ref)).not.mpr again), writeEach_joined each]
        simp only [String.append_assoc]
    | _ => exact written_of_scalar id

theorem repr_written (h : Cells) (v : Value) : Written h Elided [] v (v.repr h) := by
  have none_open (c : Container) : c ∈ ([] : List Container) ↔ c.value ∈ ([] : List Value) := by simp
  obtain ⟨t, written, shown⟩ := write_written (h := h) (Nat.zero_add maxOpen) none_open v
  have whole : v.repr h = t := (written "").trans (String.empty_append)
  exact whole ▸ shown

end

/-! ### Without an ellipsis -/

/-- All open containers are around the value, and the value is not nested deeper than more of them may be opened. -/
structure Fits (h : Cells) (opened : List Value) (d : Nat) (v : Value) : Prop where
  shallow : Shallow h d v
  room : opened.length + d ≤ maxOpen
  around : ∀ c ∈ opened, Relation.TransGen (Holds h) c v

theorem Fits.held {opened : List Value} {d : Nat} {v part : Value} (fits : Fits h opened d v)
    (held : Holds h v part) : ∃ e, Fits h (v :: opened) e part := by
  obtain ⟨e, less, shallow⟩ := fits.shallow.held held
  have room := fits.room
  refine ⟨e, shallow, by rw [List.length_cons]; omega, List.forall_mem_cons.mpr ⟨.single held, fun c mem => ?_⟩⟩
  exact (fits.around c mem).tail held

theorem Written.in_full {opened : List Value} {v : Value} {t : String} (written : Written h Elided opened v t)
    {d : Nat} (fits : Fits h opened d v) : Written h (fun _ _ => False) opened v t := by
  induction written generalizing d with
  | scalar scalar => exact .scalar scalar
  | @ellipsis opened v container why =>
    obtain ⟨again, -⟩ | full := why
    · exact absurd (fits.around v again) fits.shallow.not_cyclic
    · have room := fits.room
      obtain rfl : d = 0 := by omega
      exact absurd fits.shallow (not_shallow_zero.mpr container)
  | list text _ _ ih =>
    refine .list text id fun v mem => ?_
    obtain ⟨e, fits⟩ := fits.held mem
    exact ih v mem fits
  | tuple text _ _ ih =>
    refine .tuple text id fun v mem => ?_
    obtain ⟨e, fits⟩ := fits.held mem
    exact ih v mem fits
  | dict text _ _ _ ih ih' =>
    refine .dict text id (fun entry mem => ?_) fun entry mem => ?_
    · obtain ⟨e, fits⟩ := fits.held (List.mem_flatMap.mpr ⟨entry, mem, List.mem_cons_self⟩)
      exact ih entry mem fits
    · obtain ⟨e, fits⟩ := fits.held (List.mem_flatMap.mpr ⟨entry, mem, List.mem_cons_of_mem _ List.mem_cons_self⟩)
      exact ih' entry mem fits

/-- Nothing is elided in a value that is not nested deeper than containers may be open. -/
theorem repr_in_full {v : Value} (shallow : Shallow h maxOpen v) : Written h (fun _ _ => False) [] v (v.repr h) :=
  (repr_written h v).in_full ⟨shallow, Nat.le_of_eq (Nat.zero_add _), List.forall_mem_nil _⟩

/-! ### Limits -/

/-- There is a result, or an exception that is allowed. -/
def Ends {α : Type} (allowed : Exception → Prop) (r : Except Exception α) : Prop :=
  (∃ a, r = .ok a) ∨ ∃ e, r = .error e ∧ allowed e

theorem ends_of_errs {α : Type} {allowed allowed' : Exception → Prop} {r : Except Exception α}
    (errs : ErrsWith allowed r) (weaker : ∀ e, allowed e → allowed' e) : Ends allowed' r := by
  cases r with
  | ok a => exact .inl ⟨a, rfl⟩
  | error e => exact .inr ⟨e, rfl, weaker e (errs e rfl)⟩

/-- Two lists that hold themselves, and a list that holds another one twice. -/
def loops : Cells where
  lists := #[#[.list 0], #[.list 1], #[.int 1], #[.list 2, .list 2]]
  dicts := #[]
  fresh := 0

end SnippetKernel.Value
