import SnippetKernel.Program.Call
import SnippetKernel.Proofs.Program.Data
import SnippetKernel.Proofs.Source.Placeholders

/-! The ways to format a value. The function `format` takes a specification as it is, a template of `str.format` takes
what stands before the next closing brace, and an f-string looks for the brace outside quotes and brackets. They come
to the same as long as the specification leaves none of these open. -/
namespace SnippetKernel

open Source

namespace Run

/-- How a piece of a program ends that formats a value. -/
def ofFormat : Except FormatFailure String → Run String
  | .ok text => pure text
  | .error (.exception e) => throw (.fault (.ofException e none))
  | .error failure => throw (.crash failure.crashMessage)

/-- Work that formats a value and then only builds on the text leaves everything as it is. -/
theorem ofWork_format {α : Type} {work : Work α} {f : String → α} {v : Value} {spec : String} {m : Machine}
    (h : ∀ r, r.cells = m.heap.toCells → work r = (f <$> Work.format v spec) r) :
    ofWork work m = (f <$> ofFormat (v.format m.heap.toCells spec)) m := by
  obtain ⟨names, ⟨cells, codes⟩, frames, handling, writes, clock⟩ := m
  have run := h ⟨cells, clock, #[]⟩ rfl
  change _ = EStateM.map f _ _ at run
  simp only [ofWork, run, EStateM.map, Work.format]
  change _ = EStateM.map f _ _
  cases v.format cells spec with
  | ok text => simp [ofFormat, EStateM.map, pure, EStateM.pure]
  | error failure =>
    cases failure <;>
    · simp only [Array.append_empty]
      rfl

end Run

/-! ### Templates of `str.format` -/

/-- The value itself or, with quotes, its quoted form. -/
def Value.shown (h : Cells) (quote : Bool) (v : Value) : Value := if quote then .str (v.repr h) else v

theorem Field.ofText_spec (quote : Bool) (spec : String) :
    Field.ofText ((conversionText quote).toList ++ ':' :: spec.toList) = ⟨"", quote, spec⟩ := by
  cases quote with
  | true =>
    change Field.mk "" true (String.ofList spec.toList) = _
    rw [String.ofList_toList]
  | false =>
    change Field.mk "" false (String.ofList spec.toList) = _
    rw [String.ofList_toList]

/-- What stands between the braces goes up to the first closing one. -/
theorem fieldParts_placeholder {spec : String} (plain : Braceless spec) (quote : Bool) :
    fieldParts [] (placeholderText "" quote spec).toList = [.text [], .field ⟨"", quote, spec⟩, .text []] := by
  have converted : (conversionText quote).toList.all (· ≠ '\x7d') := by cases quote <;> decide
  have inside : ∀ c ∈ (conversionText quote).toList ++ ':' :: spec.toList, (c ≠ '\x7d' : Bool) = true := by
    rw [List.forall_mem_append, List.forall_mem_cons]
    exact ⟨List.all_eq_true.1 converted, by decide, fun c mem => decide_eq_true (plain c mem).2⟩
  have stops : ∀ c ∈ ['\x7d'].head?, (c ≠ '\x7d' : Bool) = false := by simp
  obtain ⟨field, brace⟩ := takeWhile_append_of_stops inside stops
  rw [List.append_assoc, List.cons_append] at field brace
  rw [toList_placeholderText, String.toList_empty, List.nil_append, fieldParts]
  · split
    · next none => cases none.symm.trans brace
    · next after =>
      obtain ⟨rfl, rfl⟩ := List.cons.inj (after.symm.trans brace)
      rw [field, Field.ofText_spec, fieldParts]
      rfl
  · cases quote <;> rintro rest ⟨⟩

/-- A template with one field is the text of its value. -/
theorem TextMethods.fill_field (v : Value) (quote : Bool) (spec : String) (r : Reach) :
    fill #[v] [] 0 "" [.text [], .field ⟨"", quote, spec⟩, .text []] r =
      Work.format (v.shown r.cells quote) spec r := by
  have shown : fill #[v] [] 0 "" [.text [], .field ⟨"", quote, spec⟩, .text []] r =
      EStateM.bind (Work.format (v.shown r.cells quote) spec) (fun text => pure ("" ++ text ++ "")) r := by
    cases quote <;> rfl
  rw [shown, EStateM.bind]
  cases Work.format (v.shown r.cells quote) spec r with
  | ok text r => simp [pure, EStateM.pure]
  | error => rfl

namespace Call

variable (function : FunctionCaller) {v : Value} {spec : String} {quote : Bool} {m : Machine}

theorem value_repr : value function (.builtin .repr) [v] [] m = .ok (v.shown m.heap.toCells true) m := by
  change Run.ofWork (Builtins.single "repr" [v] [] fun v => do return .str (← Work.repr v)) m = _
  apply Run.ofWork_of_still
  rintro r same
  rw [Value.shown, ← same]
  rfl

theorem value_format : value function (.builtin .format) [v, .str spec] [] m =
    (Value.str <$> Run.ofFormat (v.format m.heap.toCells spec)) m := by
  have checked : Run.ofWork (Arguments.noKeywords "format" []) m = .ok () m := Run.ofWork_of_still fun r _ => rfl
  refine (Run.bind_of_ok checked).trans ?_
  change Run.ofWork (Builtins.format [v, .str spec]) m = _
  exact Run.ofWork_format fun r _ => rfl

/-- A call of `format` with the value, or with what `repr` makes of it. -/
def formatted (function : FunctionCaller) (quote : Bool) (v : Value) (spec : String) : Run Value := do
  let shown ← if quote then value function (.builtin .repr) [v] [] else pure v
  value function (.builtin .format) [shown, .str spec] []

theorem formatted_eq : formatted function quote v spec m =
    (Value.str <$> Run.ofFormat ((v.shown m.heap.toCells quote).format m.heap.toCells spec)) m := by
  cases quote with
  | true => exact (Run.bind_of_ok (value_repr function)).trans (value_format function)
  | false => exact value_format function

theorem value_strFormat (plain : Braceless spec) :
    value function (.strMethod (placeholderText "" quote spec) .format) [v] [] m =
      formatted function quote v spec m := by
  rw [formatted_eq]
  change Run.ofWork (TextMethods.apply .format (placeholderText "" quote spec) [v] []) m = _
  apply Run.ofWork_format
  intro r same
  change EStateM.bind (TextMethods.fill #[v] [] 0 "" (fieldParts [] (placeholderText "" quote spec).toList))
    (fun text => pure (.str text)) r = EStateM.map Value.str _ r
  rw [EStateM.bind, EStateM.map, fieldParts_placeholder plain, TextMethods.fill_field, ← same]
  rfl

end Call

/-! ### Parts of f-strings -/

theorem Run.lookup_of_bound {name : String} {v : Value} {m : Machine} (bound : m.lookup? name = some v) :
    lookup name m = .ok v m := by
  unfold lookup
  refine (bind_of_ok rfl).trans ?_
  rw [bound]
  rfl

namespace Eval

variable {call : ValueCaller} {spec : String} {m : Machine}

theorem quoted_form (v : Value) :
    (Value.str <$> Run.ofWork (Work.repr v)) m = .ok (.str (v.repr m.heap.toCells)) m := by
  have read : Run.ofWork (Work.repr v) m = .ok (v.repr m.heap.toCells) m := by
    apply Run.ofWork_of_still
    rintro r same
    rw [← same]
    rfl
  change EStateM.map _ _ m = _
  rw [EStateM.map, read]

/-- The text of the only part is the text of the template. -/
theorem template_last (v : Value) :
    (Run.ofWork (Work.format v spec) >>= fun piece => template call ("" ++ piece) []) m =
      Run.ofFormat (v.format m.heap.toCells spec) m := by
  have last (piece : String) : template call ("" ++ piece) [] = pure piece := by
    rw [template, String.empty_append]
  simp only [last, bind_pure]
  rw [@Run.ofWork_format _ _ id v spec m fun r _ => by rw [id_map], id_map]

theorem expr_template {name : String} {quote : Bool} {v : Value} (bound : m.lookup? name = some v) :
    expr call (.template [.value (.name name) quote (some spec)]) m =
      (Value.str <$> Run.ofFormat ((v.shown m.heap.toCells quote).format m.heap.toCells spec)) m := by
  have text : template call "" [.value (.name name) quote (some spec)] m =
      Run.ofFormat ((v.shown m.heap.toCells quote).format m.heap.toCells spec) m := by
    rw [template, expr]
    refine (Run.bind_of_ok (Run.lookup_of_bound bound)).trans ?_
    cases quote with
    | true => exact (Run.bind_of_ok (quoted_form v)).trans (template_last _)
    | false => exact template_last v
  rw [expr]
  change EStateM.map _ _ m = EStateM.map _ _ m
  rw [EStateM.map, EStateM.map, text]

end Eval

/-! ### Agreement -/

/-- A value that a name is bound to is formatted by a template of `str.format` as it is by `format`, whatever the
specification is, with the same text or the same exception; so it is with `!r`, against what `repr` makes of it. An
f-string does the same if the specification leaves no bracket and no quote open; else it has no end. -/
theorem Call.formatted_alike (call : ValueCaller) (function : FunctionCaller) {name : String} (named : IsName name)
    {v : Value} {m : Machine} (bound : m.lookup? name = some v) {spec : String} (plain : Braceless spec)
    (quote : Bool) (n line : Nat) :
    value function (.strMethod (placeholderText "" quote spec) .format) [v] [] m = formatted function quote v spec m ∧
      (leftOpen spec = .nothing → ∃ parts,
        Grammar.template (n + 1) (placeholderText name quote spec) line = .ok parts ∧
          Eval.expr call (.template parts) m = formatted function quote v spec m) ∧
      (leftOpen spec ≠ .nothing → Grammar.template (n + 1) (placeholderText name quote spec) line =
        .error ⟨"f-string: expecting '\x7d'", line⟩) := by
  have read := template_placeholder named plain quote n line
  refine ⟨value_strFormat function plain, fun closed => ?_, fun left => ?_⟩
  · rw [if_pos closed] at read
    refine ⟨_, read, ?_⟩
    rw [Eval.expr_template bound, formatted_eq]
  · rw [read, if_neg left]

/-- A number that is shown between dots, as it is and in its quoted form. -/
theorem Call.formatted_alike_of_one :
    let m : Machine := .start ⟨[("x", .int 1)]⟩ ⟨.empty, #[]⟩ ⟨⟨0⟩, ⟨0⟩⟩
    (∃ parts, Grammar.template 1 "\x7bx:.^5\x7d" 1 = .ok parts ∧
      Eval.expr (value (function 1 1)) (.template parts) m = .ok (.str "..1..") m) ∧
    ∃ parts, Grammar.template 1 "\x7bx!r:.^5\x7d" 1 = .ok parts ∧
      Eval.expr (value (function 1 1)) (.template parts) m = .ok (.str "..1..") m := by
  intro m
  have named : IsName "x" := ⟨⟨'x', [], rfl, by decide, rfl⟩, by decide⟩
  have plain : Braceless ".^5" := by decide
  have alike := @formatted_alike (value (function 1 1)) (function 1 1) _ named (.int 1) m rfl _ plain
  exact ⟨(alike false 0 1).2.1 (by decide), (alike true 0 1).2.1 (by decide)⟩

/-- With an apostrophe as the filling an f-string has no end, but the number is formatted. -/
theorem quote_as_filling :
    Grammar.template 1 "\x7bx:'>5\x7d" 1 = .error ⟨"f-string: expecting '\x7d'", 1⟩ ∧
      ∀ function m, Call.value function (.builtin .format) [.int 1, .str "'>5"] [] m = .ok (.str "''''1") m ∧
        Call.value function (.strMethod "\x7b:'>5\x7d" .format) [.int 1] [] m = .ok (.str "''''1") m := by
  have named : IsName "x" := ⟨⟨'x', [], rfl, by decide, rfl⟩, by decide⟩
  have plain : Braceless "'>5" := by decide
  have left : leftOpen "'>5" ≠ .nothing := by decide
  refine ⟨(template_placeholder named plain false 0 1).trans (if_neg left), fun function m => ?_⟩
  have text (h : Cells) : (Value.int 1).format h "'>5" = .ok "''''1" := rfl
  have direct : Call.value function (.builtin .format) [.int 1, .str "'>5"] [] m = .ok (.str "''''1") m := by
    rw [Call.value_format, text]
    rfl
  have template := @Call.value_strFormat function (.int 1) "'>5" false m plain
  exact ⟨direct, template.trans direct⟩

end SnippetKernel
