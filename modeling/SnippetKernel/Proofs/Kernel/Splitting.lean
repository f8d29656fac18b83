import Mathlib
import SnippetKernel.Kernel.Engine
import SnippetKernel.Proofs.Program.Endings
import SnippetKernel.Proofs.Program.Mirror
import SnippetKernel.Proofs.Source.Programs

/-! Splitting a snippet does not matter. A text that goes on with another after a line end does what the two
do one after the other: between two pieces of code an engine keeps all that a running program has between
two statements. -/
namespace SnippetKernel

open Source Text

/-! What a run leaves behind, with other numbers. -/

namespace Ran

def mirror (g : Nat → Nat) (before : Array (Stream × String)) (r : Ran) : Ran :=
  ⟨r.halt.map (·.renumber g), r.machine.mirror g before⟩

theorem fault?_mirror (g : Nat → Nat) (before : Array (Stream × String)) (r : Ran) :
    (r.mirror g before).fault? = r.fault?.map (·.renumber g) := by
  obtain ⟨_ | halt, machine⟩ := r
  · rfl
  · cases halt <;> rfl

end Ran

namespace Machine

variable (limits : Limits) {first : List Stmt}

theorem perform_mirror (g : Nat → Nat) (before : Array (Stream × String)) (m : Machine) (body : List Stmt) :
    (m.mirror g before).perform limits (renumberBlock g body) = (m.perform limits body).mirror g before := by
  have same := (Run.mirrors_program g before limits body).same m
  unfold perform
  rw [same]
  cases Run.program limits body m <;> rfl

/-- A run that comes to its end leaves the calls and the handling as they were. -/
theorem level_perform (m : Machine) (body : List Stmt) (ended : (m.perform limits body).halt = none) :
    m.Level (m.perform limits body).machine := by
  have level := (Run.mirrors_program id #[] limits body).level m
  unfold perform at ended ⊢
  cases run : Run.program limits body m with
  | ok a n =>
    rw [run] at level
    exact level
  | error halt n =>
    rw [run] at ended
    cases ended

theorem perform_append (m : Machine) (fits : blockFits .outermost first) (second : List Stmt) :
    m.perform limits (first ++ second) =
      if (m.perform limits first).halt.isNone then (m.perform limits first).machine.perform limits second
      else m.perform limits first := by
  unfold perform
  rw [Run.program_append limits fits second m]
  cases Run.program limits first m <;> rfl

end Machine

/-! What was written in two parts. -/

namespace Streams

/-- What a capture collects of the pieces. -/
def captured (pieces : Array (Stream × String)) : Captured :=
  ((⟨.buffer "", .buffer ""⟩ : Streams).writeAll pieces).take.1

theorem writeAll_buffers (out err : String) (pieces : Array (Stream × String)) :
    (⟨.buffer out, .buffer err⟩ : Streams).writeAll pieces =
      ⟨.buffer (out ++ (captured pieces).stdout), .buffer (err ++ (captured pieces).stderr)⟩ := by
  have collect (pieces : List (Stream × String)) : ∃ more noise, ∀ out err : String,
      pieces.foldl (fun (s : Streams) piece => s.write piece.1 piece.2) ⟨.buffer out, .buffer err⟩ =
        ⟨.buffer (out ++ more), .buffer (err ++ noise)⟩ := by
    induction pieces with
    | nil => exact ⟨"", "", fun out err => by simp⟩
    | cons piece rest ih =>
      obtain ⟨more, noise, written⟩ := ih
      obtain ⟨_ | _, text⟩ := piece
      · refine ⟨text ++ more, noise, fun out err => ?_⟩
        rw [List.foldl_cons, ← String.append_assoc]
        exact written (out ++ text) err
      · refine ⟨more, text ++ noise, fun out err => ?_⟩
        rw [List.foldl_cons, ← String.append_assoc]
        exact written out (err ++ text)
  obtain ⟨more, noise, written⟩ := collect pieces.toList
  have each (out err : String) : (⟨.buffer out, .buffer err⟩ : Streams).writeAll pieces =
      ⟨.buffer (out ++ more), .buffer (err ++ noise)⟩ := by
    rw [writeAll, ← Array.foldl_toList]
    exact written out err
  have held : captured pieces = ⟨more, noise⟩ := by
    rw [captured, each]
    simp only [take, Sink.take, String.empty_append]
  rw [each, held]

theorem captured_append (xs ys : Array (Stream × String)) :
    captured (xs ++ ys) =
      ⟨(captured xs).stdout ++ (captured ys).stdout, (captured xs).stderr ++ (captured ys).stderr⟩ := by
  have both (s : Streams) : s.writeAll (xs ++ ys) = (s.writeAll xs).writeAll ys := Array.foldl_append
  rw [captured, both, writeAll_buffers, writeAll_buffers]
  simp only [take, Sink.take, String.empty_append]

end Streams

/-! Numbers of functions that were there before. -/

/-- The first line above all lines of the code on the heap. -/
def Heap.firstFree (h : Heap) : Nat :=
  (h.codes.toList.flatMap fun code => blockLines code.body).foldr (fun line top => max (line + 1) top) 0

theorem Heap.lt_firstFree (h : Heap) {code : Code} (on : code ∈ h.codes) {line : Nat}
    (within : line ∈ blockLines code.body) : line < h.firstFree := by
  have above (lines : List Nat) (among : line ∈ lines) :
      line < lines.foldr (fun line top => max (line + 1) top) 0 := by
    induction lines with
    | nil => cases among
    | cons other lines ih =>
      rw [List.foldr_cons]
      rcases List.mem_cons.1 among with rfl | later
      · omega
      · have := ih later
        omega
  exact above _ (List.mem_flatMap.2 ⟨code, Array.mem_toList_iff.2 on, within⟩)

theorem Heap.renumber_of_fixed {h : Heap} {g : Nat → Nat}
    (fixed : ∀ line, line < h.firstFree → g line = line) : h.renumber g = h := by
  have codes : h.codes.map (·.renumber g) = h.codes := by
    have same : ∀ code ∈ h.codes, code.renumber g = id code := by
      intro code on
      have body := renumberBlock_of_fixed code.body fun line within => fixed line (h.lt_firstFree on within)
      rw [Code.renumber, body]
      rfl
    rw [Array.map_congr_left same, Array.map_id]
  rw [Heap.renumber, codes]

theorem Heap.renumber_renumber (f g : Nat → Nat) (h : Heap) :
    (h.renumber f).renumber g = h.renumber fun line => g (f line) := by
  have twice (code : Code) : (code.renumber f).renumber g = code.renumber fun line => g (f line) := by
    simp only [Code.renumber, renumberBlock_twice]
  simp only [Heap.renumber, Array.map_map, Function.comp_def, twice]

/-- The lines from `mark` on belong to one text, and are counted from elsewhere now. -/
def countedFrom (mark d line : Nat) : Nat := if line < mark then line else line - mark + d

theorem countedFrom_own (mark d line : Nat) : countedFrom mark d (mark + line) = line + d := by
  unfold countedFrom
  rw [if_neg (by omega)]
  omega

namespace Engine

variable {e : Engine} {a b : String} {first second body : List Stmt}

/-- The engine but for the lines of functions. -/
def unnumbered (e : Engine) : Engine := { e with heap := e.heap.renumber fun _ => 0 }

/-- The traceback of a program that is run in the engine, its own lines moved down by `d`. They are told
apart from the lines of functions that were there before by counting them from a line above all of these. -/
def traceback (e : Engine) (d : Nat) (body : List Stmt) : Option String :=
  let ran := e.machine.perform e.limits (renumberBlock (e.heap.firstFree + ·) body)
  ran.fault?.map fun f => (f.renumber (countedFrom e.heap.firstFree d)).render

/-- A text that was run in one piece, beside the same text in two pieces, one run after the other. -/
structure InOne (left right whole : ExecuteResult × Engine) : Prop where
  engine : whole.2.unnumbered = right.2.unnumbered
  stdout : whole.1.stdout = left.1.stdout ++ right.1.stdout
  stderr : whole.1.stderr = left.1.stderr ++ right.1.stderr
  success : whole.1.success = right.1.success

theorem perform_counted (e : Engine) (before : Array (Stream × String)) (d : Nat) (body : List Stmt) :
    (e.machine.mirror id before).perform e.limits (renumberBlock (· + d) body) =
      (e.machine.perform e.limits (renumberBlock (e.heap.firstFree + ·) body)).mirror
        (countedFrom e.heap.firstFree d) before := by
  have heap (g : Nat → Nat) (fixed : ∀ line, line < e.heap.firstFree → g line = line) :
      e.machine.mirror g before = { e.machine with writes := before ++ e.machine.writes } := by
    simp only [Machine.mirror, machine, Machine.start, Heap.renumber_of_fixed fixed]
  have same : e.machine.mirror id before = e.machine.mirror (countedFrom e.heap.firstFree d) before := by
    rw [heap id fun _ _ => rfl, heap (countedFrom _ d) fun line low => if_pos low]
  have counted : renumberBlock (· + d) body =
      renumberBlock (countedFrom e.heap.firstFree d) (renumberBlock (e.heap.firstFree + ·) body) := by
    rw [renumberBlock_twice]
    exact congrArg (renumberBlock · body) (funext fun line => (countedFrom_own _ d line).symm)
  rw [same, counted, Machine.perform_mirror]

/-- From one piece of code to the next the engine keeps all that a machine has between two statements. -/
theorem settle_machine {ran : Ran} (level : e.machine.Level ran.machine) :
    ran.machine = (e.settle ran).2.machine.mirror id ran.machine.writes := by
  obtain ⟨halt, names, heap, frames, handling, writes, clock⟩ := ran
  have kept : heap.renumber id = heap := Heap.renumber_of_fixed fun _ _ => rfl
  obtain rfl : handling = [] := level.handling
  obtain rfl : frames = [] := List.length_eq_zero_iff.1 level.height
  change _ = Machine.mk names (heap.renumber id) [] [] (writes ++ #[]) clock
  rw [kept, Array.append_empty]

theorem perform_alone (e : Engine) (body : List Stmt) :
    e.machine.perform e.limits body =
      (e.machine.perform e.limits (renumberBlock (e.heap.firstFree + ·) body)).mirror
        (countedFrom e.heap.firstFree 0) #[] := by
  have kept : e.heap.renumber id = e.heap := Heap.renumber_of_fixed fun _ _ => rfl
  have same : e.machine.mirror id #[] = e.machine := by
    change Machine.mk e.names (e.heap.renumber id) [] [] (#[] ++ #[]) e.clock = _
    rw [kept]
    rfl
  have numbers : renumberBlock (· + 0) body = body := renumberBlock_of_fixed body fun _ _ => rfl
  have alone := e.perform_counted #[] 0 body
  rw [same, numbers] at alone
  exact alone

theorem settle_success (ran : Ran) : (e.settle ran).1.success = ran.halt.isNone := by
  obtain ⟨_ | halt, machine⟩ := ran <;> rfl

theorem settle_error (ran : Ran) (g : Nat → Nat) (before : Array (Stream × String)) :
    (e.settle (ran.mirror g before)).1.error = ran.fault?.map fun f => (f.renumber g).render := by
  change (ran.mirror g before).fault?.map _ = _
  rw [Ran.fault?_mirror, Option.map_map]
  rfl

/-- What comes behind a run is told apart from it by its lines alone. -/
theorem settle_mirror (e : Engine) (ran next : Ran) (f g : Nat → Nat) :
    InOne (e.settle ran) ((e.settle ran).2.settle (next.mirror f #[]))
      (e.settle (next.mirror g ran.machine.writes)) where
  engine := by
    have heap : (next.machine.heap.renumber g).renumber (fun _ => 0) =
        (next.machine.heap.renumber f).renumber fun _ => 0 := by
      rw [Heap.renumber_renumber, Heap.renumber_renumber]
    exact congrArg (fun heap => { e with
      names := next.machine.names, heap := heap, clock := next.machine.clock }) heap
  stdout := by
    change (Streams.captured (ran.machine.writes ++ next.machine.writes)).stdout =
      (Streams.captured ran.machine.writes).stdout ++ (Streams.captured (#[] ++ next.machine.writes)).stdout
    rw [Streams.captured_append, Array.empty_append]
  stderr := by
    change (Streams.captured (ran.machine.writes ++ next.machine.writes)).stderr =
      (Streams.captured ran.machine.writes).stderr ++ (Streams.captured (#[] ++ next.machine.writes)).stderr
    rw [Streams.captured_append, Array.empty_append]
  success := by
    rw [settle_success, settle_success]
    simp only [Ran.mirror, Option.isNone_map]

/-- A text and then another are run in one piece as they are one after the other. If the first one ends with
an exception, that is all; else the second goes on where the first ended, and only its own lines, which a
traceback shows and functions keep, are those of the whole text. -/
theorem execute_split (e : Engine) (ha : parse a = .ok first) (hb : parse b = .ok second) :
    ((e.execute a).1.success = false → e.execute (a ++ "\n" ++ b) = e.execute a) ∧
      ((e.execute a).1.success = true →
        InOne (e.execute a) ((e.execute a).2.execute b) (e.execute (a ++ "\n" ++ b)) ∧
          ((e.execute a).2.execute b).1.error = (e.execute a).2.traceback 0 second ∧
          (e.execute (a ++ "\n" ++ b)).1.error =
            (e.execute a).2.traceback (1 + newlines a.toList) second) := by
  have execute_of_parse (e : Engine) {text : String} {body : List Stmt} (h : parse text = .ok body) :
      e.execute text = e.settle (e.machine.perform e.limits body) := by
    rw [execute, Machine.interpret, h]
  rw [execute_of_parse e (parse_join ha hb), execute_of_parse e ha, execute_of_parse _ hb,
    Machine.perform_append _ _ (blockFits_of_parse ha), settle_success]
  have level := Machine.level_perform e.limits e.machine first
  generalize e.machine.perform e.limits first = ran at level
  constructor
  · intro faulted
    rw [faulted]
    rfl
  · intro ended
    have whole := perform_counted (e.settle ran).2 ran.machine.writes (1 + newlines a.toList) second
    rw [← settle_machine (level (Option.isNone_iff_eq_none.1 ended))] at whole
    have whole : ran.machine.perform e.limits _ = _ := whole
    rw [ended, if_pos rfl, whole, perform_alone]
    exact ⟨settle_mirror e ran _ _ _, settle_error _ _ _, settle_error _ _ _⟩

/-- A name that is not bound on the second line: alone, that line would be the first. -/
theorem execute_split_of_unbound :
    parse "1" = .ok [.mk 1 (.expr (.literal (.int 1)))] ∧ parse "y" = .ok [.mk 1 (.expr (.name "y"))] ∧
      ((start .default ⟨.ofUInt64 0, .ofUInt64 0⟩).execute "1").1.success = true ∧
      ((start .default ⟨.ofUInt64 0, .ofUInt64 0⟩).execute ("1" ++ "\n" ++ "y")).1.error =
        some ("Traceback (most recent call last):\n  File \"<kernel>\", line 2, in <module>\n" ++
          "NameError: name 'y' is not defined\n") := by
  have ha : parse "1" = .ok [.mk 1 (.expr (.literal (.int 1)))] := by cbv
  have hb : parse "y" = .ok [.mk 1 (.expr (.name "y"))] := by cbv
  have ended : ((start .default ⟨.ofUInt64 0, .ofUInt64 0⟩).execute "1").1.success = true := by
    rw [execute, Machine.interpret, ha]
    rfl
  refine ⟨ha, hb, ended, ((execute_split _ ha hb).2 ended).2.2.trans ?_⟩
  rw [execute, Machine.interpret, ha]
  rfl

end Engine

end SnippetKernel
