import SnippetKernel.Proofs.Source.Renumber
import SnippetKernel.Proofs.Source.Rules

/-! Where statements stand. In a program that was read, `break` and `continue` stand only in loops and
`return` only in functions.

The statements that a statement stands in. What was noted of the surroundings while a program was read can be
found again in them. -/
namespace SnippetKernel.Source

open Source.Parser Grammar

mutual

def Stmt.fits (s : Surroundings) : Stmt → Bool
  | .mk _ kind => kind.fits s

def StmtKind.fits (s : Surroundings) : StmtKind → Bool
  | .cond branches orelse => branchesFit s branches && blockFits s orelse
  | .loop _ body | .each _ _ body => blockFits { s with inLoop := true } body
  | .define _ _ body => blockFits { inLoop := false, inFunction := true } body
  | .attempt body handlers orelse final =>
    blockFits s body && handlersFit s handlers && blockFits s orelse && blockFits s final
  | .ret _ => s.inFunction
  | .stop | .next => s.inLoop
  | _ => true

def Handler.fits (s : Surroundings) : Handler → Bool
  | .mk _ _ body => blockFits s body

def blockFits (s : Surroundings) : List Stmt → Bool
  | [] => true
  | stmt :: rest => stmt.fits s && blockFits s rest

def branchesFit (s : Surroundings) : List (Expr × List Stmt) → Bool
  | [] => true
  | (_, body) :: rest => blockFits s body && branchesFit s rest

def handlersFit (s : Surroundings) : List Handler → Bool
  | [] => true
  | h :: rest => h.fits s && handlersFit s rest

end

/-- Statements without blocks. -/
def StmtKind.isSimple : StmtKind → Bool
  | .cond .. | .loop .. | .each .. | .define .. | .attempt .. => false
  | _ => true

theorem StmtKind.renumber_of_isSimple {kind : StmtKind} (simple : kind.isSimple) (g : Nat → Nat) :
    kind.renumber g = kind := by
  cases kind <;> first | rfl | cases simple

variable {s : Surroundings}

theorem blockFits_eq_all (body : List Stmt) : blockFits s body = body.all (·.fits s) := by
  induction body with
  | nil => rfl
  | cons stmt rest ih => rw [blockFits, ih, List.all_cons]

theorem branchesFit_eq_all (branches : List (Expr × List Stmt)) :
    branchesFit s branches = branches.all fun branch => blockFits s branch.2 := by
  induction branches with
  | nil => rfl
  | cons branch rest ih => rw [branchesFit, ih, List.all_cons]

theorem handlersFit_eq_all (handlers : List Handler) : handlersFit s handlers = handlers.all (·.fits s) := by
  induction handlers with
  | nil => rfl
  | cons h rest ih => rw [handlersFit, ih, List.all_cons]

/-- A block fits if all its statements do. -/
theorem blockFits_iff {body : List Stmt} : blockFits s body ↔ AllGood (fun s kind => kind.fits s) s body := by
  rw [blockFits_eq_all, List.all_eq_true]
  exact forall₂_congr fun stmt _ => by cases stmt; rfl

namespace Statement

variable {k : Level}

theorem gives_augmented (target : Expr) (op : BinaryOp) :
    Gives (fun kind => kind.isSimple ∧ kind.fits s) (augmented k target op) := by
  refine .after fun target => ?_
  split
  · exact .fail _
  · exact .after fun _ => .done ⟨rfl, rfl⟩

theorem gives_assigned (first : Expr) :
    Gives (fun kind => kind.isSimple ∧ kind.fits s) (assigned k first) :=
  .after fun _ => .after fun _ => .done ⟨rfl, rfl⟩

theorem gives_fromExpr : Gives (fun kind => kind.isSimple ∧ kind.fits s) (fromExpr k) := by
  refine .after fun first => .after fun kind => ?_
  split
  · exact .after fun _ => gives_augmented first _
  · refine .after fun assign => ?_
    split
    · exact gives_assigned first
    · exact .done ⟨rfl, rfl⟩

theorem gives_simple : Gives (fun kind => kind.isSimple ∧ kind.fits s) (simple k s) := by
  refine .after fun kind => ?_
  split
  · exact .after fun _ => .done ⟨rfl, rfl⟩
  · split
    · next inLoop => exact .after fun _ => .done ⟨rfl, inLoop⟩
    · exact .fail _
  · split
    · next inLoop => exact .after fun _ => .done ⟨rfl, inLoop⟩
    · exact .fail _
  · split
    · next inFunction => exact .after fun _ => .after fun _ => .done ⟨rfl, inFunction⟩
    · exact .fail _
  · exact .after fun _ => .after fun _ => .done ⟨rfl, rfl⟩
  · refine .after fun _ => .after fun cond => .after fun comma => ?_
    split
    · exact .after fun _ => .done ⟨rfl, rfl⟩
    · exact .done ⟨rfl, rfl⟩
  · exact .after fun _ => .after fun _ => .after fun _ => .done ⟨rfl, rfl⟩
  · exact .after fun _ => .after fun _ => .after fun _ => .done ⟨rfl, rfl⟩
  · exact .after fun _ => .after fun _ => .after fun _ => .done ⟨rfl, rfl⟩
  · exact gives_fromExpr

end Statement

/-- `break`, `continue` and `return` are read only where they may stand. -/
theorem keeps_fits (k : Level) : Keeps k fun s kind => kind.fits s where
  simple s := fun c kind r read => (Statement.gives_simple c kind r read).2
  cond firsts last := by
    simp only [StmtKind.fits, branchesFit_eq_all, Bool.and_eq_true, List.all_eq_true]
    exact ⟨fun branch mem => blockFits_iff.2 (firsts branch mem).2, blockFits_iff.2 last⟩
  loop _ inside := blockFits_iff.2 inside
  each _ _ inside := blockFits_iff.2 inside
  define _ inside := blockFits_iff.2 inside
  attempt inside handled otherwise last := by
    simp only [StmtKind.fits, handlersFit_eq_all, Bool.and_eq_true, List.all_eq_true]
    refine ⟨⟨⟨blockFits_iff.2 inside, fun h mem => ?_⟩, blockFits_iff.2 otherwise⟩, blockFits_iff.2 last⟩
    obtain ⟨_, _, body, rfl, -, all⟩ := handled h mem
    exact blockFits_iff.2 all

/-- In a program nothing leaves a loop or a function that it does not stand in. -/
theorem blockFits_of_parse {source : String} {body : List Stmt} (h : parse source = .ok body) :
    blockFits .outermost body := by
  exact blockFits_iff.2 (allGood_of_parse (fun _ => keeps_fits _) h)

/-! ### The statements around a statement -/

namespace StmtKind

/-- The blocks of the statement. -/
def blocks : StmtKind → List (List Stmt)
  | .cond branches orelse => branches.map (·.2) ++ [orelse]
  | .loop _ body | .each _ _ body | .define _ _ body => [body]
  | .attempt body handlers orelse final => body :: handlers.map (·.body) ++ [orelse, final]
  | _ => []

def isLoop : StmtKind → Bool
  | .loop .. | .each .. => true
  | _ => false

def isFunction : StmtKind → Bool
  | .define .. => true
  | _ => false

/-- What surrounds the blocks of the statement. -/
def surrounds (s : Surroundings) : StmtKind → Surroundings
  | .loop .. | .each .. => { s with inLoop := true }
  | .define .. => { inLoop := false, inFunction := true }
  | _ => s

/-- What was noted inside the statement. -/
def surroundings : List StmtKind → Surroundings
  | [] => .outermost
  | kind :: outer => kind.surrounds (surroundings outer)

end StmtKind

/-- The statement stands somewhere in the block, inside the others, of which the innermost comes first. -/
inductive Within (body : List Stmt) : List StmtKind → StmtKind → Prop where
  | here {stmt : Stmt} (mem : stmt ∈ body) : Within body [] stmt.kind
  | inside {outer : List StmtKind} {kind : StmtKind} {part : List Stmt} {stmt : Stmt} (around : Within body outer kind)
      (of_kind : part ∈ kind.blocks) (mem : stmt ∈ part) : Within body (kind :: outer) stmt.kind

/-- Some statement is a loop, and no function comes before it. -/
def InLoop (outer : List StmtKind) : Prop := ∃ kind ∈ outer.takeWhile (!·.isFunction), kind.isLoop

def InFunction (outer : List StmtKind) : Prop := ∃ kind ∈ outer, kind.isFunction

variable {body : List Stmt} {outer : List StmtKind} {kind : StmtKind}

theorem inLoop_cons : InLoop (kind :: outer) ↔ kind.isFunction = false ∧ (kind.isLoop ∨ InLoop outer) := by
  unfold InLoop
  rw [List.takeWhile_cons]
  cases kind.isFunction <;> simp

theorem inFunction_cons : InFunction (kind :: outer) ↔ kind.isFunction ∨ InFunction outer := by
  simp [InFunction]

/-- What was noted is true. -/
theorem surroundings_iff (outer : List StmtKind) :
    ((StmtKind.surroundings outer).inLoop ↔ InLoop outer) ∧
    ((StmtKind.surroundings outer).inFunction ↔ InFunction outer) := by
  induction outer with
  | nil => simp [StmtKind.surroundings, Surroundings.outermost, InLoop, InFunction]
  | cons kind outer ih =>
    rw [inLoop_cons, inFunction_cons, ← ih.1, ← ih.2]
    cases kind <;> simp [StmtKind.surroundings, StmtKind.surrounds, StmtKind.isLoop, StmtKind.isFunction]

theorem Stmt.fits_of_mem {s : Surroundings} {stmt : Stmt} (fits : blockFits s body) (mem : stmt ∈ body) :
    stmt.kind.fits s := blockFits_iff.mp fits stmt mem

/-- The blocks of a statement fit into it. -/
theorem StmtKind.fits_blocks {s : Surroundings} {part : List Stmt} (fits : kind.fits s) (of_kind : part ∈ kind.blocks) :
    blockFits (kind.surrounds s) part := by
  cases kind with
  | cond branches orelse =>
    simp only [StmtKind.fits, branchesFit_eq_all, Bool.and_eq_true, List.all_eq_true] at fits
    simp only [blocks, List.mem_append, List.mem_map, List.mem_singleton] at of_kind
    rcases of_kind with ⟨branch, mem, rfl⟩ | rfl
    · exact fits.1 branch mem
    · exact fits.2
  | loop | each | define =>
    cases List.mem_singleton.mp of_kind
    exact fits
  | attempt body handlers orelse final =>
    simp only [StmtKind.fits, handlersFit_eq_all, Bool.and_eq_true, List.all_eq_true] at fits
    obtain ⟨⟨⟨in_body, in_handlers⟩, in_orelse⟩, in_final⟩ := fits
    simp only [blocks, List.cons_append, List.mem_cons, List.mem_append, List.mem_map, List.not_mem_nil,
      or_false] at of_kind
    rcases of_kind with rfl | ⟨handler, mem, rfl⟩ | rfl | rfl
    · exact in_body
    · obtain ⟨_, _, _⟩ := handler
      exact in_handlers _ mem
    · exact in_orelse
    · exact in_final
  | _ => cases of_kind

/-- Each statement of a block that fits is where it may stand. -/
theorem Within.fits (within : Within body outer kind) (fits : blockFits .outermost body) :
    kind.fits (StmtKind.surroundings outer) := by
  induction within with
  | here mem => exact Stmt.fits_of_mem fits mem
  | inside _ of_kind mem ih => exact Stmt.fits_of_mem (StmtKind.fits_blocks ih of_kind) mem

/-- Loops and functions that are left by a statement are around it. -/
theorem Within.placed (within : Within body outer kind) (fits : blockFits .outermost body) :
    (kind = .stop ∨ kind = .next → InLoop outer) ∧ (∀ value, kind = .ret value → InFunction outer) := by
  have here := within.fits fits
  obtain ⟨inLoop, inFunction⟩ := surroundings_iff outer
  constructor
  · rintro (rfl | rfl)
    · exact inLoop.mp here
    · exact inLoop.mp here
  · rintro value rfl
    exact inFunction.mp here

end SnippetKernel.Source
