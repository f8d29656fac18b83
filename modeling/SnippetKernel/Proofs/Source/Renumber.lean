import SnippetKernel.Source.Tree

/-! Programs with other line numbers. A line number is a note beside a statement and decides nothing, so
a program and its renumbered copy are the same but for what tracebacks show. -/
namespace SnippetKernel.Source

mutual

def Stmt.renumber (g : Nat → Nat) : Stmt → Stmt
  | .mk line kind => .mk (g line) (kind.renumber g)

def StmtKind.renumber (g : Nat → Nat) : StmtKind → StmtKind
  | .expr value => .expr value
  | .assign targets value => .assign targets value
  | .augAssign target op value => .augAssign target op value
  | .cond branches orelse => .cond (renumberBranches g branches) (renumberBlock g orelse)
  | .loop cond body => .loop cond (renumberBlock g body)
  | .each target source body => .each target source (renumberBlock g body)
  | .define name params body => .define name params (renumberBlock g body)
  | .ret value => .ret value
  | .raise value => .raise value
  | .attempt body handlers orelse final =>
    .attempt (renumberBlock g body) (renumberHandlers g handlers) (renumberBlock g orelse)
      (renumberBlock g final)
  | .assert cond message => .assert cond message
  | .del targets => .del targets
  | .load modules => .load modules
  | .global names => .global names
  | .pass => .pass
  | .stop => .stop
  | .next => .next

def Handler.renumber (g : Nat → Nat) : Handler → Handler
  | .mk class_ name body => .mk class_ name (renumberBlock g body)

def renumberBlock (g : Nat → Nat) : List Stmt → List Stmt
  | [] => []
  | s :: rest => s.renumber g :: renumberBlock g rest

def renumberBranches (g : Nat → Nat) : List (Expr × List Stmt) → List (Expr × List Stmt)
  | [] => []
  | (cond, body) :: rest => (cond, renumberBlock g body) :: renumberBranches g rest

def renumberHandlers (g : Nat → Nat) : List Handler → List Handler
  | [] => []
  | h :: rest => h.renumber g :: renumberHandlers g rest

end

variable (g : Nat → Nat)

theorem renumberBlock_eq_map (body : List Stmt) : renumberBlock g body = body.map (·.renumber g) := by
  induction body with
  | nil => rfl
  | cons s rest ih => rw [renumberBlock, ih, List.map_cons]

theorem renumberHandlers_eq_map (handlers : List Handler) :
    renumberHandlers g handlers = handlers.map (·.renumber g) := by
  induction handlers with
  | nil => rfl
  | cons h rest ih => rw [renumberHandlers, ih, List.map_cons]

theorem renumberBranches_eq_map (branches : List (Expr × List Stmt)) :
    renumberBranches g branches = branches.map fun branch => (branch.1, renumberBlock g branch.2) := by
  induction branches with
  | nil => rfl
  | cons branch rest ih => rw [renumberBranches, ih, List.map_cons]

theorem renumberBlock_append (xs ys : List Stmt) :
    renumberBlock g (xs ++ ys) = renumberBlock g xs ++ renumberBlock g ys := by
  simp only [renumberBlock_eq_map, List.map_append]

theorem renumberBlock_reverse (body : List Stmt) :
    renumberBlock g body.reverse = (renumberBlock g body).reverse := by
  rw [renumberBlock_eq_map, renumberBlock_eq_map, List.map_reverse]

theorem renumberBlock_reverseAux (body rest : List Stmt) :
    renumberBlock g (body.reverseAux rest) = (renumberBlock g body).reverseAux (renumberBlock g rest) := by
  rw [List.reverseAux_eq, List.reverseAux_eq, renumberBlock_append, renumberBlock_reverse]

theorem renumberBranches_reverse (branches : List (Expr × List Stmt)) :
    renumberBranches g branches.reverse = (renumberBranches g branches).reverse := by
  rw [renumberBranches_eq_map, renumberBranches_eq_map, List.map_reverse]

theorem renumberHandlers_reverse (handlers : List Handler) :
    renumberHandlers g handlers.reverse = (renumberHandlers g handlers).reverse := by
  rw [renumberHandlers_eq_map, renumberHandlers_eq_map, List.map_reverse]

/-! Renumbering twice is renumbering once. -/

variable (f g : Nat → Nat)

mutual

theorem Stmt.renumber_renumber (s : Stmt) :
    (s.renumber f).renumber g = s.renumber (fun line => g (f line)) := by
  cases s with
  | mk line kind => simp only [Stmt.renumber, StmtKind.renumber_renumber kind]

theorem StmtKind.renumber_renumber (k : StmtKind) :
    (k.renumber f).renumber g = k.renumber (fun line => g (f line)) := by
  cases k with
  | cond branches orelse =>
    simp only [StmtKind.renumber, renumberBranches_twice branches, renumberBlock_twice orelse]
  | loop cond body => simp only [StmtKind.renumber, renumberBlock_twice body]
  | each target source body => simp only [StmtKind.renumber, renumberBlock_twice body]
  | define name params body => simp only [StmtKind.renumber, renumberBlock_twice body]
  | attempt body handlers orelse final =>
    simp only [StmtKind.renumber, renumberBlock_twice body, renumberHandlers_twice handlers,
      renumberBlock_twice orelse, renumberBlock_twice final]
  | _ => rfl

theorem Handler.renumber_renumber (h : Handler) :
    (h.renumber f).renumber g = h.renumber (fun line => g (f line)) := by
  cases h with
  | mk class_ name body => simp only [Handler.renumber, renumberBlock_twice body]

theorem renumberBlock_twice (body : List Stmt) :
    renumberBlock g (renumberBlock f body) = renumberBlock (fun line => g (f line)) body := by
  cases body with
  | nil => rfl
  | cons s rest =>
    simp only [renumberBlock, Stmt.renumber_renumber s, renumberBlock_twice rest]

theorem renumberBranches_twice (branches : List (Expr × List Stmt)) :
    renumberBranches g (renumberBranches f branches)
      = renumberBranches (fun line => g (f line)) branches := by
  cases branches with
  | nil => rfl
  | cons branch rest =>
    simp only [renumberBranches, renumberBlock_twice branch.2, renumberBranches_twice rest]

theorem renumberHandlers_twice (handlers : List Handler) :
    renumberHandlers g (renumberHandlers f handlers)
      = renumberHandlers (fun line => g (f line)) handlers := by
  cases handlers with
  | nil => rfl
  | cons h rest =>
    simp only [renumberHandlers, Handler.renumber_renumber h, renumberHandlers_twice rest]

end

/-! The numbers in a program. -/

mutual

def Stmt.lines : Stmt → List Nat
  | .mk line kind => line :: kind.lines

def StmtKind.lines : StmtKind → List Nat
  | .cond branches orelse => branchLines branches ++ blockLines orelse
  | .loop _ body | .each _ _ body | .define _ _ body => blockLines body
  | .attempt body handlers orelse final =>
    blockLines body ++ handlerLines handlers ++ blockLines orelse ++ blockLines final
  | _ => []

def Handler.lines : Handler → List Nat
  | .mk _ _ body => blockLines body

def blockLines : List Stmt → List Nat
  | [] => []
  | s :: rest => s.lines ++ blockLines rest

def branchLines : List (Expr × List Stmt) → List Nat
  | [] => []
  | (_, body) :: rest => blockLines body ++ branchLines rest

def handlerLines : List Handler → List Nat
  | [] => []
  | h :: rest => h.lines ++ handlerLines rest

end

/-! A renumbering that keeps the numbers in a program keeps the program. -/

variable {g : Nat → Nat}

mutual

theorem Stmt.renumber_of_fixed (s : Stmt) (fixed : ∀ line ∈ s.lines, g line = line) :
    s.renumber g = s := by
  cases s with
  | mk line kind =>
    simp only [Stmt.lines, List.forall_mem_cons] at fixed
    rw [Stmt.renumber, fixed.1, StmtKind.renumber_of_fixed kind fixed.2]

theorem StmtKind.renumber_of_fixed (k : StmtKind) (fixed : ∀ line ∈ k.lines, g line = line) :
    k.renumber g = k := by
  cases k with
  | cond branches orelse =>
    simp only [StmtKind.lines, List.forall_mem_append] at fixed
    rw [StmtKind.renumber, renumberBranches_of_fixed branches fixed.1,
      renumberBlock_of_fixed orelse fixed.2]
  | loop cond body => rw [StmtKind.renumber, renumberBlock_of_fixed body fixed]
  | each target source body => rw [StmtKind.renumber, renumberBlock_of_fixed body fixed]
  | define name params body => rw [StmtKind.renumber, renumberBlock_of_fixed body fixed]
  | attempt body handlers orelse final =>
    simp only [StmtKind.lines, List.forall_mem_append] at fixed
    obtain ⟨⟨⟨in_body, in_handlers⟩, in_orelse⟩, in_final⟩ := fixed
    rw [StmtKind.renumber, renumberBlock_of_fixed body in_body,
      renumberHandlers_of_fixed handlers in_handlers, renumberBlock_of_fixed orelse in_orelse,
      renumberBlock_of_fixed final in_final]
  | _ => rfl

theorem Handler.renumber_of_fixed (h : Handler) (fixed : ∀ line ∈ h.lines, g line = line) :
    h.renumber g = h := by
  cases h with
  | mk class_ name body => rw [Handler.renumber, renumberBlock_of_fixed body fixed]

theorem renumberBlock_of_fixed (body : List Stmt) (fixed : ∀ line ∈ blockLines body, g line = line) :
    renumberBlock g body = body := by
  cases body with
  | nil => rfl
  | cons s rest =>
    simp only [blockLines, List.forall_mem_append] at fixed
    rw [renumberBlock, Stmt.renumber_of_fixed s fixed.1, renumberBlock_of_fixed rest fixed.2]

theorem renumberBranches_of_fixed (branches : List (Expr × List Stmt))
    (fixed : ∀ line ∈ branchLines branches, g line = line) :
    renumberBranches g branches = branches := by
  cases branches with
  | nil => rfl
  | cons branch rest =>
    simp only [branchLines, List.forall_mem_append] at fixed
    rw [renumberBranches, renumberBlock_of_fixed branch.2 fixed.1,
      renumberBranches_of_fixed rest fixed.2]

theorem renumberHandlers_of_fixed (handlers : List Handler)
    (fixed : ∀ line ∈ handlerLines handlers, g line = line) :
    renumberHandlers g handlers = handlers := by
  cases handlers with
  | nil => rfl
  | cons h rest =>
    simp only [handlerLines, List.forall_mem_append] at fixed
    rw [renumberHandlers, Handler.renumber_of_fixed h fixed.1,
      renumberHandlers_of_fixed rest fixed.2]

end

end SnippetKernel.Source
