/-! Places in a text that is being read. Reading goes forward only, and every reader says so in its type,
which is why reading ends. -/
namespace SnippetKernel.Wire

variable {s : String}

/-- A place behind another one. -/
abbrev After (p : s.Pos) := { q : s.Pos // p < q }

/-- A place behind another one, or that place itself. -/
abbrev From (p : s.Pos) := { q : s.Pos // p ≤ q }

/-- The character at a place, and the place behind it. -/
@[inline] def next? (p : s.Pos) : Option (Char × After p) :=
  if h : p = s.endPos then none else some (p.get h, ⟨p.next h, String.Pos.lt_next⟩)

namespace After

/-- Behind a place that is itself behind another one. -/
def trans {p : s.Pos} (q : After p) (r : After q.1) : After p := ⟨r.1, Std.lt_trans q.2 r.2⟩

def toFrom {p : s.Pos} (q : After p) : From p := ⟨q.1, Std.le_of_lt q.2⟩

def skip {p : s.Pos} (q : After p) (r : From q.1) : After p := ⟨r.1, Std.lt_of_lt_of_le q.2 r.2⟩

end After

namespace From

def here (p : s.Pos) : From p := ⟨p, Std.le_refl p⟩

def step {p : s.Pos} (q : From p) (r : After q.1) : After p := ⟨r.1, Std.lt_of_le_of_lt q.2 r.2⟩

end From

/-- Whether blanks may stand between the parts of a document. -/
def isSpace (c : Char) : Bool := c = ' ' || c = '\n' || c = '\t' || c = '\r'

/-- The next place where there is no blank. -/
def spaceEnd (p : s.Pos) : s.Pos :=
  match next? p with
  | none => p
  | some (c, q) =>
    have := q.2
    if isSpace c then spaceEnd q.1 else p
  termination_by p

theorem le_spaceEnd (p : s.Pos) : p ≤ spaceEnd p := by
  fun_induction spaceEnd p with
  | case1 => exact Std.le_refl _
  | case2 p c q _ _ _ ih => exact Std.le_trans (Std.le_of_lt q.2) ih
  | case3 => exact Std.le_refl _

def skipSpace (p : s.Pos) : From p := ⟨spaceEnd p, le_spaceEnd p⟩

/-- The place behind the given characters, if they stand here. -/
def skipWord (word : List Char) (p : s.Pos) : Option (From p) :=
  match word with
  | [] => some (.here p)
  | c :: rest =>
    match next? p with
    | none => none
    | some (d, q) =>
      if c = d then
        match skipWord rest q.1 with
        | some r => some (q.skip r).toFrom
        | none => none
      else none

end SnippetKernel.Wire
