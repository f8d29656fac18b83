/-! Sets of characters given by ranges of code points. -/
namespace SnippetKernel.Text

/-- The code points from the first number to the second, both included. -/
abbrev CharRange := Nat × Nat

/-- Some range of the table holds `c`. -/
def inRanges (table : Array CharRange) (c : Char) : Bool :=
  table.any fun range => range.1 ≤ c.toNat && c.toNat ≤ range.2

theorem inRanges_iff (table : Array CharRange) (c : Char) :
    inRanges table c = true ↔ ∃ range ∈ table, range.1 ≤ c.toNat ∧ c.toNat ≤ range.2 := by
  simp only [inRanges, Array.any_eq_true', Bool.and_eq_true, decide_eq_true_eq]

end SnippetKernel.Text
