/-! White space, and what is cut off or cut apart at it. -/
namespace SnippetKernel.Text

/-- The standard's property *White_Space*. -/
def isBlank (c : Char) : Bool :=
  let n := c.toNat
  (9 ≤ n && n ≤ 13) || n == 32 || n == 0x85 || n == 0xA0 || n == 0x1680 ||
    (0x2000 ≤ n && n ≤ 0x200A) || n == 0x2028 || n == 0x2029 || n == 0x202F || n == 0x205F ||
    n == 0x3000

/-- Every character that core calls white space is blank. -/
theorem isBlank_of_isWhitespace {c : Char} (h : c.isWhitespace = true) : isBlank c = true := by
  simp only [Char.isWhitespace, Bool.or_eq_true, decide_eq_true_eq] at h
  rcases h with ((rfl | rfl) | rfl) | rfl <;> rfl

/-- `cs` without its longest beginning in `drop`. -/
def dropStart (drop : Char → Bool) (cs : List Char) : List Char := cs.dropWhile drop

/-- `cs` without its longest end in `drop`. -/
def dropEnd (drop : Char → Bool) (cs : List Char) : List Char :=
  (cs.reverse.dropWhile drop).reverse

/-- `cs` without what is in `drop` at either end. -/
def dropEnds (drop : Char → Bool) (cs : List Char) : List Char := dropEnd drop (dropStart drop cs)

def trim (text : String) : String := String.ofList (dropEnds isBlank text.toList)

def trimStart (text : String) : String := String.ofList (dropStart isBlank text.toList)

section

variable {drop : Char → Bool} {before cs after : List Char}

theorem dropStart_append (first : ∀ c ∈ before, drop c) (begins : ∀ c ∈ cs.head?, drop c = false) :
    dropStart drop (before ++ cs) = cs := by
  rw [dropStart, List.dropWhile_append_of_pos first]
  cases cs with
  | nil => rfl
  | cons c rest => exact List.dropWhile_cons_of_neg (by simp [begins c rfl])

theorem dropEnd_append (last : ∀ c ∈ after, drop c) (ends : ∀ c ∈ cs.getLast?, drop c = false) :
    dropEnd drop (cs ++ after) = cs := by
  have reversed : ∀ c ∈ cs.reverse.head?, drop c = false := by rwa [List.head?_reverse]
  have cut : (after.reverse ++ cs.reverse).dropWhile drop = cs.reverse :=
    dropStart_append (fun c mem => last c (List.mem_reverse.mp mem)) reversed
  rw [dropEnd, List.reverse_append, cut, List.reverse_reverse]

theorem dropEnds_append (first : ∀ c ∈ before, drop c) (last : ∀ c ∈ after, drop c)
    (begins : ∀ c ∈ cs.head?, drop c = false) (ends : ∀ c ∈ cs.getLast?, drop c = false) :
    dropEnds drop (before ++ cs ++ after) = cs := by
  cases cs with
  | nil =>
    have all : ∀ c ∈ before ++ [] ++ after, drop c := by
      simpa [or_imp, forall_and] using And.intro first last
    have none : dropStart drop (before ++ [] ++ after) = [] := by
      simpa using @dropStart_append drop _ [] all nofun
    rw [dropEnds, none]
    rfl
  | cons c rest =>
    rw [dropEnds, List.append_assoc, @dropStart_append drop before (c :: rest ++ after) first begins]
    exact dropEnd_append last ends

end

theorem length_dropWhile_le {α : Type} (p : α → Bool) (cs : List α) :
    (cs.dropWhile p).length ≤ cs.length :=
  (List.dropWhile_sublist p).length_le

/-- The maximal pieces without blanks; after `limit` of them (if there is a limit) the rest of the
text, from its first character that is not blank, is one last piece. -/
def words (limit : Option Nat) (cs : List Char) : List (List Char) :=
  match start : cs.dropWhile isBlank with
  | [] => []
  | c :: rest =>
    have _shorter : (rest.dropWhile (!isBlank ·)).length < cs.length := by
      have start_le := length_dropWhile_le isBlank cs
      have rest_le := length_dropWhile_le (fun d => !isBlank d) rest
      rw [start, List.length_cons] at start_le
      omega
    match limit with
    | some 0 => [c :: rest]
    | _ =>
      (c :: rest).takeWhile (!isBlank ·) ::
        words (limit.map (· - 1)) (rest.dropWhile (!isBlank ·))
termination_by cs.length

end SnippetKernel.Text
