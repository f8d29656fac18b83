/-! Looking for a piece of text inside another, from the left and without overlaps. -/
namespace SnippetKernel.Text

/-- What follows `piece` in `cs`, if `cs` starts with it. -/
def afterPiece (piece cs : List Char) : Option (List Char) :=
  match piece, cs with
  | [], cs => some cs
  | _ :: _, [] => none
  | p :: piece, c :: cs => if p = c then afterPiece piece cs else none

theorem afterPiece_eq_some_iff {piece cs rest : List Char} :
    afterPiece piece cs = some rest ↔ cs = piece ++ rest := by
  induction piece generalizing cs with
  | nil => simp [afterPiece, eq_comm]
  | cons p piece ih =>
    cases cs with
    | nil => simp [afterPiece]
    | cons c cs =>
      by_cases same : p = c
      · simp [afterPiece, same, ih]
      · simp [afterPiece, same, Ne.symm same]

theorem length_of_afterPiece {piece cs rest : List Char} (h : afterPiece piece cs = some rest) :
    cs.length = piece.length + rest.length := by
  rw [afterPiece_eq_some_iff.1 h, List.length_append]

def startsWith (piece cs : List Char) : Bool := (afterPiece piece cs).isSome

def endsWith (piece cs : List Char) : Bool := startsWith piece.reverse cs.reverse

/-- The text before the first occurrence of `piece` and the text after it; `seen` is what was
passed on the way, last character first. -/
def cutFrom (piece seen : List Char) : List Char → Option (List Char × List Char)
  | [] => if piece.isEmpty then some (seen.reverse, []) else none
  | c :: rest =>
    match afterPiece piece (c :: rest) with
    | some after => some (seen.reverse, after)
    | none => cutFrom piece (c :: seen) rest

def cut? (piece cs : List Char) : Option (List Char × List Char) := cutFrom piece [] cs

theorem eq_of_cutFrom {piece seen cs before after : List Char}
    (h : cutFrom piece seen cs = some (before, after)) :
    seen.reverse ++ cs = before ++ piece ++ after := by
  induction cs generalizing seen with
  | nil =>
    simp only [cutFrom, List.isEmpty_iff] at h
    split at h
    · next empty => cases h; simp [empty]
    · cases h
  | cons c rest ih =>
    simp only [cutFrom] at h
    split at h
    · next after' found => cases h; simp [afterPiece_eq_some_iff.1 found]
    · simpa using ih h

theorem eq_of_cut? {piece cs before after : List Char} (h : cut? piece cs = some (before, after)) :
    cs = before ++ piece ++ after := by simpa using eq_of_cutFrom h

theorem length_lt_of_cut? {piece cs before after : List Char} (nonempty : piece ≠ [])
    (h : cut? piece cs = some (before, after)) : after.length < cs.length := by
  have pos := List.length_pos_iff.2 nonempty
  simp only [eq_of_cut? h, List.length_append]
  omega

/-- How many characters come before the first occurrence of `piece`. -/
def find? (piece cs : List Char) : Option Nat := (cut? piece cs).map (·.1.length)

def contains (piece cs : List Char) : Bool := (cut? piece cs).isSome

/-- The pieces of `cs` between the occurrences of `separator`; after `limit` cuts (if there is a
limit) the rest is one last piece. An empty separator cuts nothing. -/
def split (separator : List Char) (limit : Option Nat) (cs : List Char) : List (List Char) :=
  if stop : separator = [] ∨ limit = some 0 then [cs]
  else
    match found : cut? separator cs with
    | none => [cs]
    | some (before, after) =>
      have _shorter := length_lt_of_cut? (fun empty => stop (.inl empty)) found
      before :: split separator (limit.map (· - 1)) after
termination_by cs.length

/-- The number of occurrences of `piece`, which is not empty, that do not overlap. -/
def count (piece cs : List Char) : Nat :=
  if empty : piece = [] then 0
  else
    match found : cut? piece cs with
    | none => 0
    | some (_, after) =>
      have _shorter := length_lt_of_cut? empty found
      count piece after + 1
termination_by cs.length

/-- Every character of `cs` with `new` before it, and `new` at the end; only the first `limit` of
these are written if there is a limit. `done` is what was written so far, last character first. -/
def interleave (new done : List Char) (limit : Option Nat) : List Char → List Char
  | [] => done.reverse ++ if limit = some 0 then [] else new
  | c :: rest =>
    if limit = some 0 then done.reverse ++ c :: rest
    else interleave new (c :: (new.reverse ++ done)) (limit.map (· - 1)) rest

/-- `cs` with its first `limit` occurrences of `old`, or all of them, written as `new`. `done` is
what was written so far, last character first. -/
def replaceFrom (old new done : List Char) (limit : Option Nat) (cs : List Char) : List Char :=
  if stop : old = [] ∨ limit = some 0 then done.reverse ++ cs
  else
    match found : afterPiece old cs with
    | some after =>
      have _shorter : after.length < cs.length := by
        have pos := List.length_pos_iff.2 (fun empty => stop (.inl empty))
        have len := length_of_afterPiece found
        omega
      replaceFrom old new (new.reverse ++ done) (limit.map (· - 1)) after
    | none =>
      match cs with
      | [] => done.reverse
      | c :: rest => replaceFrom old new (c :: done) limit rest
termination_by cs.length

/-- `cs` with its first `limit` occurrences of `old`, or all of them, written as `new`. An empty
`old` occurs before every character and at the end. -/
def replace (old new : List Char) (limit : Option Nat) (cs : List Char) : List Char :=
  if old.isEmpty then interleave new [] limit cs else replaceFrom old new [] limit cs

/-- The lines of a text. A line feed, or a carriage return and a line feed, ends a line; what
follows the last line end is a line of its own unless it is empty. -/
def lines (cs : List Char) : List (List Char) :=
  match found : cut? ['\n'] cs with
  | none => if cs.isEmpty then [] else [cs]
  | some (line, after) =>
    have _shorter := length_lt_of_cut? (by simp) found
    (if line.getLast? = some '\r' then line.dropLast else line) :: lines after
termination_by cs.length

/-- The pieces one after another with `separator` between neighbours. -/
def join (separator : List Char) : List (List Char) → List Char
  | [] => []
  | first :: rest => first ++ rest.flatMap (separator ++ ·)

end SnippetKernel.Text
