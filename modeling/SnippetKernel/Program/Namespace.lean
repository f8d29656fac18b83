/-! Names bound to values, in the order in which they were bound. Binding a name again keeps its place;
removing it and binding it again moves it to the end. -/
namespace SnippetKernel

/-- The names are distinct: `set` is the only way to add one. -/
structure Namespace (α : Type) where
  entries : List (String × α)

namespace Namespace

variable {α : Type}

def empty : Namespace α := ⟨[]⟩

instance : Inhabited (Namespace α) := ⟨empty⟩

def names (n : Namespace α) : List String := n.entries.map (·.1)

def find? (n : Namespace α) (name : String) : Option α := n.entries.lookup name

def contains (n : Namespace α) (name : String) : Bool := n.entries.any (·.1 == name)

def size (n : Namespace α) : Nat := n.entries.length

def setIn (name : String) (value : α) : List (String × α) → List (String × α)
  | [] => [(name, value)]
  | (other, old) :: rest =>
    if other = name then (name, value) :: rest else (other, old) :: setIn name value rest

def set (n : Namespace α) (name : String) (value : α) : Namespace α := ⟨setIn name value n.entries⟩

def remove (n : Namespace α) (name : String) : Namespace α := ⟨n.entries.filter (·.1 ≠ name)⟩

/-- Names that begin with an underscore are hidden from listings. -/
def isVisible (name : String) : Bool := !name.startsWith "_"

def visible (n : Namespace α) : List (String × α) := n.entries.filter fun entry => isVisible entry.1

theorem find?_set (n : Namespace α) (name : String) (value : α) (x : String) :
    (n.set name value).find? x = if x = name then some value else n.find? x := by
  obtain ⟨entries⟩ := n
  simp only [set, find?]
  induction entries with
  | nil =>
    by_cases eq : x = name
    · simp [setIn, eq]
    · simp [setIn, List.lookup_cons, List.lookup_nil, beq_eq_false_iff_ne.2 eq, eq]
  | cons entry rest ih =>
    obtain ⟨other, old⟩ := entry
    by_cases same : other = name
    · by_cases eq : x = name
      · simp [setIn, same, eq]
      · simp [setIn, same, List.lookup_cons, beq_eq_false_iff_ne.2 eq, eq]
    · by_cases eq : x = other
      · subst eq
        simp [setIn, same]
      · simp [setIn, same, List.lookup_cons, beq_eq_false_iff_ne.2 eq, ih]

end Namespace

end SnippetKernel
