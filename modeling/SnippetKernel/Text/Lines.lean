/-! Lines of bytes. -/
namespace SnippetKernel.Text

/-- The pieces between line feeds, behind the bytes of a piece in reverse. -/
def pieces (before : List UInt8) : List UInt8 → List (List UInt8)
  | [] => [before.reverse]
  | b :: rest => if b = 10 then before.reverse :: pieces [] rest else pieces (b :: before) rest

/-- The pieces between the line feeds; one more than there are line feeds. -/
def linesOf (bytes : ByteArray) : List (List UInt8) := pieces [] bytes.toList

theorem pieces_ne_nil (before bytes : List UInt8) : pieces before bytes ≠ [] := by
  induction bytes generalizing before with
  | nil => simp [pieces]
  | cons b rest ih =>
    simp only [pieces]
    split
    · simp
    · exact ih _

/-- Nothing is lost. -/
theorem intercalate_pieces (before bytes : List UInt8) :
    [10].intercalate (pieces before bytes) = before.reverse ++ bytes := by
  induction bytes generalizing before with
  | nil => simp [pieces]
  | cons b rest ih =>
    simp only [pieces]
    split
    · next feed =>
      obtain ⟨p, ps, h⟩ := List.exists_cons_of_ne_nil (pieces_ne_nil [] rest)
      have := ih []
      rw [h] at this ⊢
      rw [List.intercalate_cons_cons, this]
      simp [feed]
    · rw [ih]
      simp

/-- The text of bytes, if they are one. -/
def textOf? (bytes : List UInt8) : Option String := String.fromUTF8? ⟨bytes.toArray⟩

end SnippetKernel.Text
