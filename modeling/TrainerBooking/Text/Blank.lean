/-! # Blank text

A text is **blank** when it is empty once white space is trimmed from both ends, that is, when
every character of it is white space.  White space is the Unicode property `White_Space`. -/

namespace TrainerBooking.Text

/-- The code points that have the property `White_Space`. -/
def whiteSpace : List Nat :=
  [0x09, 0x0A, 0x0B, 0x0C, 0x0D, 0x20, 0x85, 0xA0, 0x1680, 0x2000, 0x2001, 0x2002, 0x2003, 0x2004,
    0x2005, 0x2006, 0x2007, 0x2008, 0x2009, 0x200A, 0x2028, 0x2029, 0x202F, 0x205F, 0x3000]

/-- Is the character white space? -/
def isWhiteSpace (c : Char) : Bool := whiteSpace.contains c.toNat

/-- Does trimming leave nothing of the text? -/
def isBlank (s : String) : Bool := s.toList.all isWhiteSpace

@[simp] theorem isBlank_empty : isBlank "" = true := by simp [isBlank]

/-- A text is blank exactly when it holds white space alone. -/
theorem isBlank_iff {s : String} : isBlank s = true ↔ ∀ c ∈ s.toList, isWhiteSpace c = true := by
  simp [isBlank]

/-- The ASCII white space of the core library is white space here too. -/
theorem isWhiteSpace_of_ascii {c : Char} (h : c.isWhitespace = true) : isWhiteSpace c = true := by
  simp only [Char.isWhitespace, Bool.or_eq_true, decide_eq_true_eq] at h
  rcases h with ((rfl | rfl) | rfl) | rfl <;> decide

end TrainerBooking.Text
