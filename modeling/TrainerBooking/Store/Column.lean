import TrainerBooking.Binary64

/-! # Numbers in a column

A column of whole numbers keeps 64-bit numbers exactly.  A sum that does not fit into 64 bits is kept
as a floating-point number instead: its terms and the result are rounded (`Column.rounded`).  Whoever
asks for such a number as a 64-bit one gets the nearest (`Column.read`), and whoever asks for a number
of 32 bits gets its low half, of which `Column.holds` tells whether it is zero. -/

namespace TrainerBooking.Column

/-- The greatest 64-bit number. -/
def greatest : Int := 9223372036854775807

/-- The least 64-bit number. -/
def least : Int := -9223372036854775808

/-- Is the number a 64-bit one? -/
def fits (i : Int) : Bool := decide (least ≤ i) && decide (i ≤ greatest)

/-- The nearest integer of 53 significant bits. -/
def rounded (i : Int) : Int :=
  if i < 0 then -(Binary64.nearest i.natAbs : Int) else Binary64.nearest i.natAbs

/-- The sum of two numbers of a column, as the column keeps it. -/
def sum (a b : Int) : Int :=
  if fits a && fits b && fits (a + b) then a + b else rounded (rounded a + rounded b)

/-- The number as a 64-bit one. -/
def read (i : Int) : Int := if i > greatest then greatest else if i < least then least else i

/-- Is one of the low 32 bits of the number set? -/
def holds (i : Int) : Bool := decide (i % 4294967296 ≠ 0)

theorem sum_of_fits {a b : Int} (ha : fits a = true) (hb : fits b = true)
    (h : fits (a + b) = true) : sum a b = a + b := by simp [sum, ha, hb, h]

theorem read_of_fits {a : Int} (h : fits a = true) : read a = a := by
  simp only [fits, Bool.and_eq_true, decide_eq_true_eq] at h
  simp only [read]
  rw [if_neg (by omega), if_neg (by omega)]

end TrainerBooking.Column
