/-! # Floating-point numbers

Whole numbers as floating-point numbers of 64 bits know them.  Such a number has 53 significant bits
and stays below 2^1024:

* `nearest` rounds to the nearest whole number of 53 significant bits, a half going to the even
  neighbour,
* `product?` multiplies like that, and has no result where the product is too great. -/

namespace TrainerBooking.Binary64

/-- The least power of two that is too great. -/
def limit : Nat := Nat.pow 2 1024

/-- The nearest natural number of 53 significant bits. -/
def nearest (n : Nat) : Nat :=
  if n < Nat.pow 2 53 then n
  else
    let unit := Nat.pow 2 (Nat.log2 n - 52)
    let low := n / unit
    let rest := n % unit
    if 2 * rest > unit ∨ (2 * rest = unit ∧ low % 2 = 1) then (low + 1) * unit else low * unit

/-- The product of two numbers, which are rounded before. -/
def product? (a b : Nat) : Option Nat :=
  let p := nearest (nearest a * nearest b)
  if p < limit then some p else none

end TrainerBooking.Binary64
