/-!
# Machine words

Indices and sizes are counted in machine words of 64 bits, and sums and products of them wrap around
when a word cannot hold them. What is stored fits into memory, so its own indices and sizes stay far
below that limit; only an index that is given from outside can reach it.
-/

namespace Columnar

/-- How many numbers a machine word tells apart. -/
def wordRange : Nat := 18446744073709551616

/-- What a machine word keeps of a number. -/
def toWord (number : Nat) : Nat :=
  number % wordRange

/-- A number that fits into a machine word is kept. -/
theorem toWord_of_lt {number : Nat} (small : number < wordRange) : toWord number = number :=
  Nat.mod_eq_of_lt small

end Columnar
