/-!
# Whole numbers as doubles

Distances between types are kept as doubles. They are whole and never negative, so each is
represented by the natural number that the double stands for, and arithmetic on them is exact
arithmetic followed by one rounding.
-/

namespace Pascal.Number

/-- The number of binary digits a double keeps. -/
def doubleDigits : Nat := 53

/-- The double nearest to `n`; a number halfway between two goes to the one with an even last
digit. -/
def nearestDouble (n : Nat) : Nat :=
  let dropped := n.log2 + 1 - doubleDigits
  let unit := Nat.pow 2 dropped
  let kept := n / unit
  let rest := n % unit
  let up := unit < 2 * rest || (unit == 2 * rest && kept % 2 == 1)
  (if up then kept + 1 else kept) * unit

def addDouble (a b : Nat) : Nat := nearestDouble (a + b)

/-- Small numbers are doubles already. -/
theorem nearestDouble_of_lt {n : Nat} (h : n < Nat.pow 2 doubleDigits) : nearestDouble n = n := by
  have hd : n.log2 + 1 - doubleDigits = 0 := by
    by_cases hn : n = 0
    · subst hn; decide
    · have := (Nat.log2_lt hn).2 h
      omega
  simp [nearestDouble, hd]
  omega

end Pascal.Number
