import PostfixSheet.Decimal.Binary64

/-!
The shortest decimal that reads back as a given double. A double is also a whole multiple of
10⁻¹⁰⁷⁴, so its exact decimal expansion is the digits of one natural number. The shortest decimal is
looked for on ever finer grids, those of the numbers with one digit, two digits and so on: only the
two neighbours of the double on a grid can read back as it, and on the finest grid the double itself
does.
-/

namespace PostfixSheet.Decimal

open Binary64

/-- The positive number `0.d₁d₂d₃… · 10^point`. -/
structure Expansion where
  digits : Text
  point : Int
deriving DecidableEq, Repr

/-- How many places the exact expansion of a double has after the point. -/
def places : Nat := 1074

def exactDigits (bits : Nat) : Nat := units bits * Nat.pow 5 places

def readsBack (bits steps : Nat) : Bool := nearest steps (Nat.pow 10 places) == bits

/-- Of two neighbours on a grid, the first one `rest` below a number, the one that will do; of two
such the nearer, and of two equally near ones the even. -/
def choose (below rest width : Nat) : (first second : Bool) → Option Nat
  | true, true =>
      if 2 * rest < width then some below
      else if width < 2 * rest then some (below + 1)
      else some (below + below % 2)
  | true, false => some below
  | false, true => some (below + 1)
  | false, false => none

/-- The neighbour of a double on the grid of the given width that reads back as the double, in
multiples of the width. -/
def neighbour? (bits exact width : Nat) : Option Nat :=
  let below := exact / width
  choose below (exact % width) width (readsBack bits (below * width))
    (readsBack bits ((below + 1) * width))

def trimZeros (digits : Text) : Text := (digits.reverse.dropWhile (· == '0')).reverse

/-- The number that lies so many steps from zero on the grid that leaves out the last `finer` places.
-/
def Expansion.ofSteps (steps finer : Nat) : Expansion :=
  let digits := Text.ofNat steps
  ⟨trimZeros digits, digits.length + finer - (places : Int)⟩

/-- The decimal with the fewest digits that reads back as a positive finite double. -/
def shortest (bits : Nat) : Expansion :=
  let exact := exactDigits bits
  let length := (Text.ofNat exact).length
  let found := (List.range length).findSome? fun coarse =>
    let finer := length - (coarse + 1)
    (neighbour? bits exact (Nat.pow 10 finer)).map (Expansion.ofSteps · finer)
  found.getD (.ofSteps exact 0)

end PostfixSheet.Decimal
