import PostfixSheet.Text.Basic

/-!
Doubles as integers. Every finite double is a whole multiple of 2⁻¹⁰⁷⁴, and the bits of the doubles
without a sign, read as a number, are those multiples in increasing order with none left out. So a
double without a sign is a number up to `infinity` here, its value is `units` of it, and rounding a
fraction to a double is one division of natural numbers.
-/

namespace PostfixSheet.Binary64

/-- The bits of infinity; all smaller numbers are the bits of a finite double. -/
def infinity : Nat := 0x7ff0000000000000

def signWeight : Nat := Nat.pow 2 63

/-- One over the smallest positive double. -/
def unitsPerOne : Nat := Nat.pow 2 1074

/-- The weight of the exponent among the bits, and of the leading bit of a value in its last place.
-/
def leadingUnit : Nat := Nat.pow 2 52

/-- The value of a double without a sign, counted in smallest positive doubles. -/
def units (bits : Nat) : Nat :=
  let exponent := bits / leadingUnit
  let fraction := bits % leadingUnit
  if exponent = 0 then fraction else (leadingUnit + fraction) * Nat.pow 2 (exponent - 1)

/-- The whole number nearest to a fraction; of two equally near ones the even one. -/
def roundHalfEven (numerator denominator : Nat) : Nat :=
  let whole := numerator / denominator
  let rest := numerator % denominator
  if 2 * rest < denominator then whole
  else if denominator < 2 * rest then whole + 1
  else whole + whole % 2

/-- The bits of the double nearest to a fraction; of two equally near ones the one whose last bit is
zero. The first 53 bits of the value are kept, fewer where the smallest positive double ends them.
-/
def nearest (numerator denominator : Nat) : Nat :=
  let scaled := numerator * unitsPerOne
  let dropped := (scaled / denominator).log2 - 52
  min (dropped * leadingUnit + roundHalfEven scaled (denominator * Nat.pow 2 dropped)) infinity

def toFloat (negative : Bool) (magnitude : Nat) : Float :=
  Float.ofBits (UInt64.ofNat (if negative then signWeight + magnitude else magnitude))

def negative (x : Float) : Bool := signWeight ≤ x.toBits.toNat

def magnitude (x : Float) : Nat := x.toBits.toNat % signWeight

/-- The value of a double, counted in smallest positive doubles, if it is finite. -/
def signedUnits? (x : Float) : Option Int :=
  if magnitude x < infinity then
    some (if negative x then -(units (magnitude x) : Int) else units (magnitude x))
  else none

theorem units_per_one_pos : 0 < unitsPerOne := by decide +kernel

theorem round_half_even_mul {whole denominator : Nat} (positive : 0 < denominator) :
    roundHalfEven (whole * denominator) denominator = whole := by
  simp [roundHalfEven, Nat.mul_div_cancel _ positive, positive]

end PostfixSheet.Binary64
