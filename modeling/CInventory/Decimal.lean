/-!
# Decimals

Quotients as decimals with a fixed number of places, and quotients rounded to the 53 binary
digits that a measured rate is held in. A half goes to the even neighbour in both.
-/

namespace CInventory.Decimal

/-- The nearest whole number to `num / den`; of two, the even one. -/
def roundDiv (num den : Nat) : Nat :=
  let q := num / den
  let r := num % den
  if 2 * r < den || (2 * r = den && q % 2 = 0) then q else q + 1

/-- A quotient of natural numbers. -/
structure Ratio where
  num : Nat
  den : Nat := 1

namespace Ratio

/-- The nearest quotient that has 53 binary digits and a power of two below it. -/
def rounded (x : Ratio) : Ratio :=
  if x.num = 0 || x.den = 0 then ⟨0, 1⟩
  else
    let up := 53 + x.den.log2 - x.num.log2
    let down := x.num.log2 - x.den.log2 - 53
    let wide := x.num * Nat.pow 2 up ≥ x.den * Nat.pow 2 down * Nat.pow 2 53
    let num := x.num * Nat.pow 2 up
    let den := x.den * Nat.pow 2 down * (if wide then 2 else 1)
    ⟨roundDiv num den * Nat.pow 2 down * (if wide then 2 else 1), Nat.pow 2 up⟩

def mul (x : Ratio) (n : Nat) : Ratio := ⟨x.num * n, x.den⟩

def add (x y : Ratio) : Ratio := ⟨x.num * y.den + y.num * x.den, x.den * y.den⟩

/-- The decimal with `places` digits behind the point. -/
def fixed (x : Ratio) (places : Nat) : String :=
  let scaled := roundDiv (x.num * Nat.pow 10 places) x.den
  let digits := (toString (scaled % Nat.pow 10 places)).toList
  let zeros := List.replicate (places - digits.length) '0'
  toString (scaled / Nat.pow 10 places) ++ String.ofList ('.' :: (zeros ++ digits))

end Ratio

/-- Divide by 1024 as long as the size reaches it and a larger unit is left. -/
def scaleSize (x : Ratio) (unit : String) : List String → String
  | [] => x.fixed 2 ++ " " ++ unit
  | next :: units =>
    if x.num ≥ 1024 * x.den then scaleSize ⟨x.num, x.den * 1024⟩ next units
    else x.fixed 2 ++ " " ++ unit

/-- A number of bytes for people: whole bytes below 1024, else two places and a unit. -/
def humanSize (bytes : Nat) : String :=
  if bytes < 1024 then s!"{bytes} B"
  else
    let x := (Ratio.mk bytes 1).rounded
    scaleSize ⟨x.num, x.den * 1024⟩ "KB" ["MB", "GB"]

end CInventory.Decimal
