/-
  Hexadecimal numbers as the messages write them: the mark `0x`, then capital
  digits, with leading zeros only where a width asks for them.
-/

namespace DemandPaging.Hex

/-- The capital hexadecimal digits of a number, most significant first. -/
def digits (n : Nat) : List Char :=
  (Nat.toDigits 16 n).map Char.toUpper

/-- A number in hexadecimal with at least `width` digits. -/
def padded (width n : Nat) : String :=
  let ds := digits n
  String.ofList ('0' :: 'x' :: (List.replicate (width - ds.length) '0' ++ ds))

/-- A number in hexadecimal without leading zeros. -/
def text (n : Nat) : String :=
  padded 1 n

end DemandPaging.Hex
