/-!
# Decimal numerals

Writing natural numbers and integers in base ten, with `padded` for a least number of digits, and
reading digits back. `readNat?` takes one or more ASCII digits and nothing else.
-/

namespace TaskBoard.Text

/-- The character of a digit; the numbers from ten on have none and give `'9'`. -/
def digitChar (d : Nat) : Char :=
  match d with
  | 0 => '0' | 1 => '1' | 2 => '2' | 3 => '3' | 4 => '4'
  | 5 => '5' | 6 => '6' | 7 => '7' | 8 => '8' | _ => '9'

/-- The value of an ASCII digit. -/
def digitValue? (c : Char) : Option Nat :=
  if '0' ≤ c ∧ c ≤ '9' then some (c.toNat - 48) else none

/-- Whether the character is an ASCII digit. -/
def isDigit (c : Char) : Bool := (digitValue? c).isSome

/-- The decimal digits of a number, in front of `acc`. The fuel bounds the number of digits. -/
def digitsOnto : Nat → Nat → List Char → List Char
  | 0, _, acc => acc
  | fuel + 1, n, acc =>
    let acc := digitChar (n % 10) :: acc
    if n / 10 = 0 then acc else digitsOnto fuel (n / 10) acc

/-- The decimal numeral of a natural number, without leading zeros. -/
def natDigits (n : Nat) : List Char := digitsOnto (n.log2 + 1) n []

/-- The decimal numeral of an integer, with a minus sign below zero. -/
def intDigits : Int → List Char
  | .ofNat n => natDigits n
  | .negSucc n => '-' :: natDigits (n + 1)

/-- The numeral of `n` with zeros in front up to `width` digits. -/
def padded (width n : Nat) : List Char :=
  let ds := natDigits n
  List.replicate (width - ds.length) '0' ++ ds

/-- The text of a natural number. -/
def natText (n : Nat) : String := String.ofList (natDigits n)

/-- The text of an integer. -/
def intText (i : Int) : String := String.ofList (intDigits i)

/-- The number that follows when the digits `cs` are appended to those of `n`. -/
def readDigits (n : Nat) : List Char → Option Nat
  | [] => some n
  | c :: cs => (digitValue? c).bind fun d => readDigits (n * 10 + d) cs

/-- One or more ASCII digits, read as a number. -/
def readNat? : List Char → Option Nat
  | [] => none
  | c :: cs => readDigits 0 (c :: cs)

/-- Digits with an optional plus sign in front. -/
def readUnsigned? : List Char → Option Nat
  | '+' :: cs => readNat? cs
  | cs => readNat? cs

/-- Digits with an optional plus or minus sign in front. -/
def readSigned? : List Char → Option Int
  | '-' :: cs => (readNat? cs).map fun n => -(n : Int)
  | cs => (readUnsigned? cs).map Int.ofNat

/-- The digits of `n` in base sixteen, lower case, in front of `acc`. -/
def hexOnto : Nat → Nat → List Char → List Char
  | 0, _, acc => acc
  | fuel + 1, n, acc =>
    let d := n % 16
    let acc := (if d < 10 then digitChar d else Char.ofNat (87 + d)) :: acc
    if n / 16 = 0 then acc else hexOnto fuel (n / 16) acc

/-- The hexadecimal numeral of a number, lower case, without leading zeros. -/
def hexDigits (n : Nat) : List Char := hexOnto (n.log2 + 1) n []

/-- The value of a hexadecimal digit of either case. -/
def hexValue? (c : Char) : Option Nat :=
  if '0' ≤ c ∧ c ≤ '9' then some (c.toNat - 48)
  else if 'a' ≤ c ∧ c ≤ 'f' then some (c.toNat - 87)
  else if 'A' ≤ c ∧ c ≤ 'F' then some (c.toNat - 55)
  else none

end TaskBoard.Text
