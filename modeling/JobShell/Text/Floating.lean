import JobShell.Numbers

/-!
# Floating numbers

Numbers with a significand of a fixed number of bits. They are read from
decimal and hexadecimal digits and rounded to the nearest one; they are
shown with as many decimal digits as are asked for, again rounded to the
nearest. Both roundings are exact, and of two that are equally near the even
one is taken.
-/

namespace JobShell.Text

/-- The whole number next to a quotient; of two that are equally near the
even one. -/
def roundDiv (numerator denominator : Nat) : Nat :=
  let quotient := numerator / denominator
  let double := 2 * (numerator % denominator)
  if double < denominator then quotient
  else if denominator < double then quotient + 1
  else quotient + quotient % 2

/-- How many bits the significands of a kind of numbers have, and the range
of the numbers: the smallest ones are multiples of two to the `least`, and
all are below two to the `limit`. -/
structure FloatFormat where
  bits : Nat
  least : Int
  limit : Int

namespace FloatFormat

def double : FloatFormat := ⟨53, -1074, 1024⟩
def extended : FloatFormat := ⟨64, -16445, 16384⟩

end FloatFormat

/-- A floating number. The absolute value of a finite one is the significand
times two to the exponent. -/
inductive Floating
  | finite (negative : Bool) (significand : Nat) (exponent : Int)
  | infinite (negative : Bool)
  | notANumber (negative : Bool)
  deriving DecidableEq, Repr

namespace Floating

def zero : Floating := .finite false 0 0

/-- The numerator and the denominator of a fraction times a power. -/
def scale (numerator denominator base : Nat) (exponent : Int) : Nat × Nat :=
  if 0 ≤ exponent then (numerator * base ^ exponent.toNat, denominator)
  else (numerator, denominator * base ^ (-exponent).toNat)

/-- The number of a format next to a fraction, and whether the fraction is
out of its range. -/
def ofFraction (f : FloatFormat) (negative : Bool) (numerator denominator : Nat) :
    Floating × Bool :=
  if numerator = 0 then (.finite negative 0 0, false)
  else
    let guess : Int := numerator.log2 - denominator.log2 - f.bits
    let attempt (exponent : Int) : Nat :=
      let (n, d) := scale numerator denominator 2 (-exponent)
      n / d
    let exponent := max f.least (if attempt guess < 2 ^ f.bits then guess else guess + 1)
    let (n, d) := scale numerator denominator 2 (-exponent)
    let rounded := roundDiv n d
    let (significand, exponent) :=
      if rounded < 2 ^ f.bits then (rounded, exponent) else (rounded / 2, exponent + 1)
    if f.limit < exponent + significand.log2 + 1 then (.infinite negative, true)
    else
      let tiny := significand < 2 ^ (f.bits - 1)
      (.finite negative significand exponent, tiny && n % d != 0)

/-! ## Reading -/

/-- The value of a digit. -/
def digitValue (c : Char) : Nat :=
  if c.isDigit then c.toNat - 48 else c.toLower.toNat - 87

/-- The number that digits denote. -/
def digitsValue (base : Nat) (digits : List Char) : Nat :=
  digits.foldl (fun n c => n * base + digitValue c) 0

/-- Whole digits, digits of the fraction, and what follows them. -/
def spanDigits (isDigit : Char → Bool) (cs : List Char) : List Char × List Char × List Char :=
  let (whole, rest) := cs.span isDigit
  match rest with
  | '.' :: rest =>
    let (fraction, rest') := rest.span isDigit
    if whole = [] ∧ fraction = [] then ([], [], cs) else (whole, fraction, rest')
  | rest => (whole, [], rest)

/-- An exponent behind its letter, and what follows it. -/
def spanExponent (letter : Char) (cs : List Char) : Int × List Char :=
  match cs with
  | c :: rest =>
    if c.toLower ≠ letter then (0, cs)
    else
      let (negative, digits) : Bool × List Char := match rest with
        | '-' :: rest => (true, rest)
        | '+' :: rest => (false, rest)
        | rest => (false, rest)
      match digits.span Char.isDigit with
      | ([], _) => (0, cs)
      | (digits, rest) =>
        let n : Int := digitsValue 10 digits
        (if negative then -n else n, rest)
  | [] => (0, [])

/-- Whether a character is a hexadecimal digit. -/
def isHexDigit (c : Char) : Bool := c.isDigit || ('a' ≤ c.toLower && c.toLower ≤ 'f')

/-- What a text begins with when case does not matter. -/
def startsWith (word : String) (cs : List Char) : Bool :=
  word.toList.isPrefixOf (cs.map Char.toLower)

/-- No exponent has to be larger than this: the number is out of range
anyhow. -/
def exponentBound (digits : Nat) : Int := 50000 + 4 * digits

/-- A number without a sign at the beginning of a text: the number, whether
it is out of range, and what follows. -/
def readUnsigned (f : FloatFormat) (negative : Bool) (cs : List Char) :
    Option (Floating × Bool × List Char) :=
  let bounded (exponent : Int) (digits : Nat) : Int :=
    max (-exponentBound digits) (min (exponentBound digits) exponent)
  let decimal : Option (Floating × Bool × List Char) :=
    match spanDigits Char.isDigit cs with
    | ([], [], _) => none
    | (whole, fraction, rest) =>
      let (exponent, rest) := spanExponent 'e' rest
      let digits := whole ++ fraction
      let (n, d) := scale (digitsValue 10 digits) 1 10
        (bounded exponent digits.length - fraction.length)
      let (value, outside) := ofFraction f negative n d
      some (value, outside, rest)
  match cs with
  | '0' :: x :: rest =>
    if x.toLower ≠ 'x' then decimal
    else
      match spanDigits isHexDigit rest with
      | ([], [], _) => decimal
      | (whole, fraction, rest) =>
        let (exponent, rest) := spanExponent 'p' rest
        let digits := whole ++ fraction
        let (n, d) := scale (digitsValue 16 digits) 1 2
          (bounded exponent digits.length - 4 * fraction.length)
        let (value, outside) := ofFraction f negative n d
        some (value, outside, rest)
  | cs =>
    if startsWith "infinity" cs then some (.infinite negative, false, cs.drop 8)
    else if startsWith "inf" cs then some (.infinite negative, false, cs.drop 3)
    else if startsWith "nan" cs then some (.notANumber negative, false, cs.drop 3)
    else decimal

/-- A number at the beginning of a text, behind blanks and a sign. -/
def read? (f : FloatFormat) (text : List Char) : Option (Floating × Bool × List Char) :=
  match text.dropWhile (·.isWhitespace) with
  | '-' :: cs => readUnsigned f true cs
  | '+' :: cs => readUnsigned f false cs
  | cs => readUnsigned f false cs

/-! ## Showing -/

/-- Decimal digits, at least `count` of them. -/
def paddedDigits (count n : Nat) : List Char :=
  let digits := Nat.toDigits 10 n
  List.replicate (count - digits.length) '0' ++ digits

/-- The fraction behind `digits`, with its point. -/
def pointed (always : Bool) (fraction : List Char) : List Char :=
  if fraction = [] ∧ !always then [] else '.' :: fraction

/-- With a fixed number of digits behind the point. -/
def showFixed (significand : Nat) (exponent : Int) (places : Nat) (point : Bool) : List Char :=
  let (n, d) := scale (significand * 10 ^ places) 1 2 exponent
  let digits := paddedDigits (places + 1) (roundDiv n d)
  digits.take (digits.length - places) ++ pointed point (digits.drop (digits.length - places))

/-- The digits of a number, one in front of the point and `places` behind
it, together with the power of ten that the first one counts. -/
def decimalDigits (significand : Nat) (exponent : Int) (places : Nat) : List Char × Int :=
  if significand = 0 then (List.replicate (places + 1) '0', 0)
  else
    let (n, d) := scale significand 1 2 exponent
    let power : Int :=
      if d ≤ n then (Nat.toDigits 10 (n / d)).length - 1
      else
        let guess := (Nat.toDigits 10 (d / n)).length
        if d ≤ n * 10 ^ (guess - 1) then -(guess - 1 : Nat) else -guess
    let (n, d) := scale n d 10 (places - power)
    let rounded := roundDiv n d
    if rounded < 10 ^ (places + 1) then (Nat.toDigits 10 rounded, power)
    else (Nat.toDigits 10 (rounded / 10), power + 1)

/-- An exponent with its sign and at least two digits. -/
def showExponent (letter : Char) (least : Nat) (power : Int) : List Char :=
  letter :: (if power < 0 then '-' else '+') :: paddedDigits least power.natAbs

/-- With one digit in front of the point, and a power of ten. -/
def showScientific (significand : Nat) (exponent : Int) (places : Nat) (point : Bool) :
    List Char :=
  let (digits, power) := decimalDigits significand exponent places
  digits.take 1 ++ pointed point (digits.drop 1) ++ showExponent 'e' 2 power

/-- Leaves out zeros at the end of a fraction, and the point if nothing is
left. -/
def trimFraction (digits : List Char) : List Char :=
  if digits.contains '.' then
    let kept := digits.reverse.dropWhile (· = '0')
    (if kept.head? = some '.' then kept.drop 1 else kept).reverse
  else digits

/-- With a number of digits that count, in whichever of the two ways is
shorter. -/
def showGeneral (significand : Nat) (exponent : Int) (count : Nat) (point : Bool) : List Char :=
  let count := max count 1
  let trim (digits : List Char) : List Char := if point then digits else trimFraction digits
  let (digits, power) := decimalDigits significand exponent (count - 1)
  if -4 ≤ power ∧ power < count then
    trim (showFixed significand exponent (count - 1 - power).toNat point)
  else
    trim (digits.take 1 ++ pointed point (digits.drop 1)) ++ showExponent 'e' 2 power

/-- The hexadecimal digits of a significand of `bits` bits: one in front of
the point, which takes the `lead` highest bits. -/
def showHexadecimal (f : FloatFormat) (significand : Nat) (exponent : Int)
    (places : Option Nat) (point : Bool) : List Char :=
  let lead := (f.bits - 1) % 4 + 1
  let width := (f.bits - lead) / 4
  let shift := f.bits - (significand.log2 + 1)
  let (n, power) : Nat × Int :=
    if significand = 0 then (0, 0)
    else (significand * 2 ^ shift, exponent - shift + (f.bits - lead : Nat))
  let (n, width) : Nat × Nat := match places with
    | some places => if places < width then (roundDiv n (16 ^ (width - places)), places)
        else (n * 16 ^ (places - width), places)
    | none => (n, width)
  let whole := n / 16 ^ width
  let fraction := Nat.toDigits 16 (n % 16 ^ width)
  let fraction := if width = 0 then [] else List.replicate (width - fraction.length) '0' ++ fraction
  let body := Nat.toDigits 16 whole ++ pointed point fraction
  '0' :: 'x' :: (if places.isNone then trimFraction body else body) ++ showExponent 'p' 1 power

/-- How a number is shown. -/
inductive DigitStyle
  | fixed
  | scientific
  | general
  | hexadecimal
  deriving DecidableEq, Repr

/-- The digits of a number without its sign. A point without digits behind
it is shown where `point` says so. -/
def digits (f : FloatFormat) (style : DigitStyle) (precision : Option Nat) (point : Bool) :
    Floating → List Char
  | .infinite _ => ['i', 'n', 'f']
  | .notANumber _ => ['n', 'a', 'n']
  | .finite _ significand exponent =>
    match style with
    | .fixed => showFixed significand exponent (precision.getD 6) point
    | .scientific => showScientific significand exponent (precision.getD 6) point
    | .general => showGeneral significand exponent (precision.getD 6) point
    | .hexadecimal => showHexadecimal f significand exponent precision point

/-- Whether a number has a minus sign. -/
def isNegative : Floating → Bool
  | .finite negative .. | .infinite negative | .notANumber negative => negative

/-- Whether a number has digits. -/
def isFinite : Floating → Bool
  | .finite .. => true
  | _ => false

end Floating

end JobShell.Text
