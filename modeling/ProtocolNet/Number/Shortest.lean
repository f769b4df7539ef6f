import ProtocolNet.Number.Double

namespace ProtocolNet.Double

def scaleDecimal (num den : Nat) (power : Int) : Nat × Nat :=
  match power with
  | .ofNat k => (num,den * powerOfTen k)
  | .negSucc k => (num * powerOfTen (k + 1),den)

def widePlaces : Nat := 400

def decimalTop (num den : Nat) : Int := decimalLength (num * powerOfTen widePlaces / den) - widePlaces

def onGrid? (mantissa : Nat) (exponent : Int) (power : Int) : Option Nat :=
  let (num,den) := magnitude mantissa exponent
  let (p,q) := scaleDecimal num den power
  let below := p / q
  let readsBack (d : Nat) : Bool := ofDecimal false d power = .finite false mantissa exponent
  let nearest := roundQuotient p q
  if readsBack nearest then some nearest
  else if readsBack below then some below
  else if readsBack (below + 1) then some (below + 1)
  else none

def shortestFrom (mantissa : Nat) (exponent : Int) : (count : Nat) → (power : Int) → Nat × Int
  | 0, power =>
    let (num,den) := magnitude mantissa exponent
    let (p,q) := scaleDecimal num den power
    (p / q,power)
  | count + 1, power =>
    match onGrid? mantissa exponent power with
    | some d => (d,power)
    | none => shortestFrom mantissa exponent count (power - 1)

def shortest (mantissa : Nat) (exponent : Int) : Nat × Int :=
  let (num,den) := magnitude mantissa exponent
  shortestFrom mantissa exponent 17 (decimalTop num den - 1)

def isPositional (top : Int) : Bool := -4 < top && top ≤ 16

def zeros (n : Nat) : List Char := List.replicate n '0'

def exponentText (power : Int) : List Char :=
  let digits := Nat.toDigits 10 power.natAbs
  (if power < 0 then '-' else '+') :: (zeros (2 - digits.length) ++ digits)

def decimalText (digits : List Char) (top : Int) : List Char :=
  if isPositional top then
    if top ≤ 0 then '0' :: '.' :: (zeros top.natAbs ++ digits)
    else if digits.length ≤ top.natAbs then
      digits ++ zeros (top.natAbs - digits.length) ++ ['.','0']
    else digits.take top.natAbs ++ '.' :: digits.drop top.natAbs
  else
    match digits with
    | [] => []
    | [d] => d :: 'e' :: exponentText (top - 1)
    | d :: rest => d :: '.' :: rest ++ 'e' :: exponentText (top - 1)

def dropTrailingZeros (digits : List Char) : List Char :=
  (digits.reverse.dropWhile (· == '0')).reverse

def text : Double → String
  | .nan => "nan"
  | .infinite negative => if negative then "-inf" else "inf"
  | .finite negative mantissa exponent =>
    let body :=
      if mantissa = 0 then ['0','.','0']
      else
        let (d,power) := shortest mantissa exponent
        let digits := Nat.toDigits 10 d
        decimalText (dropTrailingZeros digits) (digits.length + power)
    .ofList (if negative then '-' :: body else body)

end ProtocolNet.Double
