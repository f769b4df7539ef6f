namespace ProtocolNet

inductive Double where
  | nan
  | infinite (negative : Bool)
  | finite (negative : Bool) (mantissa : Nat) (exponent : Int)
deriving DecidableEq, Repr

namespace Double

def mantissaBits : Nat := 53

def mantissaBound : Nat := 1 <<< mantissaBits

def leastExponent : Int := -1074
def greatestExponent : Int := 971

def zero (negative : Bool) : Double := .finite negative 0 leastExponent

def roundQuotient (num den : Nat) : Nat :=
  let below := num / den
  let twice := 2 * (num % den)
  if twice < den then below
  else if den < twice then below + 1
  else below + below % 2

def scaleBinary (num den : Nat) (exponent : Int) : Nat × Nat :=
  match exponent with
  | .ofNat k => (num,den <<< k)
  | .negSucc k => (num <<< (k + 1),den)

def ofRatio (negative : Bool) (num den : Nat) : Double :=
  let guess := (num.log2 : Int) - den.log2 - mantissaBits
  let (p,q) := scaleBinary num den guess
  let exponent := max leastExponent (if p / q < mantissaBound then guess else guess + 1)
  let (p,q) := scaleBinary num den exponent
  let mantissa := roundQuotient p q
  let (mantissa,exponent) :=
    if mantissa = mantissaBound then (mantissaBound / 2,exponent + 1)
    else (mantissa,exponent)
  if mantissa = 0 then zero negative
  else if greatestExponent < exponent then .infinite negative
  else .finite negative mantissa exponent

def powerOfTen (k : Nat) : Nat := Nat.pow 10 k

def decimalLength (n : Nat) : Nat := (Nat.toDigits 10 n).length

def ofDecimal (negative : Bool) (digits : Nat) (power : Int) : Double :=
  let top := decimalLength digits + power
  if digits = 0 || top < -400 then zero negative
  else if 400 < top then .infinite negative
  else
    match power with
    | .ofNat k => ofRatio negative (digits * powerOfTen k) 1
    | .negSucc k => ofRatio negative digits (powerOfTen (k + 1))

def magnitude (mantissa : Nat) (exponent : Int) : Nat × Nat :=
  match exponent with
  | .ofNat k => (mantissa <<< k,1)
  | .negSucc k => (mantissa,1 <<< (k + 1))

def truncate : Double → Option Int
  | .finite negative mantissa exponent =>
    let (num,den) := magnitude mantissa exponent
    some (if negative then -(num / den : Nat) else (num / den : Nat))
  | _ => none

def isOne : Double → Bool
  | .finite false mantissa exponent =>
    let (num,den) := magnitude mantissa exponent
    num = den
  | _ => false

end Double

end ProtocolNet
