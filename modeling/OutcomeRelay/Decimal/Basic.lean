/-!
Decimal amounts: a sign, a mantissa of 96 bits and a scale of at most 28 places. The scale is part
of the value, so trailing zeros last.
-/

namespace OutcomeRelay

def Decimal.mantissaLimit : Nat :=
  Nat.pow 2 96

structure Decimal where
  negative : Bool
  mantissa : Nat
  scale : Nat
  mantissa_lt : mantissa < Decimal.mantissaLimit
  scale_le : scale ≤ 28
  deriving DecidableEq, Repr

namespace Decimal

def withSign? (negative : Bool) (mantissa scale : Nat) : Option Decimal :=
  if h : mantissa < mantissaLimit ∧ scale ≤ 28 then some ⟨negative, mantissa, scale, h.1, h.2⟩
  else none

def ofParts? (negative : Bool) (mantissa scale : Nat) : Option Decimal :=
  withSign? (negative && mantissa != 0) mantissa scale

def isPositive (d : Decimal) : Bool :=
  !d.negative && d.mantissa != 0

def digits (mantissa scale : Nat) : List Char :=
  let ds := Nat.toDigits 10 mantissa
  if scale = 0 then ds
  else
    let ds := List.replicate (scale + 1 - ds.length) '0' ++ ds
    ds.take (ds.length - scale) ++ '.' :: ds.drop (ds.length - scale)

def chars (d : Decimal) : List Char :=
  if d.negative then '-' :: digits d.mantissa d.scale
  else digits d.mantissa d.scale

def text (d : Decimal) : String :=
  String.ofList d.chars

end Decimal
end OutcomeRelay
