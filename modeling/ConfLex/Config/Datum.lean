import ConfLex.Text.Quoted

/-!
# Self-describing data

A datum is a value read from a configuration text together with its type: null, boolean,
integer, float, string, date-time, sequence, or map with its members in order. Settings are
decoded from data field by field; a datum of the wrong type is refused with a message that names
what was found and what was expected, such as ``invalid type: integer `5`, expected a string``.

A float is kept as the text that such messages show for it: the shortest digits that identify
the binary float nearest the value, written out in full when the decimal point lies near them
and in scientific notation otherwise, always with a point or an exponent (`decimalText`).
-/

namespace ConfLex

/-- A value of a self-describing configuration format. -/
inductive Datum where
  /-- No value. -/
  | null
  /-- A boolean. -/
  | bool (b : Bool)
  /-- An integer. -/
  | int (i : Int)
  /-- A float, by the text that shows it. -/
  | float (text : String)
  /-- A string. -/
  | str (s : String)
  /-- A date, a time or both, by its text. -/
  | datetime (text : String)
  /-- A sequence of values. -/
  | seq (items : List Datum)
  /-- Named values, in order, under distinct names. -/
  | map (members : List (String × Datum))
  deriving Repr, Inhabited

namespace Datum

/-- `n` zeros. -/
def zeros (n : Nat) : List Char := List.replicate n '0'

/-- The text of the float `± mantissa · 10 ^ exponent`: its significant digits placed around
the decimal point when the point lies at most sixteen places after the first digit and at most
five places before it, and as `d.ddde±x` otherwise, with `.0` after a whole number. The digits
are those of the value, which are the shortest that identify the nearest binary float when there
are at most fifteen of them. -/
def decimalText (negative : Bool) (mantissa : Nat) (exponent : Int) : String :=
  let sign := if negative then "-" else ""
  if mantissa = 0 then sign ++ "0.0"
  else
    let all := (toString mantissa).toList
    let ds := (all.reverse.dropWhile (· = '0')).reverse
    let n : Int := ds.length
    let k : Int := exponent + (all.length - ds.length : Nat)
    let kk := n + k
    sign ++ String.ofList (
      if 0 ≤ k ∧ kk ≤ 16 then ds ++ zeros k.toNat ++ ['.', '0']
      else if 0 < kk ∧ kk ≤ 16 then ds.take kk.toNat ++ '.' :: ds.drop kk.toNat
      else if -5 < kk ∧ kk ≤ 0 then '0' :: '.' :: zeros (-kk).toNat ++ ds
      else if ds.length = 1 then ds ++ 'e' :: (toString (kk - 1)).toList
      else ds.take 1 ++ '.' :: ds.drop 1 ++ 'e' :: (toString (kk - 1)).toList)

/-- How a datum is named when it is not what was expected. -/
def describe : Datum → String
  | null => "null"
  | bool b => "boolean `" ++ toString b ++ "`"
  | int i => "integer `" ++ toString i ++ "`"
  | float text => "floating point `" ++ text ++ "`"
  | str s => "string " ++ Quoted.text s
  | datetime _ => "map"
  | seq _ => "sequence"
  | map _ => "map"

/-- The message refusing datum `d` where `expected` was expected. -/
def invalidType (d : Datum) (expected : String) : String :=
  "invalid type: " ++ d.describe ++ ", expected " ++ expected

/-- The boolean that a datum holds. -/
def asBool : Datum → Except String Bool
  | bool b => .ok b
  | d => .error (d.invalidType "a boolean")

/-- The string that a datum holds. -/
def asString : Datum → Except String String
  | str s => .ok s
  | d => .error (d.invalidType "a string")

/-- The 32-bit unsigned integer that a datum holds. -/
def asU32 : Datum → Except String Nat
  | int i =>
    if 0 ≤ i ∧ i < Int.pow 2 32 then .ok i.toNat
    else .error ("invalid value: integer `" ++ toString i ++ "`, expected u32")
  | d => .error (d.invalidType "u32")

example : decimalText false 15 (-1) = "1.5" := by decide +kernel
example : decimalText false 25 (-1) = "2.5" := by decide +kernel
example : decimalText true 4 0 = "-4.0" := by decide +kernel
example : decimalText false 1 20 = "1e20" := by decide +kernel
example : decimalText false 1 (-7) = "1e-7" := by decide +kernel
example : decimalText false 12 (-5) = "0.00012" := by decide +kernel

end Datum

end ConfLex
