import SeriesCalc.Decimal.Shortest

/-!
# Laying out a float as text

The digits come from `Binary.shortest`; a `Layout` decides the rest: when the exponent form
is used, whether a whole number keeps a `.0`, and the words for NaN and the infinities.

* `Layout.positional`: statement text and messages. Never an exponent: `1e21` is written
  with its twenty-one zeros, `1.5e-10` as `0.00000000015`, negative zero as `-0`.
* `Layout.general`: node kinds. Positional with at least one fractional digit for
  `1e-4 ≤ |x| < 1e16`, otherwise `1e16`, `1.5e-7`; negative zero as `-0.0`.
* `Layout.document`: JSON documents. As `general`, but positional from `1e-5` on.
-/

namespace SeriesCalc.Decimal

/-- The choices a printer of floats makes beyond the digits themselves. -/
structure Layout where
  /-- The exponent form is used when the leading digit's decimal exponent is below this. -/
  expBelow : Int
  /-- The exponent form is used when the leading digit's decimal exponent is at least this. -/
  expFrom : Int
  /-- A positional whole number is written with `.0`. -/
  keepPoint : Bool
  nanText : String
  infText : String

/-- Statement text and messages: always positional, no `.0`. -/
def Layout.positional : Layout :=
  ⟨-100000, 100000, false, "NaN", "inf"⟩

/-- Node kinds and documents: exponent form outside `[1e-4, 1e16)`, `.0` kept. -/
def Layout.general : Layout :=
  ⟨-4, 16, true, "NaN", "inf"⟩

/-- JSON documents: exponent form outside `[1e-5, 1e16)`, `.0` kept. -/
def Layout.document : Layout :=
  ⟨-5, 16, true, "NaN", "inf"⟩

/-- `n` copies of `'0'`. -/
def zeros (n : Nat) : String :=
  String.ofList (List.replicate n '0')

/-- Positional text of `0.s × 10^point` for a digit string `s`. -/
def positionalText (s : String) (point : Int) (keepPoint : Bool) : String :=
  let n := s.length
  if point ≤ 0 then
    "0." ++ zeros (-point).toNat ++ s
  else if point < n then
    String.ofList (s.toList.take point.toNat) ++ "." ++ String.ofList (s.toList.drop point.toNat)
  else
    s ++ zeros (point.toNat - n) ++ (if keepPoint then ".0" else "")

/-- Exponent text `d.ddd` `e` `exp` of `0.s × 10^point`. -/
def exponentText (s : String) (point : Int) : String :=
  let cs := s.toList
  let mantissa := match cs with
    | [] => "0"
    | [c] => String.ofList [c]
    | c :: rest => String.ofList (c :: '.' :: rest)
  mantissa ++ "e" ++ toString (point - 1)

/-- Text of a float under a layout. -/
def Layout.render (l : Layout) (x : Float) : String :=
  if x.isNaN then l.nanText
  else if x.isInf then (if x < 0 then "-" else "") ++ l.infText
  else
    match Binary.ofFloat x with
    | (negative, none) => (if negative then "-" else "") ++ (if l.keepPoint then "0.0" else "0")
    | (negative, some b) =>
      let sci := b.shortest
      let s := toString sci.digits
      let point := sci.exp + s.length
      let lead := point - 1
      let body :=
        if lead < l.expBelow || lead ≥ l.expFrom then exponentText s point
        else positionalText s point l.keepPoint
      (if negative then "-" else "") ++ body

/-- Positional text, as statement text and messages write numbers. -/
def Float.positional (x : Float) : String :=
  Layout.positional.render x

/-- General text, as node kinds write numbers. -/
def Float.general (x : Float) : String :=
  Layout.general.render x

/-- Document text, as JSON documents write numbers. -/
def Float.document (x : Float) : String :=
  Layout.document.render x

end SeriesCalc.Decimal
