/-!
# Operators of the statement language

Binary operators come in plain and dotted (elementwise) forms; `BinaryOp.elementwise` maps a
dotted operator to the plain one it applies per element. Assignment operators are `=`, the
inflected forms `+= -= *= /= %= ^= ~= |=` that combine the old value with the new one, the
fill `.=`, and the unary `++`/`--`.

The symbols and constructor names are output: statement text writes symbols, node listings
write constructor names.
-/

namespace SeriesCalc

/-- A binary operator. -/
inductive BinaryOp where
  | add | sub | mul | div | mod | pow
  | eq | notEq | lt | ltEq | gt | gtEq
  | and | or
  | dotAdd | dotSub | dotMul | dotDiv | dotPow
  | dotEq | dotNotEq | dotLt | dotLtEq | dotGt | dotGtEq
  | kron | concat | union | intersect | ldiv
deriving DecidableEq, BEq, Repr, Inhabited

namespace BinaryOp

/-- Every binary operator, in a fixed order. -/
def all : List BinaryOp :=
  [.add, .sub, .mul, .div, .mod, .pow, .eq, .notEq, .lt, .ltEq, .gt, .gtEq, .and, .or,
   .dotAdd, .dotSub, .dotMul, .dotDiv, .dotPow, .dotEq, .dotNotEq, .dotLt, .dotLtEq, .dotGt,
   .dotGtEq, .kron, .concat, .union, .intersect, .ldiv]

def symbol : BinaryOp → String
  | .add => "+" | .sub => "-" | .mul => "*" | .div => "/" | .mod => "%" | .pow => "^"
  | .eq => "==" | .notEq => "!=" | .lt => "<" | .ltEq => "<=" | .gt => ">" | .gtEq => ">="
  | .and => "&&" | .or => "||"
  | .dotAdd => ".+" | .dotSub => ".-" | .dotMul => ".*" | .dotDiv => "./" | .dotPow => ".^"
  | .dotEq => ".=" | .dotNotEq => ".!=" | .dotLt => ".<" | .dotLtEq => ".<=" | .dotGt => ".>"
  | .dotGtEq => ".>="
  | .kron => "**" | .concat => "~" | .union => "|" | .intersect => "&" | .ldiv => "\\"

/-- Constructor name, as node listings write it. -/
def debugName : BinaryOp → String
  | .add => "Add" | .sub => "Sub" | .mul => "Mul" | .div => "Div" | .mod => "Mod" | .pow => "Pow"
  | .eq => "Eq" | .notEq => "NotEq" | .lt => "Lt" | .ltEq => "LtEq" | .gt => "Gt"
  | .gtEq => "GtEq" | .and => "And" | .or => "Or"
  | .dotAdd => "DotAdd" | .dotSub => "DotSub" | .dotMul => "DotMul" | .dotDiv => "DotDiv"
  | .dotPow => "DotPow" | .dotEq => "DotEq" | .dotNotEq => "DotNotEq" | .dotLt => "DotLt"
  | .dotLtEq => "DotLtEq" | .dotGt => "DotGt" | .dotGtEq => "DotGtEq"
  | .kron => "Kron" | .concat => "Concat" | .union => "Union" | .intersect => "Intersect"
  | .ldiv => "LDiv"

/-- The operator written by a symbol. -/
def ofSymbol? (s : String) : Option BinaryOp := all.find? (·.symbol == s)

def isDot : BinaryOp → Bool
  | .dotAdd | .dotSub | .dotMul | .dotDiv | .dotPow
  | .dotEq | .dotNotEq | .dotLt | .dotLtEq | .dotGt | .dotGtEq => true
  | _ => false

def isComparison : BinaryOp → Bool
  | .eq | .notEq | .lt | .ltEq | .gt | .gtEq => true
  | _ => false

def isLogical : BinaryOp → Bool
  | .and | .or => true
  | _ => false

/-- The plain operator a dotted one applies per element; other operators are their own. -/
def elementwise : BinaryOp → BinaryOp
  | .dotAdd => .add | .dotSub => .sub | .dotMul => .mul | .dotDiv => .div | .dotPow => .pow
  | .dotEq => .eq | .dotNotEq => .notEq | .dotLt => .lt | .dotLtEq => .ltEq | .dotGt => .gt
  | .dotGtEq => .gtEq
  | op => op

/-- Whether the operator has a meaning on single numbers. -/
def isNumeric (op : BinaryOp) : Bool :=
  match op.elementwise with
  | .add | .sub | .mul | .div | .mod | .pow
  | .eq | .notEq | .lt | .ltEq | .gt | .gtEq | .and | .or => true
  | _ => false

end BinaryOp

/-- A unary operator: `-x`, `+x`, `!x`, `x'`. -/
inductive UnaryOp where
  | neg | plus | not | transpose
deriving DecidableEq, BEq, Repr, Inhabited

def UnaryOp.symbol : UnaryOp → String
  | .neg => "-" | .plus => "+" | .not => "!" | .transpose => "'"

def UnaryOp.debugName : UnaryOp → String
  | .neg => "Neg" | .plus => "Plus" | .not => "Not" | .transpose => "Transpose"

/-- An assignment operator. -/
inductive AssignOp where
  | assign | add | sub | mul | div | mod | pow | concat | union | fill | inc | dec
deriving DecidableEq, BEq, Repr, Inhabited

namespace AssignOp

def all : List AssignOp :=
  [.assign, .add, .sub, .mul, .div, .mod, .pow, .concat, .union, .fill, .inc, .dec]

def symbol : AssignOp → String
  | .assign => "=" | .add => "+=" | .sub => "-=" | .mul => "*=" | .div => "/=" | .mod => "%="
  | .pow => "^=" | .concat => "~=" | .union => "|=" | .fill => ".=" | .inc => "++" | .dec => "--"

def ofSymbol? (s : String) : Option AssignOp := all.find? (·.symbol == s)

/-- Every operator but plain `=` works on an existing value. -/
def isInflected : AssignOp → Bool
  | .assign => false
  | _ => true

/-- `++` and `--` take no right-hand side. -/
def isUnary : AssignOp → Bool
  | .inc | .dec => true
  | _ => false

/-- The binary operator that combines the old value with the new one. -/
def binary? : AssignOp → Option BinaryOp
  | .add | .inc => some .add
  | .sub | .dec => some .sub
  | .mul => some .mul
  | .div => some .div
  | .mod => some .mod
  | .pow => some .pow
  | .concat => some .concat
  | .union => some .union
  | .assign | .fill => none

end AssignOp

/-- A selector keyword inside a matrix subscript. -/
inductive Selector where
  | diag | upper | lower | real | imag
deriving DecidableEq, BEq, Repr, Inhabited

def Selector.name : Selector → String
  | .diag => "diag" | .upper => "upper" | .lower => "lower" | .real => "real" | .imag => "imag"

def Selector.debugName : Selector → String
  | .diag => "Diag" | .upper => "Upper" | .lower => "Lower" | .real => "Real" | .imag => "Imag"

def Selector.ofName? : String → Option Selector
  | "diag" => some .diag
  | "upper" => some .upper
  | "lower" => some .lower
  | "real" => some .real
  | "imag" => some .imag
  | _ => none

end SeriesCalc
