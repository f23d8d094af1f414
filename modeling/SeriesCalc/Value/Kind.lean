import SeriesCalc.Text.Unicode

/-!
# Kinds of values, kinds of array elements, declared types

A value is one of eight kinds. An array holds values of one element kind; only strings,
matrices, bundles, lists and arrays can be elements. A statement may declare the type of its
target (`matrix m = ...`); `DeclaredType.any` declares nothing.

The names here are output: `ValueKind.name` and `ArrayKind.name` appear in messages, and
`DeclaredType.name`/`DeclaredType.debugName` in reports.
-/

namespace SeriesCalc

/-- Hexadecimal digits of a code point, lowercase, without leading zeros. -/
def hexText (n : Nat) : String := String.ofList (Nat.toDigits 16 n)

/-- A string in double quotes as debug listings write it: quotes, backslashes, NUL and the
common control characters get their short escapes; a character that attaches to the one before
it, or that has no visible form, is written as a `\u` escape with its hexadecimal code in
braces, so that every character of the text can be seen. -/
def debugQuoted (s : String) : String :=
  let body := s.toList.foldl (fun acc c =>
    match c with
    | '"' => acc ++ "\\\""
    | '\\' => acc ++ "\\\\"
    | '\n' => acc ++ "\\n"
    | '\r' => acc ++ "\\r"
    | '\t' => acc ++ "\\t"
    | c =>
      if c.toNat == 0 then acc ++ "\\0"
      else if Unicode.isGraphemeExtend c || !Unicode.isPrintable c then
        acc ++ "\\u\x7b" ++ hexText c.toNat ++ "\x7d"
      else acc.push c) ""
  "\"" ++ body ++ "\""

/-- The kind of a value. -/
inductive ValueKind where
  | null
  | scalar
  | series
  | matrix
  | str
  | list
  | bundle
  | array
deriving Repr, DecidableEq, BEq, Inhabited

/-- Name of a kind as messages write it. -/
def ValueKind.name : ValueKind → String
  | .null => "null"
  | .scalar => "scalar"
  | .series => "series"
  | .matrix => "matrix"
  | .str => "string"
  | .list => "list"
  | .bundle => "bundle"
  | .array => "array"

/-- The element kind of an array. -/
inductive ArrayKind where
  | strings
  | matrices
  | bundles
  | lists
  | arrays
deriving Repr, DecidableEq, BEq, Inhabited

/-- Plural name of an element kind (`strings`, `matrices`, ...). -/
def ArrayKind.name : ArrayKind → String
  | .strings => "strings"
  | .matrices => "matrices"
  | .bundles => "bundles"
  | .lists => "lists"
  | .arrays => "arrays"

/-- Name of the constructor, as a debug listing writes it. -/
def ArrayKind.debugName : ArrayKind → String
  | .strings => "Strings"
  | .matrices => "Matrices"
  | .bundles => "Bundles"
  | .lists => "Lists"
  | .arrays => "Arrays"

/-- The value kind of one element. -/
def ArrayKind.elementKind : ArrayKind → ValueKind
  | .strings => .str
  | .matrices => .matrix
  | .bundles => .bundle
  | .lists => .list
  | .arrays => .array

/-- The element kind an array would need to hold a value of kind `k`; `none` for kinds that
cannot be elements. -/
def ValueKind.arrayKind? : ValueKind → Option ArrayKind
  | .str => some .strings
  | .matrix => some .matrices
  | .bundle => some .bundles
  | .list => some .lists
  | .array => some .arrays
  | .null | .scalar | .series => none

/-- The type a statement declares for its target. -/
inductive DeclaredType where
  | any
  | scalar
  | series
  | matrix
  | str
  | list
  | bundle
  | array (kind : ArrayKind)
deriving Repr, DecidableEq, BEq, Inhabited

namespace DeclaredType

/-- The type named by a declaration keyword. -/
def ofKeyword? : String → Option DeclaredType
  | "scalar" => some .scalar
  | "series" => some .series
  | "matrix" => some .matrix
  | "string" => some .str
  | "list" => some .list
  | "bundle" => some .bundle
  | "strings" => some (.array .strings)
  | "matrices" => some (.array .matrices)
  | "bundles" => some (.array .bundles)
  | "lists" => some (.array .lists)
  | "arrays" => some (.array .arrays)
  | _ => none

/-- The value kind a declared type asks for; `none` for `any`. -/
def valueKind? : DeclaredType → Option ValueKind
  | .any => none
  | .scalar => some .scalar
  | .series => some .series
  | .matrix => some .matrix
  | .str => some .str
  | .list => some .list
  | .bundle => some .bundle
  | .array _ => some .array

def isAny : DeclaredType → Bool
  | .any => true
  | _ => false

/-- The keyword of the type: `any`, a kind name, or an element kind's plural. -/
def name : DeclaredType → String
  | .any => "any"
  | .array k => k.name
  | t => (t.valueKind?.map ValueKind.name).getD ""

/-- Constructor text as a debug listing writes it: `Any`, `Str`, `Array(Strings)`. -/
def debugName : DeclaredType → String
  | .any => "Any"
  | .scalar => "Scalar"
  | .series => "Series"
  | .matrix => "Matrix"
  | .str => "Str"
  | .list => "List"
  | .bundle => "Bundle"
  | .array k => "Array(" ++ k.debugName ++ ")"

end DeclaredType

end SeriesCalc
