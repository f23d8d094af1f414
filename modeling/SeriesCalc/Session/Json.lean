import SeriesCalc.Decimal.Layout
import SeriesCalc.Decimal.Read

/-!
# JSON documents

Requests and reports are JSON documents, one per line. Numbers keep the distinction the
reports need: a number written without fraction or exponent is an integer (`Json.int`) when
it is a 64-bit word or a negative signed 64-bit number, and any other is a float
(`Json.num`), so `-0.0` and `-0` read as a negative zero, `2^64` as a float, and an integer
count prints without a point. An object keeps one member per key: the position of its first
occurrence and the value of its last.

* `Json.parse`: a whole document; the recursion is bounded by the length of the text, since
  every nested value consumes at least one character.
* `Json.render`: compact text; a float prints as the shortest decimal that reads back as
  it, with a point or an exponent; control characters in strings are escaped, with the
  short escapes where JSON has one.
-/

namespace SeriesCalc

/-- A JSON document. -/
inductive Json where
  | null
  | bool (b : Bool)
  | int (n : Int)
  | num (x : Float)
  | str (s : String)
  | arr (items : List Json)
  | obj (fields : List (String × Json))
deriving Inhabited

namespace Json

/-- The member of an object under a key. -/
def get? (j : Json) (key : String) : Option Json :=
  match j with
  | .obj fields => fields.lookup key
  | _ => none

/-- The keys of an object, in order. -/
def keys (j : Json) : List String :=
  match j with
  | .obj fields => fields.map (·.1)
  | _ => []

/-- Text of a string with the escapes a JSON string needs. -/
def quote (s : String) : String :=
  let hex := fun (n : Nat) => String.singleton (Nat.toDigits 16 n |>.headD '0')
  let body := s.toList.foldl (fun acc c =>
    match c with
    | '"' => acc ++ "\\\""
    | '\\' => acc ++ "\\\\"
    | '\n' => acc ++ "\\n"
    | '\r' => acc ++ "\\r"
    | '\t' => acc ++ "\\t"
    | '\x08' => acc ++ "\\b"
    | '\x0c' => acc ++ "\\f"
    | c =>
      if c.toNat < 32 then acc ++ "\\u00" ++ hex (c.toNat / 16) ++ hex (c.toNat % 16)
      else acc.push c) ""
  "\"" ++ body ++ "\""

mutual

/-- Compact text of a document. -/
def render : Json → String
  | .null => "null"
  | .bool b => if b then "true" else "false"
  | .int n => toString n
  | .num x => Decimal.Float.document x
  | .str s => quote s
  | .arr items => "[" ++ ",".intercalate (renderItems items) ++ "]"
  | .obj fields => "\x7b" ++ ",".intercalate (renderFields fields) ++ "\x7d"

def renderItems : List Json → List String
  | [] => []
  | j :: rest => render j :: renderItems rest

def renderFields : List (String × Json) → List String
  | [] => []
  | (k, j) :: rest => (quote k ++ ":" ++ render j) :: renderFields rest

end

/-! ## Reading -/

def isSpace (c : Char) : Bool := c == ' ' || c == '\n' || c == '\r' || c == '\t'

def skipSpace : List Char → List Char
  | c :: rest => if isSpace c then skipSpace rest else c :: rest
  | [] => []

/-- The value of a hexadecimal digit. -/
def hexValue (c : Char) : Option Nat :=
  if '0' ≤ c && c ≤ '9' then some (c.toNat - '0'.toNat)
  else if 'a' ≤ c && c ≤ 'f' then some (c.toNat - 'a'.toNat + 10)
  else if 'A' ≤ c && c ≤ 'F' then some (c.toNat - 'A'.toNat + 10)
  else none

/-- Four hexadecimal digits. -/
def hex4 (a b c d : Char) : Option Nat := do
  return (← hexValue a) * 4096 + (← hexValue b) * 256 + (← hexValue c) * 16 + (← hexValue d)

/-- The character of one escaped code unit; a lone surrogate becomes U+FFFD. -/
def codeUnit (n : Nat) : Char :=
  if 0xD800 ≤ n && n < 0xE000 then Char.ofNat 0xFFFD else Char.ofNat n

/-- The rest of a string after its opening quote: its text and what follows it. -/
def stringBody : List Char → String → Except String (String × List Char)
  | [], _ => .error "unterminated string"
  | '"' :: rest, acc => .ok (acc, rest)
  | '\\' :: 'u' :: a :: b :: c :: d :: next@('\\' :: 'u' :: e :: f :: g :: h :: rest), acc =>
    match hex4 a b c d, hex4 e f g h with
    | some hi, some lo =>
      if 0xD800 ≤ hi && hi < 0xDC00 && 0xDC00 ≤ lo && lo < 0xE000 then
        stringBody rest (acc.push (Char.ofNat (0x10000 + (hi - 0xD800) * 1024 + (lo - 0xDC00))))
      else stringBody next (acc.push (codeUnit hi))
    | some hi, none => stringBody next (acc.push (codeUnit hi))
    | none, _ => .error "bad escape"
  | '\\' :: 'u' :: a :: b :: c :: d :: rest, acc =>
    match hex4 a b c d with
    | some hi => stringBody rest (acc.push (codeUnit hi))
    | none => .error "bad escape"
  | '\\' :: c :: rest, acc =>
    match c with
    | '"' => stringBody rest (acc.push '"')
    | '\\' => stringBody rest (acc.push '\\')
    | '/' => stringBody rest (acc.push '/')
    | 'b' => stringBody rest (acc.push (Char.ofNat 8))
    | 'f' => stringBody rest (acc.push (Char.ofNat 12))
    | 'n' => stringBody rest (acc.push '\n')
    | 'r' => stringBody rest (acc.push '\r')
    | 't' => stringBody rest (acc.push '\t')
    | _ => .error "bad escape"
  | c :: rest, acc => stringBody rest (acc.push c)

/-- Leading decimal digits: their value, how many, and what follows. -/
def digits : List Char → Nat → Nat → Nat × Nat × List Char
  | c :: rest, value, count =>
    if c.isDigit then digits rest (value * 10 + (c.toNat - '0'.toNat)) (count + 1)
    else (value, count, c :: rest)
  | [], value, count => (value, count, [])

/-- A number: an integer when it has neither fraction nor exponent, else a float. -/
def number (cs : List Char) : Except String (Json × List Char) :=
  let (negative, cs) := match cs with
    | '-' :: rest => (true, rest)
    | _ => (false, cs)
  let (whole, n, cs) := digits cs 0 0
  if n == 0 then .error "bad number"
  else
    let (frac, fracCount, cs, hasFrac) := match cs with
      | '.' :: rest => let (f, k, rest) := digits rest 0 0; (f, k, rest, true)
      | _ => (0, 0, cs, false)
    let (exp, cs, hasExp) : Int × List Char × Bool := match cs with
      | 'e' :: rest | 'E' :: rest =>
        let (sign, rest) : Int × List Char := match rest with
          | '-' :: r => (-1, r)
          | '+' :: r => (1, r)
          | r => (1, r)
        let (e, _, rest) := digits rest 0 0
        (sign * e, rest, true)
      | _ => (0, cs, false)
    if !hasFrac && !hasExp && (if negative then 0 < whole && whole ≤ Nat.pow 2 63 else whole < Nat.pow 2 64) then
      .ok (.int (if negative then -(whole : Int) else whole), cs)
    else
      let mant := whole * Nat.pow 10 fracCount + frac
      .ok (.num (Decimal.Scientific.toFloat negative ⟨mant, exp - fracCount⟩), cs)

/-- A literal word such as `true`. -/
def word (w : String) (j : Json) (cs : List Char) : Except String (Json × List Char) :=
  if w.toList.isPrefixOf cs then .ok (j, cs.drop w.length) else .error "unexpected input"

mutual

/-- A value, then what follows it; `fuel` bounds the nesting. -/
def value : Nat → List Char → Except String (Json × List Char)
  | 0, _ => .error "input nested too deeply"
  | fuel + 1, cs =>
    match skipSpace cs with
    | '"' :: rest => do
      let (s, rest) ← stringBody rest ""
      return (.str s, rest)
    | '[' :: rest =>
      match skipSpace rest with
      | ']' :: rest => .ok (.arr [], rest)
      | _ => do
        let (items, rest) ← elements fuel rest []
        return (.arr items, rest)
    | '\x7b' :: rest =>
      match skipSpace rest with
      | '\x7d' :: rest => .ok (.obj [], rest)
      | _ => do
        let (fields, rest) ← members fuel rest []
        return (.obj fields, rest)
    | 't' :: rest => word "rue" (.bool true) rest
    | 'f' :: rest => word "alse" (.bool false) rest
    | 'n' :: rest => word "ull" .null rest
    | cs => number cs

/-- The elements of an array after its opening bracket; `acc` holds those read so far, last
first. -/
def elements : Nat → List Char → List Json → Except String (List Json × List Char)
  | 0, _, _ => .error "input nested too deeply"
  | fuel + 1, cs, acc => do
    let (j, rest) ← value fuel cs
    match skipSpace rest with
    | ',' :: rest => elements fuel rest (j :: acc)
    | ']' :: rest => .ok ((j :: acc).reverse, rest)
    | _ => .error "expected , or ]"

/-- The members read so far, last first, with one more: a repeated key takes the new value in
its first position. -/
def addMember (acc : List (String × Json)) (key : String) (j : Json) : List (String × Json) :=
  if acc.any (·.1 == key) then acc.map fun (k, v) => if k == key then (k, j) else (k, v)
  else (key, j) :: acc

/-- The members of an object after its opening brace; `acc` holds those read so far, last
first. -/
def members : Nat → List Char → List (String × Json) → Except String (List (String × Json) × List Char)
  | 0, _, _ => .error "input nested too deeply"
  | fuel + 1, cs, acc =>
    match skipSpace cs with
    | '"' :: rest => do
      let (key, rest) ← stringBody rest ""
      match skipSpace rest with
      | ':' :: rest => do
        let (j, rest) ← value fuel rest
        match skipSpace rest with
        | ',' :: rest => members fuel rest (addMember acc key j)
        | '\x7d' :: rest => .ok ((addMember acc key j).reverse, rest)
        | _ => .error "expected , or \x7d"
      | _ => .error "expected :"
    | _ => .error "expected a key"

end

/-- Read a whole document. -/
def parse (s : String) : Except String Json := do
  let cs := s.toList
  let (j, rest) ← value (2 * cs.length + 2) cs
  if (skipSpace rest).isEmpty then return j else throw "trailing input"

end Json

end SeriesCalc
