import ManagedDirectory.Codec.Utf8

/-!
# JSON

Syntax trees of RFC 8259 texts, a printer and a parser. The tree keeps what readers disagree
about: the order and repetition of an object's members, the sign of `-0`, and strings as code
points (Python keeps lone surrogates). A `Dialect` says which texts beyond the RFC a reader
takes and how deep it nests; `serdeJson` and `pythonJson` are the two used here.

The printer writes the compact form of `serde_json`.
-/

namespace ManagedDirectory.Codec

inductive Special where
  | nan
  | inf
  | negInf
  deriving DecidableEq, Repr

inductive Json where
  | null
  | bool (b : Bool)
  | int (neg : Bool) (n : Nat)
  /-- A literal with a fraction or an exponent: `m * 10 ^ e`. -/
  | float (neg : Bool) (m : Nat) (e : Int)
  | special (k : Special)
  | str (s : List Nat)
  | arr (xs : List Json)
  | obj (kvs : List (List Nat × Json))

structure Dialect where
  specials : Bool
  loneSurrogates : Bool
  depth : Nat
  digits : Option Nat

/-- `serde_json` with its default recursion limit of 128. -/
def serdeJson : Dialect := ⟨false, false, 127, none⟩

/-- Python's `json` under a recursion limit. -/
def pythonJson (depth : Nat) : Dialect := ⟨true, true, depth, none⟩

/-- The same with the limit on integer literals that CPython has by default. -/
def cpythonJson (depth : Nat) : Dialect := ⟨true, true, depth, some 4300⟩

inductive ParseError where
  | malformed
  | tooDeep
  deriving DecidableEq, Repr

/-! ## Lexical level -/

def isWs (c : Nat) : Bool := c == 0x20 || c == 0x09 || c == 0x0A || c == 0x0D

def skipWs (cs : List Nat) : List Nat := cs.dropWhile isWs

def isDigit (c : Nat) : Bool := 48 ≤ c && c ≤ 57

def digitsVal (ds : List Nat) : Nat := ds.foldl (fun a d => a * 10 + (d - 48)) 0

/-- The fraction digits at the front of `cs`, if a `.` and a digit stand there. -/
def fraction : List Nat → List Nat × List Nat
  | c :: d :: cs =>
    if c = '.'.toNat ∧ isDigit d then ((d :: cs).takeWhile isDigit, (d :: cs).dropWhile isDigit)
    else ([], c :: d :: cs)
  | cs => ([], cs)

/-- The digits of an exponent and their sign, after the `e`. -/
def exponentDigits : List Nat → Option (Int × List Nat)
  | [] => none
  | c :: cs =>
    let (neg, ds) := if c = '-'.toNat then (true, cs) else if c = '+'.toNat then (false, cs)
      else (false, c :: cs)
    match ds.takeWhile isDigit with
    | [] => none
    | d :: ds' =>
      let n : Int := digitsVal (d :: ds')
      some (if neg then -n else n, ds.dropWhile isDigit)

def exponent : List Nat → Option Int × List Nat
  | c :: cs =>
    if c = 'e'.toNat ∨ c = 'E'.toNat then
      match exponentDigits cs with
      | some (n, rest) => (some n, rest)
      | none => (none, c :: cs)
    else (none, c :: cs)
  | [] => (none, [])

def numberTail (neg : Bool) (ip rest : List Nat) : Json × List Nat :=
  let (fp, rest1) := fraction rest
  let (ex, rest2) := exponent rest1
  if fp = [] ∧ ex = none then (.int neg (digitsVal ip), rest2)
  else (.float neg (digitsVal (ip ++ fp)) (ex.getD 0 - fp.length), rest2)

/-- An unsigned number: `0`, or digits that do not start with `0`. -/
def number (neg : Bool) : List Nat → Option (Json × List Nat)
  | [] => none
  | c :: cs =>
    if c = '0'.toNat then some (numberTail neg [c] cs)
    else if isDigit c then
      some (numberTail neg ((c :: cs).takeWhile isDigit) ((c :: cs).dropWhile isDigit))
    else none

def hexVal (c : Nat) : Option Nat :=
  if 48 ≤ c ∧ c ≤ 57 then some (c - 48)
  else if 97 ≤ c ∧ c ≤ 102 then some (c - 87)
  else if 65 ≤ c ∧ c ≤ 70 then some (c - 55)
  else none

def hex4 : List Nat → Option (Nat × List Nat)
  | a :: b :: c :: d :: rest =>
    match hexVal a, hexVal b, hexVal c, hexVal d with
    | some a, some b, some c, some d => some (((a * 16 + b) * 16 + c) * 16 + d, rest)
    | _, _, _, _ => none
  | _ => none

def simpleEscape (c : Nat) : Option Nat :=
  if c = '"'.toNat then some 0x22
  else if c = '\\'.toNat then some 0x5C
  else if c = '/'.toNat then some 0x2F
  else if c = 'b'.toNat then some 0x08
  else if c = 'f'.toNat then some 0x0C
  else if c = 'n'.toNat then some 0x0A
  else if c = 'r'.toNat then some 0x0D
  else if c = 't'.toNat then some 0x09
  else none

/-- The low surrogate escaped at the front of `cs`. -/
def lowEscape : List Nat → Option (Nat × List Nat)
  | c :: d :: cs =>
    if c = '\\'.toNat ∧ d = 'u'.toNat then
      match hex4 cs with
      | some (v, rest) => if 0xDC00 ≤ v ∧ v < 0xE000 then some (v, rest) else none
      | none => none
    else none
  | _ => none

/-- After `\u`. A high surrogate joins the low one escaped right after it. -/
def unicodeEscape (lone : Bool) (cs : List Nat) : Option (Nat × List Nat) :=
  match hex4 cs with
  | none => none
  | some (u, rest) =>
    if 0xD800 ≤ u ∧ u < 0xDC00 then
      match lowEscape rest with
      | some (v, rest') => some (0x10000 + (u - 0xD800) * 1024 + (v - 0xDC00), rest')
      | none => if lone then some (u, rest) else none
    else if 0xDC00 ≤ u ∧ u < 0xE000 then if lone then some (u, rest) else none
    else some (u, rest)

def escape (lone : Bool) : List Nat → Option (Nat × List Nat)
  | [] => none
  | c :: cs =>
    match simpleEscape c with
    | some e => some (e, cs)
    | none => if c = 'u'.toNat then unicodeEscape lone cs else none

def stringBody (lone : Bool) : Nat → List Nat → Option (List Nat × List Nat)
  | 0, _ => none
  | _ + 1, [] => none
  | fuel + 1, c :: cs =>
    if c = '"'.toNat then some ([], cs)
    else if c = '\\'.toNat then
      match escape lone cs with
      | none => none
      | some (e, rest) => (stringBody lone fuel rest).map fun p => (e :: p.1, p.2)
    else if c < 0x20 then none
    else (stringBody lone fuel cs).map fun p => (c :: p.1, p.2)

/-- `word` at the front of `cs`. -/
def keyword (word : String) (j : Json) (cs : List Nat) : Option (Json × List Nat) :=
  if (codePoints word).isPrefixOf cs then some (j, cs.drop (codePoints word).length) else none

/-- Whether `n` is written with at most so many digits. -/
def digitsWithin : (digits n : Nat) → Bool
  | _, 0 => true
  | 0, _ => false
  | digits + 1, n => digitsWithin digits (n / 10)

def Dialect.takes (D : Dialect) : Json → Bool
  | .int _ n => D.digits.all fun digits => digitsWithin digits n
  | _ => true

def Dialect.number (D : Dialect) (neg : Bool) (cs : List Nat) : Option (Json × List Nat) :=
  (Codec.number neg cs).filter fun r => D.takes r.1

def scalar (D : Dialect) (cs : List Nat) : Option (Json × List Nat) :=
  match cs with
  | [] => none
  | c :: rest =>
    if c = 't'.toNat then keyword "true" (.bool true) cs
    else if c = 'f'.toNat then keyword "false" (.bool false) cs
    else if c = 'n'.toNat then keyword "null" .null cs
    else if c = '-'.toNat then
      match D.number true rest with
      | some r => some r
      | none => if D.specials then keyword "-Infinity" (.special .negInf) cs else none
    else if c = 'N'.toNat ∧ D.specials then keyword "NaN" (.special .nan) cs
    else if c = 'I'.toNat ∧ D.specials then keyword "Infinity" (.special .inf) cs
    else D.number false cs

def orMalformed {α : Type} : Option α → Except ParseError α
  | some a => .ok a
  | none => .error .malformed

/-! ## Values -/

mutual

/-- One value at the front of the text. `fuel` bounds the calls, `depth` the containers that
may still be entered. -/
def value (D : Dialect) : (fuel depth : Nat) → List Nat → Except ParseError (Json × List Nat)
  | 0, _, _ => .error .malformed
  | fuel + 1, depth, cs =>
    match skipWs cs with
    | [] => .error .malformed
    | c :: rest =>
      if c = '"'.toNat then
        match stringBody D.loneSurrogates rest.length rest with
        | some (s, rest') => .ok (.str s, rest')
        | none => .error .malformed
      else if c = '['.toNat then
        match depth with
        | 0 => .error .tooDeep
        | depth + 1 =>
          if (skipWs rest).head? = some ']'.toNat then .ok (.arr [], (skipWs rest).tail)
          else
            match elems D fuel depth rest with
            | .ok (xs, rest') => .ok (.arr xs, rest')
            | .error e => .error e
      else if c = '{'.toNat then
        match depth with
        | 0 => .error .tooDeep
        | depth + 1 =>
          if (skipWs rest).head? = some '}'.toNat then .ok (.obj [], (skipWs rest).tail)
          else
            match members D fuel depth rest with
            | .ok (kvs, rest') => .ok (.obj kvs, rest')
            | .error e => .error e
      else orMalformed (scalar D (c :: rest))

/-- The elements of an array from the first one on, and the closing bracket. -/
def elems (D : Dialect) : (fuel depth : Nat) → List Nat → Except ParseError (List Json × List Nat)
  | 0, _, _ => .error .malformed
  | fuel + 1, depth, cs =>
    match value D fuel depth cs with
    | .error e => .error e
    | .ok (x, r) =>
      match skipWs r with
      | [] => .error .malformed
      | c :: r' =>
        if c = ','.toNat then
          match elems D fuel depth r' with
          | .ok (xs, r'') => .ok (x :: xs, r'')
          | .error e => .error e
        else if c = ']'.toNat then .ok ([x], r')
        else .error .malformed

/-- The members of an object from the first one on, and the closing brace. -/
def members (D : Dialect) :
    (fuel depth : Nat) → List Nat → Except ParseError (List (List Nat × Json) × List Nat)
  | 0, _, _ => .error .malformed
  | fuel + 1, depth, cs =>
    match skipWs cs with
    | [] => .error .malformed
    | q :: r =>
      if q = '"'.toNat then
        match stringBody D.loneSurrogates r.length r with
        | none => .error .malformed
        | some (k, r1) =>
          match skipWs r1 with
          | [] => .error .malformed
          | c :: r2 =>
            if c = ':'.toNat then
              match value D fuel depth r2 with
              | .error e => .error e
              | .ok (v, r3) =>
                match skipWs r3 with
                | [] => .error .malformed
                | c' :: r4 =>
                  if c' = ','.toNat then
                    match members D fuel depth r4 with
                    | .ok (kvs, r5) => .ok ((k, v) :: kvs, r5)
                    | .error e => .error e
                  else if c' = '}'.toNat then .ok ([(k, v)], r4)
                  else .error .malformed
            else .error .malformed
      else .error .malformed

end

def parseJson (D : Dialect) (cs : List Nat) : Except ParseError Json :=
  match value D (2 * cs.length + 2) D.depth cs with
  | .error e => .error e
  | .ok (j, rest) => if skipWs rest = [] then .ok j else .error .malformed

/-! ## Printing -/

def hexDigit (n : Nat) : Nat := if n < 10 then 48 + n else 87 + n

/-- The escapes of `serde_json`: short forms where JSON has them, `\u00xx` for the other
control characters, everything else as it is. -/
def escapeChar (c : Nat) : List Nat :=
  if c = 0x22 then ['\\'.toNat, '"'.toNat]
  else if c = 0x5C then ['\\'.toNat, '\\'.toNat]
  else if c = 0x08 then ['\\'.toNat, 'b'.toNat]
  else if c = 0x0C then ['\\'.toNat, 'f'.toNat]
  else if c = 0x0A then ['\\'.toNat, 'n'.toNat]
  else if c = 0x0D then ['\\'.toNat, 'r'.toNat]
  else if c = 0x09 then ['\\'.toNat, 't'.toNat]
  else if c < 0x20 then
    ['\\'.toNat, 'u'.toNat, '0'.toNat, '0'.toNat, hexDigit (c / 16), hexDigit (c % 16)]
  else [c]

def printStr (s : List Nat) : List Nat := '"'.toNat :: (s.flatMap escapeChar ++ ['"'.toNat])

def decimal (n : Nat) : List Nat :=
  if n = 0 then ['0'.toNat] else (Nat.digits 10 n).reverse.map (48 + ·)

/-- The values a struct of strings, integers and lists of them is written from. -/
inductive Printable where
  | bool (b : Bool)
  | int (z : Int)
  | str (s : String)
  | strs (xs : List String)

def Printable.toJson : Printable → Json
  | .bool b => .bool b
  | .int z => .int (z < 0) z.natAbs
  | .str s => .str (codePoints s)
  | .strs xs => .arr (xs.map fun s => .str (codePoints s))

/-- `xs` with commas between them, then `close`. -/
def commaClose (close : Nat) : List (List Nat) → List Nat
  | [] => [close]
  | [x] => x ++ [close]
  | x :: y :: xs => x ++ ','.toNat :: commaClose close (y :: xs)

def Printable.print : Printable → List Nat
  | .bool true => codePoints "true"
  | .bool false => codePoints "false"
  | .int z => (if z < 0 then ['-'.toNat] else []) ++ decimal z.natAbs
  | .str s => printStr (codePoints s)
  | .strs xs => '['.toNat :: commaClose ']'.toNat (xs.map fun s => printStr (codePoints s))

def printMember (kv : String × Printable) : List Nat :=
  printStr (codePoints kv.1) ++ ':'.toNat :: kv.2.print

/-- A struct as `serde_json` writes it: its fields in order, no whitespace. -/
def printStruct (kvs : List (String × Printable)) : List Nat :=
  '{'.toNat :: commaClose '}'.toNat (kvs.map printMember)

end ManagedDirectory.Codec
