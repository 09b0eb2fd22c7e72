import ManagedDirectory.Codec.PyJson

/-!
# Python's `str` and `float`

`Unicode` is what the interpreter knows about characters and prints of values. `PyFloat` is a
`float`: a rational, an infinity or NaN, with Python's arithmetic and comparisons, and
`Unicode.float` is `float(value)` of a value that `json.loads` returned. A comparison with NaN is
false (`not_far_of_nan`), whatever it is compared with.
-/

namespace ManagedDirectory.Codec

abbrev Text := List Nat

/-- The parts of Python's `str` that depend on its Unicode tables. -/
structure Unicode where
  lower : Text → Text
  upper : Text → Text
  space : Nat → Bool
  decimal : Nat → Option Nat
  /-- `str(value)` of a value that is no `str`. -/
  print : Json → Text

def asciiLower (c : Nat) : Nat := if 65 ≤ c ∧ c ≤ 90 then c + 32 else c

def asciiUpper (c : Nat) : Nat := if 97 ≤ c ∧ c ≤ 122 then c - 32 else c

def asciiUnicode : Unicode where
  lower := List.map asciiLower
  upper := List.map asciiUpper
  space c := (9 ≤ c && c ≤ 13) || (28 ≤ c && c ≤ 32)
  decimal c := if isDigit c then some (c - 48) else none
  print _ := []

namespace Unicode

variable (U : Unicode)

/-- `str(value)`. -/
def str : Json → Text
  | .str s => s
  | value => U.print value

/-- `str.strip`. -/
def strip (text : Text) : Text := ((text.dropWhile U.space).reverse.dropWhile U.space).reverse

end Unicode

/-- `text.startswith(prefix)`. -/
def startsWith (text : Text) (start : String) : Bool := (codePoints start).isPrefixOf text

/-- `part in text`. -/
def hasPart (text : Text) (part : String) : Bool := text.tails.any fun t => startsWith t part

/-- `text.endswith(part)`. -/
def endsWith (text : Text) (last : String) : Bool := (codePoints last).isSuffixOf text

/-! ## Floats -/

inductive PyFloat where
  | nan
  | inf
  | negInf
  | fin (q : ℚ)
  deriving DecidableEq

namespace PyFloat

def neg : PyFloat → PyFloat
  | nan => nan
  | inf => negInf
  | negInf => inf
  | fin q => fin (-q)

def sub : PyFloat → PyFloat → PyFloat
  | nan, _ => nan
  | _, nan => nan
  | inf, inf => nan
  | negInf, negInf => nan
  | inf, _ => inf
  | negInf, _ => negInf
  | _, inf => negInf
  | _, negInf => inf
  | fin p, fin q => fin (p - q)

def abs : PyFloat → PyFloat
  | nan => nan
  | inf => inf
  | negInf => inf
  | fin q => fin |q|

/-- `a > b`. -/
def gt : PyFloat → PyFloat → Bool
  | nan, _ => false
  | _, nan => false
  | inf, inf => false
  | inf, _ => true
  | _, inf => false
  | negInf, _ => false
  | _, negInf => true
  | fin p, fin q => q < p

/-- `a >= b`. -/
def ge (a b : PyFloat) : Bool := a.gt b || (decide (a = b) && decide (a ≠ nan))

def add (a b : PyFloat) : PyFloat := a.sub b.neg

/-- `max(a, b)`: the first one unless the second is greater. -/
def max (a b : PyFloat) : PyFloat := if b.gt a then b else a

/-- `min(a, b)`: the first one unless the second is smaller. -/
def min (a b : PyFloat) : PyFloat := if a.gt b then b else a

theorem gt_fin {p q : ℚ} : (fin p).gt (fin q) = true ↔ q < p := decide_eq_true_iff

@[simp] theorem ge_fin {p q : ℚ} : (fin p).ge (fin q) = true ↔ q ≤ p := by
  have heq : fin p = fin q ↔ q = p := ⟨fun h => (fin.inj h).symm, fun h => h ▸ rfl⟩
  simp only [ge, Bool.or_eq_true, gt_fin, Bool.and_eq_true, decide_eq_true_eq, heq, ne_eq,
    reduceCtorEq, not_false_eq_true, and_true]
  exact le_iff_lt_or_eq.symm

theorem max_fin (p q : ℚ) : (fin p).max (fin q) = fin (Max.max p q) := by
  simp only [max, gt_fin]
  split_ifs with h
  · rw [max_eq_right h.le]
  · rw [max_eq_left (le_of_not_gt h)]

theorem min_fin (p q : ℚ) : (fin p).min (fin q) = fin (Min.min p q) := by
  simp only [min, gt_fin]
  split_ifs with h
  · rw [min_eq_right h.le]
  · rw [min_eq_left (le_of_not_gt h)]

@[simp] theorem ge_nan (a : PyFloat) : a.ge nan = false := by
  cases a <;> rfl

theorem ge_min {q : ℚ} (b : PyFloat) : (fin q).ge ((fin q).min b) = true := by
  unfold min
  split_ifs with h
  · simp [ge, h]
  · simp [ge]

theorem clamp_nan (lo hi : PyFloat) : (nan.max lo).min hi = nan := by
  cases lo <;> rfl

theorem clamp_spec {x : PyFloat} (hx : x ≠ nan) {lo hi : ℚ} (h : lo ≤ hi) :
    ∃ q, (x.max (fin lo)).min (fin hi) = fin q ∧ lo ≤ q ∧ q ≤ hi := by
  cases x with
  | nan => exact absurd rfl hx
  | inf => exact ⟨hi, rfl, h, le_rfl⟩
  | negInf =>
    refine ⟨lo, ?_, le_rfl, h⟩
    exact (min_fin lo hi).trans (congrArg fin (min_eq_left h))
  | fin q =>
    refine ⟨Min.min (Max.max q lo) hi, by rw [max_fin, min_fin], ?_, min_le_right _ _⟩
    exact le_min (le_max_right _ _) h

/-- `abs(now - sent) > limit`. -/
def far (now : ℚ) (sent : PyFloat) (limit : ℚ) : Bool := ((fin now).sub sent).abs.gt (fin limit)

theorem near_of_not_far {now limit : ℚ} {sent : PyFloat} (h : far now sent limit = false)
    (hnan : sent ≠ nan) : ∃ q, sent = fin q ∧ |now - q| ≤ limit := by
  cases sent with
  | nan => exact absurd rfl hnan
  | inf => cases h
  | negInf => cases h
  | fin q =>
    simp only [far, sub, abs, gt, decide_eq_false_iff_not, not_lt] at h
    exact ⟨q, rfl, h⟩

end PyFloat

/-! ## `float(value)` -/

def dropUnderscores : (afterDigit : Bool) → Text → Option Text
  | _, [] => some []
  | afterDigit, c :: cs =>
    if c = '_'.toNat then
      if afterDigit && (cs.head?.any isDigit) then dropUnderscores false cs else none
    else (c :: ·) <$> dropUnderscores (isDigit c) cs

def unsignedFloat (cs : Text) : Option PyFloat :=
  let name := cs.map asciiLower
  if name = codePoints "inf" ∨ name = codePoints "infinity" then some .inf
  else if name = codePoints "nan" then some .nan
  else
    let whole := cs.takeWhile isDigit
    let (part, rest) :=
      match cs.dropWhile isDigit with
      | c :: rest =>
        if c = '.'.toNat then (rest.takeWhile isDigit, rest.dropWhile isDigit) else ([], c :: rest)
      | [] => ([], [])
    if whole = [] ∧ part = [] then none
    else
      match exponent rest with
      | (e, []) => some (.fin (digitsVal (whole ++ part) * 10 ^ (e.getD 0 - part.length : Int)))
      | _ => none

namespace Unicode

variable (U : Unicode)

def asciiForm (c : Nat) : Nat :=
  if c < 128 then c
  else
    match U.decimal c with
    | some d => 48 + d
    | none => if U.space c then 32 else '?'.toNat

/-- `float(text)`. -/
def floatOfText (text : Text) : Option PyFloat := do
  let cs ← dropUnderscores false (U.strip (text.map U.asciiForm))
  match cs with
  | c :: rest =>
    if c = '-'.toNat then PyFloat.neg <$> unsignedFloat rest
    else if c = '+'.toNat then unsignedFloat rest
    else unsignedFloat (c :: rest)
  | [] => none

/-- `float(value)` without its range; `None`, lists and dictionaries are a `TypeError`, a bad text a
`ValueError`. -/
def float : Option Json → Option PyFloat
  | some (.bool b) => some (.fin (if b then 1 else 0))
  | some (.int neg n) => some (.fin (if neg then -(n : ℚ) else n))
  | some (.float neg m e) => some (.fin ((if neg then -1 else 1) * m * 10 ^ e))
  | some (.special .nan) => some .nan
  | some (.special .inf) => some .inf
  | some (.special .negInf) => some .negInf
  | some (.str s) => U.floatOfText s
  | _ => none

end Unicode

/-- Half a unit above the largest `float`: from here on an integer is rounded to none. -/
def floatLimit : Nat := 2 ^ 1024 - 2 ^ 970

/-- `float(value)` of an integer that is out of range is an `OverflowError`; a text or a literal with
a point becomes infinite. -/
def floatOverflows : Option Json → Bool
  | some (.int _ n) => floatLimit ≤ n
  | _ => false

example : asciiUnicode.float (some (jsonStr " -1_0.5e1 ")) = some (.fin (-105)) := by
  decide +kernel

end ManagedDirectory.Codec
