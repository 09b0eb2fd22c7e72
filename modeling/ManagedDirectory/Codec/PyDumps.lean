import ManagedDirectory.Codec.Serde

/-!
# `json.dumps` of a flat dictionary

`dumps` is `json.dumps(value, indent=2, sort_keys=True)` of a dictionary of strings and integers
whose members are given in the order of their keys: ASCII only (`pyEscape`), one member a line.
`parseJson_dumps` says that every dialect without a limit on integers reads the dictionary back.
-/

namespace ManagedDirectory.Codec

open List

inductive Flat where
  | int (z : Int)
  | str (s : String)

def Flat.printable : Flat → Printable
  | .int z => .int z
  | .str s => .str s

/-! ## Text -/

/-- `'\\u{0:04x}'.format(n)`. -/
def unicodeEscaped (n : Nat) : List Nat :=
  ['\\'.toNat, 'u'.toNat, hexDigit (n / 4096), hexDigit (n / 256 % 16), hexDigit (n / 16 % 16),
    hexDigit (n % 16)]

/-- `ensure_ascii`: what is not printable ASCII is escaped, beyond 16 bits as a surrogate pair. -/
def pyEscape (c : Nat) : List Nat :=
  if c = 0x5C then ['\\'.toNat, '\\'.toNat]
  else if c = 0x22 then ['\\'.toNat, '"'.toNat]
  else if c = 0x08 then ['\\'.toNat, 'b'.toNat]
  else if c = 0x0C then ['\\'.toNat, 'f'.toNat]
  else if c = 0x0A then ['\\'.toNat, 'n'.toNat]
  else if c = 0x0D then ['\\'.toNat, 'r'.toNat]
  else if c = 0x09 then ['\\'.toNat, 't'.toNat]
  else if 0x20 ≤ c ∧ c ≤ 0x7E then [c]
  else if c < 0x10000 then unicodeEscaped c
  else
    unicodeEscaped (0xD800 + (c - 0x10000) / 1024) ++
      unicodeEscaped (0xDC00 + (c - 0x10000) % 1024)

def dumpsStr (s : String) : List Nat :=
  '"'.toNat :: ((codePoints s).flatMap pyEscape ++ ['"'.toNat])

def Flat.dumps : Flat → List Nat
  | .int z => (Printable.int z).print
  | .str s => dumpsStr s

def dumpsMember (kv : String × Flat) : List Nat :=
  dumpsStr kv.1 ++ ':'.toNat :: ' '.toNat :: kv.2.dumps

def lineStart : List Nat := ['\n'.toNat, ' '.toNat, ' '.toNat]

def memberLines : List (List Nat) → List Nat
  | [] => ['}'.toNat]
  | [x] => lineStart ++ (x ++ ['\n'.toNat, '}'.toNat])
  | x :: y :: xs => lineStart ++ (x ++ ','.toNat :: memberLines (y :: xs))

def dumps (kvs : List (String × Flat)) : List Nat :=
  '{'.toNat :: memberLines (kvs.map dumpsMember)

def flatJson (kvs : List (String × Flat)) : Json :=
  structJson (kvs.map fun kv => (kv.1, kv.2.printable))

/-! ## Reading strings back -/

theorem hex4_unicodeEscaped {n : Nat} (h : n < 0x10000) (rest : List Nat) :
    hex4 (hexDigit (n / 4096) :: hexDigit (n / 256 % 16) :: hexDigit (n / 16 % 16) ::
      hexDigit (n % 16) :: rest) = some (n, rest) := by
  have h₁ := hexVal_hexDigit (n / 4096) (by omega)
  have h₂ := hexVal_hexDigit (n / 256 % 16) (by omega)
  have h₃ := hexVal_hexDigit (n / 16 % 16) (by omega)
  have h₄ := hexVal_hexDigit (n % 16) (by omega)
  simp only [hex4, h₁, h₂, h₃, h₄, Option.some.injEq, Prod.mk.injEq, and_true]
  omega

theorem escape_unicodeEscaped (lone : Bool) {n : Nat} (h : n < 0x10000) (hsur : ¬ IsSurrogate n)
    (rest : List Nat) : escape lone ((unicodeEscaped n).tail ++ rest) = some (n, rest) := by
  have hhex := hex4_unicodeEscaped h rest
  simp only [IsSurrogate] at hsur
  simp only [unicodeEscaped, tail_cons, cons_append, nil_append, escape,
    simpleEscape, unicodeEscape, hhex]
  simp [show ¬ (0xD800 ≤ n ∧ n < 0xDC00) by omega, show ¬ (0xDC00 ≤ n ∧ n < 0xE000) by omega]

theorem escape_surrogates (lone : Bool) {hi lo : Nat} (hhi : 0xD800 ≤ hi ∧ hi < 0xDC00)
    (hlo : 0xDC00 ≤ lo ∧ lo < 0xE000) (rest : List Nat) :
    escape lone ((unicodeEscaped hi).tail ++ (unicodeEscaped lo ++ rest)) =
      some (0x10000 + (hi - 0xD800) * 1024 + (lo - 0xDC00), rest) := by
  have hhigh := hex4_unicodeEscaped (show hi < 0x10000 by omega) (unicodeEscaped lo ++ rest)
  have hlow := hex4_unicodeEscaped (show lo < 0x10000 by omega) rest
  have hpair : lowEscape (unicodeEscaped lo ++ rest) = some (lo, rest) := by
    simp only [unicodeEscaped, cons_append, nil_append, lowEscape, and_self, if_true,
      hlow, if_pos hlo]
  generalize unicodeEscaped lo ++ rest = rest' at hhigh hpair
  simp only [unicodeEscaped, tail_cons, cons_append, nil_append, escape,
    simpleEscape, unicodeEscape, hhigh, hpair, if_pos hhi]
  simp

theorem readsBack_pyEscape (lone : Bool) {c : Nat} (hc : IsScalar c) :
    ReadsBack lone pyEscape c := by
  intro fuel rest
  -- an escape is a backslash and what `escape` reads after it
  have hescaped {es : List Nat} (h : escape lone (es.tail ++ rest) = some (c, rest))
      (hes : es.head? = some '\\'.toNat) : stringBody lone (fuel + 1) (es ++ rest) =
        (stringBody lone fuel rest).map fun p => (c :: p.1, p.2) := by
    obtain ⟨es, rfl⟩ : ∃ t, es = '\\'.toNat :: t := by
      cases es with
      | nil => cases hes
      | cons e es => exact ⟨es, by rw [Option.some.inj hes]⟩
    rw [tail_cons] at h
    simp only [cons_append, stringBody, h]
    simp
  unfold pyEscape
  split_ifs with h1 h2 h3 h4 h5 h6 h7 h8 h9
  · exact hescaped (by subst h1; rfl) rfl
  · exact hescaped (by subst h2; rfl) rfl
  · exact hescaped (by subst h3; rfl) rfl
  · exact hescaped (by subst h4; rfl) rfl
  · exact hescaped (by subst h5; rfl) rfl
  · exact hescaped (by subst h6; rfl) rfl
  · exact hescaped (by subst h7; rfl) rfl
  · simp [stringBody, h1, h2, show ¬ c < 32 by omega]
  · exact hescaped (escape_unicodeEscaped lone h9 hc.2 rest) rfl
  · refine hescaped ?_ rfl
    have hlimit := hc.1
    have hjoin : 0x10000 + (0xD800 + (c - 0x10000) / 1024 - 0xD800) * 1024 +
        (0xDC00 + (c - 0x10000) % 1024 - 0xDC00) = c := by omega
    have hpair := escape_surrogates lone
      (show 0xD800 ≤ 0xD800 + (c - 0x10000) / 1024 ∧ 0xD800 + (c - 0x10000) / 1024 < 0xDC00 by
        omega)
      (show 0xDC00 ≤ 0xDC00 + (c - 0x10000) % 1024 ∧ 0xDC00 + (c - 0x10000) % 1024 < 0xE000 by
        omega) rest
    rw [hjoin] at hpair
    rw [tail_append_of_ne_nil (by simp [unicodeEscaped]), append_assoc]
    exact hpair

theorem readsBack_codePoints (lone : Bool) (s : String) :
    ∀ c ∈ codePoints s, ReadsBack lone pyEscape c :=
  fun c hc => readsBack_pyEscape lone (isScalar_codePoints c hc)

/-! ## Reading members back -/

theorem skipWs_space (cs : List Nat) : skipWs (' '.toNat :: cs) = skipWs cs := by
  simp [skipWs, isWs]

theorem skipWs_newline (cs : List Nat) : skipWs ('\n'.toNat :: cs) = skipWs cs := by
  simp [skipWs, isWs]

theorem skipWs_lineStart (cs : List Nat) : skipWs (lineStart ++ cs) = skipWs cs := by
  simp [lineStart, skipWs, isWs]

theorem value_dumps {D : Dialect} (hD : D.digits = none) (depth : Nat) (p : Flat)
    {rest : List Nat} (hrest : Stops rest) {fuel : Nat} (hfuel : p.dumps.length < fuel) :
    value D fuel (depth + 1) (' '.toNat :: (p.dumps ++ rest)) = .ok (p.printable.toJson, rest) := by
  have hval : value D fuel (depth + 1) (p.dumps ++ rest) = .ok (p.printable.toJson, rest) := by
    cases p with
    | int z => exact value_print hD depth (.int z) hrest hfuel
    | str s =>
      obtain ⟨fuel, rfl⟩ : ∃ k, fuel = k + 1 := ⟨fuel - 1, by omega⟩
      rw [Flat.dumps, dumpsStr, cons_append, append_assoc, singleton_append]
      exact value_quoted D fuel _ (readsBack_codePoints _ s) rest
  cases fuel with
  | zero => cases hval
  | succ fuel => simpa only [value, skipWs_space] using hval

theorem memberAt_dumps {D : Dialect} (hD : D.digits = none) (depth : Nat) (kv : String × Flat)
    {tail : List Nat} (htail : Stops tail) {fuel : Nat} (hfuel : (dumpsMember kv).length < fuel) :
    MemberAt D fuel (depth + 1) (lineStart ++ (dumpsMember kv ++ tail))
      (codePoints kv.1, kv.2.printable.toJson) tail := by
  have hval := value_dumps hD depth kv.2 htail
    (show kv.2.dumps.length < fuel by simp [dumpsMember, dumpsStr] at hfuel; omega)
  refine ⟨_, _, ?_, stringBody_quoted (readsBack_codePoints _ kv.1) _, hval⟩
  simp [dumpsMember, dumpsStr, lineStart, skipWs, isWs]

theorem members_dumped {D : Dialect} (hD : D.digits = none) (depth : Nat)
    (kvs : List (String × Flat)) (hne : kvs ≠ []) (rest : List Nat) {fuel : Nat}
    (hfuel : (memberLines (kvs.map dumpsMember)).length < fuel) :
    members D fuel (depth + 1) (memberLines (kvs.map dumpsMember) ++ rest) =
      .ok (kvs.map fun kv => (codePoints kv.1, kv.2.printable.toJson), rest) := by
  induction kvs generalizing fuel with
  | nil => exact absurd rfl hne
  | cons kv kvs ih =>
    obtain ⟨fuel, rfl⟩ : ∃ k, fuel = k + 1 := ⟨fuel - 1, by omega⟩
    cases kvs with
    | nil =>
      simp only [map_cons, map_nil, memberLines, append_assoc, cons_append,
        nil_append, length_append, length_cons, length_nil] at hfuel ⊢
      exact (memberAt_dumps hD depth kv (stops_cons _ (by decide)) (by omega)).last
        ((skipWs_newline _).trans (skipWs_cons (by decide) _))
    | cons kv' kvs =>
      have hstart : lineStart.length = 3 := rfl
      simp only [map_cons, memberLines, append_assoc, cons_append,
        length_append, length_cons] at hfuel ih ⊢
      exact (memberAt_dumps hD depth kv (stops_cons _ (by decide)) (by omega)).next
        (skipWs_cons (by decide) _) (ih (by simp) (by omega))

/-- **Every dialect without a limit on integers reads a dumped dictionary back**, with the line break
after it. -/
theorem parseJson_dumps (D : Dialect) (hdigits : D.digits = none) (hD : 2 ≤ D.depth)
    (kvs : List (String × Flat)) :
    parseJson D (dumps kvs ++ ['\n'.toNat]) = .ok (flatJson kvs) := by
  obtain ⟨depth, hdepth⟩ : ∃ k, D.depth = k + 2 := ⟨D.depth - 2, by omega⟩
  suffices h : ∀ fuel, (dumps kvs).length < fuel → value D (fuel + 1) (depth + 2)
      (dumps kvs ++ ['\n'.toNat]) = .ok (flatJson kvs, ['\n'.toNat]) by
    unfold parseJson
    rw [hdepth, h _ (by rw [length_append]; omega)]
    rfl
  intro fuel hfuel
  simp only [dumps, cons_append, value.eq_2, length_cons,
    skipWs_cons (show isWs '{'.toNat = false by decide)] at hfuel ⊢
  rw [if_neg (by decide), if_neg (by decide), if_pos trivial]
  cases kvs with
  | nil => rfl
  | cons kv kvs =>
    have hhead : (skipWs (memberLines ((kv :: kvs).map dumpsMember) ++ ['\n'.toNat])).head? =
        some '"'.toNat := by
      cases kvs <;>
        simp [memberLines, dumpsMember, dumpsStr, skipWs_lineStart, skipWs_cons, isWs]
    rw [hhead, if_neg (by decide), members_dumped hdigits depth (kv :: kvs) (by simp) _ (by omega)]
    simp [flatJson, structJson]

/-! ## ASCII -/

abbrev AsciiText (cs : List Nat) : Prop := ∀ n ∈ cs, n < 128

theorem AsciiText.append {xs ys : List Nat} (hxs : AsciiText xs) (hys : AsciiText ys) : AsciiText (xs ++ ys) :=
  forall_mem_append.mpr ⟨hxs, hys⟩

theorem AsciiText.cons {n : Nat} {xs : List Nat} (hn : n < 128) (hxs : AsciiText xs) : AsciiText (n :: xs) :=
  forall_mem_cons.mpr ⟨hn, hxs⟩

theorem hexDigit_lt {n : Nat} (h : n < 16) : hexDigit n < 128 := by
  unfold hexDigit
  split_ifs <;> omega

theorem ascii_unicodeEscaped {n : Nat} (hn : n < 0x10000) : AsciiText (unicodeEscaped n) := by
  refine .cons (by decide) (.cons (by decide) ?_)
  simp only [forall_mem_cons]
  exact ⟨hexDigit_lt (by omega), hexDigit_lt (by omega), hexDigit_lt (by omega),
    hexDigit_lt (by omega), by simp⟩

theorem ascii_pyEscape {c : Nat} (hc : IsScalar c) : AsciiText (pyEscape c) := by
  have hlimit := hc.1
  unfold pyEscape
  split_ifs with h1 h2 h3 h4 h5 h6 h7 h8 h9
  case pos | pos | pos | pos | pos | pos | pos => decide
  · exact .cons (by omega) (by decide)
  · exact ascii_unicodeEscaped h9
  · exact (ascii_unicodeEscaped (by omega)).append (ascii_unicodeEscaped (by omega))

theorem ascii_dumpsStr (s : String) : AsciiText (dumpsStr s) := by
  refine .cons (by decide) (.append (fun n hn => ?_) (by decide))
  obtain ⟨c, hc, hn⟩ := mem_flatMap.mp hn
  exact ascii_pyEscape (isScalar_codePoints c hc) n hn

theorem ascii_dumpsMember (kv : String × Flat) : AsciiText (dumpsMember kv) := by
  refine (ascii_dumpsStr kv.1).append (.cons (by decide) (.cons (by decide) ?_))
  cases kv.2 with
  | str s => exact ascii_dumpsStr s
  | int z =>
    refine .append (by split_ifs <;> decide) fun n hn => ?_
    have hdigit := isDigit_of_mem_decimal hn
    simp only [isDigit, Bool.and_eq_true, decide_eq_true_eq] at hdigit
    omega

theorem ascii_memberLines {xs : List (List Nat)} (hxs : ∀ x ∈ xs, AsciiText x) :
    AsciiText (memberLines xs) := by
  have hstart : AsciiText lineStart := by decide
  induction xs with
  | nil => decide
  | cons x xs ih =>
    obtain ⟨hx, hrest⟩ := forall_mem_cons.mp hxs
    cases xs with
    | nil => exact hstart.append (hx.append (by decide))
    | cons y ys => exact hstart.append (hx.append (.cons (by decide) (ih hrest)))

theorem ascii_dumps (kvs : List (String × Flat)) : AsciiText (dumps kvs) := by
  refine .cons (by decide) (ascii_memberLines fun x hx => ?_)
  obtain ⟨kv, -, rfl⟩ := mem_map.mp hx
  exact ascii_dumpsMember kv

theorem utf8Decode_dumps {sur : Bool} (kvs : List (String × Flat)) :
    utf8Decode sur (utf8Encode (dumps kvs ++ ['\n'.toNat])) = some (dumps kvs ++ ['\n'.toNat]) := by
  have hascii : AsciiText (dumps kvs ++ ['\n'.toNat]) := (ascii_dumps kvs).append (by decide)
  exact utf8Decode_utf8Encode fun n hn => isScalar_of_lt ((hascii n hn).trans (by decide))

end ManagedDirectory.Codec
