import ManagedDirectory.Codec.Serde

/-!
# `serde_json::Value`

`Value.ofJson` is what `serde_json::from_str` keeps of a text: an object is a map sorted by key
in which the last of several equal keys wins, and a number is a `u64`, a negative `i64` or a
double. `Value.print` is `serde_json::to_string`.

Doubles are those of a `FloatText`: how `serde_json` reads a literal and prints a double is
documented by it, not by this repository. `Value.print_inj` states that the text of a value
determines the value.
-/

namespace ManagedDirectory.Codec

open List

/-! ## Values -/

/-- How `serde_json` reads and writes doubles: the shortest text that reads back, always with a
fraction or an exponent. -/
structure FloatText where
  F : Type
  /-- The literal `± m * 10 ^ e`; `none` is "number out of range". -/
  parse : (neg : Bool) → (m : Nat) → (e : Int) → Option F
  print : F → List Nat
  print_inj : Function.Injective print
  head : ∀ x, ∃ c cs, print x = c :: cs ∧ (isDigit c = true ∨ c = '-'.toNat)
  chars : ∀ x, ∀ c ∈ print x, isDigit c = true ∨ c ∈ ['-', '+', '.', 'e'].map Char.toNat
  marked : ∀ x, '.'.toNat ∈ print x ∨ 'e'.toNat ∈ print x

inductive Number (F : Type) where
  | pos (n : Nat)
  /-- The integer `-n`. -/
  | neg (n : Nat)
  | float (x : F)

inductive Value (F : Type) where
  | null
  | bool (b : Bool)
  | num (n : Number F)
  | str (s : String)
  | arr (xs : List (Value F))
  | obj (kvs : List (String × Value F))

/-- `BTreeMap::insert`. The order of strings is that of their code points. -/
def insertKey {α : Type} (k : String) (v : α) : List (String × α) → List (String × α)
  | [] => [(k, v)]
  | (k', v') :: kvs =>
    if k = k' then (k, v) :: kvs
    else if codePoints k < codePoints k' then (k, v) :: (k', v') :: kvs
    else (k', v') :: insertKey k v kvs

variable {T : FloatText}

/-- An integer literal: a `u64`, a negative `i64`, and a double when it is neither. -/
def Number.ofInt (T : FloatText) (neg : Bool) (n : Nat) : Option (Number T.F) :=
  if neg then
    if 0 < n ∧ n ≤ 2 ^ 63 then some (.neg n) else (T.parse true n 0).map .float
  else if n < 2 ^ 64 then some (.pos n) else (T.parse false n 0).map .float

mutual

def Value.ofJson (T : FloatText) : Json → Option (Value T.F)
  | .null => some .null
  | .bool b => some (.bool b)
  | .int neg n => (Number.ofInt T neg n).map .num
  | .float neg m e => (T.parse neg m e).map fun x => .num (.float x)
  | .special _ => none
  | .str s => (ofCodePoints s).map .str
  | .arr xs => (Value.ofElems T xs).map .arr
  | .obj kvs => (Value.ofMembers T [] kvs).map .obj

def Value.ofElems (T : FloatText) : List Json → Option (List (Value T.F))
  | [] => some []
  | x :: xs =>
    match Value.ofJson T x, Value.ofElems T xs with
    | some v, some vs => some (v :: vs)
    | _, _ => none

/-- The members inserted into `acc` one after another. -/
def Value.ofMembers (T : FloatText) (acc : List (String × Value T.F)) :
    List (List Nat × Json) → Option (List (String × Value T.F))
  | [] => some acc
  | (k, x) :: kvs =>
    match ofCodePoints k, Value.ofJson T x with
    | some k, some v => Value.ofMembers T (insertKey k v acc) kvs
    | _, _ => none

end

/-- `serde_json::from_str::<Value>`. -/
def Value.fromStr (T : FloatText) (cs : List Nat) : Option (Value T.F) :=
  match parseJson serdeJson cs with
  | .ok j => Value.ofJson T j
  | .error _ => none

/-- `Value::get` with a key. -/
def Value.get {F : Type} (key : String) : Value F → Option (Value F)
  | .obj kvs => (kvs.find? fun kv => kv.1 == key).map Prod.snd
  | _ => none

/-- `Value::as_str`. -/
def Value.asStr {F : Type} : Value F → Option String
  | .str s => some s
  | _ => none

/-- `Value::as_u64`. -/
def Value.asU64 {F : Type} : Value F → Option Nat
  | .num (.pos n) => some n
  | _ => none

/-- `as_object_mut().map(|o| o.remove(key))`. -/
def Value.remove {F : Type} (key : String) : Value F → Value F
  | .obj kvs => .obj (kvs.filter fun kv => kv.1 != key)
  | v => v

/-! ## Printing -/

def Number.print (T : FloatText) : Number T.F → List Nat
  | .pos n => decimal n
  | .neg n => '-'.toNat :: decimal n
  | .float x => T.print x

mutual

/-- `serde_json::to_string`. -/
def Value.print (T : FloatText) : Value T.F → List Nat
  | .null => codePoints "null"
  | .bool true => codePoints "true"
  | .bool false => codePoints "false"
  | .num n => n.print T
  | .str s => printStr (codePoints s)
  | .arr [] => ['['.toNat, ']'.toNat]
  | .arr (x :: xs) => '['.toNat :: (Value.print T x ++ Value.printElems T xs)
  | .obj [] => ['{'.toNat, '}'.toNat]
  | .obj ((k, v) :: kvs) =>
    '{'.toNat :: (printStr (codePoints k) ++ ':'.toNat ::
      (Value.print T v ++ Value.printMembers T kvs))

def Value.printElems (T : FloatText) : List (Value T.F) → List Nat
  | [] => [']'.toNat]
  | x :: xs => ','.toNat :: (Value.print T x ++ Value.printElems T xs)

def Value.printMembers (T : FloatText) : List (String × Value T.F) → List Nat
  | [] => ['}'.toNat]
  | (k, v) :: kvs =>
    ','.toNat :: (printStr (codePoints k) ++ ':'.toNat ::
      (Value.print T v ++ Value.printMembers T kvs))

end

/-! ## The text of a value determines it -/

theorem printStr_append_inj {s t : String} {r r' : List Nat}
    (h : printStr (codePoints s) ++ r = printStr (codePoints t) ++ r') : s = t ∧ r = r' := by
  simp only [printStr, cons_append, append_assoc, nil_append,
    List.cons.injEq, true_and] at h
  have hs := stringBody_quoted (s := codePoints s) (fun c _ => readsBack_escapeChar false c) r
  rw [h, stringBody_quoted fun c _ => readsBack_escapeChar false c] at hs
  simp only [Option.some.injEq, Prod.mk.injEq] at hs
  exact ⟨codePoints_inj hs.1.symm, hs.2.symm⟩

def isNumChar (c : Nat) : Bool :=
  isDigit c || (['-', '+', '.', 'e'].map Char.toNat).contains c

/-- What stands after a value: nothing, or the comma or bracket of the container. -/
def Ends (r : List Nat) : Prop :=
  ∀ c ∈ r.head?, c = ','.toNat ∨ c = ']'.toNat ∨ c = '}'.toNat

theorem isNumChar_of_digit {c : Nat} (h : isDigit c = true) : isNumChar c = true := by
  simp [isNumChar, h]

theorem Number.isNumChar_print (n : Number T.F) : ∀ c ∈ n.print T, isNumChar c = true := by
  intro c hc
  cases n with
  | pos n => exact isNumChar_of_digit (isDigit_of_mem_decimal hc)
  | neg n =>
    rcases mem_cons.mp hc with rfl | hc
    · decide
    · exact isNumChar_of_digit (isDigit_of_mem_decimal hc)
  | float x =>
    rcases T.chars x c hc with h | h
    · exact isNumChar_of_digit h
    · simp only [isNumChar, Bool.or_eq_true, contains_iff_mem]
      exact .inr h

theorem decimal_inj {m n : Nat} (h : decimal m = decimal n) : m = n := by
  rw [← digitsVal_decimal m, h, digitsVal_decimal]

theorem Number.print_inj {m n : Number T.F} (h : m.print T = n.print T) : m = n := by
  have hpos : ∀ k, ∀ c ∈ decimal k, isDigit c = true ∨ c = '-'.toNat :=
    fun k c hc => .inl (isDigit_of_mem_decimal hc)
  have hneg : ∀ k, ∀ c ∈ '-'.toNat :: decimal k, isDigit c = true ∨ c = '-'.toNat := by
    intro k c hc
    rcases mem_cons.mp hc with rfl | hc
    · exact .inr rfl
    · exact hpos k c hc
  have hsign : ∀ k l, decimal k ≠ '-'.toNat :: decimal l := by
    intro k l hkl
    have := isDigit_of_mem_decimal (n := k) (c := '-'.toNat) (by rw [hkl]; simp)
    exact absurd this (by decide)
  -- a double has a fraction or an exponent, so it is never printed as an integer
  have hfloat : ∀ (x : T.F) (ds : List Nat), T.print x = ds →
      (∀ c ∈ ds, isDigit c = true ∨ c = '-'.toNat) → False := by
    intro x ds hx hds
    rcases T.marked x with hm | hm
    · exact absurd (hds _ (hx ▸ hm)) (by decide)
    · exact absurd (hds _ (hx ▸ hm)) (by decide)
  cases m with
  | pos m =>
    cases n with
    | pos n => rw [decimal_inj h]
    | neg n => exact absurd h (hsign m n)
    | float x => exact (hfloat x _ h.symm (hpos m)).elim
  | neg m =>
    cases n with
    | pos n => exact absurd h.symm (hsign n m)
    | neg n =>
      simp only [Number.print, List.cons.injEq, true_and] at h
      rw [decimal_inj h]
    | float x => exact (hfloat x _ h.symm (hneg m)).elim
  | float x =>
    cases n with
    | pos n => exact (hfloat x _ h (hpos n)).elim
    | neg n => exact (hfloat x _ h (hneg n)).elim
    | float y => rw [T.print_inj h]

theorem Number.print_append_inj {m n : Number T.F} {r r' : List Nat} (hr : Ends r)
    (hr' : Ends r') (h : m.print T ++ r = n.print T ++ r') : m = n ∧ r = r' := by
  have hspan : ∀ (k : Number T.F) {r : List Nat}, Ends r →
      (k.print T ++ r).takeWhile isNumChar = k.print T := by
    intro k r hr
    rw [takeWhile_append_of_pos k.isNumChar_print]
    cases r with
    | nil => simp
    | cons c cs =>
      have hc : isNumChar c = false := by
        rcases hr c (by simp) with rfl | rfl | rfl <;> decide
      simp [hc]
  have htext : m.print T = n.print T := by rw [← hspan m hr, h, hspan n hr']
  rw [htext] at h
  exact ⟨Number.print_inj htext, append_cancel_left h⟩

def leadOf (c : Nat) : Nat :=
  if c = 'n'.toNat then 0 else if c = 't'.toNat then 1 else if c = 'f'.toNat then 2
  else if c = '"'.toNat then 3 else if c = '['.toNat then 4 else if c = '{'.toNat then 5
  else if isNumChar c then 6 else 7

def Value.lead {F : Type} : Value F → Nat
  | .null => 0
  | .bool b => if b then 1 else 2
  | .str _ => 3
  | .arr _ => 4
  | .obj _ => 5
  | .num _ => 6

theorem leadOf_number {c : Nat} (h : isDigit c = true ∨ c = '-'.toNat) : leadOf c = 6 := by
  rcases h with h | rfl
  · have hall : ∀ c < 58, isDigit c = true → leadOf c = 6 := by decide
    refine hall c ?_ h
    simp only [isDigit, Bool.and_eq_true, decide_eq_true_eq] at h
    omega
  · decide

theorem decimal_cons (n : Nat) : ∃ c cs, decimal n = c :: cs ∧ isDigit c = true := by
  by_cases hn : n = 0
  · exact ⟨'0'.toNat, [], by simp [hn, decimal], by decide⟩
  · obtain ⟨c, cs, hc, hdig, -⟩ := decimal_head hn
    exact ⟨c, cs, hc, hdig⟩

theorem Number.print_head (n : Number T.F) :
    ∃ c cs, n.print T = c :: cs ∧ (isDigit c = true ∨ c = '-'.toNat) := by
  cases n with
  | pos n =>
    obtain ⟨c, cs, hc, hdig⟩ := decimal_cons n
    exact ⟨c, cs, hc, .inl hdig⟩
  | neg n => exact ⟨'-'.toNat, decimal n, rfl, .inr rfl⟩
  | float x => exact T.head x

theorem Value.print_head (v : Value T.F) : ∃ c cs, v.print T = c :: cs ∧ leadOf c = v.lead := by
  cases v with
  | null => exact ⟨'n'.toNat, codePoints "ull", by rw [Value.print]; rfl,
        by simp [leadOf, Value.lead]⟩
  | bool b =>
    cases b with
    | true => exact ⟨'t'.toNat, codePoints "rue", by rw [Value.print]; rfl,
        by simp [leadOf, Value.lead]⟩
    | false => exact ⟨'f'.toNat, codePoints "alse", by rw [Value.print]; rfl,
        by simp [leadOf, Value.lead]⟩
  | num n =>
    obtain ⟨c, cs, hc, hlead⟩ := n.print_head
    exact ⟨c, cs, by rw [Value.print, hc], leadOf_number hlead⟩
  | str s => exact ⟨'"'.toNat, _, by rw [Value.print, printStr], by simp [leadOf, Value.lead]⟩
  | arr xs =>
    cases xs with
    | nil => exact ⟨'['.toNat, _, by rw [Value.print], by simp [leadOf, Value.lead]⟩
    | cons x xs => exact ⟨'['.toNat, _, by rw [Value.print], by simp [leadOf, Value.lead]⟩
  | obj kvs =>
    cases kvs with
    | nil => exact ⟨'{'.toNat, _, by rw [Value.print], by simp [leadOf, Value.lead]⟩
    | cons kv kvs =>
      obtain ⟨k, v⟩ := kv
      exact ⟨'{'.toNat, _, by rw [Value.print], by simp [leadOf, Value.lead]⟩

theorem Value.lead_eq_of_print {v w : Value T.F} {r r' : List Nat}
    (h : v.print T ++ r = w.print T ++ r') : v.lead = w.lead := by
  obtain ⟨c, cs, hc, hlead⟩ := v.print_head
  obtain ⟨d, ds, hd, hlead'⟩ := w.print_head
  rw [hc, hd, cons_append, cons_append] at h
  rw [← hlead, ← hlead', (List.cons.inj h).1]

def Value.SameKind {F : Type} : Value F → Value F → Prop
  | .null, .null => True
  | .bool b, .bool c => b = c
  | .num _, .num _ => True
  | .str _, .str _ => True
  | .arr _, .arr _ => True
  | .obj _, .obj _ => True
  | _, _ => False

theorem Value.sameKind_of_print {v w : Value T.F} {r r' : List Nat}
    (h : v.print T ++ r = w.print T ++ r') : v.SameKind w := by
  have hlead := Value.lead_eq_of_print h
  cases v with
  | bool b => cases b <;> cases w <;> simp_all [Value.lead, Value.SameKind]
  | _ =>
    cases w with
    | bool c => cases c <;> simp [Value.lead] at hlead
    | _ => first | exact trivial | simp [Value.lead] at hlead

theorem Value.print_ne_bracket (v : Value T.F) (r r' : List Nat) :
    v.print T ++ r ≠ ']'.toNat :: r' := by
  obtain ⟨c, cs, hc, hlead⟩ := v.print_head
  intro h
  rw [hc, cons_append] at h
  obtain ⟨rfl, -⟩ := List.cons.inj h
  have hlt : v.lead < 7 := by
    cases v with
    | bool b => cases b <;> simp [Value.lead]
    | _ => simp [Value.lead]
  have : leadOf ']'.toNat = 7 := by decide
  omega

theorem Value.ends_printElems (xs : List (Value T.F)) (r : List Nat) :
    Ends (Value.printElems T xs ++ r) := by
  cases xs <;> simp [Ends, Value.printElems]

theorem Value.ends_printMembers (kvs : List (String × Value T.F)) (r : List Nat) :
    Ends (Value.printMembers T kvs ++ r) := by
  cases kvs <;> simp [Ends, Value.printMembers]

mutual

theorem Value.print_append_inj : ∀ (v w : Value T.F) {r r' : List Nat}, Ends r → Ends r' →
    v.print T ++ r = w.print T ++ r' → v = w ∧ r = r'
  | .null, w, r, r', _, _, h => by
    have hkind := Value.sameKind_of_print h
    cases w with
    | null => exact ⟨rfl, append_cancel_left h⟩
    | _ => exact hkind.elim
  | .bool b, w, r, r', _, _, h => by
    have hkind := Value.sameKind_of_print h
    cases w with
    | bool c =>
      obtain rfl : b = c := hkind
      exact ⟨rfl, append_cancel_left h⟩
    | _ => exact hkind.elim
  | .num m, w, r, r', hr, hr', h => by
    have hkind := Value.sameKind_of_print h
    cases w with
    | num n =>
      rw [Value.print, Value.print] at h
      obtain ⟨rfl, hrest⟩ := Number.print_append_inj hr hr' h
      exact ⟨rfl, hrest⟩
    | _ => exact hkind.elim
  | .str s, w, r, r', _, _, h => by
    have hkind := Value.sameKind_of_print h
    cases w with
    | str t =>
      rw [Value.print, Value.print] at h
      obtain ⟨rfl, hrest⟩ := printStr_append_inj h
      exact ⟨rfl, hrest⟩
    | _ => exact hkind.elim
  | .arr xs, w, r, r', _, _, h => by
    have hkind := Value.sameKind_of_print h
    cases w with
    | arr ys =>
      match xs, ys with
      | [], [] => exact ⟨rfl, append_cancel_left h⟩
      | [], y :: ys =>
        simp only [Value.print, cons_append, nil_append, append_assoc,
          List.cons.injEq, true_and] at h
        exact absurd h.symm (y.print_ne_bracket _ _)
      | x :: xs, [] =>
        simp only [Value.print, cons_append, nil_append, append_assoc,
          List.cons.injEq, true_and] at h
        exact absurd h (x.print_ne_bracket _ _)
      | x :: xs, y :: ys =>
        simp only [Value.print, cons_append, append_assoc, List.cons.injEq, true_and] at h
        obtain ⟨rfl, hxs⟩ := Value.print_append_inj x y (ends_printElems xs r)
          (ends_printElems ys r') h
        obtain ⟨rfl, hrest⟩ := Value.printElems_append_inj xs ys hxs
        exact ⟨rfl, hrest⟩
    | _ => exact hkind.elim
  | .obj kvs, w, r, r', _, _, h => by
    have hkind := Value.sameKind_of_print h
    cases w with
    | obj lvs =>
      match kvs, lvs with
      | [], [] => exact ⟨rfl, append_cancel_left h⟩
      | [], (l, y) :: lvs => simp [Value.print, printStr] at h
      | (k, x) :: kvs, [] => simp [Value.print, printStr] at h
      | (k, x) :: kvs, (l, y) :: lvs =>
        simp only [Value.print, cons_append, append_assoc, List.cons.injEq, true_and] at h
        obtain ⟨rfl, hx⟩ := printStr_append_inj h
        obtain ⟨rfl, hkvs⟩ := Value.print_append_inj x y (ends_printMembers kvs r)
          (ends_printMembers lvs r') (List.cons.inj hx).2
        obtain ⟨rfl, hrest⟩ := Value.printMembers_append_inj kvs lvs hkvs
        exact ⟨rfl, hrest⟩
    | _ => exact hkind.elim

theorem Value.printElems_append_inj : ∀ (xs ys : List (Value T.F)) {r r' : List Nat},
    Value.printElems T xs ++ r = Value.printElems T ys ++ r' → xs = ys ∧ r = r'
  | [], [], r, r', h => by
    rw [Value.printElems] at h
    exact ⟨rfl, append_cancel_left h⟩
  | [], y :: ys, r, r', h => by simp [Value.printElems] at h
  | x :: xs, [], r, r', h => by simp [Value.printElems] at h
  | x :: xs, y :: ys, r, r', h => by
    simp only [Value.printElems, cons_append, append_assoc, List.cons.injEq,
      true_and] at h
    obtain ⟨rfl, hxs⟩ := Value.print_append_inj x y (ends_printElems xs r)
      (ends_printElems ys r') h
    obtain ⟨rfl, hrest⟩ := Value.printElems_append_inj xs ys hxs
    exact ⟨rfl, hrest⟩

theorem Value.printMembers_append_inj : ∀ (kvs lvs : List (String × Value T.F))
    {r r' : List Nat}, Value.printMembers T kvs ++ r = Value.printMembers T lvs ++ r' →
    kvs = lvs ∧ r = r'
  | [], [], r, r', h => by
    rw [Value.printMembers] at h
    exact ⟨rfl, append_cancel_left h⟩
  | [], (l, y) :: lvs, r, r', h => by simp [Value.printMembers] at h
  | (k, x) :: kvs, [], r, r', h => by simp [Value.printMembers] at h
  | (k, x) :: kvs, (l, y) :: lvs, r, r', h => by
    simp only [Value.printMembers, cons_append, append_assoc, List.cons.injEq,
      true_and] at h
    obtain ⟨rfl, hx⟩ := printStr_append_inj h
    obtain ⟨rfl, hkvs⟩ := Value.print_append_inj x y (ends_printMembers kvs r)
      (ends_printMembers lvs r') (List.cons.inj hx).2
    obtain ⟨rfl, hrest⟩ := Value.printMembers_append_inj kvs lvs hkvs
    exact ⟨rfl, hrest⟩

end

/-- **The text of a value determines the value.** -/
theorem Value.print_inj {v w : Value T.F} (h : v.print T = w.print T) : v = w := by
  have hnil : Ends [] := by simp [Ends]
  exact (Value.print_append_inj v w hnil hnil (by rw [h])).1

/-! ## A transparent way of writing doubles -/

def signText (neg : Bool) : List Nat := if neg then ['-'.toNat] else []

theorem signed_append_inj {neg neg' : Bool} {m m' : Nat} {r r' : List Nat}
    (hr : ∀ c ∈ r.head?, isDigit c = false) (hr' : ∀ c ∈ r'.head?, isDigit c = false)
    (h : signText neg ++ decimal m ++ r = signText neg' ++ decimal m' ++ r') :
    neg = neg' ∧ m = m' ∧ r = r' := by
  have hspan : ∀ {m : Nat} {r : List Nat}, (∀ c ∈ r.head?, isDigit c = false) →
      (decimal m ++ r).takeWhile isDigit = decimal m := by
    intro m r hr
    rw [takeWhile_append_of_pos fun c => isDigit_of_mem_decimal]
    cases r with
    | nil => simp
    | cons c cs => simp [hr c (by simp)]
  have hdigits : ∀ {m m' : Nat} {r r' : List Nat}, (∀ c ∈ r.head?, isDigit c = false) →
      (∀ c ∈ r'.head?, isDigit c = false) → decimal m ++ r = decimal m' ++ r' →
      m = m' ∧ r = r' := by
    intro m m' r r' hr hr' h
    have htext : decimal m = decimal m' := by rw [← hspan hr, h, hspan hr']
    rw [htext] at h
    exact ⟨decimal_inj htext, append_cancel_left h⟩
  have hsign : ∀ (k l : Nat) (r r' : List Nat),
      decimal k ++ r ≠ '-'.toNat :: (decimal l ++ r') := by
    intro k l r r' hkl
    obtain ⟨c, cs, hc, hdig⟩ := decimal_cons k
    rw [hc, cons_append] at hkl
    obtain ⟨rfl, -⟩ := List.cons.inj hkl
    exact absurd hdig (by decide)
  cases neg <;> cases neg' <;>
    simp only [signText, if_true, Bool.false_eq_true, if_false, nil_append,
      cons_append] at h
  · exact ⟨rfl, hdigits hr hr' h⟩
  · exact absurd h (hsign _ _ _ _)
  · exact absurd h.symm (hsign _ _ _ _)
  · exact ⟨rfl, hdigits hr hr' (List.cons.inj h).2⟩

theorem chars_signed {neg : Bool} {m c : Nat} (h : c ∈ signText neg ++ decimal m) :
    isDigit c = true ∨ c = '-'.toNat := by
  rcases mem_append.mp h with h | h
  · cases neg
    · simp [signText] at h
    · exact .inr (by simpa [signText] using h)
  · exact .inl (isDigit_of_mem_decimal h)

/-- Every literal is its own double, written with its mantissa and exponent. -/
def literalText : FloatText where
  F := Bool × Nat × Int
  parse neg m e := some (neg, m, e)
  print x := signText x.1 ++ decimal x.2.1 ++
    'e'.toNat :: (signText (x.2.2 < 0) ++ decimal x.2.2.natAbs)
  print_inj := by
    rintro ⟨neg, m, e⟩ ⟨neg', m', e'⟩ h
    obtain ⟨rfl, rfl, htail⟩ := signed_append_inj (by simp; decide) (by simp; decide) h
    have hexp := (List.cons.inj htail).2
    rw [← append_nil (signText (decide (e < 0)) ++ _),
      ← append_nil (signText (decide (e' < 0)) ++ _)] at hexp
    obtain ⟨hsign, habs, -⟩ := signed_append_inj (by simp) (by simp) hexp
    simp only [decide_eq_decide] at hsign habs
    obtain rfl : e = e' := by omega
    rfl
  head := by
    rintro ⟨neg, m, e⟩
    obtain ⟨c, cs, hc, hdig⟩ := decimal_cons m
    cases neg
    · exact ⟨c, cs ++ 'e'.toNat :: (signText (e < 0) ++ decimal e.natAbs), by simp [signText, hc],
        .inl hdig⟩
    · exact ⟨'-'.toNat, decimal m ++ 'e'.toNat :: (signText (e < 0) ++ decimal e.natAbs),
        by simp [signText], .inr rfl⟩
  chars := by
    rintro ⟨neg, m, e⟩ c hc
    have hsigned : isDigit c = true ∨ c = '-'.toNat → isDigit c = true ∨
        c ∈ ['-', '+', '.', 'e'].map Char.toNat := by
      rintro (h | rfl)
      · exact .inl h
      · exact .inr (by decide)
    rcases mem_append.mp hc with hc | hc
    · exact hsigned (chars_signed hc)
    · rcases mem_cons.mp hc with rfl | hc
      · exact .inr (by decide)
      · exact hsigned (chars_signed hc)
  marked x := .inr (by simp)

/-! ## A printed value is one line -/

/-- A character of a printed value: no control character, so no line break. -/
def OneLine (n : Nat) : Prop := IsScalar n ∧ 0x20 ≤ n

theorem oneLine_of_ascii {n : Nat} (hlo : 0x20 ≤ n) (hhi : n < 0x80) : OneLine n :=
  ⟨isScalar_of_lt (by omega), hlo⟩

theorem oneLine_printStr (s : String) : ∀ n ∈ printStr (codePoints s), OneLine n :=
  forall_printStr (fun _ => oneLine_of_ascii) fun c hc hge =>
    ⟨isScalar_codePoints c hc, by omega⟩

theorem Number.oneLine_print (n : Number T.F) : ∀ c ∈ n.print T, OneLine c := by
  intro c hc
  have h := n.isNumChar_print c hc
  simp only [isNumChar, isDigit, Bool.or_eq_true, Bool.and_eq_true, decide_eq_true_eq,
    contains_iff_mem] at h
  rcases h with h | h
  · exact oneLine_of_ascii (by omega) (by omega)
  · have hall : ∀ c ∈ ['-', '+', '.', 'e'].map Char.toNat, 0x20 ≤ c ∧ c < 0x80 := by decide
    exact oneLine_of_ascii (hall c h).1 (hall c h).2

theorem oneLine_word {s : String} (h : ∀ n ∈ codePoints s, 0x20 ≤ n ∧ n < 0x80) :
    ∀ n ∈ codePoints s, OneLine n :=
  fun n hn => oneLine_of_ascii (h n hn).1 (h n hn).2

theorem oneLine_char (c : Char) (h : 0x20 ≤ c.toNat ∧ c.toNat < 0x80) : OneLine c.toNat :=
  oneLine_of_ascii h.1 h.2

mutual

theorem Value.oneLine_print : ∀ (v : Value T.F), ∀ n ∈ v.print T, OneLine n
  | .null => by
    rw [Value.print]
    exact oneLine_word (by decide)
  | .bool true => by
    rw [Value.print]
    exact oneLine_word (by decide)
  | .bool false => by
    rw [Value.print]
    exact oneLine_word (by decide)
  | .num n => by
    rw [Value.print]
    exact n.oneLine_print
  | .str s => by
    rw [Value.print]
    exact oneLine_printStr s
  | .arr [] => by
    rw [Value.print]
    simp [OneLine, IsScalar, IsSurrogate]
  | .arr (x :: xs) => by
    simp only [Value.print, forall_mem_cons, forall_mem_append]
    exact ⟨oneLine_char '[' (by decide), x.oneLine_print, Value.oneLine_printElems xs⟩
  | .obj [] => by
    rw [Value.print]
    simp [OneLine, IsScalar, IsSurrogate]
  | .obj ((k, v) :: kvs) => by
    simp only [Value.print, forall_mem_cons, forall_mem_append]
    exact ⟨oneLine_char '{' (by decide), oneLine_printStr k, oneLine_char ':' (by decide),
      v.oneLine_print, Value.oneLine_printMembers kvs⟩

theorem Value.oneLine_printElems : ∀ (xs : List (Value T.F)),
    ∀ n ∈ Value.printElems T xs, OneLine n
  | [] => by
    rw [Value.printElems]
    simp [OneLine, IsScalar, IsSurrogate]
  | x :: xs => by
    simp only [Value.printElems, forall_mem_cons, forall_mem_append]
    exact ⟨oneLine_char ',' (by decide), x.oneLine_print, Value.oneLine_printElems xs⟩

theorem Value.oneLine_printMembers : ∀ (kvs : List (String × Value T.F)),
    ∀ n ∈ Value.printMembers T kvs, OneLine n
  | [] => by
    rw [Value.printMembers]
    simp [OneLine, IsScalar, IsSurrogate]
  | (k, v) :: kvs => by
    simp only [Value.printMembers, forall_mem_cons, forall_mem_append]
    exact ⟨oneLine_char ',' (by decide), oneLine_printStr k, oneLine_char ':' (by decide),
      v.oneLine_print, Value.oneLine_printMembers kvs⟩

end

end ManagedDirectory.Codec
