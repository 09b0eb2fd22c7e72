import ManagedDirectory.Codec.Json

/-!
# Reading back what was printed

`parseJson_printStruct`: every dialect reads a printed struct back as the object of its fields.
`parseJson_mono`: a text one dialect reads is read as the same tree by every more liberal one.
-/

namespace ManagedDirectory.Codec

open List

/-! ## Strings -/

variable {l m : Bool} {D E : Dialect} {r : Json × List Nat} {cs rest : List Nat} {c fuel : Nat}

theorem hexVal_hexDigit : ∀ d < 16, hexVal (hexDigit d) = some d := by decide

/-- What `esc` writes for `c` is read as `c`. -/
def ReadsBack (lone : Bool) (esc : Nat → List Nat) (c : Nat) : Prop :=
  ∀ fuel rest, stringBody lone (fuel + 1) (esc c ++ rest) =
    (stringBody lone fuel rest).map fun p => (c :: p.1, p.2)

theorem readsBack_escapeChar (lone : Bool) (c : Nat) : ReadsBack lone escapeChar c := by
  intro fuel rest
  unfold escapeChar
  split_ifs with h1 h2 h3 h4 h5 h6 h7 h8
  case pos => simp [h1, stringBody, escape, simpleEscape]
  case pos => simp [h2, stringBody, escape, simpleEscape]
  case pos => simp [h3, stringBody, escape, simpleEscape]
  case pos => simp [h4, stringBody, escape, simpleEscape]
  case pos => simp [h5, stringBody, escape, simpleEscape]
  case pos => simp [h6, stringBody, escape, simpleEscape]
  case pos => simp [h7, stringBody, escape, simpleEscape]
  case pos =>
    have hhi := hexVal_hexDigit (c / 16) (by omega)
    have hlo := hexVal_hexDigit (c % 16) (by omega)
    have hval : c / 16 * 16 + c % 16 = c := by omega
    have hzero : hexVal 48 = some 0 := by decide
    simp [stringBody, escape, simpleEscape, unicodeEscape, hex4, hhi, hlo, hzero, hval,
      show ¬ 0xD800 ≤ c by omega, show ¬ 0xDC00 ≤ c by omega]
  case neg => simp [stringBody, h1, h2, h8]

theorem skipWs_cons (h : isWs c = false) (cs : List Nat) :
    skipWs (c :: cs) = c :: cs := by
  simp [skipWs, h]

section Escaped

variable {lone : Bool} {esc : Nat → List Nat} {s : List Nat}

theorem ReadsBack.ne_nil (h : ReadsBack lone esc c) : esc c ≠ [] := by
  intro hnil
  have := h 1 ['"'.toNat]
  simp [hnil, stringBody] at this

theorem stringBody_escaped (h : ∀ c ∈ s, ReadsBack lone esc c) (rest : List Nat)
    (hfuel : s.length < fuel) :
    stringBody lone fuel (s.flatMap esc ++ '"'.toNat :: rest) = some (s, rest) := by
  induction s generalizing fuel with
  | nil =>
    obtain ⟨fuel, rfl⟩ := Nat.exists_eq_add_of_lt hfuel
    simp [stringBody]
  | cons c s ih =>
    obtain ⟨fuel, rfl⟩ : ∃ k, fuel = k + 1 := ⟨fuel - 1, by simp at hfuel; omega⟩
    obtain ⟨hfirst, hrest⟩ := forall_mem_cons.mp h
    rw [flatMap_cons, append_assoc, hfirst, ih hrest (by simpa using hfuel)]
    rfl

theorem stringBody_quoted (h : ∀ c ∈ s, ReadsBack lone esc c) (rest : List Nat) :
    stringBody lone (s.flatMap esc ++ '"'.toNat :: rest).length
      (s.flatMap esc ++ '"'.toNat :: rest) = some (s, rest) := by
  refine stringBody_escaped h rest ?_
  have hlen := length_le_sum_of_one_le (s.map fun c => (esc c).length) fun n hn => by
    obtain ⟨c, hc, rfl⟩ := mem_map.mp hn
    exact length_pos_iff.mpr (h c hc).ne_nil
  rw [length_append, length_cons, length_flatMap]
  rw [length_map] at hlen
  omega

theorem value_quoted (D : Dialect) (fuel depth : Nat)
    (h : ∀ c ∈ s, ReadsBack D.loneSurrogates esc c) (rest : List Nat) :
    value D (fuel + 1) depth ('"'.toNat :: (s.flatMap esc ++ '"'.toNat :: rest)) =
      .ok (.str s, rest) := by
  simp only [value, skipWs_cons (show isWs '"'.toNat = false by decide), if_true,
    stringBody_quoted h]

end Escaped

/-! ## Numbers -/

theorem digitsVal_map_reverse (ds : List Nat) :
    digitsVal (ds.reverse.map (48 + ·)) = Nat.ofDigits 10 ds := by
  unfold digitsVal
  rw [foldl_map, foldl_reverse, Nat.ofDigits_eq_foldr]
  congr 1
  funext d a
  simp
  omega

theorem isDigit_of_mem_decimal {n : Nat} (h : c ∈ decimal n) : isDigit c = true := by
  unfold decimal at h
  split_ifs at h
  · simp at h
    subst h
    decide
  · obtain ⟨d, hd, rfl⟩ := mem_map.mp h
    have : d < 10 := Nat.digits_lt_base (by omega) (mem_reverse.mp hd)
    simp [isDigit]
    omega

theorem digitsVal_decimal (n : Nat) : digitsVal (decimal n) = n := by
  unfold decimal
  split_ifs with h
  · subst h
    decide
  · rw [digitsVal_map_reverse, Nat.ofDigits_digits]

/-- No literal goes on with `rest`. -/
def Stops (rest : List Nat) : Prop :=
  ∀ c ∈ rest.head?, isDigit c = false ∧ c ≠ '.'.toNat ∧ c ≠ 'e'.toNat ∧ c ≠ 'E'.toNat

theorem numberTail_stops (neg : Bool) (ip : List Nat) (h : Stops rest) :
    numberTail neg ip rest = (.int neg (digitsVal ip), rest) := by
  have hf : fraction rest = ([], rest) := by
    unfold fraction
    split
    · rename_i c d cs
      rw [if_neg fun hc => (h c (by simp)).2.1 hc.1]
    · rfl
  have he : exponent rest = (none, rest) := by
    unfold exponent
    split
    · rename_i c cs
      rw [if_neg fun hc => hc.elim (h c (by simp)).2.2.1 (h c (by simp)).2.2.2]
    · rfl
  simp [numberTail, hf, he]

theorem takeWhile_append_stops {ds : List Nat} (hd : ∀ c ∈ ds, isDigit c = true) (h : Stops rest) :
    (ds ++ rest).takeWhile isDigit = ds ∧ (ds ++ rest).dropWhile isDigit = rest := by
  rw [takeWhile_append_of_pos hd, dropWhile_append_of_pos hd]
  cases rest with
  | nil => simp
  | cons c cs => simp [(h c (by simp)).1]

theorem decimal_head {n : Nat} (hn : n ≠ 0) :
    ∃ c cs, decimal n = c :: cs ∧ isDigit c = true ∧ c ≠ '0'.toNat := by
  have hrev : (Nat.digits 10 n).reverse ≠ [] := by simpa using Nat.digits_ne_nil_iff_ne_zero.mpr hn
  obtain ⟨d, ds, hds⟩ := exists_cons_of_ne_nil hrev
  have hlast : (Nat.digits 10 n).getLast (by simpa using hrev) = d := by
    simp [← head_reverse, hds]
  have hd : d ≠ 0 := hlast ▸ Nat.getLast_digit_ne_zero 10 hn
  have hmem : 48 + d ∈ decimal n := by simp [decimal, hn, hds]
  refine ⟨48 + d, ds.map (48 + ·), by simp [decimal, hn, hds], isDigit_of_mem_decimal hmem, ?_⟩
  simp
  omega

theorem number_decimal (neg : Bool) (n : Nat) (h : Stops rest) :
    number neg (decimal n ++ rest) = some (.int neg n, rest) := by
  by_cases hn : n = 0
  · subst hn
    have : decimal 0 = ['0'.toNat] := by simp [decimal]
    simp only [this, cons_append, nil_append, number, if_true, numberTail_stops neg _ h]
    rfl
  · obtain ⟨c, cs, hc, hdig, hne⟩ := decimal_head hn
    have hspan := takeWhile_append_stops (fun c => isDigit_of_mem_decimal (n := n)) h
    rw [hc, cons_append] at hspan ⊢
    simp only [number, if_neg hne, hdig, if_true, hspan.1, hspan.2, numberTail_stops neg _ h]
    rw [← hc, digitsVal_decimal]

theorem dialect_number_decimal (hD : D.digits = none) (neg : Bool) (n : Nat) (h : Stops rest) :
    D.number neg (decimal n ++ rest) = some (.int neg n, rest) := by
  rw [Dialect.number, number_decimal neg n h]
  simp [Dialect.takes, hD]

/-! ## Values -/

theorem value_printStr (D : Dialect) (fuel depth : Nat) (s : List Nat) (rest : List Nat) :
    value D (fuel + 1) depth (printStr s ++ rest) = .ok (.str s, rest) := by
  rw [printStr, cons_append, append_assoc, singleton_append]
  exact value_quoted D fuel depth (fun c _ => readsBack_escapeChar _ c) rest

theorem elems_printed (D : Dialect) (depth : Nat) (xs : List String) (hne : xs ≠ [])
    (rest : List Nat) (hfuel : xs.length < fuel) :
    elems D fuel depth
        (commaClose ']'.toNat (xs.map fun s => printStr (codePoints s)) ++ rest) =
      .ok (xs.map fun s => .str (codePoints s), rest) := by
  induction xs generalizing fuel with
  | nil => exact absurd rfl hne
  | cons x xs ih =>
    obtain ⟨fuel, rfl⟩ : ∃ k, fuel = k + 2 := ⟨fuel - 2, by simp at hfuel; omega⟩
    cases xs with
    | nil =>
      simp only [map_cons, map_nil, commaClose, append_assoc, elems,
        value_printStr, cons_append, nil_append,
        skipWs_cons (show isWs ']'.toNat = false by decide)]
      simp
    | cons y ys =>
      have hrec := ih (by simp) (show (y :: ys).length < fuel + 1 by simp at hfuel ⊢; omega)
      simp only [map_cons, commaClose, append_assoc, elems.eq_2,
        value_printStr, cons_append,
        skipWs_cons (show isWs ','.toNat = false by decide), if_true] at hrec ⊢
      rw [hrec]

theorem length_le_commaClose (close : Nat) (xs : List (List Nat)) (h : ∀ x ∈ xs, x ≠ []) :
    xs.length < (commaClose close xs).length := by
  induction xs with
  | nil => simp [commaClose]
  | cons x xs ih =>
    have hx := length_pos_iff.mpr (h x (by simp))
    have ih := ih fun y hy => h y (by simp [hy])
    cases xs with
    | nil => simp [commaClose]; omega
    | cons y ys => simp [commaClose] at ih ⊢; omega

theorem value_strs (D : Dialect) (depth : Nat) (xs : List String) (rest : List Nat)
    (hfuel : (Printable.strs xs).print.length < fuel) :
    value D fuel (depth + 1) ((Printable.strs xs).print ++ rest) =
      .ok ((Printable.strs xs).toJson, rest) := by
  obtain ⟨fuel, rfl⟩ : ∃ k, fuel = k + 1 := ⟨fuel - 1, by omega⟩
  have hlen := length_le_commaClose ']'.toNat (xs.map fun s => printStr (codePoints s))
    (by simp [printStr])
  simp only [Printable.print, length_cons, length_map] at hlen hfuel
  simp only [Printable.print, cons_append, value.eq_2,
    skipWs_cons (show isWs '['.toNat = false by decide)]
  rw [if_neg (by decide), if_pos trivial]
  cases xs with
  | nil => simp [commaClose, skipWs, isWs, Printable.toJson]
  | cons x xs =>
    have hhead : (skipWs (commaClose ']'.toNat ((x :: xs).map fun s => printStr (codePoints s)) ++
        rest)).head? = some '"'.toNat := by
      cases xs <;> simp [commaClose, printStr, skipWs, isWs]
    rw [hhead, if_neg (by decide), elems_printed D depth (x :: xs) (by simp) rest (by omega)]
    rfl

theorem value_print (hD : D.digits = none) (depth : Nat) (p : Printable) (hrest : Stops rest)
    (hfuel : p.print.length < fuel) :
    value D fuel (depth + 1) (p.print ++ rest) = .ok (p.toJson, rest) := by
  cases p with
  | strs xs => exact value_strs D depth xs rest hfuel
  | str s =>
    obtain ⟨fuel, rfl⟩ : ∃ k, fuel = k + 1 := ⟨fuel - 1, by omega⟩
    exact value_printStr D fuel (depth + 1) _ rest
  | bool b =>
    obtain ⟨fuel, rfl⟩ : ∃ k, fuel = k + 1 := ⟨fuel - 1, by omega⟩
    cases b <;> rfl
  | int z =>
    obtain ⟨fuel, rfl⟩ : ∃ k, fuel = k + 1 := ⟨fuel - 1, by omega⟩
    have hnum (neg : Bool) := dialect_number_decimal hD neg z.natAbs hrest
    by_cases hz : z < 0
    · simp only [Printable.print, if_pos hz, cons_append, nil_append, value,
        skipWs_cons (show isWs '-'.toNat = false by decide)]
      rw [if_neg (by decide), if_neg (by decide), if_neg (by decide)]
      simp [scalar, hnum, orMalformed, Printable.toJson, hz]
    · obtain ⟨c, cs, hc, hdig⟩ : ∃ c cs, decimal z.natAbs = c :: cs ∧ isDigit c = true := by
        by_cases h0 : z.natAbs = 0
        · exact ⟨48, [], by simp [decimal, h0], by decide⟩
        · obtain ⟨c, cs, hc, hdig, -⟩ := decimal_head h0
          exact ⟨c, cs, hc, hdig⟩
      have hrange : 48 ≤ c ∧ c ≤ 57 := by simpa [isDigit] using hdig
      have hws : isWs c = false := by simp [isWs]; omega
      simp only [Printable.print, if_neg hz, nil_append]
      rw [hc, cons_append] at hnum ⊢
      simp only [value, skipWs_cons hws, scalar, hnum]
      simp [Printable.toJson, hz, orMalformed, show c ≠ 34 by omega, show c ≠ 91 by omega,
        show c ≠ 123 by omega, show c ≠ 116 by omega, show c ≠ 102 by omega,
        show c ≠ 110 by omega, show c ≠ 45 by omega, show c ≠ 78 by omega, show c ≠ 73 by omega]

/-! ## Structs -/

theorem stops_cons (cs : List Nat)
    (h : isDigit c = false ∧ c ≠ '.'.toNat ∧ c ≠ 'e'.toNat ∧ c ≠ 'E'.toNat) : Stops (c :: cs) := by
  simpa [Stops] using h

def structJson (kvs : List (String × Printable)) : Json :=
  .obj (kvs.map fun kv => (codePoints kv.1, kv.2.toJson))

/-- The member at the front of a text, up to its value. -/
def MemberAt (D : Dialect) (fuel depth : Nat) (cs : List Nat) (kv : List Nat × Json)
    (tail : List Nat) : Prop :=
  ∃ body text, skipWs cs = '"'.toNat :: body ∧
    stringBody D.loneSurrogates body.length body = some (kv.1, ':'.toNat :: text) ∧
    value D fuel depth text = .ok (kv.2, tail)

section Members

variable {depth : Nat} {tail : List Nat} {kv : List Nat × Json}

theorem MemberAt.last (h : MemberAt D fuel depth cs kv tail)
    (hclose : skipWs tail = '}'.toNat :: rest) :
    members D (fuel + 1) depth cs = .ok ([kv], rest) := by
  obtain ⟨body, text, hquote, hkey, hval⟩ := h
  simp only [members, hquote, hkey, skipWs_cons (show isWs ':'.toNat = false by decide), hval,
    hclose, if_true]
  rfl

theorem MemberAt.next (h : MemberAt D fuel depth cs kv tail) {next : List Nat}
    (hcomma : skipWs tail = ','.toNat :: next) {kvs : List (List Nat × Json)}
    (hnext : members D fuel depth next = .ok (kvs, rest)) :
    members D (fuel + 1) depth cs = .ok (kv :: kvs, rest) := by
  obtain ⟨body, text, hquote, hkey, hval⟩ := h
  simp only [members, hquote, hkey, skipWs_cons (show isWs ':'.toNat = false by decide), hval,
    hcomma, hnext, if_true]

theorem memberAt_print (hD : D.digits = none) (depth : Nat) (kv : String × Printable)
    (htail : Stops tail) (hfuel : (printMember kv).length < fuel) :
    MemberAt D fuel (depth + 1) (printMember kv ++ tail) (codePoints kv.1, kv.2.toJson) tail := by
  have hval := value_print hD depth kv.2 htail
    (show kv.2.print.length < fuel by simp [printMember, printStr] at hfuel; omega)
  refine ⟨_, _, ?_, stringBody_quoted (fun c _ => readsBack_escapeChar _ c) _, hval⟩
  simp [printMember, printStr, skipWs, isWs]

theorem members_printed (hD : D.digits = none) (depth : Nat) (kvs : List (String × Printable))
    (hne : kvs ≠ []) (rest : List Nat)
    (hfuel : (commaClose '}'.toNat (kvs.map printMember)).length < fuel) :
    members D fuel (depth + 1) (commaClose '}'.toNat (kvs.map printMember) ++ rest) =
      .ok (kvs.map fun kv => (codePoints kv.1, kv.2.toJson), rest) := by
  induction kvs generalizing fuel with
  | nil => exact absurd rfl hne
  | cons kv kvs ih =>
    obtain ⟨fuel, rfl⟩ : ∃ k, fuel = k + 1 := ⟨fuel - 1, by omega⟩
    cases kvs with
    | nil =>
      simp only [map_cons, map_nil, commaClose, append_assoc, cons_append,
        nil_append, length_append, length_cons, length_nil] at hfuel ⊢
      exact (memberAt_print hD depth kv (stops_cons _ (by decide)) (by omega)).last
        (skipWs_cons (by decide) _)
    | cons kv' kvs =>
      have hpos : 0 < (printMember kv).length := by simp [printMember, printStr]
      simp only [map_cons, commaClose, append_assoc, cons_append,
        length_append, length_cons] at hfuel ih ⊢
      exact (memberAt_print hD depth kv (stops_cons _ (by decide)) (by omega)).next
        (skipWs_cons (by decide) _) (ih (by simp) (by omega))

end Members

/-- **Every dialect without a limit on integers reads a printed struct back** as the object of its
fields. -/
theorem parseJson_printStruct (D : Dialect) (hdigits : D.digits = none) (hD : 2 ≤ D.depth)
    (kvs : List (String × Printable)) :
    parseJson D (printStruct kvs) = .ok (structJson kvs) := by
  obtain ⟨depth, hdepth⟩ : ∃ k, D.depth = k + 2 := ⟨D.depth - 2, by omega⟩
  unfold parseJson
  have hfuel : 2 * (printStruct kvs).length + 2 = (2 * (printStruct kvs).length + 1) + 1 := rfl
  rw [hfuel, hdepth]
  suffices h : value D (2 * (printStruct kvs).length + 1 + 1) (depth + 2) (printStruct kvs) =
      .ok (structJson kvs, []) by
    rw [h]
    rfl
  simp only [printStruct, value.eq_2, skipWs_cons (show isWs '{'.toNat = false by decide)]
  rw [if_neg (by decide), if_neg (by decide), if_pos trivial]
  cases kvs with
  | nil => rfl
  | cons kv kvs =>
    have hhead : (skipWs (commaClose '}'.toNat ((kv :: kvs).map printMember))).head? =
        some '"'.toNat := by
      cases kvs <;> simp [commaClose, printMember, printStr, skipWs, isWs]
    have hmem := members_printed hdigits depth (kv :: kvs) (by simp) []
      (show (commaClose '}'.toNat ((kv :: kvs).map printMember)).length <
          2 * ('{'.toNat :: commaClose '}'.toNat ((kv :: kvs).map printMember)).length + 1 by
        rw [length_cons]; omega)
    rw [append_nil] at hmem
    rw [hhead, if_neg (by decide), hmem]
    rfl

/-! ## More liberal dialects -/

/-- `E` takes every text `D` takes. -/
structure Dialect.LE (D E : Dialect) : Prop where
  specials : D.specials = true → E.specials = true
  loneSurrogates : D.loneSurrogates = true → E.loneSurrogates = true
  takes : ∀ j, D.takes j = true → E.takes j = true

theorem unicodeEscape_mono (hlm : l = true → m = true) {r : Nat × List Nat}
    (h : unicodeEscape l cs = some r) : unicodeEscape m cs = some r := by
  cases l with
  | true => rwa [hlm rfl]
  | false =>
    unfold unicodeEscape at h ⊢
    cases hhex : hex4 cs with
    | none => simp [hhex] at h
    | some p =>
      obtain ⟨u, rest⟩ := p
      simp only [hhex, Bool.false_eq_true, if_false] at h ⊢
      by_cases hhi : 0xD800 ≤ u ∧ u < 0xDC00
      · simp only [if_pos hhi] at h ⊢
        cases hlow : lowEscape rest with
        | none => simp [hlow] at h
        | some v => simpa only [hlow] using h
      · simp only [if_neg hhi] at h ⊢
        by_cases hlo : 0xDC00 ≤ u ∧ u < 0xE000
        · simp [hlo] at h
        · simpa only [if_neg hlo] using h

theorem escape_mono (hlm : l = true → m = true) {r : Nat × List Nat} (h : escape l cs = some r) :
    escape m cs = some r := by
  unfold escape at h ⊢
  split at h
  · exact h
  · split at h
    · exact h
    · split_ifs at h ⊢ with hu
      exact unicodeEscape_mono hlm h

theorem stringBody_mono (hlm : l = true → m = true) {r : List Nat × List Nat}
    (h : stringBody l fuel cs = some r) :
    stringBody m fuel cs = some r := by
  induction fuel generalizing cs r with
  | zero => exact absurd h (by simp [stringBody])
  | succ fuel ih =>
    cases cs with
    | nil => exact absurd h (by simp [stringBody])
    | cons c cs =>
      unfold stringBody at h ⊢
      split_ifs at h ⊢ with hq hb hc
      · exact h
      · cases he : escape l cs with
        | none => simp [he] at h
        | some er =>
          simp only [he, escape_mono hlm he] at h ⊢
          obtain ⟨p, hp, rfl⟩ := Option.map_eq_some_iff.mp h
          rw [ih hp, Option.map_some]
      · obtain ⟨p, hp, rfl⟩ := Option.map_eq_some_iff.mp h
        rw [ih hp, Option.map_some]

theorem number_none_of_not_digit (h : isDigit c = false) (neg : Bool) (cs : List Nat) :
    number neg (c :: cs) = none := by
  have h0 : c ≠ '0'.toNat := by
    rintro rfl
    exact absurd h (by decide)
  simp only [number, if_neg h0, h, Bool.false_eq_true, if_false]

theorem dialect_number_none (h : isDigit c = false) (neg : Bool) (cs : List Nat) :
    D.number neg (c :: cs) = none := by
  rw [Dialect.number, number_none_of_not_digit h]
  rfl

theorem number_mono (hDE : D.LE E) {neg : Bool} (h : D.number neg cs = some r) :
    E.number neg cs = some r := by
  obtain ⟨hr, htakes⟩ := Option.filter_eq_some_iff.mp h
  exact Option.filter_eq_some_iff.mpr ⟨hr, hDE.takes r.1 htakes⟩

theorem number_none_of_infinity {j : Json} (h : keyword "-Infinity" j ('-'.toNat :: rest) = some r)
    : D.number true rest = none := by
  unfold keyword at h
  split_ifs at h with hword
  rw [show codePoints "-Infinity" = '-'.toNat :: codePoints "Infinity" by decide,
    isPrefixOf_cons_cons, Bool.and_eq_true] at hword
  obtain ⟨tail, rfl⟩ := isPrefixOf_iff_prefix.mp hword.2
  exact dialect_number_none (c := 'I'.toNat) (by decide) true _

theorem scalar_mono (hDE : D.LE E) (h : scalar D cs = some r) : scalar E cs = some r := by
  cases cs with
  | nil => cases h
  | cons c rest =>
    simp only [scalar] at h ⊢
    by_cases ht : c = 't'.toNat
    · rwa [if_pos ht] at h ⊢
    rw [if_neg ht] at h ⊢
    by_cases hf : c = 'f'.toNat
    · rwa [if_pos hf] at h ⊢
    rw [if_neg hf] at h ⊢
    by_cases hn : c = 'n'.toNat
    · rwa [if_pos hn] at h ⊢
    rw [if_neg hn] at h ⊢
    by_cases hminus : c = '-'.toNat
    · rw [if_pos hminus] at h ⊢
      cases hnum : D.number true rest with
      | some r' =>
        rw [hnum] at h
        rwa [number_mono hDE hnum]
      | none =>
        rw [hnum] at h
        simp only at h
        split_ifs at h with hs
        subst hminus
        rw [number_none_of_infinity h]
        simpa only [hDE.specials hs, if_true] using h
    rw [if_neg hminus] at h ⊢
    by_cases hs : D.specials = true
    · simp only [hs, hDE.specials hs, and_true] at h ⊢
      split_ifs at h ⊢
      · exact h
      · exact h
      · exact number_mono hDE h
    · rw [if_neg fun hN => hs hN.2, if_neg fun hI => hs hI.2] at h
      have hother : ∀ k, isDigit k = false → c ≠ k := by
        rintro k hk rfl
        rw [dialect_number_none hk] at h
        cases h
      rw [if_neg fun hN => hother _ (by decide) hN.1, if_neg fun hI => hother _ (by decide) hI.1]
      exact number_mono hDE h

theorem value_mono (hDE : D.LE E) (fuel : Nat) :
    (∀ {d d' cs r}, d ≤ d' → value D fuel d cs = .ok r → value E fuel d' cs = .ok r) ∧
    (∀ {d d' cs r}, d ≤ d' → elems D fuel d cs = .ok r → elems E fuel d' cs = .ok r) ∧
    (∀ {d d' cs r}, d ≤ d' → members D fuel d cs = .ok r → members E fuel d' cs = .ok r) := by
  induction fuel with
  | zero => simp [value, elems, members]
  | succ fuel ih =>
    obtain ⟨ihv, ihe, ihm⟩ := ih
    refine ⟨?_, ?_, ?_⟩
    · intro d d' cs r hd h
      unfold value at h ⊢
      cases hws : skipWs cs with
      | nil => simp [hws] at h
      | cons c rest =>
        simp only [hws] at h ⊢
        by_cases hq : c = '"'.toNat
        · simp only [if_pos hq] at h ⊢
          cases hs : stringBody D.loneSurrogates rest.length rest with
          | none => simp [hs] at h
          | some p => simpa only [hs, stringBody_mono hDE.loneSurrogates hs] using h
        · simp only [if_neg hq] at h ⊢
          by_cases ha : c = '['.toNat
          · simp only [if_pos ha] at h ⊢
            cases d with
            | zero => simp at h
            | succ d =>
              obtain ⟨d', rfl⟩ : ∃ k, d' = k + 1 := ⟨d' - 1, by omega⟩
              simp only at h ⊢
              split_ifs at h ⊢ with hclose
              · exact h
              · cases he : elems D fuel d rest with
                | error e => simp [he] at h
                | ok q => simpa only [he, ihe (Nat.le_of_succ_le_succ hd) he] using h
          · simp only [if_neg ha] at h ⊢
            by_cases ho : c = '{'.toNat
            · simp only [if_pos ho] at h ⊢
              cases d with
              | zero => simp at h
              | succ d =>
                obtain ⟨d', rfl⟩ : ∃ k, d' = k + 1 := ⟨d' - 1, by omega⟩
                simp only at h ⊢
                split_ifs at h ⊢ with hclose
                · exact h
                · cases hm : members D fuel d rest with
                  | error e => simp [hm] at h
                  | ok q => simpa only [hm, ihm (Nat.le_of_succ_le_succ hd) hm] using h
            · simp only [if_neg ho] at h ⊢
              cases hsc : scalar D (c :: rest) with
              | none => simp [hsc, orMalformed] at h
              | some r' => simpa only [hsc, scalar_mono hDE hsc] using h
    · intro d d' cs r hd h
      unfold elems at h ⊢
      cases hv : value D fuel d cs with
      | error e => simp [hv] at h
      | ok p =>
        obtain ⟨x, r1⟩ := p
        simp only [hv, ihv hd hv] at h ⊢
        cases hws : skipWs r1 with
        | nil => simp [hws] at h
        | cons c r2 =>
          simp only [hws] at h ⊢
          split_ifs at h ⊢ with hcomma hclose
          · cases he : elems D fuel d r2 with
            | error e => simp [he] at h
            | ok q => simpa only [he, ihe hd he] using h
          · exact h
    · intro d d' cs r hd h
      unfold members at h ⊢
      cases hq : skipWs cs with
      | nil => simp [hq] at h
      | cons q r0 =>
        simp only [hq] at h ⊢
        split_ifs at h ⊢ with hquote
        cases hs : stringBody D.loneSurrogates r0.length r0 with
        | none => simp [hs] at h
        | some p =>
          obtain ⟨k, r1⟩ := p
          simp only [hs, stringBody_mono hDE.loneSurrogates hs] at h ⊢
          cases hc : skipWs r1 with
          | nil => simp [hc] at h
          | cons c r2 =>
            simp only [hc] at h ⊢
            split_ifs at h ⊢ with hcolon
            cases hv : value D fuel d r2 with
            | error e => simp [hv] at h
            | ok p =>
              obtain ⟨v, r3⟩ := p
              simp only [hv, ihv hd hv] at h ⊢
              cases hws : skipWs r3 with
              | nil => simp [hws] at h
              | cons c' r4 =>
                simp only [hws] at h ⊢
                split_ifs at h ⊢ with hcomma hclose
                · cases hm : members D fuel d r4 with
                  | error e => simp [hm] at h
                  | ok q => simpa only [hm, ihm hd hm] using h
                · exact h

/-- **A text one dialect reads is read as the same tree by every more liberal one.** -/
theorem parseJson_mono (hDE : D.LE E) (hdepth : D.depth ≤ E.depth) {j : Json}
    (h : parseJson D cs = .ok j) : parseJson E cs = .ok j := by
  unfold parseJson at h ⊢
  cases hv : value D (2 * cs.length + 2) D.depth cs with
  | error e => simp [hv] at h
  | ok p =>
    obtain ⟨j', rest⟩ := p
    simpa only [hv, (value_mono hDE _).1 hdepth hv] using h

theorem serdeJson_le_pythonJson (depth : Nat) : serdeJson.LE (pythonJson depth) :=
  ⟨by simp [serdeJson], by simp [serdeJson], fun j _ => by cases j <;> rfl⟩

end ManagedDirectory.Codec
