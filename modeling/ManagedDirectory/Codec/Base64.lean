import ManagedDirectory.Codec.Utf8

/-!
# URL-safe base64

`b64` is RFC 4648 base64url without padding. Two decoders read it:

* `unb64`, the strict one (no padding, no foreign character, zero trailing bits): it accepts
  exactly the texts `b64` produces (`unb64_eq_some_iff`);
* `a2bBase64`, CPython's `binascii.a2b_base64` in its default mode, which skips foreign
  characters, ignores trailing bits and stops at a complete pad. `urlsafeB64Decode` is
  `base64.urlsafe_b64decode`, and `pyUnb64` the usual call that pads the text first. It
  inverts `b64` too (`pyUnb64_b64`).

Both directions go through the six-bit values of the text (`sextets`).
-/

namespace ManagedDirectory.Codec

open List

/-! ## The alphabet -/

def digitChar (v : Nat) : Char :=
  if v < 26 then Char.ofNat (65 + v)
  else if v < 52 then Char.ofNat (97 + (v - 26))
  else if v < 62 then Char.ofNat (48 + (v - 52))
  else if v = 62 then '-'
  else '_'

def digitValue (c : Char) : Option Nat :=
  let n := c.toNat
  if 65 ≤ n ∧ n ≤ 90 then some (n - 65)
  else if 97 ≤ n ∧ n ≤ 122 then some (n - 97 + 26)
  else if 48 ≤ n ∧ n ≤ 57 then some (n - 48 + 52)
  else if n = 45 then some 62
  else if n = 95 then some 63
  else none

variable {bs : Bytes} {vs : List Nat} {v : Nat}

theorem digitValue_digitChar (h : v < 64) : digitValue (digitChar v) = some v := by
  revert v
  decide

theorem digitValue_lt {c : Char} (h : digitValue c = some v) : v < 64 := by
  simp only [digitValue] at h
  split at h
  · cases h; omega
  split at h
  · cases h; omega
  split at h
  · cases h; omega
  split at h
  · cases h; omega
  split at h
  · cases h; omega
  · cases h

theorem digitChar_of_digitValue {c : Char} (h : digitValue c = some v) :
    digitChar v = c := by
  have hc : c.toNat < 128 := by
    simp only [digitValue] at h
    by_contra hge
    rw [if_neg (by omega), if_neg (by omega), if_neg (by omega), if_neg (by omega),
      if_neg (by omega)] at h
    cases h
  have key : ∀ n, n < 128 → ∀ w, w < 64 → digitValue (Char.ofNat n) = some w →
      digitChar w = Char.ofNat n := by decide +kernel
  have := key c.toNat hc v (digitValue_lt h) (by rwa [Char.ofNat_toNat])
  rwa [Char.ofNat_toNat] at this

theorem digitChar_ne_dot (h : v < 64) : digitChar v ≠ '.' := by
  revert v
  decide

theorem digitChar_lt_128 (h : v < 64) : (digitChar v).toNat < 128 := by
  revert v
  decide

/-! ## Six-bit values -/

/-- The six-bit values of a byte string, three bytes to four values. -/
def sextets : Bytes → List Nat
  | a :: b :: c :: rest =>
    a.toNat / 4 :: (a.toNat % 4 * 16 + b.toNat / 16) :: (b.toNat % 16 * 4 + c.toNat / 64) ::
      c.toNat % 64 :: sextets rest
  | [a, b] => [a.toNat / 4, a.toNat % 4 * 16 + b.toNat / 16, b.toNat % 16 * 4]
  | [a] => [a.toNat / 4, a.toNat % 4 * 16]
  | [] => []

/-- Strict inverse of `sextets`: a lone value or non-zero trailing bits are refused. -/
def unsextets : List Nat → Option Bytes
  | a :: b :: c :: d :: rest =>
    ([UInt8.ofNat (a * 4 + b / 16), UInt8.ofNat (b % 16 * 16 + c / 4),
      UInt8.ofNat (c % 4 * 64 + d)] ++ ·) <$> unsextets rest
  | [a, b, c] =>
    if c % 4 = 0 then some [UInt8.ofNat (a * 4 + b / 16), UInt8.ofNat (b % 16 * 16 + c / 4)]
    else none
  | [a, b] => if b % 16 = 0 then some [UInt8.ofNat (a * 4 + b / 16)] else none
  | [_] => none
  | [] => some []

theorem uint8_eq_ofNat {a : UInt8} {n : Nat} (h : n = a.toNat) : UInt8.ofNat n = a := by
  subst h; exact UInt8.ofNat_toNat

theorem sextets_lt (bs : Bytes) : ∀ v ∈ sextets bs, v < 64 := by
  induction bs using sextets.induct with
  | case1 a b c rest ih =>
    have := a.toNat_lt; have := b.toNat_lt; have := c.toNat_lt
    intro v hv
    simp only [sextets, mem_cons] at hv
    rcases hv with rfl | rfl | rfl | rfl | hv
    · omega
    · omega
    · omega
    · omega
    · exact ih v hv
  | case2 a b =>
    have := a.toNat_lt; have := b.toNat_lt
    intro v hv
    simp only [sextets, mem_cons, not_mem_nil, or_false] at hv
    omega
  | case3 a =>
    have := a.toNat_lt
    intro v hv
    simp only [sextets, mem_cons, not_mem_nil, or_false] at hv
    omega
  | case4 => intro v hv; cases hv

theorem unsextets_sextets (bs : Bytes) : unsextets (sextets bs) = some bs := by
  induction bs using sextets.induct with
  | case1 a b c rest ih =>
    have := a.toNat_lt; have := b.toNat_lt; have := c.toNat_lt
    simp only [sextets, unsextets, ih, Option.map_eq_map, Option.map_some, cons_append,
      nil_append]
    rw [uint8_eq_ofNat (a := a) (by omega), uint8_eq_ofNat (a := b) (by omega),
      uint8_eq_ofNat (a := c) (by omega)]
  | case2 a b =>
    have := a.toNat_lt; have := b.toNat_lt
    simp only [sextets, unsextets]
    rw [if_pos (by omega), uint8_eq_ofNat (a := a) (by omega),
      uint8_eq_ofNat (a := b) (by omega)]
  | case3 a =>
    have := a.toNat_lt
    simp only [sextets, unsextets]
    rw [if_pos (by omega), uint8_eq_ofNat (a := a) (by omega)]
  | case4 => rfl

theorem sextets_of_unsextets (hv : ∀ v ∈ vs, v < 64) (h : unsextets vs = some bs) :
    sextets bs = vs := by
  induction vs using unsextets.induct generalizing bs with
  | case1 a b c d rest ih =>
    have ha := hv a (by simp); have hb := hv b (by simp)
    have hc := hv c (by simp); have hd := hv d (by simp)
    simp only [unsextets] at h
    obtain ⟨tl, htl, rfl⟩ := Option.map_eq_some_iff.mp h
    have := ih (fun v hv' => hv v (by simp [hv'])) htl
    simp only [cons_append, nil_append, sextets, this]
    rw [toNat_ofNat_lt (n := a * 4 + b / 16) (by omega),
      toNat_ofNat_lt (n := b % 16 * 16 + c / 4) (by omega),
      toNat_ofNat_lt (n := c % 4 * 64 + d) (by omega)]
    simp only [List.cons.injEq, and_true]
    omega
  | case2 a b c hz =>
    have ha := hv a (by simp); have hb := hv b (by simp); have hc := hv c (by simp)
    simp only [unsextets, hz, ↓reduceIte, Option.some.injEq] at h
    subst h
    simp only [sextets]
    rw [toNat_ofNat_lt (n := a * 4 + b / 16) (by omega),
      toNat_ofNat_lt (n := b % 16 * 16 + c / 4) (by omega)]
    simp only [List.cons.injEq, and_true]
    omega
  | case3 a b c hz => simp [unsextets, hz] at h
  | case4 a b hz =>
    have ha := hv a (by simp); have hb := hv b (by simp)
    simp only [unsextets, hz, ↓reduceIte, Option.some.injEq] at h
    subst h
    simp only [sextets]
    rw [toNat_ofNat_lt (n := a * 4 + b / 16) (by omega)]
    simp only [List.cons.injEq, and_true]
    omega
  | case5 a b hz => simp [unsextets, hz] at h
  | case6 a => simp [unsextets] at h
  | case7 => simp only [unsextets, Option.some.injEq] at h; subst h; rfl

/-! ## Encoding and strict decoding -/

def b64Chars (bs : Bytes) : List Char := (sextets bs).map digitChar

def b64 (bs : Bytes) : String := String.ofList (b64Chars bs)

def unb64 (text : String) : Option Bytes := text.toList.mapM digitValue >>= unsextets

theorem mapM_digitValue_map (h : ∀ v ∈ vs, v < 64) :
    (vs.map digitChar).mapM digitValue = some vs := by
  induction vs with
  | nil => rfl
  | cons v vs ih =>
    have hv := h v (mem_cons_self ..)
    have ih' := ih fun w hw => h w (mem_cons_of_mem _ hw)
    simp [mapM_cons, digitValue_digitChar hv, ih']

theorem map_of_mapM_digitValue {cs : List Char} (h : cs.mapM digitValue = some vs) :
    vs.map digitChar = cs ∧ ∀ v ∈ vs, v < 64 := by
  induction cs generalizing vs with
  | nil =>
    simp only [mapM_nil, Option.pure_def, Option.some.injEq] at h
    subst h
    exact ⟨rfl, fun v hv => by cases hv⟩
  | cons c cs ih =>
    simp only [mapM_cons, Option.bind_eq_bind, Option.bind_eq_some_iff, Option.pure_def,
      Option.some.injEq] at h
    obtain ⟨v, hv, ws, hws, rfl⟩ := h
    obtain ⟨h1, h2⟩ := ih hws
    refine ⟨by simp [digitChar_of_digitValue hv, h1], fun w hw => ?_⟩
    rcases mem_cons.mp hw with rfl | hw
    · exact digitValue_lt hv
    · exact h2 w hw

@[simp] theorem unb64_b64 (bs : Bytes) : unb64 (b64 bs) = some bs := by
  simp only [unb64, b64, b64Chars, String.toList_ofList]
  rw [mapM_digitValue_map (sextets_lt bs)]
  exact unsextets_sextets bs

theorem b64_of_unb64 {text : String} (h : unb64 text = some bs) : b64 bs = text := by
  simp only [unb64, Option.bind_eq_bind, Option.bind_eq_some_iff] at h
  obtain ⟨vs, hvs, hbs⟩ := h
  obtain ⟨h1, h2⟩ := map_of_mapM_digitValue hvs
  rw [b64, b64Chars, sextets_of_unsextets h2 hbs, h1, String.ofList_toList]

/-- **The strict decoder accepts exactly what the encoder produces.** -/
theorem unb64_eq_some_iff {text : String} : unb64 text = some bs ↔ text = b64 bs :=
  ⟨fun h => (b64_of_unb64 h).symm, fun h => h ▸ unb64_b64 bs⟩

theorem b64_inj {as : Bytes} (h : b64 as = b64 bs) : as = bs := by
  have := unb64_b64 as
  rw [h, unb64_b64] at this
  exact (Option.some.inj this).symm

theorem b64Chars_ne_dot : ∀ c ∈ b64Chars bs, c ≠ '.' := by
  intro c hc
  obtain ⟨v, hv, rfl⟩ := mem_map.mp hc
  exact digitChar_ne_dot (sextets_lt bs v hv)

theorem b64Chars_ascii : ∀ c ∈ b64Chars bs, c.toNat < 128 := by
  intro c hc
  obtain ⟨v, hv, rfl⟩ := mem_map.mp hc
  exact digitChar_lt_128 (sextets_lt bs v hv)

theorem length_sextets (bs : Bytes) : (sextets bs).length = (4 * bs.length + 2) / 3 := by
  induction bs using sextets.induct with
  | case1 a b c rest ih => simp only [sextets, length_cons, ih]; omega
  | case2 a b => simp [sextets]
  | case3 a => simp [sextets]
  | case4 => rfl

theorem length_b64Chars (bs : Bytes) : (b64Chars bs).length = (4 * bs.length + 2) / 3 := by
  rw [b64Chars, length_map, length_sextets]

/-! ## CPython's decoder -/

/-- `table_a2b_base64` after the URL-safe translation: `-` and `+` are 62, `_` and `/` are 63. -/
def pyDigitValue (c : Char) : Option Nat :=
  match digitValue c with
  | some v => some v
  | none => if c = '+' then some 62 else if c = '/' then some 63 else none

/-- `binascii.a2b_base64(..., strict_mode=False)`: `quad` characters of the current group
are read, `left` holds their unused bits, `pads` counts the pads seen since. -/
def a2bBase64 : (quad left pads : Nat) → List Char → Option Bytes
  | quad, _, _, [] => if quad = 0 then some [] else none
  | quad, left, pads, c :: cs =>
    if c = '=' then
      if 2 ≤ quad then
        -- a complete pad ends the input; what follows is not read
        if 4 ≤ quad + (pads + 1) then some [] else a2bBase64 quad left (pads + 1) cs
      else a2bBase64 quad left pads cs
    else
      match pyDigitValue c with
      | none => a2bBase64 quad left pads cs
      | some v =>
        match quad with
        | 0 => a2bBase64 1 v 0 cs
        | 1 => (UInt8.ofNat (left * 4 + v / 16) :: ·) <$> a2bBase64 2 (v % 16) 0 cs
        | 2 => (UInt8.ofNat (left * 16 + v / 4) :: ·) <$> a2bBase64 3 (v % 4) 0 cs
        | _ => (UInt8.ofNat (left * 64 + v) :: ·) <$> a2bBase64 0 0 0 cs

/-- `base64.urlsafe_b64decode`; text outside ASCII is a `ValueError`. -/
def urlsafeB64Decode (cs : List Char) : Option Bytes :=
  if cs.all fun c => c.toNat < 128 then a2bBase64 0 0 0 cs else none

/-- `base64.urlsafe_b64decode(text + "=" * (-len(text) % 4))`. -/
def pyUnb64 (text : String) : Option Bytes :=
  urlsafeB64Decode (text.toList ++ List.replicate ((4 - text.toList.length % 4) % 4) '=')

theorem pyDigitValue_digitChar (h : v < 64) : pyDigitValue (digitChar v) = some v := by
  rw [pyDigitValue, digitValue_digitChar h]

theorem digitChar_ne_pad (h : v < 64) : digitChar v ≠ '=' := by
  revert v
  decide

theorem a2bBase64_sextets (bs : Bytes) :
    a2bBase64 0 0 0 ((sextets bs).map digitChar ++
      List.replicate ((4 - (sextets bs).length % 4) % 4) '=') = some bs := by
  induction bs using sextets.induct with
  | case1 a b c rest ih =>
    have := a.toNat_lt; have := b.toNat_lt; have := c.toNat_lt
    have h1 : a.toNat / 4 < 64 := by omega
    have h2 : a.toNat % 4 * 16 + b.toNat / 16 < 64 := by omega
    have h3 : b.toNat % 16 * 4 + c.toNat / 64 < 64 := by omega
    have h4 : c.toNat % 64 < 64 := by omega
    have hlen : (4 - (sextets (a :: b :: c :: rest)).length % 4) % 4 =
        (4 - (sextets rest).length % 4) % 4 := by
      simp only [sextets, length_cons]; omega
    rw [hlen]
    simp only [sextets, map_cons, cons_append, a2bBase64, digitChar_ne_pad h1,
      digitChar_ne_pad h2, digitChar_ne_pad h3, digitChar_ne_pad h4, pyDigitValue_digitChar h1,
      pyDigitValue_digitChar h2, pyDigitValue_digitChar h3, pyDigitValue_digitChar h4,
      ↓reduceIte, ih, Option.map_eq_map, Option.map_some]
    rw [uint8_eq_ofNat (a := a) (by omega), uint8_eq_ofNat (a := b) (by omega),
      uint8_eq_ofNat (a := c) (by omega)]
  | case2 a b =>
    have := a.toNat_lt; have := b.toNat_lt
    have h1 : a.toNat / 4 < 64 := by omega
    have h2 : a.toNat % 4 * 16 + b.toNat / 16 < 64 := by omega
    have h3 : b.toNat % 16 * 4 < 64 := by omega
    have hlen : (4 - (sextets [a, b]).length % 4) % 4 = 1 := by simp [sextets]
    rw [hlen]
    simp only [sextets, map_cons, map_nil, cons_append, nil_append,
      List.replicate, a2bBase64, digitChar_ne_pad h1, digitChar_ne_pad h2, digitChar_ne_pad h3,
      pyDigitValue_digitChar h1, pyDigitValue_digitChar h2, pyDigitValue_digitChar h3,
      ↓reduceIte, Option.map_eq_map, Nat.reduceLeDiff, Nat.reduceAdd, Option.map_some]
    rw [uint8_eq_ofNat (a := a) (by omega), uint8_eq_ofNat (a := b) (by omega)]
  | case3 a =>
    have := a.toNat_lt
    have h1 : a.toNat / 4 < 64 := by omega
    have h2 : a.toNat % 4 * 16 < 64 := by omega
    have hlen : (4 - (sextets [a]).length % 4) % 4 = 2 := by simp [sextets]
    rw [hlen]
    simp only [sextets, map_cons, map_nil, cons_append, nil_append,
      List.replicate, a2bBase64, digitChar_ne_pad h1, digitChar_ne_pad h2,
      pyDigitValue_digitChar h1, pyDigitValue_digitChar h2, ↓reduceIte, Option.map_eq_map,
      Nat.reduceLeDiff, Nat.reduceAdd, Option.map_some, Nat.le_refl]
    rw [uint8_eq_ofNat (a := a) (by omega)]
  | case4 => rfl

/-- **Python reads what Rust writes.** -/
@[simp] theorem pyUnb64_b64 (bs : Bytes) : pyUnb64 (b64 bs) = some bs := by
  rw [pyUnb64, urlsafeB64Decode, if_pos]
  · simp only [b64, String.toList_ofList, b64Chars, length_map]
    exact a2bBase64_sextets bs
  · rw [all_eq_true]
    intro c hc
    rcases mem_append.mp hc with hc | hc
    · exact decide_eq_true (b64Chars_ascii c (by simpa [b64] using hc))
    · rw [(mem_replicate.mp hc).2]; decide

end ManagedDirectory.Codec
