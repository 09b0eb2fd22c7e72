import ManagedDirectory.Codec.PyFloat

/-!
# Addresses

`ipAddress` is `ipaddress.ip_address` and `Cidr.contains` PostgreSQL's `cidr >>= inet`.
`mostSpecific` is the entry with the longest mask among those that contain an address.
-/

namespace ManagedDirectory.Sealed

open Codec

structure Address where
  v6 : Bool
  value : Nat
  zoned : Bool
  deriving DecidableEq, Repr

def Address.width (a : Address) : Nat := if a.v6 then 128 else 32

/-! ## Reading -/

def parseOctet (cs : Text) : Option Nat :=
  if cs = [] ∨ 3 < cs.length ∨ cs.all isDigit = false then none
  else if 1 < cs.length ∧ cs.head? = some '0'.toNat then none
  else if 255 < digitsVal cs then none
  else some (digitsVal cs)

def parseV4 (text : Text) : Option Nat :=
  match text.splitOn '.'.toNat with
  | [a, b, c, d] => do
    pure (((← parseOctet a) * 256 + (← parseOctet b)) * 65536 + (← parseOctet c) * 256 +
      (← parseOctet d))
  | _ => none

def parseHextet (cs : Text) : Option Nat :=
  if cs = [] ∨ 4 < cs.length then none
  else cs.foldlM (fun n c => (n * 16 + ·) <$> hexVal c) 0

def joinHextets (hextets : List Nat) : Nat := hextets.foldl (fun n h => n * 65536 + h) 0

/-- The parts between the colons, an IPv4 address at the end as two of them. -/
def hextetParts (text : Text) : Option (List (Option Nat)) := do
  let parts := text.splitOn ':'.toNat
  if parts.length < 3 then none
  else
    let read (cs : Text) : Option (Option Nat) := if cs = [] then some none else some <$> parseHextet cs
    let first ← parts.dropLast.mapM read
    let last := parts.getLast?.getD []
    if last.contains '.'.toNat then
      let v4 ← parseV4 last
      pure (first ++ [some (v4 / 65536), some (v4 % 65536)])
    else
      pure (first ++ [← read last])

/-- `::` stands for at least one group of zeros, and only once. -/
def parseV6 (text : Text) : Option Nat := do
  let parts ← hextetParts text
  if 9 < parts.length then none
  else
    match parts.findIdxs (·.isNone) with
    | [] => if parts.length = 8 then joinHextets <$> parts.mapM id else none
    | gaps =>
      -- an empty part at either end belongs to a gap next to it
      let inner := gaps.filter fun i => 0 < i ∧ i + 1 < parts.length
      match inner with
      | [gap] =>
        let high := parts.take gap
        let low := parts.drop (gap + 1)
        let high := if high = [none] then [] else high
        let low := if low = [none] then [] else low
        let high ← high.mapM id
        let low ← low.mapM id
        if high.length + low.length < 8 then
          pure (joinHextets (high ++ List.replicate (8 - high.length - low.length) 0 ++ low))
        else none
      | _ => none

/-- `ipaddress.ip_address(text)`; a `ValueError` is `none`. -/
def ipAddress (text : Text) : Option Address :=
  match parseV4 text with
  | some n => some ⟨false, n, false⟩
  | none =>
    let address := text.takeWhile (· ≠ '%'.toNat)
    let scope := (text.dropWhile (· ≠ '%'.toNat)).drop 1
    let zoned := text.contains '%'.toNat
    if zoned ∧ (scope = [] ∨ scope.contains '%'.toNat) then none
    else (parseV6 address).map fun n => ⟨true, n, zoned⟩

example : ipAddress (codePoints "10.0.0.1") = some ⟨false, 0x0A000001, false⟩ := by decide

example : ipAddress (codePoints "2001:db8::1.2.3.4") =
    some ⟨true, 0x20010db8000000000000000001020304, false⟩ := by decide

/-! ## Networks -/

structure Cidr where
  v6 : Bool
  network : Nat
  masklen : Nat
  deriving DecidableEq, Repr

def Cidr.contains (n : Cidr) (a : Address) : Bool :=
  n.v6 == a.v6 && n.masklen ≤ a.width &&
    n.network / 2 ^ (a.width - n.masklen) == a.value / 2 ^ (a.width - n.masklen)

def Address.single (a : Address) : Cidr := ⟨a.v6, a.value, a.width⟩

variable {α : Type} (cidr : α → Cidr)

/-- `WHERE cidr >>= address ORDER BY masklen(cidr) DESC LIMIT 1`. -/
def mostSpecific (entries : List α) (a : Address) : Option α :=
  (entries.filter fun e => (cidr e).contains a).argmax fun e => (cidr e).masklen

/-- The entry contains the address, and no entry that does has a longer mask. -/
structure MostSpecific (entries : List α) (a : Address) (e : α) : Prop where
  mem : e ∈ entries
  contains : (cidr e).contains a = true
  longest : ∀ e' ∈ entries, (cidr e').contains a = true → (cidr e').masklen ≤ (cidr e).masklen

variable {cidr} {entries : List α} {a : Address} {e : α}

theorem mostSpecific_spec (h : mostSpecific cidr entries a = some e) :
    MostSpecific cidr entries a e := by
  obtain ⟨hmem, hcontains⟩ := List.mem_filter.mp (List.argmax_mem h)
  refine ⟨hmem, hcontains, fun e' hmem' hcontains' => ?_⟩
  exact List.le_of_mem_argmax (f := fun e => (cidr e).masklen)
    (List.mem_filter.mpr ⟨hmem', hcontains'⟩) h

theorem mostSpecific_eq_none (h : mostSpecific cidr entries a = none) :
    ∀ e ∈ entries, (cidr e).contains a = false := by
  intro e hmem
  by_contra hcontains
  have hempty := List.argmax_eq_none.mp h
  have hin : e ∈ entries.filter fun e => (cidr e).contains a :=
    List.mem_filter.mpr ⟨hmem, by simpa using hcontains⟩
  rw [hempty] at hin
  cases hin

end ManagedDirectory.Sealed
