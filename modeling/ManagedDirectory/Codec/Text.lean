import ManagedDirectory.Codec.Base64

/-!
# Texts of fields

Dot-separated fields (`splitDots` is `str::split('.')` collected) and lowercase hex.
-/

namespace ManagedDirectory.Codec

/-- The length of a string in bytes, Rust's `str::len`. -/
def byteLen (s : String) : Nat := (utf8 s).length

def splitDots (s : String) : List String := (s.toList.splitOn '.').map String.ofList

theorem splitDots_append_dot {a b : String} (h : ∀ c ∈ a.toList, c ≠ '.') :
    splitDots (a ++ ("." ++ b)) = a :: splitDots b := by
  have hdot : "." = String.ofList ['.'] := rfl
  simp only [splitDots, String.toList_append, hdot, String.toList_ofList,
    List.singleton_append, List.splitOn]
  rw [List.splitOnP_append_cons_of_forall_mem (by simpa using h) '.' (by simp), List.map_cons,
    String.ofList_toList]

theorem splitDots_of_no_dot {a : String} (h : ∀ c ∈ a.toList, c ≠ '.') : splitDots a = [a] := by
  have : a.toList.splitOnP (· == '.') = [a.toList] := List.splitOnP_eq_singleton (by simpa using h)
  simp only [splitDots, List.splitOn, this, List.map_cons, List.map_nil, String.ofList_toList]

theorem b64_no_dot (bs : Bytes) : ∀ c ∈ (b64 bs).toList, c ≠ '.' := by
  simpa only [b64, String.toList_ofList] using b64Chars_ne_dot

def hexChar (n : Nat) : Char := if n < 10 then Char.ofNat (48 + n) else Char.ofNat (87 + n)

def hex (bs : Bytes) : String :=
  String.ofList (bs.flatMap fun b => [hexChar (b.toNat / 16), hexChar (b.toNat % 16)])

end ManagedDirectory.Codec
