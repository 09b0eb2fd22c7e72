import ManagedDirectory.Codec.FlatObject
import ManagedDirectory.Lib.HashChain
import ManagedDirectory.Signer.State

/-!
# The issuance log

Each line of the log file is a JSON object with the head it continues in `prev` and its own hash
in `hash`. `IssuanceLog.open` reads the file again at start and checks the whole chain;
`IssuanceLog.append` writes the next line, whose number wraps like a `u64`.

`open_eq_head` reads a successful `open` as the hash chain of its entries, and
`head_commits_to_entries` says that the head determines every entry. `open_writeLog` says that
the log the signer writes opens again.
-/

namespace ManagedDirectory.CaSigner

open Codec Lib List

variable {C : Crypto} {T : FloatText}

structure IssuanceLog where
  seq : Nat
  head : String
  deriving DecidableEq

def IssuanceLog.empty : IssuanceLog := ⟨0, "genesis"⟩

/-- What `entry_hash` hashes. -/
def hashedMessage (prev : String) (line : List Nat) : Bytes := utf8 prev ++ 10 :: utf8Encode line

def entryHash (C : Crypto) (prev : String) (line : List Nat) : String :=
  hex (C.sha256 (hashedMessage prev line))

/-! ## Reading -/

/-- `str::lines`: `cur` is the line read so far, reversed. A carriage return before the line feed
is dropped, and an empty line after the last line feed. -/
def linesFrom (cur : List Nat) : List Nat → List (List Nat)
  | [] => if cur = [] then [] else [cur.reverse]
  | c :: cs =>
    if c = '\n'.toNat then
      (if cur.head? = some '\r'.toNat then cur.tail else cur).reverse :: linesFrom [] cs
    else linesFrom (c :: cur) cs

def lines (text : List Nat) : List (List Nat) := linesFrom [] text

/-- One line of the log, number `n` from zero. -/
def openLine (C : Crypto) (T : FloatText) (n : Nat) (log : IssuanceLog) (line : List Nat) :
    Except String IssuanceLog :=
  match Value.fromStr T line with
  | none => .error ("log line " ++ toString (n + 1) ++ " unreadable")
  | some value =>
    let stated := ((value.get "hash").bind Value.asStr).getD ""
    if (value.get "prev").bind Value.asStr ≠ some log.head then
      .error ("log chain broken at line " ++ toString (n + 1) ++ " (prev)")
    else
      let value := value.remove "hash"
      if entryHash C log.head (value.print T) ≠ stated then
        .error ("log chain broken at line " ++ toString (n + 1) ++ " (hash)")
      else .ok ⟨((value.get "seq").bind Value.asU64).getD 0, stated⟩

def openLines (C : Crypto) (T : FloatText) : Nat → IssuanceLog → List (List Nat) →
    Except String IssuanceLog
  | _, log, [] => .ok log
  | n, log, line :: rest =>
    match openLine C T n log line with
    | .ok log' => openLines C T (n + 1) log' rest
    | .error e => .error e

/-- `IssuanceLog::open`. A file that is missing or not UTF-8 counts as an empty log. -/
def IssuanceLog.open (C : Crypto) (T : FloatText) (file : Option Bytes) :
    Except String IssuanceLog :=
  match file.bind (utf8Decode false) with
  | none => .ok .empty
  | some text => openLines C T 0 .empty (lines text)

def parsedEntries (T : FloatText) (text : List Nat) : Option (List (Value T.F)) :=
  (lines text).mapM fun line => (Value.fromStr T line).map (Value.remove "hash")

/-! ## A log that opens is a hash chain -/

def linkEntry (C : Crypto) (T : FloatText) (prev : String) (entry : Value T.F) : String :=
  entryHash C prev (entry.print T)

variable {log : IssuanceLog} {body text : List Nat}

theorem openLine_ok {n : Nat} {log' : IssuanceLog} {line : List Nat}
    (h : openLine C T n log line = .ok log') :
    ∃ value, Value.fromStr T line = some value ∧
      log'.head = linkEntry C T log.head (value.remove "hash") := by
  unfold openLine at h
  cases hv : Value.fromStr T line with
  | none => simp [hv] at h
  | some value =>
    simp only [hv] at h
    split at h
    · cases h
    · split at h
      · cases h
      · rename_i hhash
        obtain rfl := Except.ok.inj h
        exact ⟨value, rfl, (not_not.mp hhash).symm⟩

theorem openLines_ok {ls : List (List Nat)} {n : Nat} {log' : IssuanceLog}
    (h : openLines C T n log ls = .ok log') :
    ∃ es, ls.mapM (fun line => (Value.fromStr T line).map (Value.remove "hash")) = some es ∧
      log'.head = HashChain.head (linkEntry C T) log.head es := by
  induction ls generalizing n log with
  | nil =>
    obtain rfl := Except.ok.inj h
    exact ⟨[], rfl, rfl⟩
  | cons line ls ih =>
    simp only [openLines] at h
    split at h
    · rename_i log₁ hline
      obtain ⟨value, hvalue, hhead⟩ := openLine_ok hline
      obtain ⟨es, hes, hlog'⟩ := ih h
      refine ⟨value.remove "hash" :: es, ?_, ?_⟩
      · simp [mapM_cons, hvalue, hes]
      · rw [hlog', hhead]
        rfl
    · cases h

/-- **A successful `open` folds the hash over the parsed entries.** -/
theorem open_eq_head {file : Bytes} (htext : utf8Decode false file = some text)
    (h : IssuanceLog.open C T (some file) = .ok log) :
    ∃ es, parsedEntries T text = some es ∧
      log.head = HashChain.head (linkEntry C T) "genesis" es := by
  simp only [IssuanceLog.open, Option.bind_some, htext] at h
  exact openLines_ok h

/-! ## Writing -/

/-- The fields of an entry as `json!` lists them. -/
def LogEntry.fields : LogEntry → List (String × Printable)
  | .start issuingKid issuingExp =>
    [("kind", .str "start"), ("version", .str "0.1.0"), ("issuing_kid", .str issuingKid),
      ("issuing_exp", .int issuingExp.toInt)]
  | .issuingKey kid replaces exp =>
    [("kind", .str "issuing_key"), ("kid", .str kid), ("replaces", .str replaces),
      ("exp", .int exp.toInt)]
  | .issued kind rid did serial exp idkFp prot ikid approver =>
    [("kind", .str kind), ("rid", .str rid), ("did", .str did), ("serial", .str serial),
      ("exp", .int exp.toInt), ("idk_fp", .str idkFp), ("prot", .str prot), ("ikid", .str ikid),
      ("approver", .str approver)]
  | .revoke rid did reason =>
    [("kind", .str "revoke"), ("rid", .str rid), ("did", .str did), ("reason", .str reason)]
  | .refused job jobKind error =>
    [("kind", .str "refused"), ("job", .int job.toInt), ("job_kind", .str jobKind),
      ("error", .str error)]

/-- `self.seq + 1`, a `u64` of the release build. -/
def IssuanceLog.next (log : IssuanceLog) : Nat := (log.seq + 1) % 2 ^ 64

def lineFields (log : IssuanceLog) (now : Int64) (entry : LogEntry) : List (String × Printable) :=
  let m := entry.fields.foldl (fun m kv => insertKey kv.1 kv.2 m) []
  insertKey "prev" (.str log.head)
    (insertKey "ts" (.int now.toInt) (insertKey "seq" (.int log.next) m))

/-- `IssuanceLog::append`, when the file can be written: the log and what is added to the file. -/
def IssuanceLog.append (C : Crypto) (log : IssuanceLog) (now : Int64) (entry : LogEntry) :
    IssuanceLog × List Nat :=
  let m := lineFields log now entry
  let hash := entryHash C log.head (printStruct m)
  (⟨log.next, hash⟩, printStruct (insertKey "hash" (.str hash) m) ++ ['\n'.toNat])

/-- The log and the file after the given entries, from an empty one. -/
def writeLog (C : Crypto) (entries : List (Int64 × LogEntry)) : IssuanceLog × List Nat :=
  entries.foldl (fun f e => ((f.1.append C e.1 e.2).1, f.2 ++ (f.1.append C e.1 e.2).2))
    (.empty, [])

/-! ## What was written opens again -/

theorem linesFrom_append_newline (cur t rest : List Nat) :
    linesFrom cur (t ++ '\n'.toNat :: rest) =
      linesFrom cur (t ++ ['\n'.toNat]) ++ linesFrom [] rest := by
  induction t generalizing cur with
  | nil => simp [linesFrom]
  | cons c t ih =>
    simp only [cons_append, linesFrom]
    split
    · rw [ih, cons_append]
    · rw [ih]

theorem linesFrom_body (h : ∀ c ∈ body, 0x20 ≤ c) (cur : List Nat) (hcur : ∀ c ∈ cur, 0x20 ≤ c) :
    linesFrom cur (body ++ ['\n'.toNat]) = [cur.reverse ++ body] := by
  induction body generalizing cur with
  | nil =>
    have hcr : cur.head? ≠ some '\r'.toNat := by
      intro hc
      exact absurd (hcur _ (List.mem_of_head? hc)) (by decide)
    simp only [nil_append, linesFrom, if_true, if_neg hcr, append_nil]
  | cons c body ih =>
    have hc := h c mem_cons_self
    have hne : c ≠ '\n'.toNat := by
      rintro rfl
      exact absurd hc (by decide)
    simp only [cons_append, linesFrom, if_neg hne]
    rw [ih (fun x hx => h x (mem_cons_of_mem _ hx))]
    · simp
    · intro x hx
      rcases mem_cons.mp hx with rfl | hx
      · exact hc
      · exact hcur x hx

def WholeLines (text : List Nat) : Prop := text = [] ∨ ∃ t, text = t ++ ['\n'.toNat]

theorem lines_append_line (htext : WholeLines text) (hbody : ∀ c ∈ body, 0x20 ≤ c) :
    lines (text ++ (body ++ ['\n'.toNat])) = lines text ++ [body] := by
  have hlast : lines (body ++ ['\n'.toNat]) = [body] := linesFrom_body hbody [] (by simp)
  rcases htext with rfl | ⟨t, rfl⟩
  · exact hlast
  · rw [append_assoc, singleton_append, lines, linesFrom_append_newline]
    exact congrArg _ hlast

theorem openLines_concat (n : Nat) (log log' : IssuanceLog) (ls : List (List Nat))
    (l : List Nat) (h : openLines C T n log ls = .ok log') :
    openLines C T n log (ls ++ [l]) = openLine C T (n + ls.length) log' l := by
  induction ls generalizing n log with
  | nil =>
    obtain rfl := Except.ok.inj h
    simp only [nil_append, openLines, length_nil, Nat.add_zero]
    cases openLine C T n log l <;> rfl
  | cons line ls ih =>
    simp only [openLines, cons_append, length_cons] at h ⊢
    cases hline : openLine C T n log line with
    | error e => simp [hline] at h
    | ok log₁ =>
      simp only [hline] at h ⊢
      rw [ih _ _ h]
      congr 1
      omega

theorem get_flatObject {F : Type} (key : String) (kvs : List (String × Printable)) :
    (flatObject kvs : Value F).get key =
      (kvs.find? fun kv => kv.1 == key).map fun kv => kv.2.toValue := by
  simp [flatObject, Value.get, List.find?_map, Function.comp_def]

theorem remove_flatObject {F : Type} (key : String) (kvs : List (String × Printable)) :
    (flatObject kvs : Value F).remove key = flatObject (kvs.filter fun kv => kv.1 != key) := by
  simp [flatObject, Value.remove, filter_map, Function.comp_def]

def FieldOk (kv : String × Printable) : Prop := kv.1 ≠ "hash" ∧ kv.2.Fits

theorem fits_int64 (z : Int64) : (Printable.int z.toInt).Fits := by
  have hlo := z.le_toInt
  have hhi := z.toInt_lt
  exact ⟨by omega, by omega⟩

theorem fits_str (s : String) : (Printable.str s).Fits := trivial

theorem LogEntry.fieldOk (entry : LogEntry) : ∀ kv ∈ entry.fields, FieldOk kv := by
  cases entry <;> simp [LogEntry.fields, FieldOk, fits_str, fits_int64]

theorem fieldOk_foldl {kvs m : List (String × Printable)} (hkvs : ∀ kv ∈ kvs, FieldOk kv)
    (hm : SortedKeys m ∧ ∀ kv ∈ m, FieldOk kv) :
    SortedKeys (kvs.foldl (fun m kv => insertKey kv.1 kv.2 m) m) ∧
      ∀ kv ∈ kvs.foldl (fun m kv => insertKey kv.1 kv.2 m) m, FieldOk kv := by
  induction kvs generalizing m with
  | nil => exact hm
  | cons kv kvs ih =>
    refine ih (fun x hx => hkvs x (mem_cons_of_mem _ hx)) ⟨sortedKeys_insertKey hm.1 _ _, ?_⟩
    intro x hx
    rcases mem_of_mem_insertKey hx with rfl | hx
    · exact hkvs kv mem_cons_self
    · exact hm.2 x hx

theorem IssuanceLog.next_lt (log : IssuanceLog) : log.next < 2 ^ 64 := Nat.mod_lt _ (by decide)

theorem lineFields_ok (log : IssuanceLog) (now : Int64) (entry : LogEntry) :
    SortedKeys (lineFields log now entry) ∧ ∀ kv ∈ lineFields log now entry, FieldOk kv := by
  have hentry := fieldOk_foldl entry.fieldOk ⟨List.Pairwise.nil, by simp⟩
  have hnext := log.next_lt
  have hall := @fieldOk_foldl [("seq", .int log.next), ("ts", .int now.toInt),
    ("prev", .str log.head)] _ (by
      intro kv hkv
      simp only [mem_cons, not_mem_nil, or_false] at hkv
      rcases hkv with rfl | rfl | rfl
      · exact ⟨by simp, by omega, by omega⟩
      · exact ⟨by simp, fits_int64 now⟩
      · exact ⟨by simp, trivial⟩) hentry
  exact hall

theorem openLine_append (n : Nat) (now : Int64) (entry : LogEntry)
    (hbody : (log.append C now entry).2 = body ++ ['\n'.toNat]) :
    openLine C T n log body = .ok (log.append C now entry).1 := by
  obtain ⟨hsorted, hok⟩ := lineFields_ok log now entry
  generalize hhash : entryHash C log.head (printStruct (lineFields log now entry)) = hash at *
  have hbody' : printStruct (insertKey "hash" (.str hash) (lineFields log now entry)) = body := by
    simp only [IssuanceLog.append, hhash] at hbody
    exact append_cancel_right hbody
  have hread : Value.fromStr T body =
      some (flatObject (insertKey "hash" (.str hash) (lineFields log now entry))) := by
    rw [← hbody']
    refine fromStr_flat (sortedKeys_insertKey hsorted _ _) ?_
    intro kv hkv
    rcases mem_of_mem_insertKey hkv with rfl | hkv
    · trivial
    · exact (hok kv hkv).2
  have hremove : (insertKey "hash" (Printable.str hash) (lineFields log now entry)).filter
      (fun kv => kv.1 != "hash") = lineFields log now entry := by
    rw [filter_insertKey, filter_eq_self]
    intro kv hkv
    exact bne_iff_ne.mpr (hok kv hkv).1
  have hprev : (lineFields log now entry).find? (fun kv => kv.1 == "prev") =
      some ("prev", .str log.head) := by
    rw [lineFields, find_insertKey, if_pos rfl]
  have hseqField : (lineFields log now entry).find? (fun kv => kv.1 == "seq") =
      some ("seq", .int log.next) := by
    simp only [lineFields]
    rw [find_insertKey, if_neg (by decide), find_insertKey, if_neg (by decide), find_insertKey,
      if_pos rfl]
  have hpos : ¬ (log.next : Int) < 0 := by omega
  simp only [openLine, hread, get_flatObject, remove_flatObject, hremove, find_insertKey, hprev,
    hseqField, print_flatObject, hhash, IssuanceLog.append, if_true, Option.map_some,
    Option.bind_some, Printable.toValue, Value.asStr, Value.asU64, Option.getD_some, ne_eq,
    not_true_eq_false, if_false, hpos, Int.natAbs_natCast, String.reduceEq]

theorem oneLine_printStruct (kvs : List (String × Printable)) :
    ∀ n ∈ printStruct kvs, OneLine n :=
  forall_printStruct (fun _ => oneLine_of_ascii) fun _ _ _ _ c hc hge =>
    ⟨isScalar_codePoints c hc, by omega⟩

theorem append_snd (log : IssuanceLog) (now : Int64) (entry : LogEntry) :
    ∃ body, (log.append C now entry).2 = body ++ ['\n'.toNat] ∧ ∀ c ∈ body, OneLine c :=
  ⟨_, rfl, oneLine_printStruct _⟩

theorem writeLog_concat (entries : List (Int64 × LogEntry)) (e : Int64 × LogEntry) :
    writeLog C (entries ++ [e]) = (((writeLog C entries).1.append C e.1 e.2).1,
      (writeLog C entries).2 ++ ((writeLog C entries).1.append C e.1 e.2).2) := by
  simp [writeLog]

theorem wholeLines_writeLog (entries : List (Int64 × LogEntry)) :
    WholeLines (writeLog C entries).2 ∧ ∀ c ∈ (writeLog C entries).2, IsScalar c := by
  induction entries using List.reverseRecOn with
  | nil => exact ⟨.inl rfl, by simp [writeLog]⟩
  | append_singleton entries e ih =>
    obtain ⟨body, hbody, hone⟩ := append_snd (C := C) (writeLog C entries).1 e.1 e.2
    rw [writeLog_concat, hbody]
    refine ⟨.inr ⟨_, (append_assoc _ _ _).symm⟩, ?_⟩
    intro c hc
    rcases mem_append.mp hc with hc | hc
    · exact ih.2 c hc
    · rcases mem_append.mp hc with hc | hc
      · exact (hone c hc).1
      · rw [mem_singleton.mp hc]
        decide

/-- **The log the signer writes opens again**, with the head and the number it had. -/
theorem open_writeLog (entries : List (Int64 × LogEntry)) :
    IssuanceLog.open C T (some (utf8Encode (writeLog C entries).2)) =
      .ok (writeLog C entries).1 := by
  suffices h : openLines C T 0 .empty (lines (writeLog C entries).2) =
      .ok (writeLog C entries).1 by
    simp only [IssuanceLog.open, Option.bind_some,
      utf8Decode_utf8Encode (wholeLines_writeLog entries).2, h]
  induction entries using List.reverseRecOn with
  | nil => rfl
  | append_singleton entries e ih =>
    obtain ⟨body, hbody, hone⟩ := append_snd (C := C) (writeLog C entries).1 e.1 e.2
    rw [writeLog_concat, hbody,
      lines_append_line (wholeLines_writeLog entries).1 fun c hc => (hone c hc).2,
      openLines_concat _ _ _ _ _ ih]
    exact openLine_append _ _ _ hbody

/-! ## The head commits to the entries -/

theorem hexChar_inj : ∀ m < 16, ∀ n < 16, hexChar m = hexChar n → m = n := by decide

theorem hex_inj {a b : Bytes} (h : hex a = hex b) : a = b := by
  have hchars := congrArg String.toList h
  simp only [hex, String.toList_ofList] at hchars
  clear h
  induction a generalizing b with
  | nil =>
    cases b with
    | nil => rfl
    | cons y ys => simp at hchars
  | cons x xs ih =>
    cases b with
    | nil => simp at hchars
    | cons y ys =>
      simp only [flatMap_cons, cons_append, nil_append, List.cons.injEq] at hchars
      have hx := x.toNat_lt
      have hy := y.toNat_lt
      have hhi := hexChar_inj _ (by omega) _ (by omega) hchars.1
      have hlo := hexChar_inj _ (by omega) _ (by omega) hchars.2.1
      have hxy : x = y := UInt8.toNat_inj.mp (by omega)
      rw [hxy, ih hchars.2.2]

theorem newline_notMem_utf8 {s : String} (h : Plain s) : (10 : UInt8) ∉ utf8 s := by
  intro hmem
  obtain ⟨n, hn, hbyte⟩ := mem_flatMap.mp hmem
  obtain ⟨c, hc, rfl⟩ := mem_map.mp hn
  obtain ⟨hlo, hhi, -⟩ := h c hc
  simp only [encodePoint, hhi, if_true, mem_singleton] at hbyte
  have := congrArg UInt8.toNat hbyte
  rw [toNat_ofNat_lt (by omega)] at this
  simp at this
  omega

theorem utf8_inj {s t : String} (h : utf8 s = utf8 t) : s = t := by
  have hs := utf8Decode_utf8 false s
  rw [h, utf8Decode_utf8] at hs
  exact codePoints_inj (Option.some.inj hs).symm

theorem utf8Encode_inj {cs ds : List Nat} (hcs : ∀ n ∈ cs, IsScalar n)
    (hds : ∀ n ∈ ds, IsScalar n) (h : utf8Encode cs = utf8Encode ds) : cs = ds := by
  have hc := @utf8Decode_utf8Encode false cs hcs
  rw [h, utf8Decode_utf8Encode hds] at hc
  exact (Option.some.inj hc).symm

theorem append_separator_inj {a b r r' : Bytes} (ha : (10 : UInt8) ∉ a) (hb : (10 : UInt8) ∉ b)
    (h : a ++ 10 :: r = b ++ 10 :: r') : a = b ∧ r = r' := by
  induction a generalizing b with
  | nil =>
    cases b with
    | nil => exact ⟨rfl, (List.cons.inj h).2⟩
    | cons y ys =>
      obtain ⟨rfl, -⟩ := List.cons.inj h
      simp at hb
  | cons x xs ih =>
    cases b with
    | nil =>
      obtain ⟨rfl, -⟩ := List.cons.inj h
      simp at ha
    | cons y ys =>
      obtain ⟨rfl, htail⟩ := List.cons.inj h
      obtain ⟨rfl, hr⟩ := ih (fun hm => ha (mem_cons_of_mem _ hm))
        (fun hm => hb (mem_cons_of_mem _ hm)) htail
      exact ⟨rfl, hr⟩

theorem hashedMessage_inj {p q : String} {v w : Value T.F} (hp : Plain p) (hq : Plain q)
    (h : hashedMessage p (v.print T) = hashedMessage q (w.print T)) : p = q ∧ v = w := by
  obtain ⟨hhead, hline⟩ :=
    append_separator_inj (newline_notMem_utf8 hp) (newline_notMem_utf8 hq) h
  have htext := utf8Encode_inj (fun n hn => (v.oneLine_print n hn).1)
    (fun n hn => (w.oneLine_print n hn).1) hline
  exact ⟨utf8_inj hhead, Value.print_inj htext⟩

theorem linkEntry_ne_genesis (prev : String) (entry : Value T.F) :
    linkEntry C T prev entry ≠ "genesis" := by
  intro h
  have hlen := congrArg String.length h
  rw [linkEntry, entryHash, length_hex, C.length_sha256] at hlen
  exact absurd hlen (by decide)

/-- The messages `open` hashes on a text. -/
def hashedBy (C : Crypto) (T : FloatText) (text : List Nat) : List Bytes :=
  match parsedEntries T text with
  | some es => (HashChain.steps (linkEntry C T) "genesis" es).map fun s =>
      hashedMessage s.1 (s.2.print T)
  | none => []

/-- **The head commits to the whole log.** Two log files on which `open` succeeds with the same
head have the same parsed entries, unless SHA-256 collides on two messages hashed for them. -/
theorem head_commits_to_entries {file₁ file₂ : Bytes} {text₁ text₂ : List Nat}
    {log₁ log₂ : IssuanceLog} (htext₁ : utf8Decode false file₁ = some text₁)
    (htext₂ : utf8Decode false file₂ = some text₂)
    (hopen₁ : IssuanceLog.open C T (some file₁) = .ok log₁)
    (hopen₂ : IssuanceLog.open C T (some file₂) = .ok log₂)
    (hcollision : ∀ m ∈ hashedBy C T text₁, ∀ m' ∈ hashedBy C T text₂,
      C.sha256 m = C.sha256 m' → m = m')
    (hhead : log₁.head = log₂.head) :
    ∃ es, parsedEntries T text₁ = some es ∧ parsedEntries T text₂ = some es := by
  obtain ⟨es₁, hes₁, hhead₁⟩ := open_eq_head htext₁ hopen₁
  obtain ⟨es₂, hes₂, hhead₂⟩ := open_eq_head htext₂ hopen₂
  simp only [hashedBy, hes₁, hes₂] at hcollision
  have hplain : ∀ {es : List (Value T.F)} {s : String × Value T.F},
      s ∈ HashChain.steps (linkEntry C T) "genesis" es → Plain s.1 := by
    intro es s hs
    exact HashChain.head_of_mem_steps (P := Plain) (by decide) (fun _ _ => plain_hex _) hs
  have heq : es₁ = es₂ := by
    refine HashChain.head_inj linkEntry_ne_genesis ?_ (hhead₁ ▸ hhead₂ ▸ hhead)
    intro s hs t ht hlink
    have hmessage := hcollision _ (mem_map_of_mem hs) _ (mem_map_of_mem ht)
      (hex_inj hlink)
    exact hashedMessage_inj (hplain hs) (hplain ht) hmessage
  exact ⟨es₁, hes₁, heq ▸ hes₂⟩

theorem eq_of_mem_hashedBy (hlines : lines text = [body]) {m m' : Bytes}
    (hm : m ∈ hashedBy C T text) (hm' : m' ∈ hashedBy C T text) : m = m' := by
  have hone : ∀ es, parsedEntries T text = some es → es.length = 1 := by
    intro es hes
    rw [parsedEntries, hlines] at hes
    simp only [mapM_cons, mapM_nil, Option.bind_eq_bind, Option.pure_def,
      Option.bind_some, Option.bind_eq_some_iff] at hes
    obtain ⟨v, -, hv⟩ := hes
    rw [← Option.some.inj hv, length_singleton]
  unfold hashedBy at hm hm'
  cases hes : parsedEntries T text with
  | none => simp [hes] at hm
  | some es =>
    obtain ⟨v, rfl⟩ := length_eq_one_iff.mp (hone es hes)
    simp only [hes, HashChain.steps, map_cons, map_nil, mem_singleton] at hm hm'
    rw [hm, hm']

def sampleLog : IssuanceLog × List Nat := writeLog prefixCrypto [(0, .revoke "1" "d" "lost")]

theorem sample_head_commits_to_entries :
    ∃ es, parsedEntries literalText sampleLog.2 = some es ∧
      parsedEntries literalText sampleLog.2 = some es := by
  have htext := @utf8Decode_utf8Encode false sampleLog.2 (wholeLines_writeLog _).2
  have hopen : IssuanceLog.open prefixCrypto literalText (some (utf8Encode sampleLog.2)) =
      .ok sampleLog.1 := open_writeLog _
  obtain ⟨body, hbody, hone⟩ :=
    append_snd (C := prefixCrypto) .empty 0 (.revoke "1" "d" "lost")
  have hlines : lines sampleLog.2 = [body] := by
    have hsample : sampleLog.2 = [] ++ (body ++ ['\n'.toNat]) := by
      rw [← hbody]
      rfl
    rw [hsample, lines_append_line (.inl rfl) fun c hc => (hone c hc).2]
    rfl
  exact head_commits_to_entries htext htext hopen hopen
    (fun m hm m' hm' _ => eq_of_mem_hashedBy hlines hm hm') rfl

end ManagedDirectory.CaSigner
