import ManagedDirectory.Signer.Log

/-!
# The issuance log under faults

What `IssuanceLog::open` checks, for every content of the file, and what is left of the log when
`append` fails on its way.

- `open_sound_iff`: a file that `open` takes is a hash chain with the head and the number of its last
  entry, if it is UTF-8 at all: one that is not counts as empty (`undecodable_opens`).
- `reopens_after_appends`: the file opens again with the log in memory after any appends whose
  failures wrote nothing. A line that was written in part stays in the file, and the next entry is
  appended to it (`torn_line_refused`).
-/

namespace ManagedDirectory.CaSigner

open Codec Lib List

variable {C : Crypto} {T : FloatText}

/-! ## What `open` checks -/

/-- The lines are entries, each with the hash of the one before it in `prev` and its own in `hash`;
`head` is the last hash. -/
inductive Chain (C : Crypto) (T : FloatText) :
    (prev : String) → List (List Nat) → List (Value T.F) → (head : String) → Prop where
  | nil {prev : String} : Chain C T prev [] [] prev
  | cons {prev hash head : String} {line : List Nat} {rest : List (List Nat)} {value : Value T.F}
      {values : List (Value T.F)} (hline : Value.fromStr T line = some value)
      (hprev : (value.get "prev").bind Value.asStr = some prev)
      (hstated : (value.get "hash").bind Value.asStr = some hash)
      (hright : entryHash C prev ((value.remove "hash").print T) = hash)
      (hrest : Chain C T hash rest values head) :
    Chain C T prev (line :: rest) (value :: values) head

def entrySeq {F : Type} (value : Value F) : Option Nat := (value.get "seq").bind Value.asU64

/-- The file is a hash chain, and the log has the head and the number of its last entry. -/
structure Sound (C : Crypto) (T : FloatText) (file : Bytes) (log : IssuanceLog) : Prop where
  chain : ∃ text values, utf8Decode false file = some text ∧
    Chain C T "genesis" (lines text) values log.head ∧
    ∀ last, values.getLast? = some last → entrySeq last = some log.seq

theorem Chain.values_unique {prev prev' head head' : String} {ls : List (List Nat)}
    {values values' : List (Value T.F)} (h : Chain C T prev ls values head)
    (h' : Chain C T prev' ls values' head') : values = values' := by
  induction h generalizing prev' values' with
  | nil =>
    cases h'
    rfl
  | cons hline hprev hstated hright hrest ih =>
    cases h' with
    | cons hline' hprev' hstated' hright' hrest' =>
      rw [Option.some.inj (hline.symm.trans hline'), ih hrest']

theorem Value.get_remove {F : Type} {key name : String} (h : name ≠ key) (value : Value F) :
    (value.remove key).get name = value.get name := by
  cases value with
  | obj kvs =>
    simp only [Value.remove, Value.get, List.find?_filter]
    congr 2
    funext kv
    by_cases hname : kv.1 = name
    · simp [hname, h]
    · simp [hname]
  | null | bool b | num n | str s | arr xs => rfl

theorem entryHash_ne_empty (prev : String) (line : List Nat) : entryHash C prev line ≠ "" := by
  intro h
  have hlen := congrArg String.length h
  rw [entryHash, length_hex, C.length_sha256] at hlen
  exact absurd hlen (by decide)

theorem openLine_ok_iff {n : Nat} {log log' : IssuanceLog} {line : List Nat} :
    openLine C T n log line = .ok log' ↔
      ∃ value, Value.fromStr T line = some value ∧
        (value.get "prev").bind Value.asStr = some log.head ∧
        (value.get "hash").bind Value.asStr = some log'.head ∧
        entryHash C log.head ((value.remove "hash").print T) = log'.head ∧
        log'.seq = (entrySeq value).getD 0 := by
  unfold openLine
  cases hvalue : Value.fromStr T line with
  | none => simp
  | some value =>
    simp only [Option.some.injEq, exists_eq_left', Value.get_remove (by decide : "seq" ≠ "hash")]
    by_cases hprev : (value.get "prev").bind Value.asStr = some log.head
    · rw [if_neg (not_not.mpr hprev)]
      cases hstated : (value.get "hash").bind Value.asStr with
      | none => simp [entryHash_ne_empty]
      | some stated =>
        simp only [Option.getD_some, Option.some.injEq]
        by_cases hright : entryHash C log.head ((value.remove "hash").print T) = stated
        · rw [if_neg (not_not.mpr hright), Except.ok.injEq]
          constructor
          · rintro rfl
            exact ⟨hprev, rfl, hright, rfl⟩
          · rintro ⟨-, rfl, -, hseq⟩
            cases log'
            exact congrArg (IssuanceLog.mk · _) hseq.symm
        · rw [if_pos hright]
          simp only [reduceCtorEq, false_iff, not_and]
          rintro - rfl hhead
          exact absurd hhead hright
    · rw [if_pos hprev]
      simp [hprev]

/-- The number `open` returns: that of the last entry, zero if it has none. -/
def lastSeq {F : Type} (seq : Nat) (values : List (Value F)) : Nat :=
  match values.getLast? with
  | none => seq
  | some last => (entrySeq last).getD 0

/-- **What `open` takes is a hash chain.** -/
theorem openLines_ok_iff {n : Nat} {log log' : IssuanceLog} {ls : List (List Nat)} :
    openLines C T n log ls = .ok log' ↔
      ∃ values, Chain C T log.head ls values log'.head ∧ log'.seq = lastSeq log.seq values := by
  induction ls generalizing n log with
  | nil =>
    simp only [openLines, Except.ok.injEq]
    constructor
    · rintro rfl
      exact ⟨[], .nil, rfl⟩
    · rintro ⟨values, hchain, hseq⟩
      generalize hhead : log'.head = head at hchain
      cases hchain
      obtain ⟨seq, head⟩ := log
      cases log'
      simp_all [lastSeq]
  | cons line ls ih =>
    have hlast : ∀ (value : Value T.F) (values : List (Value T.F)) (seq : Nat),
        lastSeq seq (value :: values) = lastSeq ((entrySeq value).getD 0) values := by
      intro value values seq
      unfold lastSeq
      rw [getLast?_cons]
      cases values.getLast? <;> rfl
    constructor
    · intro h
      simp only [openLines] at h
      split at h
      · rename_i log₁ hline
        obtain ⟨value, hvalue, hprev, hstated, hright, hseq⟩ := openLine_ok_iff.mp hline
        obtain ⟨values, hchain, hlog'⟩ := ih.mp h
        exact ⟨value :: values, .cons hvalue hprev hstated hright hchain, by
          rw [hlog', hlast, hseq]⟩
      · cases h
    · rintro ⟨values, hchain, hseq⟩
      generalize hhead : log'.head = head at hchain
      cases hchain with
      | @cons _ hash _ _ _ value values hvalue hprev hstated hright hrest =>
        have hline : openLine C T n log line = .ok ⟨(entrySeq value).getD 0, hash⟩ :=
          openLine_ok_iff.mpr ⟨value, hvalue, hprev, hstated, hright, rfl⟩
        simp only [openLines, hline]
        exact ih.mpr ⟨values, hhead ▸ hrest, by rw [hseq, hlast]⟩

/-- **When a broken log stops the signer.** Every log that `open` returns is that of a file that is
a hash chain, with the head and number of its last entry, exactly when the file is UTF-8 and, if it
is a chain, its last entry has a number. -/
theorem open_sound_iff (C : Crypto) (T : FloatText) (file : Bytes) :
    (∀ log, IssuanceLog.open C T (some file) = .ok log → Sound C T file log) ↔
      ∃ text, utf8Decode false file = some text ∧
        ∀ values head last, Chain C T "genesis" (lines text) values head →
          values.getLast? = some last → entrySeq last ≠ none := by
  cases htext : utf8Decode false file with
  | none =>
    simp only [reduceCtorEq, false_and, exists_false, iff_false]
    intro hsound
    have hempty : IssuanceLog.open C T (some file) = .ok .empty := by
      simp [IssuanceLog.open, htext]
    obtain ⟨text, values, hdecoded, -⟩ := (hsound _ hempty).chain
    rw [htext] at hdecoded
    cases hdecoded
  | some text =>
    simp only [Option.some.injEq, exists_eq_left']
    have hopen : ∀ log, IssuanceLog.open C T (some file) = .ok log ↔
        ∃ values, Chain C T "genesis" (lines text) values log.head ∧
          log.seq = lastSeq 0 values := by
      intro log
      simp only [IssuanceLog.open, Option.bind_some, htext]
      exact openLines_ok_iff
    constructor
    · intro hsound values head last hchain hlast hnone
      obtain ⟨text', values', hdecoded, hchain', hseq⟩ :=
        (hsound ⟨lastSeq 0 values, head⟩ ((hopen _).mpr ⟨values, hchain, rfl⟩)).chain
      obtain rfl : text = text' := Option.some.inj (htext.symm.trans hdecoded)
      obtain rfl := hchain.values_unique hchain'
      rw [hseq last hlast] at hnone
      cases hnone
    · intro hnumbered log hlog
      obtain ⟨values, hchain, hseq⟩ := (hopen log).mp hlog
      refine ⟨⟨text, values, htext, hchain, fun last hlast => ?_⟩⟩
      obtain ⟨n, hn⟩ := Option.ne_none_iff_exists'.mp (hnumbered values _ last hchain hlast)
      rw [hn, hseq, lastSeq, hlast]
      simp [hn]

/-- A byte that is no UTF-8, and the signer starts with an empty log. -/
theorem undecodable_opens :
    IssuanceLog.open prefixCrypto literalText (some [0xFF]) = .ok .empty ∧
      ¬ Sound prefixCrypto literalText [0xFF] .empty := by
  have hbad : utf8Decode false [0xFF] = none := by decide
  refine ⟨by simp [IssuanceLog.open, hbad], ?_⟩
  rintro ⟨text, values, htext, -⟩
  rw [hbad] at htext
  cases htext

/-! ## Appends that fail -/

/-- How far `append` got. -/
inductive Write where
  | unopened
  /-- An error after so many bytes of the line; if these are all of them, that of `sync_all`. -/
  | cut (n : Nat)
  | synced
  deriving DecidableEq, Repr

structure AppendCall where
  now : Int64
  entry : LogEntry
  write : Write

structure LogFile where
  log : IssuanceLog
  file : Option Bytes

def AppendCall.line (C : Crypto) (log : IssuanceLog) (c : AppendCall) : Bytes :=
  utf8Encode (log.append C c.now c.entry).2

/-- `IssuanceLog::append`: `seq` and `head` move on after the file was synced. -/
def LogFile.append (C : Crypto) (f : LogFile) (c : AppendCall) : LogFile :=
  match c.write with
  | .unopened => f
  | .cut n => { f with file := some (f.file.getD [] ++ (c.line C f.log).take n) }
  | .synced => ⟨(f.log.append C c.now c.entry).1, some (f.file.getD [] ++ c.line C f.log)⟩

def LogFile.appends (C : Crypto) (f : LogFile) (calls : List AppendCall) : LogFile :=
  calls.foldl (LogFile.append C) f

def LogFile.Reopens (C : Crypto) (T : FloatText) (f : LogFile) : Prop :=
  IssuanceLog.open C T f.file = .ok f.log

def LogFile.Whole (f : LogFile) : Prop :=
  ∃ text, WholeLines text ∧ (∀ c ∈ text, IsScalar c) ∧ f.file.getD [] = utf8Encode text

def Write.Clean (w : Write) : Prop := w = .unopened ∨ w = .cut 0 ∨ w = .synced

theorem open_getD (file : Option Bytes) :
    IssuanceLog.open C T (some (file.getD [])) = IssuanceLog.open C T file := by
  cases file with
  | none => rfl
  | some bytes => rfl

theorem isScalar_line {body : List Nat} (h : ∀ c ∈ body, OneLine c) :
    ∀ n ∈ body ++ ['\n'.toNat], IsScalar n := by
  intro n hn
  rcases mem_append.mp hn with hn | hn
  · exact (h n hn).1
  · rw [mem_singleton.mp hn]
    decide

theorem LogFile.append_clean {f : LogFile} {c : AppendCall} (hopen : f.Reopens C T)
    (hwhole : f.Whole) (hclean : c.write.Clean) :
    (f.append C c).Reopens C T ∧ (f.append C c).Whole := by
  rcases hclean with hw | hw | hw
  · rw [LogFile.append, hw]
    exact ⟨hopen, hwhole⟩
  · have hfile : f.append C c = { f with file := some (f.file.getD []) } := by
      simp [LogFile.append, hw]
    rw [hfile]
    exact ⟨(open_getD f.file).trans hopen, hwhole⟩
  · obtain ⟨text, hlines, hscalar, hfile⟩ := hwhole
    obtain ⟨body, hbody, hone⟩ := @append_snd C f.log c.now c.entry
    have hline : ∀ n ∈ text ++ (body ++ ['\n'.toNat]), IsScalar n := by
      intro n hn
      rcases mem_append.mp hn with hn | hn
      · exact hscalar n hn
      · exact isScalar_line hone n hn
    have hafter : f.append C c = ⟨(f.log.append C c.now c.entry).1,
        some (utf8Encode (text ++ (body ++ ['\n'.toNat])))⟩ := by
      simp only [LogFile.append, hw, hfile, AppendCall.line, hbody, Codec.utf8Encode, flatMap_append]
    rw [hafter]
    refine ⟨?_, _, .inr ⟨text ++ body, (append_assoc ..).symm⟩, hline, rfl⟩
    have hread : openLines C T 0 .empty (lines text) = .ok f.log := by
      have h := (open_getD f.file).trans hopen
      rw [hfile] at h
      simpa only [IssuanceLog.open, Option.bind_some, utf8Decode_utf8Encode hscalar] using h
    simp only [LogFile.Reopens, IssuanceLog.open, Option.bind_some, utf8Decode_utf8Encode hline]
    rw [lines_append_line hlines fun n hn => (hone n hn).2, openLines_concat _ _ _ _ _ hread]
    exact openLine_append _ _ _ hbody

/-- **The log after write errors.** From a file of whole lines that opens as the log in memory, after
any appends each of which succeeds or fails without writing anything, the file opens again as the log
in memory. -/
theorem reopens_after_appends {f : LogFile} {calls : List AppendCall} (hopen : f.Reopens C T)
    (hwhole : f.Whole) (hclean : ∀ c ∈ calls, c.write.Clean) :
    (f.appends C calls).Reopens C T := by
  induction calls generalizing f with
  | nil => exact hopen
  | cons c calls ih =>
    obtain ⟨hnext, hwhole'⟩ := LogFile.append_clean hopen hwhole (hclean c mem_cons_self)
    exact ih hnext hwhole' fun c' hc' => hclean c' (mem_cons_of_mem _ hc')

namespace FaultSample

def revocation (write : Write) : AppendCall := ⟨0, .revoke "1" "d" "lost", write⟩

def fresh : LogFile := ⟨.empty, none⟩

theorem reopens_fresh : fresh.Reopens C T := rfl

theorem whole_fresh : fresh.Whole := ⟨[], .inl rfl, by simp, rfl⟩

end FaultSample

open FaultSample in
theorem sample_reopens_after_appends :
    fresh.Reopens prefixCrypto literalText ∧
    (fresh.appends prefixCrypto [revocation .unopened, revocation .synced,
      revocation (.cut 0), revocation .synced]).Reopens prefixCrypto literalText := by
  refine ⟨reopens_fresh, reopens_after_appends reopens_fresh whole_fresh ?_⟩
  simp [revocation, Write.Clean]

theorem fromStr_braces (rest : List Nat) :
    Value.fromStr T ('{'.toNat :: '{'.toNat :: rest) = none := by
  simp [Value.fromStr, parseJson, value, members, skipWs, isWs, serdeJson]

open FaultSample in
/-- After one byte of a line the disk is full for a moment; the next entry is written, and the log
does not open any more. -/
theorem torn_line_refused :
    fresh.Reopens prefixCrypto literalText ∧
    ¬ (fresh.appends prefixCrypto [revocation (.cut 1), revocation .synced]).Reopens prefixCrypto
      literalText := by
  refine ⟨reopens_fresh, fun hreopens => ?_⟩
  obtain ⟨body, hbody, hone⟩ := @append_snd prefixCrypto .empty 0 (.revoke "1" "d" "lost")
  obtain ⟨rest, hbrace⟩ : ∃ rest, body = '{'.toNat :: rest :=
    ⟨_, (append_cancel_right hbody).symm⟩
  have hone' : ∀ c ∈ '{'.toNat :: body, OneLine c := by
    rintro c (_ | ⟨_, hc⟩)
    · exact ⟨by decide, by decide⟩
    · exact hone c hc
  have hfile : (fresh.appends prefixCrypto [revocation (.cut 1), revocation .synced]).file =
      some (utf8Encode (('{'.toNat :: body) ++ ['\n'.toNat])) := by
    have hline : ∀ w, (revocation w).line prefixCrypto .empty =
        123 :: utf8Encode (rest ++ ['\n'.toNat]) := by
      intro w
      rw [AppendCall.line, show (revocation w).now = 0 from rfl,
        show (revocation w).entry = .revoke "1" "d" "lost" from rfl, hbody, hbrace]
      rfl
    simp only [LogFile.appends, foldl_cons, foldl_nil, LogFile.append, fresh,
      show ∀ w, (revocation w).write = w from fun _ => rfl, hline]
    rw [hbrace]
    rfl
  have hlines : lines (('{'.toNat :: body) ++ ['\n'.toNat]) = ['{'.toNat :: body] :=
    lines_append_line (.inl rfl) fun c hc => (hone' c hc).2
  have hunreadable : openLine prefixCrypto literalText 0 .empty ('{'.toNat :: body) =
      .error ("log line " ++ toString (0 + 1) ++ " unreadable") := by
    rw [openLine, hbrace, fromStr_braces]
  rw [LogFile.Reopens, hfile, IssuanceLog.open, Option.bind_some,
    utf8Decode_utf8Encode (isScalar_line hone')] at hreopens
  simp only [hlines, openLines, hunreadable, reduceCtorEq] at hreopens

end ManagedDirectory.CaSigner
