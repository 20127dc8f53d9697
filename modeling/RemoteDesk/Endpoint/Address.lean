/-
Endpoint addresses: what both policies speak of.

The native policy (`common/endpoint_address_policy.h`) and the ArkTS one
(`services/EndpointAddressPolicy.ets`) have the same value classes; the
string literals of the latter are the enumerators of the former. Texts
are lists of code units: bytes there, UTF-16 units here.

Below them stand the pieces the two files spell the same way, statement
for statement.
-/
import RemoteDesk.Lib.AddressText

namespace RemoteDesk.Endpoint

open Lib

-- ================================== values

inductive AddressFamily where
  | hostname
  | ipv4
  | ipv6
deriving DecidableEq, Repr

inductive ScopeKind where
  | none
  | interface
  | numeric
deriving DecidableEq, Repr

inductive ParseMode where
  | persisted
  | runtime
deriving DecidableEq, Repr

inductive ServerIdentityKind where
  | none
  | dns
  | ip
deriving DecidableEq, Repr

inductive AddressError where
  | none
  | empty
  | invalidSyntax
  | invalidHostname
  | invalidIpv4
  | invalidIpv6
  | invalidPort
  | scopeRequired
  | scopeNotAllowed
  | scopeNotPortable
  | addressNotConnectable
  | inputTooLong
deriving DecidableEq, Repr

inductive IdentityError where
  | none
  | invalidEndpoint
  | invalidServerIdentity
deriving DecidableEq, Repr

def kAddressVersion : Nat := 2
def kMaxInputLength : Nat := 512

structure Address where
  canonicalHost : List Nat := []
  family : AddressFamily := .hostname
  port : Nat := 0
  scope : List Nat := []
  scopeKind : ScopeKind := .none
  version : Nat := kAddressVersion
deriving DecidableEq, Repr

structure ParseResult where
  ok : Bool := false
  endpoint : Address := {}
  error : AddressError := .invalidSyntax
deriving DecidableEq, Repr

def failed (error : AddressError) : ParseResult := { error }

def succeeded (host : List Nat) (family : AddressFamily)
    (scope : List Nat) (scopeKind : ScopeKind) : ParseResult where
  ok := true
  error := .none
  endpoint := { canonicalHost := host, family, scope, scopeKind }

/-- The parsed address with a port put in; a failure stays as it is. -/
def ParseResult.withPort (parsed : ParseResult) (port : Nat) : ParseResult :=
  if !parsed.ok then parsed
  else { parsed with endpoint := { parsed.endpoint with port } }

structure ServerIdentity where
  kind : ServerIdentityKind := .none
  canonicalName : List Nat := []
deriving DecidableEq, Repr

structure ServerIdentityResult where
  ok : Bool := false
  identity : ServerIdentity := {}
  error : IdentityError := .invalidServerIdentity
deriving DecidableEq, Repr

structure IdentityResult where
  ok : Bool := false
  identity : List Nat := []
  error : IdentityError := .invalidEndpoint
deriving DecidableEq, Repr

-- =========================== common pieces

def isAsciiAlpha (ch : Nat) : Bool :=
  (65 ≤ ch && ch ≤ 90) || (97 ≤ ch && ch ≤ 122)

def isAsciiAlnum (ch : Nat) : Bool := isAsciiAlpha ch || isDigitCode ch

def asciiLower (ch : Nat) : Nat := if 65 ≤ ch ∧ ch ≤ 90 then ch + 32 else ch

def validPort (value : Nat) : Bool := 1 ≤ value && value ≤ 65535

/-- Where a code unit stands last. -/
def lastIndexOf (value : List Nat) (ch : Nat) : Option Nat :=
  (cutLast ch value).map fun p => p.1.length

def invalidEndpointCharacters (value : List Nat) : Bool :=
  decide (codes "://" <:+: value)
    || value.any (codes "/\\@?#").contains
    || value.any fun ch => ch < 0x21 || ch > 0x7e

def canonicalIpv4 (octets : List Nat) : List Nat :=
  [46].intercalate (octets.map (numeral 10))

def ipv4NotConnectable (octets : List Nat) : Bool :=
  octets.getD 0 0 = 0 || octets.getD 0 0 ≥ 224

/-- The zeros at the front of the words. -/
def zeroRun : List Nat → Nat
  | 0 :: words => zeroRun words + 1
  | _ => 0

/-- The first longest run of two or more zeros, with its start and its
length; `none` where the sources keep the start outside of the words. The
first number is fuel: every round takes a word. -/
def bestRunFrom : Nat → List Nat → Nat → Option (Nat × Nat) →
    Option (Nat × Nat)
  | 0, _, _, best => best
  | _ + 1, [], _, best => best
  | fuel + 1, word :: words, index, best =>
    if word ≠ 0 then bestRunFrom fuel words (index + 1) best
    else
      let length := zeroRun (word :: words)
      bestRunFrom fuel ((word :: words).drop length) (index + length)
        (if length ≥ 2 ∧ length > best.elim 0 Prod.snd then
          some (index, length) else best)

def bestRun (words : List Nat) : Option (Nat × Nat) :=
  bestRunFrom words.length words 0 none

/-- Writes the words from `index` on behind `output`. -/
def writeWordsFrom (best : Option (Nat × Nat)) :
    Nat → List Nat → Nat → List Nat → List Nat
  | 0, _, _, output => output
  | _ + 1, [], _, output => output
  | fuel + 1, word :: words, index, output =>
    match best.filter fun run => run.1 = index with
    | some (_, length) =>
      writeWordsFrom best fuel ((word :: words).drop length)
        (index + length) (output ++ codes "::")
    | none =>
      let output :=
        if output ≠ [] ∧ output.getLast? ≠ some 58 then
          output ++ codes ":" else output
      writeWordsFrom best fuel words (index + 1)
        (output ++ numeral 16 word)

-- ============================ their lemmas

theorem not_invalid_iff {value : List Nat} :
    invalidEndpointCharacters value = false ↔
      ∀ ch ∈ value, 0x21 ≤ ch ∧ ch ≤ 0x7e ∧ ch ∉ codes "/\\@?#" := by
  unfold invalidEndpointCharacters
  rw [Bool.or_eq_false_iff, Bool.or_eq_false_iff, decide_eq_false_iff_not,
    List.any_eq_false, List.any_eq_false]
  constructor
  · intro ⟨⟨_, hbad⟩, hrange⟩ ch hch
    have hlo := hrange ch hch
    have hno := hbad ch hch
    rw [List.contains_iff_mem] at hno
    simp only [Bool.or_eq_true, decide_eq_true_eq, not_or, not_lt] at hlo
    exact ⟨hlo.1, hlo.2, hno⟩
  · intro h
    refine ⟨⟨?_, fun ch hch => ?_⟩, fun ch hch => ?_⟩
    · intro hinfix
      have hslash : 47 ∈ value := hinfix.subset (by decide)
      exact (h 47 hslash).2.2 (by decide)
    · rw [List.contains_iff_mem]
      exact (h ch hch).2.2
    · have := h ch hch
      simp only [Bool.or_eq_true, decide_eq_true_eq, not_or, not_lt]
      exact ⟨this.1, this.2.1⟩

theorem zeroRun_le (words : List Nat) : zeroRun words ≤ words.length := by
  induction words with
  | nil => exact Nat.le_refl _
  | cons word words ih =>
    cases word with
    | zero => exact Nat.succ_le_succ ih
    | succ n => exact Nat.zero_le _

theorem take_zeroRun (words : List Nat) :
    words.take (zeroRun words) = List.replicate (zeroRun words) 0 := by
  induction words with
  | nil => rfl
  | cons word words ih =>
    cases word with
    | zero =>
      show 0 :: words.take (zeroRun words) = _
      rw [ih]
      rfl
    | succ n => rfl

/-- A run that lies within the words: two zeros at least. -/
def Run (words : List Nat) (run : Nat × Nat) : Prop :=
  2 ≤ run.2 ∧ run.1 + run.2 ≤ words.length
    ∧ (words.drop run.1).take run.2 = List.replicate run.2 0

variable {words : List Nat}

theorem bestRunFrom_run {fuel index : Nat} {best : Option (Nat × Nat)}
    (hindex : index ≤ words.length) (hbest : ∀ run ∈ best, Run words run) :
    ∀ run ∈ bestRunFrom fuel (words.drop index) index best,
      Run words run := by
  induction fuel generalizing index best with
  | zero => exact hbest
  | succ fuel ih =>
    cases hdrop : words.drop index with
    | nil => exact hbest
    | cons word rest =>
      have hlt : index < words.length := by
        by_contra hge
        rw [List.drop_eq_nil_of_le (by omega)] at hdrop
        cases hdrop
      have hrest : rest = words.drop (index + 1) := by
        rw [← List.tail_drop, hdrop]
        rfl
      rw [bestRunFrom]
      split
      · rw [hrest]
        exact ih hlt hbest
      · have hle := zeroRun_le (word :: rest)
        have hlen : (word :: rest).length = words.length - index := by
          rw [← hdrop, List.length_drop]
        have hwords : (word :: rest).drop (zeroRun (word :: rest))
            = words.drop (index + zeroRun (word :: rest)) := by
          rw [← List.drop_drop, hdrop]
        dsimp only
        rw [hwords]
        refine ih (by omega) ?_
        split
        · rename_i hlong
          intro run hrun
          cases hrun
          refine ⟨hlong.1, ?_, ?_⟩
          · show index + zeroRun (word :: rest) ≤ _
            omega
          · show (words.drop index).take _ = _
            rw [hdrop]
            exact take_zeroRun _
        · exact hbest

theorem bestRun_run {run : Nat × Nat}
    (h : bestRun words = some run) : Run words run := by
  have hrun := @bestRunFrom_run words words.length 0 none (Nat.zero_le _)
    (by simp)
  exact hrun run h

-- ============================== the writer

theorem notMem_hex {word : Nat} : 58 ∉ numeral 16 word := by
  intro h
  have hhex := isHexCode_of_mem h
  cases hhex

theorem clean_hex (word : Nat) : Clean 58 (numeral 16 word) :=
  ⟨numeral_ne_nil 16 word, notMem_hex⟩

/-- The output before a word is written to it. -/
def glued (output : List Nat) : List Nat :=
  if output ≠ [] ∧ output.getLast? ≠ some 58 then output ++ codes ":"
  else output

theorem glued_append_hex (output : List Nat) (word : Nat) :
    glued (output ++ numeral 16 word) = output ++ numeral 16 word ++ [58] := by
  unfold glued
  rw [if_pos]
  · rfl
  · have hne := numeral_ne_nil 16 word
    refine ⟨List.append_ne_nil_of_right_ne_nil _ hne, ?_⟩
    rw [List.getLast?_append_of_ne_nil _ hne]
    exact fun h => notMem_hex (List.mem_of_getLast? h)

/-- The words before the run, joined. -/
theorem writeWordsFrom_append {best : Option (Nat × Nat)} {fuel : Nat}
    {before after : List Nat} {index : Nat} {output : List Nat}
    (hmiss : ∀ run ∈ best, run.1 < index ∨ index + before.length ≤ run.1) :
    writeWordsFrom best (fuel + before.length) (before ++ after) index output
      = writeWordsFrom best fuel after (index + before.length)
        (if before = [] then output
        else glued output ++ [58].intercalate (before.map (numeral 16))) := by
  induction before generalizing index output with
  | nil => rfl
  | cons word before ih =>
    have hnone : best.filter (fun run => run.1 = index) = none := by
      rw [Option.filter_eq_none_iff]
      intro run hrun
      have h := hmiss run hrun
      rw [List.length_cons] at h
      simp
      omega
    have hrest : ∀ run ∈ best,
        run.1 < index + 1 ∨ index + 1 + before.length ≤ run.1 := by
      intro run hrun
      have h := hmiss run hrun
      rw [List.length_cons] at h
      omega
    rw [List.length_cons, ← Nat.add_assoc, List.cons_append,
      writeWordsFrom, hnone]
    dsimp only
    change writeWordsFrom best (fuel + before.length) (before ++ after)
      (index + 1) (glued output ++ numeral 16 word) = _
    rw [ih hrest, glued_append_hex, if_neg (List.cons_ne_nil word before),
      Nat.add_right_comm index 1, Nat.add_assoc index]
    congr 1
    split
    · rename_i h
      rw [h, List.map_cons, List.map_nil, intercalate_singleton]
    · rename_i h
      rw [List.map_cons, intercalate_cons (by simpa using h)]
      simp

theorem writeWordsFrom_nil (best : Option (Nat × Nat)) (fuel index : Nat)
    (output : List Nat) : writeWordsFrom best fuel [] index output = output := by
  cases fuel <;> rfl

/-- Without a run all words are joined. -/
theorem writeWords_none (words : List Nat) :
    writeWordsFrom none words.length words 0 []
      = [58].intercalate (words.map (numeral 16)) := by
  have h := @writeWordsFrom_append none 0 words [] 0 [] (by simp)
  rw [Nat.zero_add, List.append_nil, writeWordsFrom_nil] at h
  rw [h]
  split
  · rename_i hnil
    rw [hnil]
    rfl
  · rfl

/-- A run stands as two colons between the words before and after it. -/
theorem writeWords_some {run : Nat × Nat} (h : Run words run) :
    writeWordsFrom (some run) words.length words 0 []
      = [58].intercalate ((words.take run.1).map (numeral 16))
        ++ 58 :: 58 ::
          [58].intercalate ((words.drop (run.1 + run.2)).map (numeral 16)) := by
  obtain ⟨start, length⟩ := run
  obtain ⟨hlong, hin, hzero⟩ := h
  dsimp only at hlong hin hzero ⊢
  obtain ⟨word, rest, hdrop⟩ : ∃ word rest, words.drop start = word :: rest :=
    List.exists_cons_of_ne_nil fun h => by
      have hlen := congrArg List.length h
      rw [List.length_drop, List.length_nil] at hlen
      omega
  have htake : (words.take start).length = start :=
    List.length_take_of_le (by omega)
  have hafter : (word :: rest).drop length = words.drop (start + length) := by
    rw [← hdrop, List.drop_drop]
  have hlen : (words.drop (start + length)).length
      = words.length - (start + length) := List.length_drop
  obtain ⟨fuel, hfuel⟩ : ∃ fuel, words.length = fuel + 1 + start :=
    ⟨words.length - 1 - start, by omega⟩
  have hbefore := @writeWordsFrom_append (some (start, length)) (fuel + 1)
    (words.take start) (words.drop start) 0 [] (by simp [htake])
  rw [htake, List.take_append_drop, ← hfuel, Nat.zero_add] at hbefore
  obtain ⟨spare, hspare⟩ : ∃ spare, fuel
      = spare + (words.drop (start + length)).length :=
    ⟨fuel - (words.drop (start + length)).length, by omega⟩
  have hbehind := @writeWordsFrom_append (some (start, length)) spare
    (words.drop (start + length)) [] (start + length)
    ([58].intercalate ((words.take start).map (numeral 16)) ++ codes "::")
    (by simp; omega)
  rw [List.append_nil, ← hspare, writeWordsFrom_nil] at hbehind
  have hglued : ∀ output : List Nat,
      glued (output ++ codes "::") = output ++ codes "::" := by
    intro output
    refine if_neg fun h => h.2 ?_
    rw [List.getLast?_append_of_ne_nil _ (by decide)]
    rfl
  have hfirst : (if words.take start = [] then []
        else glued [] ++ [58].intercalate
          ((words.take start).map (numeral 16)))
      = [58].intercalate ((words.take start).map (numeral 16)) := by
    split
    · rename_i h
      rw [h]
      rfl
    · rfl
  rw [hbefore, hfirst, hdrop, writeWordsFrom]
  simp only [Option.filter_some, decide_true, if_true]
  rw [hafter, hbehind]
  split
  · rename_i h
    rw [h]
    rfl
  · rw [hglued, List.append_assoc]
    rfl

end RemoteDesk.Endpoint
