/-
Numbers spelled in code units.

`numeral b n` spells `n` in base `b` the way formatters do, without
leading zeros; `spelled` reads digits back by the rule every hand-written
reader uses. Decimal digit texts without a leading zero are numerals
(`eq_numeral`), so a strict reader accepts one text for a number.

`lengthPrefixed` puts the length in front of a value; what it is followed
by can then be told apart from it (`lengthPrefixed_append_inj`).
-/
import Mathlib

namespace RemoteDesk.Lib

/-- The code units of an ASCII literal. -/
def codes (s : String) : List Nat := s.toList.map Char.toNat

-- ================================== digits

def isDigitCode (c : Nat) : Bool := 48 ≤ c && c ≤ 57

theorem isDigitCode_iff {c : Nat} :
    isDigitCode c = true ↔ 48 ≤ c ∧ c ≤ 57 := by
  simp [isDigitCode]

/-- Hexadecimal, of either case. -/
def isHexCode (c : Nat) : Bool :=
  isDigitCode c || (97 ≤ c && c ≤ 102) || (65 ≤ c && c ≤ 70)

/-- The value of a hexadecimal digit. -/
def digitValue (c : Nat) : Nat :=
  if c ≤ 57 then c - 48 else if 97 ≤ c then c - 87 else c - 55

/-- The digit of a value below sixteen; the letters are small. -/
def digitCode (d : Nat) : Nat := if d < 10 then 48 + d else 87 + d

theorem digitValue_digitCode {d : Nat} (h : d < 16) :
    digitValue (digitCode d) = d := by
  unfold digitCode digitValue
  split
  · rw [if_pos (by omega)]
    omega
  · rw [if_neg (by omega), if_pos (by omega)]
    omega

theorem digitCode_digitValue {c : Nat} (h : isDigitCode c = true) :
    digitCode (digitValue c) = c := by
  have hc := isDigitCode_iff.mp h
  unfold digitValue digitCode
  rw [if_pos hc.2, if_pos (by omega)]
  omega

theorem isHexCode_digitCode {d : Nat} (h : d < 16) :
    isHexCode (digitCode d) = true := by
  unfold isHexCode isDigitCode digitCode
  split
  · simp
    omega
  · simp
    omega

theorem isDigitCode_digitCode {d : Nat} (h : d < 10) :
    isDigitCode (digitCode d) = true := by
  rw [digitCode, if_pos h, isDigitCode_iff]
  omega

theorem digitValue_lt_ten {c : Nat} (h : isDigitCode c = true) :
    digitValue c < 10 := by
  have hc := isDigitCode_iff.mp h
  unfold digitValue
  rw [if_pos hc.2]
  omega

-- ================================= numbers

/-- The number digits spell, first digit first. -/
def spelled (base : Nat) (text : List Nat) : Nat :=
  text.foldl (fun n c => n * base + digitValue c) 0

theorem spelled_eq (base : Nat) (text : List Nat) :
    spelled base text
      = Nat.ofDigits base (text.reverse.map digitValue) := by
  rw [spelled, Nat.ofDigits_eq_foldr, List.foldr_map, List.foldr_reverse]
  congr 1
  funext n c
  show n * base + digitValue c = digitValue c + base * n
  rw [Nat.mul_comm base, Nat.add_comm]

/-- The text of a number. -/
def numeral (base n : Nat) : List Nat :=
  if n = 0 then [48] else (base.digits n).reverse.map digitCode

theorem numeral_ne_nil (base n : Nat) : numeral base n ≠ [] := by
  unfold numeral
  split
  · simp
  · rw [ne_eq, List.map_eq_nil_iff, List.reverse_eq_nil_iff]
    exact Nat.digits_ne_nil_iff_ne_zero.mpr ‹_›

theorem mem_numeral {base n c : Nat} (hb : 1 < base)
    (h : c ∈ numeral base n) : ∃ d < base, c = digitCode d := by
  unfold numeral at h
  split at h
  · exact ⟨0, by omega, List.mem_singleton.mp h⟩
  · obtain ⟨d, hd, rfl⟩ := List.mem_map.mp h
    exact ⟨d, Nat.digits_lt_base hb (List.mem_reverse.mp hd), rfl⟩

theorem isDigitCode_of_mem {n c : Nat} (h : c ∈ numeral 10 n) :
    isDigitCode c = true := by
  obtain ⟨d, hd, rfl⟩ := mem_numeral (by norm_num) h
  exact isDigitCode_digitCode hd

theorem isHexCode_of_mem {n c : Nat} (h : c ∈ numeral 16 n) :
    isHexCode c = true := by
  obtain ⟨d, hd, rfl⟩ := mem_numeral (by norm_num) h
  exact isHexCode_digitCode hd

/-- A numeral spells its number. -/
@[simp] theorem spelled_numeral {base n : Nat} (hb : 1 < base)
    (hle : base ≤ 16) : spelled base (numeral base n) = n := by
  rw [spelled_eq, numeral]
  split
  · rename_i h
    rw [h]
    rfl
  · have hmap : ((base.digits n).map digitCode).map digitValue
        = base.digits n := by
      rw [List.map_map]
      conv_rhs => rw [← List.map_id (base.digits n)]
      refine List.map_congr_left fun d hd => ?_
      exact digitValue_digitCode
        ((Nat.digits_lt_base hb hd).trans_le hle)
    rw [← List.map_reverse, List.reverse_reverse, hmap,
      Nat.ofDigits_digits]

theorem numeral_inj {base m n : Nat} (hb : 1 < base) (hle : base ≤ 16)
    (h : numeral base m = numeral base n) : m = n := by
  have hspelled := congrArg (spelled base) h
  rwa [spelled_numeral hb hle, spelled_numeral hb hle] at hspelled

theorem length_numeral_le {base n k : Nat} (hb : 1 < base) (hk : 0 < k)
    (h : n < base ^ k) : (numeral base n).length ≤ k := by
  unfold numeral
  split
  · exact hk
  · rw [List.length_map, List.length_reverse]
    exact (Nat.digits_length_le_iff hb n).mpr h

theorem length_numeral_pos (base n : Nat) : 0 < (numeral base n).length :=
  List.length_pos_of_ne_nil (numeral_ne_nil base n)

/-- Only zero starts with a zero. -/
theorem head_numeral {base n : Nat} (hb : 1 < base) (hle : base ≤ 16)
    (hn : n ≠ 0) : (numeral base n).head? ≠ some 48 := by
  have hne : base.digits n ≠ [] := Nat.digits_ne_nil_iff_ne_zero.mpr hn
  have hlast := Nat.getLast_digit_ne_zero base hn
  have hlt := Nat.digits_lt_base hb (List.getLast_mem hne)
  rw [numeral, if_neg hn, List.map_reverse, List.head?_reverse,
    List.getLast?_map, List.getLast?_eq_some_getLast hne]
  intro h
  have hcode := Option.some.inj h
  have hvalue := congrArg digitValue hcode
  rw [digitValue_digitCode (hlt.trans_le hle)] at hvalue
  exact hlast hvalue

/-- Digits without a leading zero are a numeral. -/
theorem eq_numeral {text : List Nat} (hne : text ≠ [])
    (hdigits : ∀ c ∈ text, isDigitCode c = true)
    (hhead : text.head? = some 48 → text.length = 1) :
    text = numeral 10 (spelled 10 text) := by
  by_cases hzero : text.head? = some 48
  · obtain ⟨c, hc⟩ := List.length_eq_one_iff.mp (hhead hzero)
    rw [hc] at hzero ⊢
    rw [Option.some.inj hzero]
    rfl
  · have hvalues : (10).digits (spelled 10 text)
        = text.reverse.map digitValue := by
      rw [spelled_eq]
      refine Nat.digits_ofDigits 10 (by norm_num) _ ?_ ?_
      · intro d hd
        obtain ⟨c, hc, rfl⟩ := List.mem_map.mp hd
        exact digitValue_lt_ten (hdigits c (List.mem_reverse.mp hc))
      · intro h
        obtain ⟨c, rest, rfl⟩ := List.exists_cons_of_ne_nil hne
        simp only [List.reverse_cons, List.map_append, List.map_cons,
          List.map_nil, List.getLast_append_singleton]
        have hc := isDigitCode_iff.mp (hdigits c List.mem_cons_self)
        have hne48 : c ≠ 48 := fun h => hzero (by rw [h]; rfl)
        unfold digitValue
        rw [if_pos hc.2]
        omega
    have hnz : spelled 10 text ≠ 0 := by
      intro h
      rw [h, Nat.digits_zero] at hvalues
      have hnil := List.map_eq_nil_iff.mp hvalues.symm
      exact hne (List.reverse_eq_nil_iff.mp hnil)
    rw [numeral, if_neg hnz, hvalues, ← List.map_reverse,
      List.reverse_reverse, List.map_map]
    conv_lhs => rw [← List.map_id text]
    exact List.map_congr_left fun c hc =>
      (digitCode_digitValue (hdigits c hc)).symm

-- ========================= length prefixes

/-- A value with its length in front. -/
def lengthPrefixed (value : List Nat) : List Nat :=
  numeral 10 value.length ++ codes ":" ++ value

/-- What comes before the first code unit that is no digit can be told. -/
theorem numeral_append_inj {m n c d : Nat} {s t : List Nat}
    (hc : isDigitCode c = false) (hd : isDigitCode d = false)
    (h : numeral 10 m ++ c :: s = numeral 10 n ++ d :: t) :
    m = n ∧ c :: s = d :: t := by
  have hspan : ∀ {k e : Nat} {r : List Nat}, isDigitCode e = false →
      (numeral 10 k ++ e :: r).takeWhile isDigitCode = numeral 10 k := by
    intro k e r he
    rw [List.takeWhile_append_of_pos fun c hc => isDigitCode_of_mem hc,
      List.takeWhile_cons, he]
    simp
  have heq : numeral 10 m = numeral 10 n := by
    rw [← hspan (k := m) (r := s) hc, h, hspan hd]
  refine ⟨numeral_inj (by norm_num) (by norm_num) heq, ?_⟩
  rw [heq] at h
  exact List.append_cancel_left h

theorem lengthPrefixed_append_inj {v w s t : List Nat}
    (h : lengthPrefixed v ++ s = lengthPrefixed w ++ t) :
    v = w ∧ s = t := by
  unfold lengthPrefixed at h
  simp only [List.append_assoc] at h
  obtain ⟨hlen, htail⟩ := numeral_append_inj (c := 58) (d := 58)
    rfl rfl h
  exact List.append_inj (List.cons.inj htail).2 hlen

/-- Values in a row, each with its length in front, can be told apart. -/
theorem flatMap_lengthPrefixed_inj {vs ws : List (List Nat)}
    (h : vs.flatMap lengthPrefixed = ws.flatMap lengthPrefixed) : vs = ws := by
  have hne : ∀ v s, lengthPrefixed v ++ s ≠ [] := by
    intro v s
    simp [lengthPrefixed, codes]
  induction vs generalizing ws with
  | nil =>
    cases ws with
    | nil => rfl
    | cons w ws =>
      rw [List.flatMap_nil, List.flatMap_cons] at h
      exact absurd h.symm (hne w _)
  | cons v vs ih =>
    cases ws with
    | nil =>
      rw [List.flatMap_nil, List.flatMap_cons] at h
      exact absurd h (hne v _)
    | cons w ws =>
      rw [List.flatMap_cons, List.flatMap_cons] at h
      obtain ⟨rfl, hrest⟩ := lengthPrefixed_append_inj h
      rw [ih hrest]

end RemoteDesk.Lib
