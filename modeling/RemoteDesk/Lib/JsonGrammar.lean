/-
The grammar of JSON texts over bytes.

`Derives` says which texts are values. It is a relation of a text to
itself only: what a value means is not read off, so a scanner that skips
values is compared with it and not with a parser.

# Dialects

What scanners disagree about is a parameter: which bytes may stand
between tokens, what a number looks like, and whether an object may end
in a comma. `Dialect.strict` is the grammar of the standard.

# Room

`Derives D k r t` allows `r` levels of non-empty containers below the
text; a value of the grammar without a limit is one of some room.
-/
import Mathlib

namespace RemoteDesk.Lib.JsonGrammar

abbrev Bytes := List UInt8

-- ================================== tokens

/-- `true`. -/
def trueToken : Bytes := [116, 114, 117, 101]

/-- `false`. -/
def falseToken : Bytes := [102, 97, 108, 115, 101]

/-- `null`. -/
def nullToken : Bytes := [110, 117, 108, 108]

def isDigit (c : UInt8) : Bool := decide (48 ≤ c ∧ c ≤ 57)

def isHexDigit (c : UInt8) : Bool :=
  isDigit c || decide (97 ≤ c ∧ c ≤ 102) || decide (65 ≤ c ∧ c ≤ 70)

/-- What may follow a backslash, `u` apart: the quote, the backslash,
the slash, and `b f n r t`. -/
def isEscape (c : UInt8) : Bool :=
  c ∈ ([34, 92, 47, 98, 102, 110, 114, 116] : Bytes)

/-- What stands between the quotes of a string. -/
inductive Chars : Bytes → Prop
  | nil : Chars []
  | plain {c : UInt8} {s : Bytes} (hc : 32 ≤ c) (hq : c ≠ 34)
      (hb : c ≠ 92) (hs : Chars s) : Chars (c :: s)
  | escape {e : UInt8} {s : Bytes} (he : isEscape e = true)
      (hs : Chars s) : Chars (92 :: e :: s)
  | unicode {a b c d : UInt8} {s : Bytes}
      (h : [a, b, c, d].all isHexDigit = true) (hs : Chars s) :
      Chars (92 :: 117 :: a :: b :: c :: d :: s)

def quoted (s : Bytes) : Bytes := 34 :: (s ++ [34])

/-- The digits of a number before its point: none leading but a lone
zero. -/
def Whole (t : Bytes) : Prop :=
  t = [48] ∨ ∃ d ds, t = d :: ds ∧ isDigit d = true ∧ d ≠ 48
    ∧ ds.all isDigit = true

def Fraction (t : Bytes) : Prop :=
  t = [] ∨ ∃ d ds, t = 46 :: d :: ds ∧ (d :: ds).all isDigit = true

def Exponent (t : Bytes) : Prop :=
  t = [] ∨ ∃ e sign d ds, t = e :: (sign ++ d :: ds)
    ∧ (e = 101 ∨ e = 69) ∧ sign ∈ ([[], [43], [45]] : List Bytes)
    ∧ (d :: ds).all isDigit = true

/-- A number: a sign, the digits before the point, a fraction, an
exponent. -/
def Number (t : Bytes) : Prop :=
  ∃ sign whole fraction exponent,
    t = sign ++ (whole ++ (fraction ++ exponent))
      ∧ sign ∈ ([[], [45]] : List Bytes)
      ∧ Whole whole ∧ Fraction fraction ∧ Exponent exponent

-- ================================ dialects

/-- What scanners of JSON disagree about. -/
structure Dialect where
  blank : UInt8 → Bool
  number : Bytes → Prop
  /-- May a comma stand before the brace that closes an object? -/
  trailing : Bool

/-- The grammar of the standard. -/
def Dialect.strict : Dialect :=
  { blank := fun c => c ∈ ([32, 9, 10, 13] : Bytes)
    number := Number
    trailing := false }

namespace Dialect

variable (D : Dialect)

/-- Nothing but what may stand between tokens. -/
def Blank (w : Bytes) : Prop := ∀ c ∈ w, D.blank c = true

/-- A value without quotes or brackets. -/
def Scalar (t : Bytes) : Prop :=
  t ∈ [trueToken, falseToken, nullToken] ∨ D.number t

/-- The key `s` and its colon. -/
def Keyed (s k : Bytes) : Prop :=
  ∃ w w', k = w ++ (quoted s ++ (w' ++ [58]))
    ∧ D.Blank w ∧ Chars s ∧ D.Blank w'

/-- What stands before the value of an element: nothing in an array, a
key and its colon in an object. -/
def Lead (object : Bool) (k : Bytes) : Prop :=
  match object with
  | false => k = []
  | true => ∃ s, D.Keyed s k

end Dialect

-- ================================= grammar

def opening (object : Bool) : UInt8 := if object then 123 else 91
def closing (object : Bool) : UInt8 := if object then 125 else 93

/-- A value, or the elements of a container with the bracket that closes
it. -/
inductive Kind
  | value
  | items (object : Bool)

/-- The texts of the grammar. -/
inductive Derives (D : Dialect) : Kind → Nat → Bytes → Prop
  | scalar {r t} (h : D.Scalar t) : Derives D .value r t
  | string {r s} (h : Chars s) : Derives D .value r (quoted s)
  | empty {r w} (object : Bool) (hw : D.Blank w) :
      Derives D .value r (opening object :: (w ++ [closing object]))
  | container {r body} (object : Bool)
      (h : Derives D (.items object) r body) :
      Derives D .value (r + 1) (opening object :: body)
  | last {r object k w v w'} (hk : D.Lead object k) (hw : D.Blank w)
      (hv : Derives D .value r v) (hw' : D.Blank w') :
      Derives D (.items object) r
        (k ++ (w ++ (v ++ (w' ++ [closing object]))))
  | more {r object k w v w' rest} (hk : D.Lead object k)
      (hw : D.Blank w) (hv : Derives D .value r v) (hw' : D.Blank w')
      (hrest : Derives D (.items object) r rest) :
      Derives D (.items object) r
        (k ++ (w ++ (v ++ (w' ++ 44 :: rest))))

/-- The members of an object behind its opening brace, up to the brace
that closes it: the keys as they are spelled and the texts of the
values. The flag tells whether the object may be closed here. -/
inductive Members (D : Dialect) (r : Nat) :
    Bool → List (Bytes × Bytes) → Bytes → Prop
  | close {w} (hw : D.Blank w) : Members D r true [] (w ++ [125])
  | last {closes s k w v w'} (hk : D.Keyed s k) (hw : D.Blank w)
      (hv : Derives D .value r v) (hw' : D.Blank w') :
      Members D r closes [(s, v)] (k ++ (w ++ (v ++ (w' ++ [125]))))
  | more {closes s k w v w' ms rest} (hk : D.Keyed s k)
      (hw : D.Blank w) (hv : Derives D .value r v) (hw' : D.Blank w')
      (hrest : Members D r D.trailing ms rest) :
      Members D r closes ((s, v) :: ms)
        (k ++ (w ++ (v ++ (w' ++ 44 :: rest))))

/-- The whole text is one object with these members. -/
def Object (D : Dialect) (r : Nat) (ms : List (Bytes × Bytes))
    (text : Bytes) : Prop :=
  ∃ w body w', text = w ++ 123 :: (body ++ w')
    ∧ D.Blank w ∧ Members D r true ms body ∧ D.Blank w'

-- ================================= numbers

/-- The bytes a number is spelled with. -/
def isNumberByte (c : UInt8) : Bool :=
  isDigit c || decide (c ∈ ([43, 45, 46, 69, 101] : Bytes))

theorem isNumberByte_of_isDigit {c : UInt8} (h : isDigit c = true) :
    isNumberByte c = true := by
  rw [isNumberByte, h, Bool.true_or]

private theorem numberByte_digits {ds : Bytes}
    (h : ds.all isDigit = true) : ∀ c ∈ ds, isNumberByte c = true :=
  fun c hc => isNumberByte_of_isDigit (List.all_eq_true.mp h c hc)

private theorem numberByte_sign {sign : Bytes} {c : UInt8}
    (h : sign ∈ ([[], [43], [45]] : List Bytes)) (hc : c ∈ sign) :
    isNumberByte c = true := by
  simp only [List.mem_cons, List.not_mem_nil, or_false] at h
  rcases h with rfl | rfl | rfl
  · cases hc
  · rw [List.mem_singleton.mp hc]; rfl
  · rw [List.mem_singleton.mp hc]; rfl

/-- A number starts with a digit, or with its sign. -/
theorem Whole.head {t : Bytes} (h : Whole t) :
    ∃ d ds, t = d :: ds ∧ isDigit d = true ∧ ds.all isDigit = true := by
  rcases h with rfl | ⟨d, ds, rfl, hd, -, hds⟩
  · exact ⟨48, [], rfl, rfl, rfl⟩
  · exact ⟨d, ds, rfl, hd, hds⟩

theorem Number.ne_nil {t : Bytes} (h : Number t) : t ≠ [] := by
  obtain ⟨sign, whole, fraction, exponent, rfl, -, hw, -⟩ := h
  obtain ⟨d, ds, rfl, -⟩ := hw.head
  simp

theorem Number.isNumberByte {t : Bytes} (h : Number t) :
    ∀ c ∈ t, isNumberByte c = true := by
  obtain ⟨sign, whole, fraction, exponent, rfl, hs, hw, hf, he⟩ := h
  intro c hc
  simp only [List.mem_append] at hc
  rcases hc with hc | hc | hc | hc
  · apply numberByte_sign _ hc
    simp only [List.mem_cons, List.not_mem_nil, or_false] at hs ⊢
    tauto
  · obtain ⟨d, ds, rfl, hd, hds⟩ := hw.head
    apply numberByte_digits _ c hc
    rw [List.all_cons, hd, hds, Bool.true_and]
  · rcases hf with rfl | ⟨d, ds, rfl, hds⟩
    · cases hc
    · rcases List.mem_cons.mp hc with rfl | hc
      · rfl
      · exact numberByte_digits hds c hc
  · rcases he with rfl | ⟨e, sign', d, ds, rfl, he, hs', hds⟩
    · cases hc
    · rcases List.mem_cons.mp hc with rfl | hc
      · rcases he with rfl | rfl <;> rfl
      · rcases List.mem_append.mp hc with hc | hc
        · exact numberByte_sign hs' hc
        · exact numberByte_digits hds c hc

-- ======================= the ends of texts

section Ends

variable {D : Dialect} {r : Nat} {t : Bytes}

/-- The bytes a value can start with: a quote, a bracket, a letter of the
three words, or those of a number. -/
def startsValue (c : UInt8) : Bool :=
  isNumberByte c || decide (c ∈ ([34, 91, 102, 110, 116, 123] : Bytes))

/-- A standard value starts with one of its own bytes. -/
theorem Derives.head (h : Derives .strict .value r t) :
    ∃ c t', t = c :: t' ∧ startsValue c = true := by
  cases h with
  | scalar h =>
    rcases h with h | h
    · simp only [List.mem_cons, List.not_mem_nil, or_false] at h
      rcases h with rfl | rfl | rfl
      · exact ⟨116, _, rfl, rfl⟩
      · exact ⟨102, _, rfl, rfl⟩
      · exact ⟨110, _, rfl, rfl⟩
    · obtain ⟨c, t', rfl⟩ := List.exists_cons_of_ne_nil (Number.ne_nil h)
      refine ⟨c, t', rfl, ?_⟩
      rw [startsValue, Number.isNumberByte h c List.mem_cons_self,
        Bool.true_or]
  | string h => exact ⟨34, _, rfl, rfl⟩
  | empty object => cases object <;> exact ⟨_, _, rfl, rfl⟩
  | container object => cases object <;> exact ⟨_, _, rfl, rfl⟩

/-- The elements of a container end with the bracket that closes it. -/
theorem Derives.items_concat {object : Bool}
    (h : Derives D (.items object) r t) :
    ∃ pre, t = pre ++ [closing object] := by
  generalize hk : Kind.items object = kind at h
  induction h with
  | scalar | string | empty | container => cases hk
  | @last r object' k w v w' =>
    cases hk
    exact ⟨k ++ (w ++ (v ++ w')), by simp⟩
  | @more r object' k w v w' rest hlead hw hv hw' hrest _ ih =>
    cases hk
    obtain ⟨pre, hpre⟩ := ih rfl
    exact ⟨k ++ (w ++ (v ++ (w' ++ 44 :: pre))), by simp [hpre]⟩

/-- A standard value does not end in a comma. -/
theorem Derives.concat (h : Derives .strict .value r t) :
    ∃ pre c, t = pre ++ [c] ∧ c ≠ 44 := by
  cases h with
  | scalar h =>
    rcases h with h | h
    · simp only [List.mem_cons, List.not_mem_nil, or_false] at h
      rcases h with rfl | rfl | rfl
      · exact ⟨[116, 114, 117], 101, rfl, by decide⟩
      · exact ⟨[102, 97, 108, 115], 101, rfl, by decide⟩
      · exact ⟨[110, 117, 108], 108, rfl, by decide⟩
    · rcases List.eq_nil_or_concat t with rfl | ⟨pre, c, rfl⟩
      · exact absurd rfl (Number.ne_nil h)
      · refine ⟨pre, c, List.concat_eq_append, ?_⟩
        rintro rfl
        have hbyte := Number.isNumberByte h 44 (by simp)
        revert hbyte
        decide
  | @string r s h => exact ⟨34 :: s, 34, rfl, by decide⟩
  | @empty r w object =>
    refine ⟨opening object :: w, closing object, rfl, ?_⟩
    cases object <;> decide
  | @container r body object h =>
    obtain ⟨pre, rfl⟩ := h.items_concat
    refine ⟨opening object :: pre, closing object, rfl, ?_⟩
    cases object <;> decide

/-- No comma stands before the brace that closes a standard object, and
nothing at all before the one that closes it at once. -/
theorem Members.concat {closes : Bool} {ms : List (Bytes × Bytes)}
    (h : Members .strict r closes ms t) :
    (closes = true ∧ t = [125])
      ∨ ∃ pre c, t = pre ++ [c, 125] ∧ c ≠ 44 := by
  have hblank : ∀ {w : Bytes}, Dialect.strict.Blank w → ∀ c ∈ w,
      c ≠ 44 := by
    rintro w hw c hc rfl
    have hstrict := hw 44 hc
    revert hstrict
    decide
  induction h with
  | @close w hw =>
    rcases List.eq_nil_or_concat w with rfl | ⟨pre, c, rfl⟩
    · exact Or.inl ⟨rfl, rfl⟩
    · exact Or.inr ⟨pre, c, by simp, hblank hw c (by simp)⟩
  | @last closes s k w v w' hk hw hv hw' =>
    right
    rcases List.eq_nil_or_concat w' with rfl | ⟨pre, c, rfl⟩
    · obtain ⟨pre, c, rfl, hc⟩ := hv.concat
      exact ⟨k ++ (w ++ pre), c, by simp, hc⟩
    · exact ⟨k ++ (w ++ (v ++ pre)), c, by simp,
        hblank hw' c (by simp)⟩
  | @more closes s k w v w' ms rest hk hw hv hw' hrest ih =>
    right
    rcases ih with ⟨hcloses, -⟩ | ⟨pre, c, rfl, hc⟩
    · cases hcloses
    · exact ⟨k ++ (w ++ (v ++ (w' ++ 44 :: pre))), c, by simp, hc⟩

end Ends

end RemoteDesk.Lib.JsonGrammar
