/-
The file clipboard capability of a peer (`json_file_capability`,
file_clipboard.rs): a scanner that skips over a JSON text of the peer
and answers whether its top level says `"has_file_clipboard": true`.

# What is modelled

All of the function, over the bytes of its `&str`. A position in the
text is what follows it, and `b[start..p]` is what the position moved
over. `u8::is_ascii_whitespace` and the spellings `f64::from_str` takes
are the standard library's; `from_utf8` of a token of a `&str` cut at
ASCII bytes does not fail, and no token it could fail on is a spelling
below.

The loops and the recursion of `value` run on fuel, and running out of
it is an error of its own (`Stop.fuel`), so that termination is a
statement: `value_fuel`, `members_fuel`.

# What it accepts

The scanner's own dialect (`Dialect.scanned`) is wider than the
standard's in three places: a comma may stand before the brace that
closes the top level, a form feed is a blank, and a number is whatever
`f64::from_str` reads (`NaN`, `+1`, `.5`, `01`). Everything the standard
derives within the limits is accepted, and nothing is that the scanned
dialect does not derive (`json_file_capability_grammar`).
-/
import RemoteDesk.Lib.JsonGrammar

namespace RemoteDesk.Clipboard

open Lib.JsonGrammar

-- ======================== standard library

/-- `u8::is_ascii_whitespace`: the standard's blanks, and the form
feed. -/
def isAsciiWhitespace (c : UInt8) : Bool :=
  c ∈ ([32, 9, 10, 12, 13] : Bytes)

def toAsciiLowercase (c : UInt8) : UInt8 :=
  if 65 ≤ c ∧ c ≤ 90 then c + 32 else c

def dropSign : Bytes → Bytes
  | [] => []
  | c :: b => if c = 43 ∨ c = 45 then b else c :: b

/-- An exponent up to the end, or the end. -/
def exponentToEnd : Bytes → Bool
  | [] => true
  | e :: b => decide (e = 101 ∨ e = 69)
      && !(dropSign b).isEmpty && (dropSign b).all isDigit

/-- What `str::parse::<f64>` takes: a sign, then an infinity, a NaN or
decimal digits with at least one on either side of the point. -/
def parsesAsF64 (token : Bytes) : Bool :=
  let body := dropSign token
  if body.map toAsciiLowercase ∈ ([[105, 110, 102],
      [105, 110, 102, 105, 110, 105, 116, 121], [110, 97, 110]]
        : List Bytes) then true
  else
    let whole := body.takeWhile isDigit
    match body.dropWhile isDigit with
    | [] => !whole.isEmpty
    | c :: b =>
      if c = 46 then
        (!whole.isEmpty || !(b.takeWhile isDigit).isEmpty)
          && exponentToEnd (b.dropWhile isDigit)
      else !whole.isEmpty && exponentToEnd (c :: b)

-- ================================= scanner

/-- Why the scanner stops: the text is not what it reads, or the model
ran out of fuel. -/
inductive Stop
  | malformed
  | fuel
  deriving DecidableEq, Repr

/-- `whitespace`. -/
def whitespace (b : Bytes) : Bytes := b.dropWhile isAsciiWhitespace

/-- The loop of `string`, behind the opening quote: what stands between
the quotes and what follows the closing one. -/
def stringLoop : Bytes → Option (Bytes × Bytes)
  | [] => none
  | v :: b =>
    if v = 34 then some ([], b)
    else if v < 32 then none
    else if v = 92 then
      match b with
      | [] => none
      | escaped :: b =>
        if escaped = 117 then
          match b with
          | h₁ :: h₂ :: h₃ :: h₄ :: b =>
            if [h₁, h₂, h₃, h₄].all isHexDigit then
              (stringLoop b).map fun (out, rest) =>
                (v :: escaped :: h₁ :: h₂ :: h₃ :: h₄ :: out, rest)
            else none
          | _ => none
        else if isEscape escaped then
          (stringLoop b).map fun (out, rest) =>
            (v :: escaped :: out, rest)
        else none
    else (stringLoop b).map fun (out, rest) => (v :: out, rest)

/-- `string`. -/
def string : Bytes → Option (Bytes × Bytes)
  | [] => none
  | c :: b => if c = 34 then stringLoop b else none

/-- Where a token without quotes or brackets ends. -/
def isTokenEnd (c : UInt8) : Bool :=
  c ∈ ([44, 93, 125, 32, 13, 10, 9] : Bytes)

/-- The last arm of `value`: a word or a number. -/
def scalar (b : Bytes) : Except Stop Bytes :=
  let token := b.takeWhile fun c => !isTokenEnd c
  if token ∈ [trueToken, falseToken, nullToken]
      ∨ parsesAsF64 token = true then
    .ok (b.dropWhile fun c => !isTokenEnd c)
  else .error .malformed

/-- A key of an object and its colon: the key, and what follows. -/
def keyColon (b : Bytes) : Except Stop (Bytes × Bytes) :=
  match string (whitespace b) with
  | none => .error .malformed
  | some (key, b) =>
    match whitespace b with
    | [] => .error .malformed
    | c :: b => if c = 58 then .ok (key, b) else .error .malformed

mutual

/-- `value`: what follows the value at the front of `b`. -/
def value : Nat → Nat → Bytes → Except Stop Bytes
  | 0, _, _ => .error .fuel
  | fuel + 1, depth, b =>
    if depth > 16 then .error .malformed
    else
      match whitespace b with
      | [] => .error .malformed
      | c :: b =>
        if c = 34 then
          match string (c :: b) with
          | none => .error .malformed
          | some (_, b) => .ok b
        else if c = 123 ∨ c = 91 then
          let object := decide (c = 123)
          match whitespace b with
          | [] => items fuel object depth []
          | d :: b =>
            if d = closing object then .ok b
            else items fuel object depth (d :: b)
        else scalar (c :: b)

/-- The loop of `value` over the elements of a container. -/
def items : Nat → Bool → Nat → Bytes → Except Stop Bytes
  | 0, _, _, _ => .error .fuel
  | fuel + 1, object, depth, b =>
    match (if object then keyColon b else .ok ([], b)) with
    | .error stop => .error stop
    | .ok (_, b) =>
      match value fuel (depth + 1) b with
      | .error stop => .error stop
      | .ok b =>
        match whitespace b with
        | [] => .error .malformed
        | c :: b =>
          if c = closing object then .ok b
          else if c = 44 then items fuel object depth b
          else .error .malformed

end

/-- Fuel for a value at the front of `b`: two calls for every byte. -/
def valueFuel (b : Bytes) : Nat := 2 * b.length + 1

/-- The key the scanner looks for, `has_file_clipboard`. -/
def capabilityKey : Bytes :=
  [104, 97, 115, 95, 102, 105, 108, 101, 95, 99, 108, 105, 112, 98, 111,
    97, 114, 100]

/-- The loop over the members of the top level, with what was found so
far. -/
def members : Nat → Option Bool → Bytes →
    Except Stop (Option Bool × Bytes)
  | 0, _, _ => .error .fuel
  | fuel + 1, found, b =>
    match whitespace b with
    | [] => .error .malformed
    | c :: b =>
      if c = 125 then .ok (found, b)
      else
        match keyColon (c :: b) with
        | .error stop => .error stop
        | .ok (key, b) =>
          let start := whitespace b
          match value (valueFuel start) 0 start with
          | .error stop => .error stop
          | .ok b =>
            let text := start.take (start.length - b.length)
            if key = capabilityKey ∧ found.isSome then
              .error .malformed
            else
              let found := if key = capabilityKey
                then some (decide (text = trueToken)) else found
              match whitespace b with
              | [] => .error .malformed
              | c :: b =>
                if c = 125 then .ok (found, b)
                else if c = 44 then members fuel found b
                else .error .malformed

attribute [local simp] value items members

/-- `json_file_capability`. -/
def jsonFileCapability (input : Bytes) : Except Stop Bool :=
  if input.length > 65536 then .ok false
  else
    match whitespace input with
    | [] => .ok false
    | c :: b =>
      if c = 123 then
        match members (b.length + 1) none b with
        | .error .malformed => .ok false
        | .error .fuel => .error .fuel
        | .ok (found, rest) =>
          .ok (decide (whitespace rest = [] ∧ found = some true))
      else .ok false

-- ================================= dialect

/-- The dialect the scanner reads. -/
def scanned : Dialect :=
  { blank := isAsciiWhitespace
    number := fun t => parsesAsF64 t = true
    trailing := true }

theorem strict_blank {w : Bytes} (h : Dialect.strict.Blank w) :
    scanned.Blank w := by
  intro c hc
  have hblank := h c hc
  simp only [Dialect.strict, List.mem_cons, List.not_mem_nil, or_false,
    decide_eq_true_eq] at hblank
  rcases hblank with rfl | rfl | rfl | rfl <;> rfl

variable {s : Bytes} {c : UInt8}

theorem strict_keyed {k : Bytes} (h : Dialect.strict.Keyed s k) :
    scanned.Keyed s k := by
  obtain ⟨w, w', hk, hw, hs, hw'⟩ := h
  exact ⟨w, w', hk, strict_blank hw, hs, strict_blank hw'⟩

/-- What a standard value starts with is neither a blank nor a bracket
that closes. -/
theorem startsValue_facts (h : startsValue c = true) :
    isAsciiWhitespace c = false ∧ c ≠ 93 ∧ c ≠ 125 := by
  revert c
  decide +kernel

-- ================================== blanks

section Blanks

variable {b rest w : Bytes}

theorem whitespace_split (b : Bytes) :
    ∃ w, b = w ++ whitespace b ∧ scanned.Blank w :=
  ⟨b.takeWhile isAsciiWhitespace, List.takeWhile_append_dropWhile.symm,
    fun _ hc => List.mem_takeWhile_imp hc⟩

theorem whitespace_length (b : Bytes) :
    (whitespace b).length ≤ b.length :=
  List.length_dropWhile_le _ _

theorem whitespace_append (hw : scanned.Blank w) :
    whitespace (w ++ b) = whitespace b := by
  induction w with
  | nil => rfl
  | cons c w ih =>
    have hc : isAsciiWhitespace c = true := hw c List.mem_cons_self
    rw [List.cons_append, whitespace, List.dropWhile_cons_of_pos hc]
    exact ih fun c' hc' => hw c' (List.mem_cons_of_mem _ hc')

theorem whitespace_cons (hc : isAsciiWhitespace c = false) :
    whitespace (c :: b) = c :: b := by
  apply List.dropWhile_cons_of_neg
  rw [hc]
  exact Bool.false_ne_true

theorem whitespace_head (h : whitespace b = c :: rest) :
    isAsciiWhitespace c = false := by
  have hhead := List.head?_dropWhile_not isAsciiWhitespace b
  rw [show b.dropWhile isAsciiWhitespace = c :: rest from h] at hhead
  simpa using hhead

@[simp] theorem whitespace_whitespace (b : Bytes) :
    whitespace (whitespace b) = whitespace b := by
  cases h : whitespace b with
  | nil => rfl
  | cons c rest => exact whitespace_cons (whitespace_head h)

/-- A text that starts with no blank has no blanks in front of it. -/
theorem blank_eq_nil (hw : scanned.Blank w)
    (h : whitespace (w ++ b) = w ++ b) : w = [] := by
  cases w with
  | nil => rfl
  | cons c w =>
    have hc := hw c List.mem_cons_self
    rw [show scanned.blank c = false from whitespace_head h] at hc
    cases hc

end Blanks

-- ================================= strings

section Strings

variable {b rest k : Bytes}

private theorem stringLoop_chars (hs : Chars s) :
    stringLoop (s ++ 34 :: rest) = some (s, rest) := by
  induction hs with
  | nil =>
    rw [List.nil_append, stringLoop.eq_def]
    rfl
  | @plain c s hc hq hb hs ih =>
    have hlt : ¬ c < 32 := by simpa using hc
    rw [List.cons_append, stringLoop.eq_def]
    dsimp only
    rw [if_neg hq, if_neg hlt, if_neg hb, ih]
    rfl
  | @escape e s he hs ih =>
    have hu : e ≠ 117 := by
      rintro rfl
      revert he
      decide
    rw [List.cons_append, List.cons_append, stringLoop.eq_def]
    dsimp only
    rw [if_neg (by decide), if_neg (by decide), if_pos rfl, if_neg hu,
      if_pos he, ih]
    rfl
  | @unicode h₁ h₂ h₃ h₄ s hhex hs ih =>
    simp only [List.cons_append]
    rw [stringLoop.eq_def]
    dsimp only
    rw [if_neg (by decide), if_neg (by decide), if_pos rfl, if_pos rfl,
      if_pos hhex, ih]
    rfl

private theorem stringLoop_some (h : stringLoop b = some (s, rest)) :
    Chars s ∧ b = s ++ 34 :: rest := by
  induction b using stringLoop.induct generalizing s with
  | case1 => cases h
  | case2 b =>
    rw [stringLoop.eq_def] at h
    cases h
    exact ⟨.nil, rfl⟩
  | case3 c b hq hlt =>
    rw [stringLoop.eq_def] at h
    dsimp only at h
    rw [if_neg hq, if_pos hlt] at h
    cases h
  | case4 => cases h
  | case5 h₁ h₂ h₃ h₄ b hhex _ _ ih =>
    rw [stringLoop.eq_def] at h
    dsimp only at h
    rw [if_neg (by decide), if_neg (by decide), if_pos rfl, if_pos rfl,
      if_pos hhex] at h
    obtain ⟨⟨out, rest'⟩, hout, heq⟩ := Option.map_eq_some_iff.mp h
    cases heq
    obtain ⟨hs, rfl⟩ := ih hout
    exact ⟨.unicode hhex hs, rfl⟩
  | case6 h₁ h₂ h₃ h₄ b hhex =>
    rw [stringLoop.eq_def] at h
    dsimp only at h
    rw [if_neg (by decide), if_neg (by decide), if_pos rfl, if_pos rfl,
      if_neg hhex] at h
    cases h
  | case7 b hshort =>
    rw [stringLoop.eq_def] at h
    dsimp only at h
    rw [if_neg (by decide), if_neg (by decide), if_pos rfl,
      if_pos rfl] at h
    split at h
    · exact (hshort _ _ _ _ _ rfl).elim
    · cases h
  | case8 c b hu he _ _ ih =>
    rw [stringLoop.eq_def] at h
    dsimp only at h
    rw [if_neg (by decide), if_neg (by decide), if_pos rfl, if_neg hu,
      if_pos he] at h
    obtain ⟨⟨out, rest'⟩, hout, heq⟩ := Option.map_eq_some_iff.mp h
    cases heq
    obtain ⟨hs, rfl⟩ := ih hout
    exact ⟨.escape he hs, rfl⟩
  | case9 c b hu he =>
    rw [stringLoop.eq_def] at h
    dsimp only at h
    rw [if_neg (by decide), if_neg (by decide), if_pos rfl, if_neg hu,
      if_neg he] at h
    cases h
  | case10 c b hq hlt hb ih =>
    rw [stringLoop.eq_def] at h
    dsimp only at h
    rw [if_neg hq, if_neg hlt, if_neg hb] at h
    obtain ⟨⟨out, rest'⟩, hout, heq⟩ := Option.map_eq_some_iff.mp h
    cases heq
    obtain ⟨hs, rfl⟩ := ih hout
    exact ⟨.plain (by simpa using hlt) hq hb hs, rfl⟩

/-- `string` reads one string of the grammar. -/
theorem string_eq_some :
    string b = some (s, rest) ↔ Chars s ∧ b = quoted s ++ rest := by
  constructor
  · intro h
    cases b with
    | nil => cases h
    | cons c b =>
      rw [string] at h
      by_cases hc : c = 34
      · rw [if_pos hc] at h
        obtain ⟨hs, rfl⟩ := stringLoop_some h
        exact ⟨hs, by simp [quoted, hc]⟩
      · rw [if_neg hc] at h
        cases h
  · rintro ⟨hs, rfl⟩
    have heq : quoted s ++ rest = 34 :: (s ++ 34 :: rest) := by
      simp [quoted]
    rw [heq, string, if_pos rfl]
    exact stringLoop_chars hs

/-- `keyColon` reads one key and its colon. -/
theorem keyColon_eq_ok :
    keyColon b = .ok (s, rest) ↔
      ∃ k, scanned.Keyed s k ∧ b = k ++ rest := by
  constructor
  · intro h
    unfold keyColon at h
    rcases hstring : string (whitespace b) with _ | ⟨key, b'⟩
    · rw [hstring] at h; cases h
    rw [hstring] at h
    dsimp only at h
    obtain ⟨hs, hb⟩ := string_eq_some.mp hstring
    obtain ⟨w, hw, hblank⟩ := whitespace_split b
    obtain ⟨w', hw', hblank'⟩ := whitespace_split b'
    rcases hcolon : whitespace b' with _ | ⟨c, b''⟩
    · rw [hcolon] at h; cases h
    · rw [hcolon] at h
      dsimp only at h
      by_cases hc : c = 58
      · rw [if_pos hc] at h
        cases h
        refine ⟨w ++ (quoted s ++ (w' ++ [58])),
          ⟨w, w', rfl, hblank, hs, hblank'⟩, ?_⟩
        rw [hw, hb, hw', hcolon, hc]
        simp
      · rw [if_neg hc] at h
        cases h
  · rintro ⟨k, ⟨w, w', rfl, hw, hs, hw'⟩, rfl⟩
    have hquoted : ∀ b : Bytes, whitespace (quoted s ++ b) = quoted s ++ b :=
      fun b => whitespace_cons rfl
    have hcolon : ∀ b : Bytes, whitespace (58 :: b) = 58 :: b :=
      fun b => whitespace_cons rfl
    unfold keyColon
    rw [List.append_assoc, whitespace_append hw, List.append_assoc, hquoted,
      string_eq_some.mpr ⟨hs, rfl⟩]
    dsimp only
    rw [List.append_assoc, whitespace_append hw', List.singleton_append,
      hcolon]
    exact if_pos rfl

theorem keyColon_ne_fuel : keyColon b ≠ .error .fuel := by
  unfold keyColon
  intro h
  split at h
  · cases h
  · split at h
    · cases h
    · split at h <;> cases h

end Strings

-- ================================= scalars

section Scalars

variable {b rest t : Bytes}

/-- A run of bytes with `p` ends where a byte without it stands. -/
private theorem span_append {p : UInt8 → Bool} {l x : Bytes}
    (hl : ∀ c ∈ l, p c = true) (hx : ∀ c ∈ x.head?, p c = false) :
    (l ++ x).takeWhile p = l ∧ (l ++ x).dropWhile p = x := by
  rw [List.takeWhile_append_of_pos hl, List.dropWhile_append_of_pos hl]
  cases x with
  | nil => simp
  | cons c x =>
    have hc : ¬ p c = true := by simp [hx c rfl]
    rw [List.takeWhile_cons_of_neg hc, List.dropWhile_cons_of_neg hc,
      List.append_nil]
    exact ⟨rfl, rfl⟩

private theorem dropSign_digit {d : UInt8} (hd : isDigit d = true) :
    dropSign (d :: b) = d :: b := by
  apply if_neg
  rintro (rfl | rfl)
  · revert hd; decide
  · revert hd; decide

private theorem dropSign_append {d : UInt8} {sign : Bytes}
    (hs : sign ∈ ([[], [43], [45]] : List Bytes))
    (hd : isDigit d = true) :
    dropSign (sign ++ d :: b) = d :: b := by
  simp only [List.mem_cons, List.not_mem_nil, or_false] at hs
  rcases hs with rfl | rfl | rfl
  · exact dropSign_digit hd
  · rfl
  · rfl

private theorem exponentToEnd_exponent (h : Exponent t) :
    exponentToEnd t = true := by
  rcases h with rfl | ⟨e, sign, d, ds, rfl, he, hs, hds⟩
  · rfl
  · have hd : isDigit d = true := List.all_eq_true.mp hds d (by simp)
    rw [exponentToEnd, dropSign_append hs hd, hds]
    simpa using he

private theorem exponent_head (h : Exponent t) :
    ∀ c ∈ t.head?, isDigit c = false ∧ c ≠ 46 := by
  rcases h with rfl | ⟨e, sign, d, ds, rfl, he, -⟩
  · intro c hc; cases hc
  · intro c hc
    cases hc
    rcases he with rfl | rfl
    · exact ⟨rfl, by decide⟩
    · exact ⟨rfl, by decide⟩

/-- Every number of the standard is one `f64::from_str` reads. -/
theorem parsesAsF64_number (h : Number t) : parsesAsF64 t = true := by
  obtain ⟨sign, whole, fraction, exponent, rfl, hs, hw, hf, he⟩ := h
  obtain ⟨d, ds, rfl, hd, hds⟩ := hw.head
  have hs' : sign ∈ ([[], [43], [45]] : List Bytes) := by
    simp only [List.mem_cons, List.not_mem_nil, or_false] at hs ⊢
    tauto
  have hbody : dropSign (sign ++ (d :: ds ++ (fraction ++ exponent)))
      = d :: ds ++ (fraction ++ exponent) := dropSign_append hs' hd
  have hwhole : ∀ c ∈ d :: ds, isDigit c = true := by
    intro c hc
    rcases List.mem_cons.mp hc with rfl | hc
    · exact hd
    · exact List.all_eq_true.mp hds c hc
  have hhead : ∀ c ∈ (fraction ++ exponent).head?, isDigit c = false := by
    rcases hf with rfl | ⟨f, fs, rfl, -⟩
    · exact fun c hc => (exponent_head he c hc).1
    · intro c hc; cases hc; rfl
  obtain ⟨htake, hdrop⟩ := span_append hwhole hhead
  rw [parsesAsF64, hbody, htake, hdrop]
  split
  case isTrue => rfl
  case isFalse =>
    rcases hf with rfl | ⟨f, fs, rfl, hfs⟩
    · rw [List.nil_append]
      cases hexp : exponent with
      | nil => rfl
      | cons e es =>
        have hpoint : e ≠ 46 := (exponent_head he e (by simp [hexp])).2
        have hend := exponentToEnd_exponent he
        rw [hexp] at hend
        dsimp only
        rw [if_neg hpoint, hend]
        rfl
    · obtain ⟨htake', hdrop'⟩ := @span_append isDigit (f :: fs) exponent
        (List.all_eq_true.mp hfs) (fun c hc => (exponent_head he c hc).1)
      rw [List.cons_append]
      dsimp only
      rw [if_pos rfl, htake', hdrop', exponentToEnd_exponent he]
      rfl

/-- What may follow a word or a number: something that ends it, or
nothing. -/
def EndsToken (rest : Bytes) : Prop :=
  ∀ c ∈ rest.head?, isTokenEnd c = true

theorem scalar_eq_ok (h : scalar b = .ok rest) :
    ∃ t, scanned.Scalar t ∧ b = t ++ rest := by
  rw [scalar] at h
  by_cases ht : b.takeWhile (fun c => !isTokenEnd c)
      ∈ [trueToken, falseToken, nullToken]
    ∨ parsesAsF64 (b.takeWhile fun c => !isTokenEnd c) = true
  · rw [if_pos ht] at h
    cases h
    exact ⟨_, ht, List.takeWhile_append_dropWhile.symm⟩
  · rw [if_neg ht] at h
    cases h

private theorem isTokenEnd_numberByte :
    ∀ c, isNumberByte c = true → (!isTokenEnd c) = true := by
  decide +kernel

/-- `scalar` reads every word and number of the standard, up to what
ends it. -/
theorem scalar_strict (h : Dialect.strict.Scalar t)
    (hend : EndsToken rest) : scalar (t ++ rest) = .ok rest := by
  have hbytes : ∀ c ∈ t, (!isTokenEnd c) = true := by
    rcases h with h | h
    · simp only [List.mem_cons, List.not_mem_nil, or_false] at h
      rcases h with rfl | rfl | rfl <;>
        · apply List.all_eq_true.mp
          rfl
    · exact fun c hc => isTokenEnd_numberByte c (Number.isNumberByte h c hc)
  obtain ⟨htake, hdrop⟩ := span_append hbytes (x := rest) (by
    intro c hc
    rw [hend c hc]
    rfl)
  rw [scalar, htake, hdrop]
  apply if_pos
  rcases h with h | h
  · exact Or.inl h
  · exact Or.inr (parsesAsF64_number h)

theorem scalar_ne_fuel : scalar b ≠ .error .fuel := by
  rw [scalar]
  intro h
  split at h <;> cases h

end Scalars

-- =============================== soundness

section Soundness

variable {fuel depth : Nat} {object : Bool} {b rest : Bytes}

/-- The opening brackets are the two the scanner looks at. -/
private theorem opening_decide (hc : c = 123 ∨ c = 91) :
    opening (decide (c = 123)) = c := by
  rcases hc with rfl | rfl <;> rfl

/-- The elements of a container do not mind the blanks in front of
them. -/
theorem items_whitespace :
    items fuel object depth (whitespace b) = items fuel object depth b := by
  cases fuel with
  | zero => rfl
  | succ fuel =>
    cases object with
    | true =>
      rw [items, items]
      simp only [if_true, keyColon, whitespace_whitespace]
    | false =>
      cases fuel with
      | zero => rfl
      | succ fuel =>
        rw [items, items]
        simp only [Bool.false_eq_true, if_false, value,
          whitespace_whitespace]

/-- What a value is made of, if it is read: a string, a container closed
at once or after its elements, or a word or number. -/
private theorem value_cases
    (h : value (fuel + 1) depth b = .ok rest) :
    depth ≤ 16 ∧ ∃ w b', scanned.Blank w ∧ b = w ++ b'
      ∧ ((∃ s, Chars s ∧ b' = quoted s ++ rest)
        ∨ (∃ object w', scanned.Blank w' ∧ b' = opening object
            :: (w' ++ closing object :: rest))
        ∨ (∃ object body, b' = opening object :: body
            ∧ items fuel object depth body = .ok rest)
        ∨ scalar b' = .ok rest) := by
  rw [value] at h
  by_cases hdepth : depth > 16
  · rw [if_pos hdepth] at h
    cases h
  rw [if_neg hdepth] at h
  obtain ⟨w, hb, hw⟩ := whitespace_split b
  refine ⟨by omega, w, whitespace b, hw, hb, ?_⟩
  rcases hstart : whitespace b with _ | ⟨c, body⟩
  · rw [hstart] at h
    cases h
  rw [hstart] at h
  dsimp only at h
  by_cases hquote : c = 34
  · rw [if_pos hquote] at h
    rcases hstring : string (c :: body) with _ | ⟨s, rest'⟩
    · rw [hstring] at h
      cases h
    · rw [hstring] at h
      cases h
      exact Or.inl ⟨s, string_eq_some.mp hstring⟩
  rw [if_neg hquote] at h
  by_cases hopen : c = 123 ∨ c = 91
  · rw [if_pos hopen] at h
    obtain ⟨w', hbody, hw'⟩ := whitespace_split body
    right
    rcases hd : whitespace body with _ | ⟨d, after⟩
    · rw [hd] at h
      dsimp only at h
      rw [← hd, items_whitespace] at h
      refine Or.inr (Or.inl ⟨decide (c = 123), body, ?_, h⟩)
      rw [opening_decide hopen]
    rw [hd] at h
    dsimp only at h
    by_cases hclose : d = closing (decide (c = 123))
    · rw [if_pos hclose] at h
      cases h
      refine Or.inl ⟨decide (c = 123), w', hw', ?_⟩
      rw [opening_decide hopen, ← hclose, ← hd, ← hbody]
    · rw [if_neg hclose, ← hd, items_whitespace] at h
      refine Or.inr (Or.inl ⟨decide (c = 123), body, ?_, h⟩)
      rw [opening_decide hopen]
  · rw [if_neg hopen] at h
    exact Or.inr (Or.inr (Or.inr h))

/-- What one round of the element loop reads: what leads to a value, the
value, and the bracket that closes or a comma. -/
private theorem items_cases
    (h : items (fuel + 1) object depth b = .ok rest) :
    ∃ k b₁ b₂ w, scanned.Lead object k ∧ b = k ++ b₁
      ∧ value fuel (depth + 1) b₁ = .ok b₂ ∧ scanned.Blank w
      ∧ (b₂ = w ++ closing object :: rest
        ∨ ∃ after, b₂ = w ++ 44 :: after
          ∧ items fuel object depth after = .ok rest) := by
  rw [items] at h
  obtain ⟨k, b₁, key, hk, hb, hlead⟩ : ∃ k b₁ key, scanned.Lead object k
      ∧ b = k ++ b₁ ∧ (if object = true then keyColon b
        else Except.ok ([], b)) = .ok (key, b₁) := by
    cases object with
    | false => exact ⟨[], b, [], rfl, rfl, rfl⟩
    | true =>
      rcases hkey : keyColon b with stop | ⟨key, b₁⟩
      · rw [if_pos rfl, hkey] at h
        cases h
      · obtain ⟨k, hk, hb⟩ := keyColon_eq_ok.mp hkey
        exact ⟨k, b₁, key, ⟨key, hk⟩, hb, if_pos rfl⟩
  rw [hlead] at h
  dsimp only at h
  rcases hvalue : value fuel (depth + 1) b₁ with stop | b₂
  · rw [hvalue] at h
    cases h
  rw [hvalue] at h
  dsimp only at h
  obtain ⟨w, hw, hblank⟩ := whitespace_split b₂
  refine ⟨k, b₁, b₂, w, hk, hb, hvalue, hblank, ?_⟩
  rcases hnext : whitespace b₂ with _ | ⟨c, after⟩
  · rw [hnext] at h
    cases h
  rw [hnext] at h hw
  dsimp only at h
  by_cases hclose : c = closing object
  · rw [if_pos hclose] at h
    cases h
    left
    rw [hw, hclose]
  rw [if_neg hclose] at h
  by_cases hcomma : c = 44
  · rw [if_pos hcomma] at h
    right
    exact ⟨after, by rw [hw, hcomma], h⟩
  · rw [if_neg hcomma] at h
    cases h

/-- Whatever is read as a value, or as the elements of a container, is
one of the scanned dialect, with the depth that is left as its room. -/
private theorem read_derives : ∀ fuel : Nat,
    (∀ depth b rest, value fuel depth b = .ok rest → depth ≤ 16
      ∧ ∃ w t, scanned.Blank w ∧ Derives scanned .value (16 - depth) t
        ∧ b = w ++ (t ++ rest))
    ∧ ∀ object depth b rest, items fuel object depth b = .ok rest →
      depth < 16 ∧ ∃ t, Derives scanned (.items object) (15 - depth) t
        ∧ b = t ++ rest := by
  intro fuel
  induction fuel with
  | zero =>
    constructor
    · intro depth b rest h
      rw [value] at h
      cases h
    · intro object depth b rest h
      rw [items] at h
      cases h
  | succ fuel ih =>
    constructor
    · intro depth b rest h
      obtain ⟨hdepth, w, b', hw, rfl, hcase⟩ := value_cases h
      refine ⟨hdepth, w, ?_⟩
      rcases hcase with ⟨s, hs, rfl⟩ | ⟨object, w', hw', rfl⟩
        | ⟨object, body, rfl, hitems⟩ | hscalar
      · exact ⟨quoted s, hw, .string hs, rfl⟩
      · refine ⟨opening object :: (w' ++ [closing object]), hw,
          .empty object hw', ?_⟩
        simp
      · obtain ⟨hlt, t, ht, rfl⟩ := ih.2 _ _ _ _ hitems
        refine ⟨opening object :: t, hw, ?_, rfl⟩
        rw [show 16 - depth = 15 - depth + 1 by omega]
        exact .container object ht
      · obtain ⟨t, ht, rfl⟩ := scalar_eq_ok hscalar
        exact ⟨t, hw, .scalar ht, rfl⟩
    · intro object depth b rest h
      obtain ⟨k, b₁, b₂, w', hk, rfl, hvalue, hw', hnext⟩ :=
        items_cases h
      obtain ⟨hdepth, w, v, hw, hv, rfl⟩ := ih.1 _ _ _ hvalue
      rw [show 16 - (depth + 1) = 15 - depth by omega] at hv
      refine ⟨by omega, ?_⟩
      rcases hnext with rfl | ⟨after, rfl, hitems⟩
      · refine ⟨_, .last hk hw hv hw', ?_⟩
        simp
      · obtain ⟨-, t, ht, rfl⟩ := ih.2 _ _ _ _ hitems
        refine ⟨_, .more hk hw hv hw' ht, ?_⟩
        simp

end Soundness

-- ============================= termination

section Termination

variable {fuel depth : Nat} {object : Bool} {b rest : Bytes}

theorem value_length (h : value fuel depth b = .ok rest) :
    rest.length ≤ b.length := by
  obtain ⟨-, w, t, -, -, rfl⟩ := (read_derives fuel).1 _ _ _ h
  simp only [List.length_append]
  omega

theorem keyColon_length (h : keyColon b = .ok (s, rest)) :
    rest.length ≤ b.length := by
  obtain ⟨k, -, rfl⟩ := keyColon_eq_ok.mp h
  simp only [List.length_append]
  omega

/-- Two calls for every byte are fuel enough: a value that does not move
opens a container, and an element that is not the last leaves a comma. -/
private theorem read_fuel : ∀ fuel : Nat,
    (∀ depth b, 2 * b.length + 1 ≤ fuel →
      value fuel depth b ≠ .error .fuel)
    ∧ ∀ object depth b, 2 * b.length + 2 ≤ fuel →
      items fuel object depth b ≠ .error .fuel := by
  intro fuel
  induction fuel with
  | zero =>
    constructor
    · intro depth b hfuel
      omega
    · intro object depth b hfuel
      omega
  | succ fuel ih =>
    constructor
    · intro depth b hfuel h
      rw [value] at h
      split at h
      · cases h
      have hlen := whitespace_length b
      rcases hstart : whitespace b with _ | ⟨c, body⟩
      · rw [hstart] at h
        cases h
      rw [hstart] at h hlen
      rw [List.length_cons] at hlen
      dsimp only at h
      split at h
      · split at h <;> cases h
      split at h
      · have hbody := whitespace_length body
        rcases hd : whitespace body with _ | ⟨d, after⟩
        · rw [hd] at h hbody
          exact ih.2 _ _ _ (by rw [List.length_nil]; omega) h
        · rw [hd] at h hbody
          dsimp only at h
          split at h
          · cases h
          · exact ih.2 _ _ _ (by omega) h
      · exact scalar_ne_fuel h
    · intro object depth b hfuel h
      rw [items] at h
      rcases hlead : (if object = true then keyColon b
          else Except.ok ([], b)) with stop | ⟨key, b₁⟩
      · rw [hlead] at h
        cases h
        split at hlead
        · exact keyColon_ne_fuel hlead
        · cases hlead
      have hlen : b₁.length ≤ b.length := by
        split at hlead
        · exact keyColon_length hlead
        · cases hlead
          exact Nat.le_refl _
      rw [hlead] at h
      dsimp only at h
      rcases hvalue : value fuel (depth + 1) b₁ with stop | b₂
      · rw [hvalue] at h
        cases h
        exact ih.1 _ _ (by omega) hvalue
      have hlen' := value_length hvalue
      rw [hvalue] at h
      dsimp only at h
      have hnext := whitespace_length b₂
      rcases hc : whitespace b₂ with _ | ⟨c, after⟩
      · rw [hc] at h
        cases h
      rw [hc] at h hnext
      rw [List.length_cons] at hnext
      dsimp only at h
      split at h
      · cases h
      · split at h
        · exact ih.2 _ _ _ (by omega) h
        · cases h

/-- `value` returns. -/
theorem value_fuel (depth : Nat) (b : Bytes) :
    value (valueFuel b) depth b ≠ .error .fuel :=
  (read_fuel _).1 depth b (Nat.le_refl _)

/-- The loop over the members returns. -/
theorem members_fuel : ∀ {fuel : Nat} {found : Option Bool} {b : Bytes},
    b.length + 1 ≤ fuel → members fuel found b ≠ .error .fuel := by
  intro fuel
  induction fuel with
  | zero =>
    intro found b hfuel
    omega
  | succ fuel ih =>
    intro found b hfuel h
    rw [members] at h
    have hlen := whitespace_length b
    rcases hstart : whitespace b with _ | ⟨c, body⟩
    · rw [hstart] at h
      cases h
    rw [hstart] at h hlen
    dsimp only at h
    split at h
    · cases h
    rcases hkey : keyColon (c :: body) with stop | ⟨key, b₁⟩
    · rw [hkey] at h
      cases h
      exact keyColon_ne_fuel hkey
    have hlen₁ := keyColon_length hkey
    have hlen₂ := whitespace_length b₁
    rw [hkey] at h
    dsimp only at h
    rcases hvalue : value (valueFuel (whitespace b₁)) 0 (whitespace b₁)
      with stop | b₂
    · rw [hvalue] at h
      cases h
      exact value_fuel _ _ hvalue
    have hlen₃ := value_length hvalue
    rw [hvalue] at h
    dsimp only at h
    split at h
    · cases h
    have hlen₄ := whitespace_length b₂
    rcases hnext : whitespace b₂ with _ | ⟨d, after⟩
    · rw [hnext] at h
      cases h
    rw [hnext] at h hlen₄
    rw [List.length_cons] at hlen₄
    dsimp only at h
    split at h
    · cases h
    · split at h
      · exact ih (by omega) h
      · cases h

end Termination

-- ============================ completeness

section Completeness

variable {fuel depth r : Nat} {object : Bool} {b rest t w : Bytes}

/-- The blanks of the standard end a token. -/
theorem endsToken_append (hw : Dialect.strict.Blank w)
    (hc : isTokenEnd c = true) : EndsToken (w ++ c :: rest) := by
  cases w with
  | nil =>
    intro c' hc'
    cases hc'
    exact hc
  | cons d w =>
    intro c' hc'
    cases hc'
    have hd := hw d List.mem_cons_self
    simp only [Dialect.strict, List.mem_cons, List.not_mem_nil, or_false,
      decide_eq_true_eq] at hd
    rcases hd with rfl | rfl | rfl | rfl <;> rfl

theorem value_blank (hw : scanned.Blank w) :
    value fuel depth (w ++ b) = value fuel depth b := by
  cases fuel with
  | zero => rfl
  | succ fuel => rw [value, value, whitespace_append hw]

/-- Behind its blanks, a standard value starts with a byte of its own. -/
theorem whitespace_value (hw : scanned.Blank w)
    (ht : Derives .strict .value r t) :
    whitespace (w ++ (t ++ rest)) = t ++ rest := by
  obtain ⟨c, t', rfl, hc⟩ := ht.head
  rw [whitespace_append hw, List.cons_append]
  exact whitespace_cons (startsValue_facts hc).1

/-- The elements of a standard container do not start with the bracket
that closes it. -/
private theorem items_head (ht : Derives .strict (.items object) r t) :
    ∃ c t', whitespace (t ++ rest) = c :: t' ∧ c ≠ closing object := by
  obtain ⟨k, w, v, x, hk, hw, hv, rfl⟩ : ∃ k w v x,
      Dialect.strict.Lead object k ∧ Dialect.strict.Blank w
        ∧ Derives .strict .value r v ∧ t = k ++ (w ++ (v ++ x)) := by
    cases ht with
    | last hk hw hv => exact ⟨_, _, _, _, hk, hw, hv, rfl⟩
    | more hk hw hv => exact ⟨_, _, _, _, hk, hw, hv, rfl⟩
  cases object with
  | true =>
    obtain ⟨s, w₀, w₁, rfl, hw₀, -⟩ := hk
    refine ⟨34, s ++ 34 :: (w₁ ++ 58 :: (w ++ (v ++ (x ++ rest)))), ?_,
      by decide⟩
    simp only [List.append_assoc, quoted, List.cons_append,
      List.nil_append]
    rw [whitespace_append (strict_blank hw₀)]
    exact whitespace_cons rfl
  | false =>
    cases show k = [] from hk
    obtain ⟨c, v', rfl, hc⟩ := hv.head
    refine ⟨c, v' ++ (x ++ rest), ?_, (startsValue_facts hc).2.1⟩
    rw [List.nil_append, List.append_assoc, List.append_assoc,
      whitespace_value (strict_blank hw) hv]
    rfl

/-- A value that opens a container is read as far as its elements are. -/
private theorem value_container (hdepth : depth ≤ 16)
    (hhead : ∃ c b', whitespace b = c :: b' ∧ c ≠ closing object)
    (h : items fuel object depth b = .ok rest) :
    value (fuel + 1) depth (opening object :: b) = .ok rest := by
  have hstart : whitespace (opening object :: b) = opening object :: b := by
    apply whitespace_cons
    cases object <;> rfl
  have hquote : opening object ≠ 34 := by cases object <;> decide
  have hopen : opening object = 123 ∨ opening object = 91 := by
    cases object
    · exact Or.inr rfl
    · exact Or.inl rfl
  have hobject : decide (opening object = 123) = object := by
    cases object <;> rfl
  obtain ⟨c, b', hb, hc⟩ := hhead
  rw [value, if_neg (by omega), hstart]
  dsimp only
  rw [if_neg hquote, if_pos hopen, hb, hobject]
  dsimp only
  rw [if_neg hc, ← hb, items_whitespace]
  exact h

private theorem value_empty (hdepth : depth ≤ 16)
    (hw : scanned.Blank w) :
    value (fuel + 1) depth
      (opening object :: (w ++ closing object :: rest)) = .ok rest := by
  have hstart : ∀ b, whitespace (opening object :: b)
      = opening object :: b := by
    intro b
    apply whitespace_cons
    cases object <;> rfl
  have hclose : whitespace (closing object :: rest)
      = closing object :: rest := by
    apply whitespace_cons
    cases object <;> rfl
  have hquote : opening object ≠ 34 := by cases object <;> decide
  have hopen : opening object = 123 ∨ opening object = 91 := by
    cases object
    · exact Or.inr rfl
    · exact Or.inl rfl
  have hobject : decide (opening object = 123) = object := by
    cases object <;> rfl
  rw [value, if_neg (by omega), hstart]
  dsimp only
  rw [if_neg hquote, if_pos hopen, whitespace_append hw, hclose, hobject]
  exact if_pos rfl

private theorem value_string (hdepth : depth ≤ 16) (hs : Chars s) :
    value (fuel + 1) depth (quoted s ++ rest) = .ok rest := by
  have hstart : whitespace (quoted s ++ rest) = quoted s ++ rest :=
    whitespace_cons rfl
  have hcons : quoted s ++ rest = 34 :: (s ++ [34] ++ rest) := rfl
  rw [value, if_neg (by omega), hstart, hcons]
  dsimp only
  rw [if_pos rfl, ← hcons, string_eq_some.mpr ⟨hs, rfl⟩]

private theorem value_scalar (hdepth : depth ≤ 16)
    (h : Dialect.strict.Scalar t) (hend : EndsToken rest) :
    value (fuel + 1) depth (t ++ rest) = .ok rest := by
  have hderives : Derives .strict .value 0 t := .scalar h
  have hstart : whitespace (t ++ rest) = t ++ rest :=
    whitespace_value (w := []) (by intro c hc; cases hc) hderives
  obtain ⟨c, t', rfl, -⟩ := hderives.head
  have hbyte : c ≠ 34 ∧ ¬ (c = 123 ∨ c = 91) := by
    rcases h with h | h
    · simp only [List.mem_cons, List.not_mem_nil, or_false, trueToken,
        falseToken, nullToken, List.cons.injEq] at h
      rcases h with ⟨rfl, -⟩ | ⟨rfl, -⟩ | ⟨rfl, -⟩ <;> decide
    · have hnumber := Number.isNumberByte h c List.mem_cons_self
      revert hnumber
      clear hderives hstart h
      revert c
      decide +kernel
  rw [value, if_neg (by omega), hstart, List.cons_append]
  dsimp only
  rw [if_neg hbyte.1, if_neg hbyte.2]
  exact scalar_strict h hend

/-- What completeness says of a text of either kind: with fuel for its
bytes and room for its containers, the scanner moves over it. -/
private def Reads (kind : Kind) (r : Nat) (t : Bytes) : Prop :=
  match kind with
  | .value => ∀ fuel depth rest, 2 * t.length + 1 ≤ fuel →
      depth + r ≤ 16 → EndsToken rest →
      value fuel depth (t ++ rest) = .ok rest
  | .items object => ∀ fuel depth rest, 2 * t.length + 2 ≤ fuel →
      depth + 1 + r ≤ 16 → items fuel object depth (t ++ rest) = .ok rest

private theorem endsToken_closing (object : Bool) :
    isTokenEnd (closing object) = true := by
  cases object <;> rfl

/-- A round of the element loop over a standard element. -/
private theorem items_round (fuel : Nat) (rest : Bytes) {k v w' : Bytes}
    (hk : Dialect.strict.Lead object k) (hw : Dialect.strict.Blank w)
    (hv : Reads .value r v) (hw' : Dialect.strict.Blank w')
    (hc : c = closing object ∨ c = 44) (hfuel : 2 * v.length + 1 ≤ fuel)
    (hdepth : depth + 1 + r ≤ 16) :
    items (fuel + 1) object depth
        (k ++ (w ++ (v ++ (w' ++ c :: rest))))
      = if c = closing object then .ok rest
        else items fuel object depth rest := by
  have hend : isTokenEnd c = true := by
    rcases hc with rfl | rfl
    · exact endsToken_closing object
    · rfl
  have hblank : isAsciiWhitespace c = false := by
    rcases hc with rfl | rfl
    · cases object <;> rfl
    · rfl
  obtain ⟨key, hlead⟩ : ∃ key, (if object = true
      then keyColon (k ++ (w ++ (v ++ (w' ++ c :: rest))))
      else Except.ok ([], k ++ (w ++ (v ++ (w' ++ c :: rest)))))
        = .ok (key, w ++ (v ++ (w' ++ c :: rest))) := by
    cases object with
    | false =>
      cases show k = [] from hk
      exact ⟨[], rfl⟩
    | true =>
      obtain ⟨s, hk⟩ := hk
      exact ⟨s, (if_pos rfl).trans
        (keyColon_eq_ok.mpr ⟨k, strict_keyed hk, rfl⟩)⟩
  rw [items, hlead]
  dsimp only
  rw [value_blank (strict_blank hw),
    hv fuel (depth + 1) _ hfuel hdepth (endsToken_append hw' hend)]
  dsimp only
  rw [whitespace_append (strict_blank hw'), whitespace_cons hblank]
  dsimp only
  rcases hc with rfl | rfl
  · rw [if_pos rfl, if_pos rfl]
  · rw [if_pos rfl]

/-- Every text of the standard within the room is read. -/
theorem reads_strict {kind : Kind} (h : Derives .strict kind r t) :
    Reads kind r t := by
  induction h with
  | scalar h =>
    intro fuel depth rest hfuel hdepth hend
    obtain ⟨fuel, rfl⟩ := Nat.exists_eq_add_one.mpr (by omega : 0 < fuel)
    exact value_scalar (by omega) h hend
  | string h =>
    intro fuel depth rest hfuel hdepth _
    obtain ⟨fuel, rfl⟩ := Nat.exists_eq_add_one.mpr (by omega : 0 < fuel)
    exact value_string (by omega) h
  | @empty r w object hw =>
    intro fuel depth rest hfuel hdepth _
    obtain ⟨fuel, rfl⟩ := Nat.exists_eq_add_one.mpr (by omega : 0 < fuel)
    rw [List.cons_append, List.append_assoc, List.singleton_append]
    exact value_empty (by omega) (strict_blank hw)
  | @container r body object hbody ih =>
    intro fuel depth rest hfuel hdepth _
    obtain ⟨fuel, rfl⟩ := Nat.exists_eq_add_one.mpr (by omega : 0 < fuel)
    rw [List.length_cons] at hfuel
    rw [List.cons_append]
    exact value_container (by omega) (items_head hbody)
      (ih fuel depth rest (by omega) (by omega))
  | @last r object k w v w' hk hw hv hw' ih =>
    intro fuel depth rest hfuel hdepth
    obtain ⟨fuel, rfl⟩ := Nat.exists_eq_add_one.mpr (by omega : 0 < fuel)
    simp only [List.length_append] at hfuel
    have hround := items_round fuel rest hk hw ih hw'
      (Or.inl rfl) (by omega) hdepth
    rw [if_pos rfl] at hround
    simpa using hround
  | @more r object k w v w' after hk hw hv hw' hafter ihv iha =>
    intro fuel depth rest hfuel hdepth
    obtain ⟨fuel, rfl⟩ := Nat.exists_eq_add_one.mpr (by omega : 0 < fuel)
    simp only [List.length_append, List.length_cons] at hfuel
    have hround := items_round fuel (after ++ rest) hk hw ihv hw'
      (Or.inr rfl) (by omega) hdepth
    have hcomma : (44 : UInt8) ≠ closing object := by
      cases object <;> decide
    rw [if_neg hcomma, iha fuel depth rest (by omega) hdepth] at hround
    simpa using hround

end Completeness

-- =============================== top level

section TopLevel

variable {fuel r : Nat} {found found' : Option Bool}
  {b rest body text : Bytes} {ms : List (Bytes × Bytes)}

/-- What the members say of the capability: for every time the key
stands there, whether its value is `true`. -/
def verdicts (ms : List (Bytes × Bytes)) : List Bool :=
  (ms.filter fun m => decide (m.1 = capabilityKey)).map fun m =>
    decide (m.2 = trueToken)

/-- What was found after a member, if the scan goes on. -/
private theorem verdicts_cons {v : Bytes}
    (hdup : ¬ (s = capabilityKey ∧ found.isSome = true)) :
    found.toList ++ verdicts ((s, v) :: ms)
      = (if s = capabilityKey then some (decide (v = trueToken))
          else found).toList ++ verdicts ms := by
  by_cases hs : s = capabilityKey
  · have hnone : found = none := by
      rw [← Option.not_isSome_iff_eq_none]
      exact fun hsome => hdup ⟨hs, hsome⟩
    rw [if_pos hs, hnone]
    simp [verdicts, hs]
  · rw [if_neg hs]
    simp [verdicts, hs]

/-- The text between two positions. -/
private theorem take_text {v : Bytes} :
    (v ++ rest).take ((v ++ rest).length - rest.length) = v := by
  have hlen : (v ++ rest).length - rest.length = v.length := by
    rw [List.length_append]
    omega
  rw [hlen, List.take_left]

/-- What one round of the member loop reads: a member, and a comma or
the brace that closes; or the brace at once. -/
private theorem members_cases
    (h : members (fuel + 1) found b = .ok (found', rest)) :
    (∃ w, scanned.Blank w ∧ b = w ++ 125 :: rest ∧ found' = found)
      ∨ ∃ s k w v w' c after, scanned.Keyed s k ∧ scanned.Blank w
        ∧ Derives scanned .value 16 v ∧ scanned.Blank w'
        ∧ b = k ++ (w ++ (v ++ (w' ++ c :: after)))
        ∧ ¬ (s = capabilityKey ∧ found.isSome = true)
        ∧ ((c = 125 ∧ rest = after
            ∧ found' = if s = capabilityKey
              then some (decide (v = trueToken)) else found)
          ∨ (c = 44 ∧ members fuel (if s = capabilityKey
              then some (decide (v = trueToken)) else found) after
              = .ok (found', rest))) := by
  rw [members] at h
  obtain ⟨w₀, hb, hw₀⟩ := whitespace_split b
  rcases hstart : whitespace b with _ | ⟨c, b₀⟩
  · rw [hstart] at h
    cases h
  rw [hstart] at h hb
  dsimp only at h
  by_cases hclose : c = 125
  · rw [if_pos hclose] at h
    cases h
    left
    exact ⟨w₀, hw₀, by rw [hb, hclose], rfl⟩
  rw [if_neg hclose] at h
  right
  rcases hkey : keyColon (c :: b₀) with stop | ⟨s, b₁⟩
  · rw [hkey] at h
    cases h
  obtain ⟨k, hk, hb₀⟩ := keyColon_eq_ok.mp hkey
  rw [hkey] at h
  dsimp only at h
  obtain ⟨w, hb₁, hw⟩ := whitespace_split b₁
  rcases hvalue : value (valueFuel (whitespace b₁)) 0 (whitespace b₁)
    with stop | b₂
  · rw [hvalue] at h
    cases h
  obtain ⟨-, w₁, v, hw₁, hv, hv₁⟩ := (read_derives _).1 _ _ _ hvalue
  -- the blanks in front of the value are skipped before it starts
  have hnil : w₁ = [] := by
    apply blank_eq_nil hw₁ (b := v ++ b₂)
    rw [← hv₁, whitespace_whitespace]
  rw [hnil, List.nil_append] at hv₁
  rw [hvalue] at h
  dsimp only at h
  rw [hv₁, take_text] at h
  by_cases hdup : s = capabilityKey ∧ found.isSome = true
  · rw [if_pos hdup] at h
    cases h
  rw [if_neg hdup] at h
  obtain ⟨w', hb₂, hw'⟩ := whitespace_split b₂
  rcases hnext : whitespace b₂ with _ | ⟨d, after⟩
  · rw [hnext] at h
    cases h
  rw [hnext] at h hb₂
  dsimp only at h
  have hkeyed : scanned.Keyed s (w₀ ++ k) := by
    obtain ⟨u, u', rfl, hu, hs, hu'⟩ := hk
    refine ⟨w₀ ++ u, u', List.append_assoc .. |>.symm, ?_, hs, hu'⟩
    intro e he
    rcases List.mem_append.mp he with he | he
    · exact hw₀ e he
    · exact hu e he
  refine ⟨s, w₀ ++ k, w, v, w', d, after, hkeyed, hw, hv, hw', ?_, hdup,
    ?_⟩
  · rw [hb, hb₀, List.append_assoc, ← hb₂, ← hv₁, ← hb₁]
  by_cases hd : d = 125
  · rw [if_pos hd] at h
    cases h
    exact Or.inl ⟨hd, rfl, rfl⟩
  rw [if_neg hd] at h
  by_cases hcomma : d = 44
  · rw [if_pos hcomma] at h
    exact Or.inr ⟨hcomma, h⟩
  · rw [if_neg hcomma] at h
    cases h

/-- What the member loop reads is members of the scanned dialect, and
what it found is what they say. -/
private theorem members_derives : ∀ {fuel : Nat} {found : Option Bool}
    {b : Bytes}, members fuel found b = .ok (found', rest) →
    ∃ ms body, Members scanned 16 true ms body ∧ b = body ++ rest
      ∧ found.toList ++ verdicts ms = found'.toList := by
  intro fuel
  induction fuel with
  | zero =>
    intro found b h
    rw [members] at h
    cases h
  | succ fuel ih =>
    intro found b h
    rcases members_cases h with ⟨w, hw, rfl, rfl⟩
      | ⟨s, k, w, v, w', c, after, hk, hw, hv, hw', rfl, hdup, hnext⟩
    · exact ⟨[], w ++ [125], .close hw, by simp, List.append_nil _⟩
    rcases hnext with ⟨rfl, rfl, rfl⟩ | ⟨rfl, hafter⟩
    · refine ⟨[(s, v)], _, .last hk hw hv hw', by simp, ?_⟩
      rw [verdicts_cons hdup]
      exact List.append_nil _
    · obtain ⟨ms, body, hms, rfl, hfound⟩ := ih hafter
      refine ⟨(s, v) :: ms, _, .more hk hw hv hw' hms, by simp, ?_⟩
      rw [verdicts_cons hdup]
      exact hfound

/-- A round of the member loop over a standard member. -/
private theorem members_round (fuel : Nat) (after : Bytes) {k w v w' : Bytes}
    (hk : Dialect.strict.Keyed s k) (hw : Dialect.strict.Blank w)
    (hv : Derives .strict .value 16 v) (hw' : Dialect.strict.Blank w')
    (hc : c = 125 ∨ c = 44)
    (hdup : ¬ (s = capabilityKey ∧ found.isSome = true)) :
    members (fuel + 1) found (k ++ (w ++ (v ++ (w' ++ c :: after))))
      = if c = 125 then .ok (if s = capabilityKey
            then some (decide (v = trueToken)) else found, after)
        else members fuel (if s = capabilityKey
            then some (decide (v = trueToken)) else found) after := by
  have hend : isTokenEnd c = true := by
    rcases hc with rfl | rfl <;> rfl
  have hblank : isAsciiWhitespace c = false := by
    rcases hc with rfl | rfl <;> rfl
  have hkey := keyColon_eq_ok.mpr ⟨k, strict_keyed hk,
    show k ++ (w ++ (v ++ (w' ++ c :: after))) = _ from rfl⟩
  obtain ⟨d, b', hstart, hd⟩ : ∃ d b',
      whitespace (k ++ (w ++ (v ++ (w' ++ c :: after)))) = d :: b'
        ∧ d ≠ 125 := by
    obtain ⟨u, u', rfl, hu, -⟩ := hk
    refine ⟨34, s ++ 34 :: (u' ++ 58 :: (w ++ (v ++ (w' ++ c :: after)))),
      ?_, by decide⟩
    simp only [List.append_assoc, quoted, List.cons_append, List.nil_append]
    rw [whitespace_append (strict_blank hu)]
    exact whitespace_cons rfl
  have hkey' : keyColon (d :: b')
      = .ok (s, w ++ (v ++ (w' ++ c :: after))) := by
    rw [← hstart]
    rw [keyColon] at hkey ⊢
    rwa [whitespace_whitespace]
  have hvalue : value (valueFuel (v ++ (w' ++ c :: after))) 0
      (v ++ (w' ++ c :: after)) = .ok (w' ++ c :: after) := by
    refine reads_strict hv _ 0 _ ?_ (Nat.le_refl _)
      (endsToken_append hw' hend)
    rw [valueFuel, List.length_append]
    omega
  rw [members, hstart]
  dsimp only
  rw [if_neg hd, hkey']
  dsimp only
  rw [whitespace_value (strict_blank hw) hv, hvalue]
  dsimp only
  rw [take_text, if_neg hdup, whitespace_append (strict_blank hw'),
    whitespace_cons hblank]
  dsimp only
  rcases hc with rfl | rfl
  · rw [if_pos rfl, if_pos rfl]
  · have hne : (44 : UInt8) ≠ 125 := by decide
    rw [if_neg hne, if_pos rfl, if_neg hne]

/-- The members of a standard object are read. -/
private theorem members_strict {closes : Bool}
    (h : Members .strict 16 closes ms body) :
    ∀ {fuel : Nat} {found : Option Bool}, body.length + 1 ≤ fuel →
      found.toList ++ verdicts ms = found'.toList →
      members fuel found (body ++ rest) = .ok (found', rest) := by
  have hround : ∀ {s v : Bytes} {ms : List (Bytes × Bytes)}
      {found : Option Bool},
      found.toList ++ verdicts ((s, v) :: ms) = found'.toList →
      ¬ (s = capabilityKey ∧ found.isSome = true) := by
    rintro s v ms found hfound ⟨rfl, hsome⟩
    obtain ⟨x, rfl⟩ := Option.isSome_iff_exists.mp hsome
    have hlen := congrArg List.length hfound
    simp only [verdicts, Option.toList_some, List.length_append,
      List.length_map, decide_true, List.filter_cons_of_pos,
      List.length_cons] at hlen
    cases found' <;> simp at hlen
  induction h with
  | @close w hw =>
    intro fuel found hfuel hfound
    obtain ⟨fuel, rfl⟩ := Nat.exists_eq_add_one.mpr (by omega : 0 < fuel)
    have hsame : found = found' := by
      cases found <;> cases found' <;> simp_all [verdicts]
    rw [members, List.append_assoc, whitespace_append (strict_blank hw),
      List.singleton_append, whitespace_cons rfl, hsame]
    exact if_pos rfl
  | @last closes s k w v w' hk hw hv hw' =>
    intro fuel found hfuel hfound
    obtain ⟨fuel, rfl⟩ := Nat.exists_eq_add_one.mpr (by omega : 0 < fuel)
    have hdup := hround hfound
    have hread := members_round fuel rest hk hw hv hw' (Or.inl rfl) hdup
    rw [if_pos rfl] at hread
    rw [verdicts_cons hdup] at hfound
    have hsame : (if s = capabilityKey
        then some (decide (v = trueToken)) else found) = found' := by
      generalize (if s = capabilityKey
        then some (decide (v = trueToken)) else found) = x at hfound
      cases x <;> cases found' <;> simp_all [verdicts]
    rw [hsame] at hread
    simpa using hread
  | @more closes s k w v w' ms after hk hw hv hw' hafter ih =>
    intro fuel found hfuel hfound
    obtain ⟨fuel, rfl⟩ := Nat.exists_eq_add_one.mpr (by omega : 0 < fuel)
    have hdup := hround hfound
    have hread := members_round fuel (after ++ rest) hk hw hv hw'
      (Or.inr rfl) hdup
    rw [verdicts_cons hdup] at hfound
    simp only [List.length_append, List.length_cons] at hfuel
    rw [if_neg (by decide), ih (by omega) hfound] at hread
    simpa using hread

end TopLevel

-- ============================= the results

/-- The whole text is one object of the dialect, of at most `r` levels
of containers in a value, with one member `has_file_clipboard`, and that
member is `true`. -/
def Grants (D : Dialect) (r : Nat) (input : Bytes) : Prop :=
  ∃ ms, Object D r ms input
    ∧ ms.filter (fun m => decide (m.1 = capabilityKey))
      = [(capabilityKey, trueToken)]

/-- The verdicts that grant the capability. -/
private theorem verdicts_eq {ms : List (Bytes × Bytes)} :
    verdicts ms = [true]
      ↔ ms.filter (fun m => decide (m.1 = capabilityKey))
        = [(capabilityKey, trueToken)] := by
  unfold verdicts
  constructor
  · intro h
    obtain ⟨m, hm, htrue⟩ := List.map_eq_singleton_iff.mp h
    have hmem : m ∈ ms.filter fun m => decide (m.1 = capabilityKey) := by
      rw [hm]
      exact List.mem_singleton.mpr rfl
    have hkey := of_decide_eq_true (List.mem_filter.mp hmem).2
    have hvalue := of_decide_eq_true htrue
    rw [hm, ← hkey, ← hvalue]
  · intro h
    rw [h]
    rfl

/-- The scanner returns. It answers `true` to every text of at most 65536
bytes that the standard derives with the capability within 16 levels,
and to none that its own dialect does not derive so. -/
theorem json_file_capability_grammar (input : Bytes) :
    ∃ answer, jsonFileCapability input = .ok answer
      ∧ (input.length ≤ 65536 ∧ Grants .strict 16 input → answer = true)
      ∧ (answer = true → input.length ≤ 65536
        ∧ Grants scanned 16 input) := by
  rw [jsonFileCapability]
  by_cases hlong : input.length > 65536
  · rw [if_pos hlong]
    exact ⟨false, rfl, fun h => by omega, fun h => by cases h⟩
  rw [if_neg hlong]
  obtain ⟨w, hinput, hw⟩ := whitespace_split input
  -- a standard object is a brace, its members, and blanks
  have hstrict : Grants .strict 16 input → ∃ b, whitespace input = 123 :: b
      ∧ ∃ rest, members (b.length + 1) none b = .ok (some true, rest)
        ∧ whitespace rest = [] := by
    rintro ⟨ms, ⟨u, body, u', rfl, hu, hms, hu'⟩, hfilter⟩
    refine ⟨body ++ u', ?_, u', ?_, ?_⟩
    · rw [whitespace_append (strict_blank hu)]
      exact whitespace_cons rfl
    · refine members_strict hms ?_ ?_
      · rw [List.length_append]
        omega
      · rw [verdicts_eq.mpr hfilter]
        rfl
    · have hnil := whitespace_append (b := []) (strict_blank hu')
      rwa [List.append_nil] at hnil
  rcases hstart : whitespace input with _ | ⟨c, b⟩
  · refine ⟨false, rfl, fun h => ?_, fun h => by cases h⟩
    obtain ⟨b, hb, -⟩ := hstrict h.2
    rw [hstart] at hb
    cases hb
  dsimp only
  by_cases hbrace : c = 123
  case neg =>
    rw [if_neg hbrace]
    refine ⟨false, rfl, fun h => ?_, fun h => by cases h⟩
    obtain ⟨b, hb, -⟩ := hstrict h.2
    rw [hstart] at hb
    cases hb
    exact absurd rfl hbrace
  rw [if_pos hbrace]
  rcases hmembers : members (b.length + 1) none b with stop | ⟨found, rest⟩
  · cases stop with
    | fuel => exact absurd hmembers (members_fuel (Nat.le_refl _))
    | malformed =>
      refine ⟨false, rfl, fun h => ?_, fun h => by cases h⟩
      obtain ⟨b', hb, rest, hread, -⟩ := hstrict h.2
      rw [hstart] at hb
      cases hb
      rw [hmembers] at hread
      cases hread
  refine ⟨_, rfl, fun h => ?_, fun h => ⟨by omega, ?_⟩⟩
  · obtain ⟨b', hb, rest', hread, hrest⟩ := hstrict h.2
    rw [hstart] at hb
    cases hb
    rw [hmembers] at hread
    cases hread
    exact decide_eq_true ⟨hrest, rfl⟩
  · obtain ⟨hrest, rfl⟩ := of_decide_eq_true h
    obtain ⟨ms, body, hms, rfl, hfound⟩ := members_derives hmembers
    obtain ⟨w', hrest', hw'⟩ := whitespace_split rest
    rw [hrest, List.append_nil] at hrest'
    refine ⟨ms, ⟨w, body, rest, ?_, hw, hms, ?_⟩, verdicts_eq.mp hfound⟩
    · rw [← hbrace, ← hstart, ← hinput]
    · rw [hrest']
      exact hw'

-- ------------------------- its own answers

/-- `{"has_file_clipboard":true}`. -/
def plainCapability : Bytes :=
  123 :: (quoted capabilityKey ++ 58 :: (trueToken ++ [125]))

theorem grants_plain : Grants .strict 16 plainCapability := by
  have hblank : Dialect.strict.Blank [] := by
    intro c hc
    cases hc
  have hkey : Chars capabilityKey := by
    repeat' constructor
    all_goals decide
  refine ⟨[(capabilityKey, trueToken)],
    ⟨[], quoted capabilityKey ++ 58 :: (trueToken ++ [125]), [],
      by simp [plainCapability], hblank, ?_, hblank⟩, by decide⟩
  have hmember := @Members.last .strict 16 true capabilityKey
    (quoted capabilityKey ++ [58]) [] trueToken []
    ⟨[], [], rfl, hblank, hkey, hblank⟩ hblank
    (.scalar (Or.inl List.mem_cons_self)) hblank
  simpa using hmember

theorem json_file_capability_grammar_plain :
    jsonFileCapability plainCapability = .ok true := by
  obtain ⟨answer, hanswer, hgrants, -⟩ :=
    json_file_capability_grammar plainCapability
  rw [hanswer, hgrants ⟨by decide, grants_plain⟩]

/-- `{"has_file_clipboard":true,}`. -/
def trailingComma : Bytes :=
  123 :: (quoted capabilityKey ++ 58 :: (trueToken ++ [44, 125]))

/-- A one inside `n` arrays. -/
def nestedOne : Nat → Bytes
  | 0 => [49]
  | n + 1 => 91 :: (nestedOne n ++ [93])

/-- `{"a":[[…1…]],"has_file_clipboard":true}`, with 17 arrays. -/
def deepCapability : Bytes :=
  123 :: (quoted [97] ++ 58 :: (nestedOne 17
    ++ 44 :: (quoted capabilityKey ++ 58 :: (trueToken ++ [125]))))

private theorem derives_nestedOne (n : Nat) :
    Derives .strict .value n (nestedOne n) := by
  have hblank : Dialect.strict.Blank [] := by
    intro c hc
    cases hc
  induction n with
  | zero =>
    refine .scalar (Or.inr ⟨[], [49], [], [], rfl, by decide, ?_, ?_, ?_⟩)
    · exact Or.inr ⟨49, [], rfl, by decide, by decide, rfl⟩
    · exact Or.inl rfl
    · exact Or.inl rfl
  | succ n ih =>
    refine .container false ?_
    have hitems := @Derives.last .strict n false [] [] (nestedOne n) []
      rfl hblank ih hblank
    simpa [closing] using hitems

private theorem grants_deep : Grants .strict 17 deepCapability := by
  have hblank : Dialect.strict.Blank [] := by
    intro c hc
    cases hc
  have hkey : Chars capabilityKey := by
    repeat' constructor
    all_goals decide
  have hother : Chars [97] := by
    repeat' constructor
    all_goals decide
  have hlast := @Members.last .strict 17 false capabilityKey
    (quoted capabilityKey ++ [58]) [] trueToken []
    ⟨[], [], rfl, hblank, hkey, hblank⟩ hblank
    (.scalar (Or.inl List.mem_cons_self)) hblank
  have hmembers := @Members.more .strict 17 true [97]
    (quoted [97] ++ [58]) [] (nestedOne 17) [] _ _
    ⟨[], [], rfl, hblank, hother, hblank⟩ hblank (derives_nestedOne 17)
    hblank hlast
  refine ⟨[([97], nestedOne 17), (capabilityKey, trueToken)],
    ⟨[], quoted [97] ++ 58 :: (nestedOne 17
      ++ 44 :: (quoted capabilityKey ++ 58 :: (trueToken ++ [125]))), [],
      by simp [deepCapability], hblank, ?_, hblank⟩, by decide⟩
  simpa using hmembers

private theorem not_grants_trailing (r : Nat) :
    ¬ Grants .strict r trailingComma := by
  rintro ⟨ms, ⟨w, body, w', hinput, hw, hms, hw'⟩, -⟩
  have hw : w = [] := by
    cases w with
    | nil => rfl
    | cons c w =>
      have hc := hw c List.mem_cons_self
      cases (List.cons.inj hinput).1
      exact absurd hc (by decide)
  subst hw
  have hbody := (List.cons.inj hinput).2
  have hw' : w' = [] := by
    rcases List.eq_nil_or_concat w' with rfl | ⟨pre, c, rfl⟩
    · rfl
    · have hc := hw' c (by simp)
      have hlast := congrArg List.getLast? hbody
      simp only [List.concat_eq_append, ← List.append_assoc,
        List.getLast?_concat] at hlast
      have heq : some (125 : UInt8) = some c := hlast
      cases heq
      exact absurd hc (by decide)
  rw [hw', List.append_nil] at hbody
  rcases hms.concat with ⟨-, rfl⟩ | ⟨pre, c, rfl, hc⟩
  · cases hbody
  · have hends : (quoted capabilityKey ++ 58 :: trueToken) ++ [44, 125]
        = pre ++ [c, 125] := by
      rw [← hbody]
      simp
    have htail := (List.append_inj' hends rfl).2
    exact hc (List.cons.inj htail).1.symm

/-- The scanner takes a text the standard does not, with a comma before
the last brace, and refuses one the standard takes, 17 levels deep. -/
theorem json_file_capability_beside_grammar :
    (jsonFileCapability trailingComma = .ok true
      ∧ ∀ r, ¬ Grants .strict r trailingComma)
    ∧ (∃ r, Grants .strict r deepCapability)
      ∧ jsonFileCapability deepCapability = .ok false := by
  refine ⟨⟨by decide +kernel, not_grants_trailing⟩, ⟨17, grants_deep⟩,
    by decide +kernel⟩

end RemoteDesk.Clipboard
