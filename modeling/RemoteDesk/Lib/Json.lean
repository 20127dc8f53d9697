/-
JSON over UTF-16 units.

`Json.text` writes a value the way `JSON.stringify` does, without spaces;
`parse` reads the whole grammar of `JSON.parse`. Objects are ordered
members (`Members`): their own order of keys is not kept, and of equal
keys the last one stays. What is written is read back (`parse_text`).

Numbers come in through `JsNumber`: how a language spells its finite
numbers is its own table, of which only the round trip is asked.
-/
import RemoteDesk.Lib.Members
import RemoteDesk.Lib.Numeral

namespace RemoteDesk.Lib

abbrev Text := List Nat

/-- Found once, so that every module decides membership the same way. -/
instance : LawfulBEq Text := inferInstance

-- ================================= numbers

/-- A fraction behind `token`, if there is one. -/
def matchFraction (token rest : Text) : Text × Text :=
  match rest with
  | 46 :: u :: r =>
    if isDigitCode u then
      (token ++ 46 :: u :: r.takeWhile isDigitCode, r.dropWhile isDigitCode)
    else (token, rest)
  | _ => (token, rest)

/-- An exponent behind `token`, if there is one. -/
def matchExponent (token rest : Text) : Text × Text :=
  match rest with
  | e :: r =>
    if e = 101 ∨ e = 69 then
      let (sign, r') := match r with
        | 43 :: r' => ([43], r')
        | 45 :: r' => ([45], r')
        | _ => ([], r)
      match r' with
      | u :: r'' =>
        if isDigitCode u then
          (token ++ e :: sign ++ u :: r''.takeWhile isDigitCode,
            r''.dropWhile isDigitCode)
        else (token, rest)
      | [] => (token, rest)
    else (token, rest)
  | [] => (token, rest)

/-- The longest number a text starts with, and what follows it. -/
def matchNumber (text : Text) : Option (Text × Text) :=
  let (sign, rest) := match text with
    | 45 :: r => ([45], r)
    | _ => ([], text)
  match rest with
  | [] => none
  | u :: r =>
    if u = 48 then
      let (token, r) := matchFraction (sign ++ [48]) r
      some (matchExponent token r)
    else if isDigitCode u then
      let (token, r) := matchFraction
        (sign ++ u :: r.takeWhile isDigitCode) (r.dropWhile isDigitCode)
      some (matchExponent token r)
    else none

/-- Nothing follows that a number could go on with. -/
def Stops (rest : Text) : Prop := ∀ u ∈ rest.head?, u = 44 ∨ u = 93 ∨ u = 125

/-- The finite numbers of a script, up to the sign of zero: `read` is the
number of a token, `write` its shortest spelling, and the safe integers
are among them. -/
class JsNumber (D : Type) where
  read : Text → Option D
  write : D → Text
  ofInt : Int → D
  toInt : D → Option Int
  read_write : ∀ d, read (write d) = some d
  match_write : ∀ d rest, Stops rest →
    matchNumber (write d ++ rest) = some (write d, rest)
  toInt_ofInt : ∀ n : Int, n.natAbs < 2 ^ 53 → toInt (ofInt n) = some n

-- ================================= strings

def isHigh (u : Nat) : Bool := 0xd800 ≤ u && u < 0xdc00

def isLow (u : Nat) : Bool := 0xdc00 ≤ u && u < 0xe000

/-- Four hexadecimal digits behind a backslash. -/
def unicodeEscape (u : Nat) : Text :=
  [92, 117, digitCode (u / 4096 % 16), digitCode (u / 256 % 16),
    digitCode (u / 16 % 16), digitCode (u % 16)]

/-- A unit inside quotes; `lone` tells a surrogate without its partner. -/
def quoteUnit (lone : Bool) (u : Nat) : Text :=
  if u = 8 then [92, 98] else if u = 9 then [92, 116]
  else if u = 10 then [92, 110] else if u = 12 then [92, 102]
  else if u = 13 then [92, 114]
  else if u = 34 ∨ u = 92 then [92, u]
  else if u < 32 ∨ lone = true then unicodeEscape u
  else [u]

/-- The units of a string; `high` tells whether a high surrogate came
before. -/
def quoteFrom (high : Bool) : Text → Text
  | [] => []
  | u :: rest =>
    let lone := (isHigh u && !rest.head?.any isLow) || (isLow u && !high)
    quoteUnit lone u ++ quoteFrom (isHigh u) rest

/-- `JSON.stringify` of a string. -/
def quote (s : Text) : Text := 34 :: quoteFrom false s ++ [34]

def hexUnit (a b c d : Nat) : Option Nat :=
  if isHexCode a && isHexCode b && isHexCode c && isHexCode d then
    some (((digitValue a * 16 + digitValue b) * 16 + digitValue c) * 16
      + digitValue d)
  else none

/-- One unit of a string, behind its opening quote. -/
def readUnit : Text → Option (Nat × Text)
  | 92 :: 117 :: a :: b :: c :: d :: rest =>
    (hexUnit a b c d).map fun u => (u, rest)
  | 92 :: e :: rest =>
    if e = 34 ∨ e = 92 ∨ e = 47 then some (e, rest)
    else if e = 98 then some (8, rest) else if e = 116 then some (9, rest)
    else if e = 110 then some (10, rest)
    else if e = 102 then some (12, rest)
    else if e = 114 then some (13, rest)
    else none
  | u :: rest => if u < 32 ∨ u = 34 ∨ u = 92 then none else some (u, rest)
  | [] => none

/-- A string behind its opening quote, and what follows it. -/
def parseString : Nat → Text → Option (Text × Text)
  | 0, _ => none
  | n + 1, text =>
    if text.head? = some 34 then some ([], text.tail)
    else match readUnit text with
      | none => none
      | some (u, rest) =>
        (parseString n rest).map fun (s, rest) => (u :: s, rest)

-- ================================== values

inductive Json (D : Type) where
  | null
  | bool (b : Bool)
  | num (d : D)
  | str (s : Text)
  | arr (items : List (Json D))
  | obj (members : List (Text × Json D))

variable {D : Type} [JsNumber D]

mutual

/-- `JSON.stringify`. -/
def Json.text : Json D → Text
  | .null => codes "null"
  | .bool b => if b then codes "true" else codes "false"
  | .num d => JsNumber.write d
  | .str s => quote s
  | .arr items => 91 :: itemsText items ++ [93]
  | .obj members => 123 :: membersText members ++ [125]
termination_by structural value => value

def itemsText : List (Json D) → Text
  | [] => []
  | v :: rest => v.text ++ moreItems rest
termination_by structural items => items

def moreItems : List (Json D) → Text
  | [] => []
  | v :: rest => 44 :: v.text ++ moreItems rest
termination_by structural items => items

def membersText : List (Text × Json D) → Text
  | [] => []
  | (k, v) :: rest => quote k ++ 58 :: v.text ++ moreMembers rest
termination_by structural members => members

def moreMembers : List (Text × Json D) → Text
  | [] => []
  | (k, v) :: rest => 44 :: quote k ++ 58 :: v.text ++ moreMembers rest
termination_by structural members => members

end

def isJsonSpace (u : Nat) : Bool := u = 32 || u = 10 || u = 13 || u = 9

def skipSpace (text : Text) : Text := text.dropWhile isJsonSpace

def stripLiteral (literal text : Text) : Option Text :=
  if literal.isPrefixOf text then some (text.drop literal.length) else none

/-- What follows a unit that has to stand here, behind spaces. -/
def takeUnit (u : Nat) (text : Text) : Option Text :=
  match skipSpace text with
  | v :: rest => if v = u then some rest else none
  | [] => none

/-- A literal or a number. -/
def parseAtom (text : Text) : Option (Json D × Text) :=
  match stripLiteral (codes "true") text with
  | some rest => some (.bool true, rest)
  | none =>
    match stripLiteral (codes "false") text with
    | some rest => some (.bool false, rest)
    | none =>
      match stripLiteral (codes "null") text with
      | some rest => some (.null, rest)
      | none =>
        match matchNumber text with
        | some (token, rest) =>
          (JsNumber.read token).map fun d => (.num d, rest)
        | none => none

mutual

/-- A value, and what follows it. -/
def parseValue : Nat → Text → Option (Json D × Text)
  | 0, _ => none
  | n + 1, text =>
    match skipSpace text with
    | [] => none
    | u :: rest =>
      if u = 34 then
        (parseString (rest.length + 1) rest).map fun (s, rest) =>
          (.str s, rest)
      else if u = 91 then
        match takeUnit 93 rest with
        | some rest => some (.arr [], rest)
        | none => (parseItems n rest).map fun (vs, rest) =>
          (.arr vs, rest)
      else if u = 123 then
        match takeUnit 125 rest with
        | some rest => some (.obj [], rest)
        | none => (parseMembers n [] rest).map fun (ms, rest) =>
          (.obj ms, rest)
      else parseAtom (u :: rest)
termination_by structural n => n

/-- The items of an array that is not empty. -/
def parseItems : Nat → Text → Option (List (Json D) × Text)
  | 0, _ => none
  | n + 1, text =>
    match parseValue n text with
    | none => none
    | some (v, rest) =>
      match takeUnit 93 rest, takeUnit 44 rest with
      | some rest, _ => some ([v], rest)
      | none, some rest => (parseItems n rest).map fun (vs, rest) =>
        (v :: vs, rest)
      | none, none => none
termination_by structural n => n

/-- The members of an object that is not empty, put to those before. -/
def parseMembers : Nat → List (Text × Json D) → Text →
    Option (List (Text × Json D) × Text)
  | 0, _, _ => none
  | n + 1, before, text =>
    match takeUnit 34 text with
    | none => none
    | some rest =>
      match parseString (rest.length + 1) rest with
      | none => none
      | some (k, rest) =>
        match takeUnit 58 rest with
        | none => none
        | some rest =>
          match parseValue n rest with
          | none => none
          | some (v, rest) =>
            match takeUnit 125 rest, takeUnit 44 rest with
            | some rest, _ => some (Members.put k v before, rest)
            | none, some rest =>
              parseMembers n (Members.put k v before) rest
            | none, none => none
termination_by structural n => n

end

/-- `JSON.parse`. Two calls use up at least one unit. -/
def parse (text : Text) : Option (Json D) :=
  match parseValue (2 * text.length + 1) text with
  | some (v, rest) => if skipSpace rest = [] then some v else none
  | none => none

-- =========================== strings again

theorem hexUnit_unicodeEscape {u : Nat} (hu : u < 65536) :
    hexUnit (digitCode (u / 4096 % 16)) (digitCode (u / 256 % 16))
      (digitCode (u / 16 % 16)) (digitCode (u % 16)) = some u := by
  have hlt : ∀ x, x % 16 < 16 := fun x => Nat.mod_lt x (by norm_num)
  simp only [hexUnit, isHexCode_digitCode (hlt _), digitValue_digitCode (hlt _),
    Bool.and_self, if_true]
  congr 1
  omega

/-- Each unit is read back from its own spelling. -/
theorem readUnit_quoteUnit {lone : Bool} {u : Nat}
    (hlone : lone = true → u < 65536) (rest : Text) :
    readUnit (quoteUnit lone u ++ rest) = some (u, rest)
      ∧ (quoteUnit lone u ++ rest).head? ≠ some 34
      ∧ (quoteUnit lone u ++ rest).length
        = (quoteUnit lone u).length + rest.length := by
  refine ⟨?_, ?_, List.length_append⟩
  · unfold quoteUnit
    split
    · rename_i h
      rw [h]
      rfl
    split
    · rename_i h
      rw [h]
      rfl
    split
    · rename_i h
      rw [h]
      rfl
    split
    · rename_i h
      rw [h]
      rfl
    split
    · rename_i h
      rw [h]
      rfl
    split
    · rename_i h
      rcases h with rfl | rfl
      · rfl
      · rfl
    split
    · rename_i h
      have hu : u < 65536 := by
        rcases h with h | h
        · omega
        · exact hlone h
      show (hexUnit _ _ _ _).map _ = _
      rw [hexUnit_unicodeEscape hu]
      rfl
    · rename_i h8 h9 h10 h12 h13 hquote hplain
      rw [not_or] at hquote hplain
      rw [List.singleton_append, readUnit]
      · rw [if_neg (by omega)]
      · intro a b c d rest' heq
        exact absurd heq hquote.2
      · intro e rest' heq
        exact absurd heq hquote.2
  · unfold quoteUnit
    repeat' split
    all_goals simp_all [unicodeEscape]

theorem isLow_lt {u : Nat} (h : isHigh u = true ∨ isLow u = true) :
    u < 65536 := by
  unfold isHigh isLow at h
  simp only [Bool.and_eq_true, decide_eq_true_eq] at h
  omega

theorem quoteUnit_length_pos (lone : Bool) (u : Nat) :
    0 < (quoteUnit lone u).length := by
  unfold quoteUnit
  repeat' split
  all_goals simp [unicodeEscape]

theorem parseString_quoteFrom (s rest : Text) (high : Bool) {n : Nat}
    (hn : (quoteFrom high s).length < n) :
    parseString n (quoteFrom high s ++ 34 :: rest) = some (s, rest) := by
  induction s generalizing high n with
  | nil =>
    obtain ⟨n, rfl⟩ := Nat.exists_eq_succ_of_ne_zero (by omega : n ≠ 0)
    rfl
  | cons u s ih =>
    obtain ⟨n, rfl⟩ := Nat.exists_eq_succ_of_ne_zero (by omega : n ≠ 0)
    rw [quoteFrom] at hn ⊢
    generalize hflag : ((isHigh u && !s.head?.any isLow)
      || (isLow u && !high)) = lone at hn ⊢
    have hlone : lone = true → u < 65536 := by
      rintro rfl
      simp only [Bool.or_eq_true, Bool.and_eq_true] at hflag
      exact isLow_lt (hflag.imp And.left And.left)
    have hpos := quoteUnit_length_pos lone u
    rw [List.length_append] at hn
    obtain ⟨hread, hhead, -⟩ := readUnit_quoteUnit hlone
      (quoteFrom (isHigh u) s ++ 34 :: rest)
    rw [List.append_assoc, parseString, if_neg hhead, hread]
    rw [Option.map_eq_some_iff]
    exact ⟨_, ih (isHigh u) (by omega), rfl⟩

/-- A quoted string is read back. -/
theorem parseString_quote (s rest : Text) :
    parseString ((quoteFrom false s ++ 34 :: rest).length + 1)
      (quoteFrom false s ++ 34 :: rest) = some (s, rest) := by
  refine parseString_quoteFrom s rest false ?_
  rw [List.length_append]
  omega

-- ============================== round trip

mutual

/-- A value as it is read back: members in order, the last of equal keys. -/
def Json.sorted : Json D → Json D
  | .arr items => .arr (sortedItems items)
  | .obj members => .obj (sortedMembers [] members)
  | v => v
termination_by structural value => value

def sortedItems : List (Json D) → List (Json D)
  | [] => []
  | v :: rest => v.sorted :: sortedItems rest
termination_by structural items => items

/-- Members put to those before. -/
def sortedMembers (before : List (Text × Json D)) :
    List (Text × Json D) → List (Text × Json D)
  | [] => before
  | (k, v) :: rest => sortedMembers (Members.put k v.sorted before) rest
termination_by structural members => members

end

omit [JsNumber D] in
theorem sortedItems_eq_map (items : List (Json D)) :
    sortedItems items = items.map Json.sorted := by
  induction items with
  | nil => rfl
  | cons v rest ih => rw [sortedItems, ih, List.map_cons]

mutual

/-- The keys of every object inside are in order. -/
def Json.Wf : Json D → Prop
  | .arr items => WfItems items
  | .obj members => Members.Ordered members ∧ WfMembers members
  | _ => True
termination_by structural value => value

def WfItems : List (Json D) → Prop
  | [] => True
  | v :: rest => v.Wf ∧ WfItems rest
termination_by structural items => items

def WfMembers : List (Text × Json D) → Prop
  | [] => True
  | (_, v) :: rest => v.Wf ∧ WfMembers rest
termination_by structural members => members

end

theorem skipSpace_cons {u : Nat} (rest : Text) (h : isJsonSpace u = false) :
    skipSpace (u :: rest) = u :: rest :=
  List.dropWhile_cons_of_neg (by simp [h])

theorem takeUnit_same {u : Nat} (rest : Text) (h : isJsonSpace u = false) :
    takeUnit u (u :: rest) = some rest := by
  rw [takeUnit, skipSpace_cons rest h]
  exact if_pos rfl

theorem takeUnit_ne {u v : Nat} (rest : Text) (h : isJsonSpace v = false)
    (hne : v ≠ u) : takeUnit u (v :: rest) = none := by
  rw [takeUnit, skipSpace_cons rest h]
  exact if_neg hne

theorem matchNumber_head {text : Text} {result : Text × Text}
    (h : matchNumber text = some result) :
    ∃ u rest, text = u :: rest ∧ (u = 45 ∨ isDigitCode u = true) := by
  cases text with
  | nil => cases h
  | cons u rest =>
    refine ⟨u, rest, rfl, ?_⟩
    by_cases hsign : u = 45
    · exact .inl hsign
    · refine .inr ?_
      unfold matchNumber at h
      split at h
      rename_i sign r heq
      split at heq
      · rename_i r' hcons
        exact absurd (List.cons.inj hcons).1 hsign
      · obtain ⟨rfl, rfl⟩ := Prod.mk.inj heq
        dsimp only at h
        split at h
        · rename_i hzero
          rw [hzero]
          rfl
        · split at h
          · assumption
          · cases h

/-- What a written number starts with. -/
theorem write_head (d : D) : ∃ u rest, JsNumber.write d = u :: rest
    ∧ (u = 45 ∨ isDigitCode u = true) := by
  have hmatch := JsNumber.match_write d [] (by intro u hu; cases hu)
  rw [List.append_nil] at hmatch
  exact matchNumber_head hmatch

theorem ascii_of_digit {u : Nat} (h : isDigitCode u = true) : u < 0x80 := by
  have := isDigitCode_iff.mp h
  omega

theorem takeWhile_ascii (text : Text) :
    ∀ u ∈ text.takeWhile isDigitCode, u < 0x80 :=
  fun _ hu => ascii_of_digit (List.mem_takeWhile_imp hu)

theorem matchFraction_ascii {token : Text} (h : ∀ u ∈ token, u < 0x80)
    (rest : Text) : ∀ u ∈ (matchFraction token rest).1, u < 0x80 := by
  unfold matchFraction
  split
  · rename_i u r
    split
    · rename_i hu
      have hdigits := takeWhile_ascii r
      have hhead := ascii_of_digit hu
      simp only [List.mem_append, List.mem_cons]
      rintro v (hv | rfl | rfl | hv)
      · exact h v hv
      · decide
      · exact hhead
      · exact hdigits v hv
    · exact h
  · exact h

theorem matchExponent_ascii {token : Text} (h : ∀ u ∈ token, u < 0x80)
    (rest : Text) : ∀ u ∈ (matchExponent token rest).1, u < 0x80 := by
  unfold matchExponent
  split
  · rename_i e r
    split
    · rename_i he
      split
      rename_i sign r' hsign
      have hsigns : ∀ u ∈ sign, u < 0x80 := by
        split at hsign
        · obtain ⟨rfl, -⟩ := Prod.mk.inj hsign
          decide
        · obtain ⟨rfl, -⟩ := Prod.mk.inj hsign
          decide
        · obtain ⟨rfl, -⟩ := Prod.mk.inj hsign
          decide
      split
      · rename_i u r''
        split
        · rename_i hu
          have hdigits := takeWhile_ascii r''
          have hhead := ascii_of_digit hu
          simp only [List.mem_append, List.mem_cons]
          rintro v ((hv | rfl | hv) | rfl | hv)
          · exact h v hv
          · omega
          · exact hsigns v hv
          · exact hhead
          · exact hdigits v hv
        · exact h
      · exact h
    · exact h
  · exact h

theorem matchNumber_ascii {text token rest : Text}
    (h : matchNumber text = some (token, rest)) : ∀ u ∈ token, u < 0x80 := by
  unfold matchNumber at h
  split at h
  rename_i sign r hsign
  have hsigns : ∀ u ∈ sign, u < 0x80 := by
    split at hsign
    · obtain ⟨rfl, -⟩ := Prod.mk.inj hsign
      decide
    · obtain ⟨rfl, -⟩ := Prod.mk.inj hsign
      decide
  split at h
  · cases h
  · rename_i u r
    split at h
    · obtain ⟨rfl, -⟩ := Prod.mk.inj (Option.some.inj h)
      refine matchExponent_ascii (matchFraction_ascii ?_ _) _
      simpa [or_imp, forall_and] using hsigns
    · split at h
      · rename_i hu
        obtain ⟨rfl, -⟩ := Prod.mk.inj (Option.some.inj h)
        refine matchExponent_ascii (matchFraction_ascii ?_ _) _
        have hdigits := takeWhile_ascii r
        have hhead := ascii_of_digit hu
        simp only [List.mem_append, List.mem_cons]
        rintro v (hv | rfl | hv)
        · exact hsigns v hv
        · exact hhead
        · exact hdigits v hv
      · cases h

theorem write_ascii (d : D) : ∀ u ∈ JsNumber.write d, u < 0x80 := by
  have hmatch := JsNumber.match_write d [] (by intro u hu; cases hu)
  exact matchNumber_ascii hmatch

/-- A value starts with no space and no closing bracket. -/
theorem text_head (v : Json D) : ∃ u rest, v.text = u :: rest
    ∧ isJsonSpace u = false ∧ u ≠ 93 := by
  cases v with
  | null => exact ⟨_, _, rfl, rfl, by decide⟩
  | bool b =>
    cases b with
    | true => exact ⟨_, _, rfl, rfl, by decide⟩
    | false => exact ⟨_, _, rfl, rfl, by decide⟩
  | num d =>
    obtain ⟨u, rest, htext, hu⟩ := write_head d
    refine ⟨u, rest, htext, ?_, ?_⟩
    · unfold isJsonSpace
      rcases hu with rfl | hu
      · rfl
      · have := isDigitCode_iff.mp hu
        simp
        omega
    · rcases hu with rfl | hu
      · decide
      · have := isDigitCode_iff.mp hu
        omega
  | str s => exact ⟨_, _, rfl, rfl, by decide⟩
  | arr items => exact ⟨_, _, rfl, rfl, by decide⟩
  | obj members => exact ⟨_, _, rfl, rfl, by decide⟩

theorem parseAtom_write (d : D) {rest : Text} (hstops : Stops rest) :
    parseAtom (JsNumber.write d ++ rest) = some (.num d, rest) := by
  obtain ⟨u, tail, htext, hu⟩ := write_head d
  have hliteral : ∀ l : Text, l.head?.all (fun c => c ≠ 45 ∧
      isDigitCode c = false) = true → l ≠ [] →
      stripLiteral l (JsNumber.write d ++ rest) = none := by
    intro l hl hne
    obtain ⟨c, l, rfl⟩ := List.exists_cons_of_ne_nil hne
    have hc : c ≠ u := by
      simp only [List.head?_cons, Option.all_some, decide_eq_true_eq] at hl
      rintro rfl
      rcases hu with rfl | hu
      · exact hl.1 rfl
      · rw [hl.2] at hu
        cases hu
    rw [htext, stripLiteral, List.cons_append, List.isPrefixOf_cons_cons]
    simp [hc]
  unfold parseAtom
  rw [hliteral (codes "true") (by decide) (by decide),
    hliteral (codes "false") (by decide) (by decide),
    hliteral (codes "null") (by decide) (by decide),
    JsNumber.match_write d rest hstops]
  dsimp only
  rw [JsNumber.read_write]
  rfl

theorem stops_cons {u : Nat} (rest : Text) (h : u = 44 ∨ u = 93 ∨ u = 125) :
    Stops (u :: rest) := by
  intro v hv
  obtain rfl : u = v := Option.some.inj hv
  exact h

theorem text_length_pos (v : Json D) : 0 < v.text.length := by
  obtain ⟨u, rest, htext, -⟩ := text_head v
  rw [htext]
  exact Nat.succ_pos _

theorem skipSpace_text (v : Json D) (rest : Text) :
    skipSpace (v.text ++ rest) = v.text ++ rest := by
  obtain ⟨u, tail, htext, hspace, -⟩ := text_head v
  rw [htext]
  exact skipSpace_cons _ hspace

theorem takeUnit_text {u : Nat} (v : Json D) (rest : Text)
    (h : u = 93) : takeUnit u (v.text ++ rest) = none := by
  obtain ⟨c, tail, htext, hspace, hne⟩ := text_head v
  rw [htext, h]
  exact takeUnit_ne _ hspace hne

mutual

theorem parseValue_text : ∀ (v : Json D) (n : Nat) (rest : Text),
    v.text.length ≤ n → Stops rest →
    parseValue n (v.text ++ rest) = some (v.sorted, rest)
  | v, 0, rest, hn, _ => by
      have := text_length_pos v
      omega
  | .null, n + 1, rest, _, _ => rfl
  | .bool true, n + 1, rest, _, _ => rfl
  | .bool false, n + 1, rest, _, _ => rfl
  | .num d, n + 1, rest, _, hstops => by
      obtain ⟨u, tail, htext, hu⟩ := write_head d
      have hspace := skipSpace_text (Json.num d) rest
      have hatom := parseAtom_write d hstops
      have hne : u ≠ 34 ∧ u ≠ 91 ∧ u ≠ 123 := by
        rcases hu with rfl | hu
        · decide
        · have := isDigitCode_iff.mp hu
          omega
      rw [Json.text] at hspace ⊢
      rw [parseValue, hspace]
      rw [htext, List.cons_append] at hatom ⊢
      dsimp only
      rw [if_neg hne.1, if_neg hne.2.1, if_neg hne.2.2, hatom]
      rfl
  | .str s, n + 1, rest, _, _ => by
      have htext : (Json.str s : Json D).text ++ rest
          = 34 :: (quoteFrom false s ++ 34 :: rest) := by
        simp [Json.text, quote]
      rw [htext, parseValue, skipSpace_cons _ (by decide)]
      dsimp only
      rw [if_pos rfl, parseString_quote]
      rfl
  | .arr [], n + 1, rest, _, _ => rfl
  | .arr (v :: items), n + 1, rest, hn, _ => by
      have htext : (Json.arr (v :: items)).text ++ rest
          = 91 :: (itemsText (v :: items) ++ 93 :: rest) := by
        simp [Json.text]
      have hlen : (Json.arr (v :: items)).text.length
          = (itemsText (v :: items)).length + 2 := by
        simp [Json.text]
      have hitems := parseItems_text (v :: items) n rest (by simp)
        (by omega)
      have hclose : takeUnit 93 (itemsText (v :: items) ++ 93 :: rest)
          = none := by
        rw [itemsText, List.append_assoc]
        exact takeUnit_text v _ rfl
      rw [htext, parseValue, skipSpace_cons _ (by decide)]
      dsimp only
      rw [if_neg (by decide), if_pos rfl, hclose, hitems]
      rfl
  | .obj [], n + 1, rest, _, _ => rfl
  | .obj ((k, v) :: members), n + 1, rest, hn, _ => by
      have htext : (Json.obj ((k, v) :: members)).text ++ rest
          = 123 :: (membersText ((k, v) :: members) ++ 125 :: rest) := by
        simp [Json.text]
      have hlen : (Json.obj ((k, v) :: members)).text.length
          = (membersText ((k, v) :: members)).length + 2 := by
        simp [Json.text]
      have hmembers := parseMembers_text ((k, v) :: members) n [] rest
        (by simp) (by omega)
      have hclose : takeUnit 125 (membersText ((k, v) :: members)
          ++ 125 :: rest) = none := by
        rw [membersText, quote, List.append_assoc, List.append_assoc,
          List.cons_append, List.cons_append]
        exact takeUnit_ne _ (by decide) (by decide)
      rw [htext, parseValue, skipSpace_cons _ (by decide)]
      dsimp only
      rw [if_neg (by decide), if_neg (by decide), if_pos rfl, hclose, hmembers]
      rfl
termination_by structural v => v

theorem parseItems_text : ∀ (items : List (Json D)) (n : Nat) (rest : Text),
    items ≠ [] → (itemsText items).length + 1 ≤ n →
    parseItems n (itemsText items ++ 93 :: rest)
      = some (sortedItems items, rest)
  | [], _, _, hne, _ => absurd rfl hne
  | _ :: _, 0, _, _, hn => by omega
  | [v], n + 1, rest, _, hn => by
      have hlen : (itemsText [v]).length = v.text.length := by
        simp [itemsText, moreItems]
      have hvalue := parseValue_text v n (93 :: rest) (by omega)
        (stops_cons rest (.inr (.inl rfl)))
      have htext : itemsText [v] = v.text := by simp [itemsText, moreItems]
      rw [htext, parseItems, hvalue]
      dsimp only
      rw [takeUnit_same rest (by decide)]
      rfl
  | v :: w :: items, n + 1, rest, _, hn => by
      have htext : itemsText (v :: w :: items)
          = v.text ++ 44 :: itemsText (w :: items) := by
        simp [itemsText, moreItems]
      rw [htext, List.length_append, List.length_cons] at hn
      have hpos := text_length_pos v
      have hvalue := parseValue_text v n
        (44 :: (itemsText (w :: items) ++ 93 :: rest)) (by omega)
        (stops_cons _ (.inl rfl))
      have hitems := parseItems_text (w :: items) n rest (by simp)
        (by omega)
      rw [htext, List.append_assoc, List.cons_append, parseItems, hvalue]
      dsimp only
      rw [takeUnit_ne _ (by decide) (by decide),
        takeUnit_same _ (by decide)]
      dsimp only
      rw [hitems]
      rfl
termination_by structural items => items

theorem parseMembers_text : ∀ (members : List (Text × Json D)) (n : Nat)
    (before : List (Text × Json D)) (rest : Text), members ≠ [] →
    (membersText members).length + 1 ≤ n →
    parseMembers n before (membersText members ++ 125 :: rest)
      = some (sortedMembers before members, rest)
  | [], _, _, _, hne, _ => absurd rfl hne
  | _ :: _, 0, _, _, _, hn => by omega
  | [(k, v)], n + 1, before, rest, _, hn => by
      have htext : membersText [(k, v)] ++ 125 :: rest
          = 34 :: (quoteFrom false k ++ 34 :: 58 :: (v.text ++ 125 :: rest)) := by
        simp [membersText, moreMembers, quote]
      have hlen : (membersText [(k, v)]).length
          = (quote k).length + v.text.length + 1 := by
        simp [membersText, moreMembers]
        omega
      have hvalue := parseValue_text v n (125 :: rest) (by omega)
        (stops_cons rest (.inr (.inr rfl)))
      rw [htext, parseMembers, takeUnit_same _ (by decide)]
      dsimp only
      rw [parseString_quote]
      dsimp only
      rw [takeUnit_same _ (by decide)]
      dsimp only
      rw [hvalue]
      dsimp only
      rw [takeUnit_same _ (by decide)]
      rfl
  | (k, v) :: (j, w) :: members, n + 1, before, rest, _, hn => by
      have htext : membersText ((k, v) :: (j, w) :: members) ++ 125 :: rest
          = 34 :: (quoteFrom false k ++ 34 :: 58 :: (v.text
            ++ 44 :: (membersText ((j, w) :: members) ++ 125 :: rest))) := by
        simp [membersText, moreMembers, quote]
      have hlen : (membersText ((k, v) :: (j, w) :: members)).length
          = (quote k).length + v.text.length + 2
            + (membersText ((j, w) :: members)).length := by
        simp [membersText, moreMembers]
        omega
      have hvalue := parseValue_text v n
        (44 :: (membersText ((j, w) :: members) ++ 125 :: rest))
        (by omega) (stops_cons _ (.inl rfl))
      have hmembers := parseMembers_text ((j, w) :: members) n
        (Members.put k v.sorted before) rest (by simp) (by omega)
      rw [htext, parseMembers, takeUnit_same _ (by decide)]
      dsimp only
      rw [parseString_quote]
      dsimp only
      rw [takeUnit_same _ (by decide)]
      dsimp only
      rw [hvalue]
      dsimp only
      rw [takeUnit_ne _ (by decide) (by decide), takeUnit_same _ (by decide)]
      dsimp only
      rw [hmembers]
      rfl
termination_by structural members => members

end

omit [JsNumber D] in
mutual

theorem Json.sorted_of_wf : ∀ {v : Json D}, v.Wf → v.sorted = v
  | .null, _ => rfl
  | .bool _, _ => rfl
  | .num _, _ => rfl
  | .str _, _ => rfl
  | .arr items, h => by rw [Json.sorted, sortedItems_of_wf items h]
  | .obj members, h => by
      rw [Json.sorted, sortedMembers_of_wf members [] h.1 h.2]
      rfl
termination_by structural v => v

theorem sortedItems_of_wf : ∀ (items : List (Json D)), WfItems items →
    sortedItems items = items
  | [], _ => rfl
  | v :: items, h => by
      rw [sortedItems, Json.sorted_of_wf h.1, sortedItems_of_wf items h.2]
termination_by structural items => items

theorem sortedMembers_of_wf : ∀ (members before : List (Text × Json D)),
    Members.Ordered (before ++ members) → WfMembers members →
    sortedMembers before members = before ++ members
  | [], before, _, _ => (List.append_nil before).symm
  | (k, v) :: members, before, hord, hwf => by
      have hput : Members.put k v before = before ++ [(k, v)] := by
        refine Members.put_last fun i hi => ?_
        rw [Members.Ordered, Members.keys_append, List.pairwise_append] at hord
        exact hord.2.2 i hi k List.mem_cons_self
      have hassoc : before ++ (k, v) :: members
          = (before ++ [(k, v)]) ++ members := by simp
      rw [sortedMembers, Json.sorted_of_wf hwf.1, hput,
        sortedMembers_of_wf members _ (hassoc ▸ hord) hwf.2, hassoc]
termination_by structural members => members

end

omit [JsNumber D] in
/-- A member that is written once is read back. -/
theorem lookup_sortedMembers {members : List (Text × Json D)}
    (h : (Members.keys members).Nodup) (k : Text)
    (before : List (Text × Json D)) :
    Members.lookup k (sortedMembers before members)
      = ((Members.lookup k members).map Json.sorted).or
        (Members.lookup k before) := by
  induction members generalizing before with
  | nil => rfl
  | cons p members ih =>
    obtain ⟨j, v⟩ := p
    obtain ⟨hj, h⟩ := List.nodup_cons.mp h
    rw [sortedMembers, ih h, Members.lookup]
    by_cases hjk : j = k
    · rw [if_pos hjk, ← hjk, Members.lookup_of_notMem hj,
        Members.lookup_put_same]
      rfl
    · rw [if_neg hjk, Members.lookup_put_ne hjk]

/-- A member of a value, which only an object has. -/
def member (key : String) : Json D → Option (Json D)
  | .obj members => Members.lookup (codes key) members
  | _ => none

def isText (s : Text) : Option (Json D) → Bool
  | some (.str t) => t = s
  | _ => false

omit [JsNumber D] in
theorem isText_iff {s : Text} {v : Option (Json D)} :
    isText s v = true ↔ v = some (.str s) := by
  unfold isText
  split
  · rename_i t
    simp [eq_comm]
  · rename_i hne
    exact iff_of_false (by simp) (hne s)

omit [JsNumber D] in
@[simp] theorem isText_self (s : Text) :
    isText s (some (.str s : Json D)) = true := decide_eq_true rfl

omit [JsNumber D] in
theorem member_sorted {members : List (Text × Json D)}
    (h : (Members.keys members).Nodup) {key : String} {v : Json D}
    (hv : Members.lookup (codes key) members = some v) :
    member key (Json.obj members).sorted = some v.sorted := by
  show Members.lookup (codes key) (sortedMembers [] members) = _
  rw [lookup_sortedMembers h, hv]
  rfl

/-- What is written is read back, with its members in order. -/
theorem parse_text_sorted (v : Json D) : parse v.text = some v.sorted := by
  have hvalue := parseValue_text v (2 * v.text.length + 1) [] (by omega)
    (by intro u hu; cases hu)
  rw [List.append_nil] at hvalue
  rw [parse, hvalue]
  rfl

theorem parse_text {v : Json D} (h : v.Wf) : parse v.text = some v := by
  rw [parse_text_sorted, Json.sorted_of_wf h]

-- ================================ integers

theorem matchFraction_stops {rest : Text} (h : Stops rest) (token : Text) :
    matchFraction token rest = (token, rest) := by
  unfold matchFraction
  split
  · have hhead := h 46 rfl
    omega
  · rfl

theorem matchExponent_stops {rest : Text} (h : Stops rest) (token : Text) :
    matchExponent token rest = (token, rest) := by
  unfold matchExponent
  split
  · rename_i e r
    have hhead := h e rfl
    rw [if_neg (by omega)]
  · rfl

theorem takeWhile_digits {ds rest : Text}
    (hds : ∀ c ∈ ds, isDigitCode c = true) (h : Stops rest) :
    (ds ++ rest).takeWhile isDigitCode = ds
      ∧ (ds ++ rest).dropWhile isDigitCode = rest := by
  have hrest : rest.takeWhile isDigitCode = []
      ∧ rest.dropWhile isDigitCode = rest := by
    cases rest with
    | nil => exact ⟨rfl, rfl⟩
    | cons u rest =>
      have hu : ¬ isDigitCode u = true := by
        intro hdigit
        have := isDigitCode_iff.mp hdigit
        have := h u rfl
        omega
      exact ⟨List.takeWhile_cons_of_neg hu, List.dropWhile_cons_of_neg hu⟩
  rw [List.takeWhile_append_of_pos hds, List.dropWhile_append_of_pos hds,
    hrest.1, hrest.2, List.append_nil]
  exact ⟨rfl, rfl⟩

/-- An integer, with its sign. -/
def integerText (n : Int) : Text :=
  (if n < 0 then [45] else []) ++ numeral 10 n.natAbs

def readInteger : Text → Option Int
  | 45 :: ds =>
    if ds ≠ [] ∧ ds.all isDigitCode then some (-(spelled 10 ds)) else none
  | ds => if ds ≠ [] ∧ ds.all isDigitCode then some (spelled 10 ds) else none

theorem numeral_cons (n : Nat) : ∃ u ds, numeral 10 n = u :: ds
    ∧ isDigitCode u = true ∧ (∀ c ∈ ds, isDigitCode c = true)
    ∧ (u = 48 → ds = []) := by
  obtain ⟨u, ds, hcons⟩ := List.exists_cons_of_ne_nil (numeral_ne_nil 10 n)
  have hdigits : ∀ c ∈ u :: ds, isDigitCode c = true := fun c hc =>
    isDigitCode_of_mem (hcons ▸ hc)
  refine ⟨u, ds, hcons, hdigits u List.mem_cons_self,
    fun c hc => hdigits c (List.mem_cons_of_mem _ hc), fun hu => ?_⟩
  by_cases hn : n = 0
  · rw [hn] at hcons
    exact (List.cons.inj hcons).2.symm
  · have hhead := @head_numeral 10 n (by norm_num) (by norm_num) hn
    rw [hcons, hu] at hhead
    exact absurd rfl hhead

theorem readInteger_text (n : Int) :
    readInteger (integerText n) = some n := by
  obtain ⟨u, ds, hcons, hu, hds, -⟩ := numeral_cons n.natAbs
  have hcheck : u :: ds ≠ [] ∧ (u :: ds).all isDigitCode = true :=
    ⟨by simp, List.all_eq_true.mpr (List.forall_mem_cons.mpr ⟨hu, hds⟩)⟩
  have hvalue : spelled 10 (u :: ds) = n.natAbs := by
    rw [← hcons]
    exact spelled_numeral (by norm_num) (by norm_num)
  rw [integerText, hcons]
  split
  · show (if u :: ds ≠ [] ∧ (u :: ds).all isDigitCode
      then some (-(spelled 10 (u :: ds) : Int)) else none) = _
    rw [if_pos hcheck, hvalue]
    congr 1
    omega
  · have hne : u ≠ 45 := by
      have := isDigitCode_iff.mp hu
      omega
    rw [List.nil_append, readInteger]
    · rw [if_pos hcheck, hvalue]
      congr 1
      omega
    · intro ds' heq
      exact hne (List.cons.inj heq).1

theorem matchNumber_integer (n : Int) {rest : Text} (h : Stops rest) :
    matchNumber (integerText n ++ rest) = some (integerText n, rest) := by
  obtain ⟨u, ds, hcons, hu, hds, hzero⟩ := numeral_cons n.natAbs
  obtain ⟨htake, hdrop⟩ := takeWhile_digits hds h
  have hrest : ∀ sign : Text, (if u = 48 then
        some (matchExponent (matchFraction (sign ++ [48]) (ds ++ rest)).1
          (matchFraction (sign ++ [48]) (ds ++ rest)).2)
      else if isDigitCode u then
        some (matchExponent
          (matchFraction (sign ++ u :: (ds ++ rest).takeWhile isDigitCode)
            ((ds ++ rest).dropWhile isDigitCode)).1
          (matchFraction (sign ++ u :: (ds ++ rest).takeWhile isDigitCode)
            ((ds ++ rest).dropWhile isDigitCode)).2)
      else none) = some (sign ++ u :: ds, rest) := by
    intro sign
    by_cases h48 : u = 48
    · rw [if_pos h48, hzero h48, List.nil_append, matchFraction_stops h,
        matchExponent_stops h, h48]
    · rw [if_neg h48, if_pos hu, htake, hdrop, matchFraction_stops h,
        matchExponent_stops h]
  rw [integerText, hcons]
  by_cases hneg : n < 0
  · rw [if_pos hneg]
    exact hrest [45]
  · have hne : u ≠ 45 := by
      have := isDigitCode_iff.mp hu
      omega
    rw [if_neg hneg]
    unfold matchNumber
    split
    rename_i sign r heq
    split at heq
    · rename_i r' hr
      exact absurd (List.cons.inj hr).1 hne
    · obtain ⟨rfl, rfl⟩ := Prod.mk.inj heq
      exact hrest []

/-- A script whose numbers are all integers. -/
instance : JsNumber Int where
  read := readInteger
  write := integerText
  ofInt := id
  toInt := some
  read_write := readInteger_text
  match_write := fun n _ h => matchNumber_integer n h
  toInt_ofInt := fun _ _ => rfl

end RemoteDesk.Lib
