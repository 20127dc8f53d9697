/-
The two policies agree.

`Rfc4291` says what `inet_pton(AF_INET6, …)` accepts: the texts `Ipv6`
relates to words, whose bytes it writes. With that every piece of the
native policy computes what the ArkTS piece does on the same code units
(`parseHost_eq`, `parseAuthority_eq`). A text with a character beyond
ASCII has other code units in the two languages, and is refused by both
with the same error.
-/
import RemoteDesk.Endpoint.Pieces
import RemoteDesk.Lib.Unicode

namespace RemoteDesk.Endpoint

open Lib

-- =================================== bytes

/-- The bytes of an address, in network order. -/
def addressOf (words : List Nat) : List Nat :=
  words.flatMap fun word => [word / 256, word % 256]

/-- `inet_pton` accepts the texts of addresses, and no others. -/
def Rfc4291 (inetPton : List Nat → Option (List Nat)) : Prop :=
  ∀ text address, inetPton text = some address
    ↔ ∃ words, Ipv6 text words ∧ address = addressOf words

/-- Eight words. -/
def Words (words : List Nat) : Prop :=
  words.length = 8 ∧ ∀ word ∈ words, word < 65536

theorem spelled_lt {g : List Nat} {w : Nat} (h : Group g w) : w < 65536 := by
  have hdigit : ∀ c, isHexCode c = true → digitValue c < 16 := by
    intro c hc
    unfold isHexCode isDigitCode at hc
    simp only [Bool.or_eq_true, Bool.and_eq_true, decide_eq_true_eq] at hc
    unfold digitValue
    split
    · omega
    · split <;> omega
  have hlt := Nat.ofDigits_lt_base_pow_length (b := 16)
    (l := g.reverse.map digitValue) (by norm_num) (by
      intro d hd
      obtain ⟨c, hc, rfl⟩ := List.mem_map.mp hd
      exact hdigit c (h.hex c (List.mem_reverse.mp hc)))
  rw [List.length_map, List.length_reverse, ← spelled_eq, ← h.word_eq]
    at hlt
  exact hlt.trans_le (Nat.pow_le_pow_right (by norm_num) h.le)

theorem groups_words {gs : List (List Nat)} {ws : List Nat}
    (h : Groups gs ws) : ∀ w ∈ ws, w < 65536 := by
  have hhex : ∀ {gs : List (List Nat)} {ws : List Nat},
      List.Forall₂ Group gs ws → ∀ w ∈ ws, w < 65536 := by
    intro gs ws hgs w hw
    induction hgs with
    | nil => cases hw
    | cons hg _ ih =>
      rcases List.mem_cons.mp hw with rfl | hw
      · exact spelled_lt hg
      · exact ih hw
  cases h with
  | hex hgs => exact hhex hgs
  | quad hgs hquad =>
    intro w hw
    obtain ⟨_, _, _, _, heq, hhi, hlo⟩ := quad_four hquad
    simp only [List.cons.injEq, and_true] at heq
    obtain ⟨rfl, rfl, rfl, rfl⟩ := heq
    simp only [List.mem_append, List.mem_cons, List.not_mem_nil,
      or_false] at hw
    rcases hw with hw | rfl | rfl
    · exact hhex hgs w hw
    · exact hhi
    · exact hlo

variable {words value : List Nat}

theorem ipv6_words {text : List Nat} (h : Ipv6 text words) : Words words := by
  cases h with
  | full hgs hlen => exact ⟨hlen, groups_words hgs⟩
  | short hls hrs hlen =>
    refine ⟨?_, fun w hw => ?_⟩
    · rw [List.length_append, List.length_append, List.length_replicate]
      omega
    · simp only [List.mem_append, List.mem_replicate] at hw
      rcases hw with (hw | ⟨-, rfl⟩) | hw
      · exact groups_words (.hex hls) w hw
      · norm_num
      · exact groups_words hrs w hw

theorem words_cases (h : Words words) :
    ∃ a b c d e f g i, words = [a, b, c, d, e, f, g, i] := by
  obtain ⟨hlen, -⟩ := h
  match words, hlen with
  | [a, b, c, d, e, f, g, i], _ => exact ⟨a, b, c, d, e, f, g, i, rfl⟩

theorem word_of_bytes (w : Nat) :
    (w / 256) <<< 8 ||| w % 256 = w := by
  rw [shift_or (by omega)]
  omega

theorem ipv6Words_addressOf (h : Words words) :
    Native.ipv6Words (addressOf words) = words := by
  obtain ⟨a, b, c, d, e, f, g, i, rfl⟩ := words_cases h
  simp [Native.ipv6Words, addressOf, List.range_succ, word_of_bytes]

/-- A mask on a word is one on each byte. -/
theorem and_bytes (x y : Nat) :
    x &&& y = 256 * (x / 256 &&& y / 256) + (x % 256 &&& y % 256) := by
  have hdiv : (x &&& y) / 2 ^ 8 = x / 2 ^ 8 &&& y / 2 ^ 8 :=
    Nat.and_div_two_pow
  have hmod : (x &&& y) % 2 ^ 8 = x % 2 ^ 8 &&& y % 2 ^ 8 :=
    Nat.and_mod_two_pow
  have hsum := Nat.div_add_mod (x &&& y) (2 ^ 8)
  rw [hdiv, hmod] at hsum
  exact hsum.symm

theorem byte_and (n : Nat) (h : n < 256) : n &&& 255 = n := by
  rw [show 255 = 2 ^ 8 - 1 from rfl, Nat.and_two_pow_sub_one_eq_mod]
  exact Nat.mod_eq_of_lt h

theorem multicast_iff {word : Nat} (h : word < 65536) :
    word / 256 = 0xff ↔ word &&& 0xff00 = 0xff00 := by
  rw [and_bytes, byte_and _ (by omega), Nat.and_zero]
  omega

theorem linkLocal_iff {word : Nat} (h : word < 65536) :
    word / 256 = 0xfe ∧ word % 256 &&& 0xc0 = 0x80
      ↔ word &&& 0xffc0 = 0xfe80 := by
  have hle : word % 256 &&& 0xc0 ≤ 0xc0 := Nat.and_le_right
  rw [and_bytes word 0xffc0, byte_and _ (by omega)]
  change _ ↔ 256 * (word / 256) + (word % 256 &&& 0xc0) = 0xfe80
  omega

theorem notConnectable_eq (h : Words words) :
    Native.ipv6NotConnectable (addressOf words)
      = (Ark.ipv6IsUnspecified words || Ark.ipv6IsMappedIpv4 words
        || Ark.ipv6IsMulticast words) := by
  obtain ⟨a, b, c, d, e, f, g, i, rfl⟩ := words_cases h
  have hzero : ∀ n : Nat, n / 256 = 0 ∧ n % 256 = 0 ↔ n = 0 := by omega
  have hlt := h.2
  simp only [List.forall_mem_cons] at hlt
  have hmulti := multicast_iff hlt.1
  have hall : ∀ n : Nat, n < 65536 →
      (n / 256 = 0xff ∧ n % 256 = 0xff ↔ n = 0xffff) := by omega
  rw [Bool.eq_iff_iff]
  simp only [Native.ipv6NotConnectable, addressOf, Ark.ipv6IsUnspecified,
    Ark.ipv6IsMappedIpv4, Ark.ipv6IsMulticast, List.flatMap_cons,
    List.flatMap_nil, List.cons_append, List.nil_append, List.append_nil,
    List.all_cons, List.all_nil, Bool.and_true, Bool.or_eq_true,
    Bool.and_eq_true, decide_eq_true_eq, List.take_succ_cons, List.take_zero,
    List.getD_cons_succ, List.getD_cons_zero, ← hmulti, ← hall f
    hlt.2.2.2.2.2.1]
  simp only [← hzero a, ← hzero b, ← hzero c, ← hzero d, ← hzero e,
    ← hzero f, ← hzero g, ← hzero i, and_assoc]

theorem linkLocal_eq (h : Words words) :
    Native.ipv6LinkLocal (addressOf words) = Ark.ipv6IsLinkLocal words := by
  obtain ⟨a, b, c, d, e, f, g, i, rfl⟩ := words_cases h
  have hlocal := linkLocal_iff (h.2 a (by simp))
  rw [Bool.eq_iff_iff]
  simp only [Native.ipv6LinkLocal, Ark.ipv6IsLinkLocal, addressOf,
    List.flatMap_cons, List.cons_append, List.nil_append,
    List.getD_cons_succ, List.getD_cons_zero, Bool.and_eq_true,
    decide_eq_true_eq]
  exact hlocal

theorem canonicalIpv6_eq (h : Words words) :
    Native.canonicalIpv6 (addressOf words) = Ark.canonicalIpv6 words := by
  unfold Native.canonicalIpv6 Ark.canonicalIpv6
  rw [ipv6Words_addressOf h]
  dsimp only
  cases bestRun words with
  | none => exact writeWords_none words
  | some run => rfl

theorem inetPton_eq {inetPton : List Nat → Option (List Nat)}
    (h : Rfc4291 inetPton) (text : List Nat) :
    inetPton text = (Ark.parseIpv6Words text).map addressOf := by
  apply Option.ext
  intro address
  rw [h, Option.map_eq_some_iff]
  constructor
  · rintro ⟨words, htext, rfl⟩
    exact ⟨words, Ark.parseIpv6Words_iff.mpr htext, rfl⟩
  · rintro ⟨words, hwords, rfl⟩
    exact ⟨words, Ark.parseIpv6Words_iff.mp hwords, rfl⟩

-- ================================== scopes

theorem interfaceText_iff :
    Ark.interfaceText value = true
      ↔ value.head?.any isAsciiAlpha = true
        ∧ (value.all fun ch =>
          isAsciiAlnum ch || ch = 95 || ch = 46 || ch = 45) = true := by
  cases value with
  | nil => simp [Ark.interfaceText]
  | cons ch rest =>
    simp only [Ark.interfaceText, List.head?_cons, Option.any_some,
      List.all_cons, Bool.and_eq_true]
    constructor
    · intro ⟨hch, hrest⟩
      exact ⟨hch, by simp [isAsciiAlnum, hch], hrest⟩
    · intro ⟨hch, _, hrest⟩
      exact ⟨hch, hrest⟩

/-- The native scope is the kind the ArkTS policy finds, with the text it
then makes of it. -/
theorem parseScope_eq (value : List Nat) (mode : ParseMode) :
    Native.parseScope value mode
      = (Ark.parseScope value mode,
        match Ark.parseScope value mode with
        | .none => []
        | .interface => value
        | .numeric => numeral 10 (spelled 10 value)) := by
  unfold Native.parseScope Ark.parseScope
  dsimp only
  by_cases hdigits : value ≠ [] ∧ value.all isDigitCode = true
  · rw [if_pos hdigits, if_pos hdigits]
    by_cases hlong : value.length > 10
    · rw [if_pos (.inr hlong), if_pos hlong]
    · rw [if_neg hlong]
      by_cases hmode : mode = .runtime
      · rw [if_neg (by simp [hmode, hlong])]
        by_cases hsmall :
            spelled 10 value < 1 ∨ spelled 10 value > 0xffffffff
        · rw [if_pos hsmall, if_neg (by omega)]
        · rw [if_neg hsmall, if_pos ⟨hmode, by omega⟩]
      · rw [if_pos (.inl hmode), if_neg fun h => hmode h.1]
  · rw [if_neg hdigits, if_neg hdigits]
    by_cases hshape : 1 ≤ value.length ∧ value.length ≤ 32
        ∧ Ark.interfaceText value = true
    · obtain ⟨hpos, hle, htext⟩ := hshape
      obtain ⟨hhead, hall⟩ := interfaceText_iff.mp htext
      rw [if_pos (c := 1 ≤ _ ∧ _) ⟨hpos, hle, htext⟩, if_neg, if_neg]
      · simp [hall]
      · simp only [hhead, Bool.not_true, Bool.false_eq_true, or_false,
          not_or]
        exact ⟨List.ne_nil_of_length_pos hpos, by omega⟩
    · rw [if_neg (c := 1 ≤ _ ∧ _) hshape]
      split
      · rfl
      · rename_i hgood
        split
        · rfl
        · rename_i hall
          exfalso
          refine hshape ?_
          simp only [not_or] at hgood
          refine ⟨List.length_pos_of_ne_nil hgood.1, by omega, ?_⟩
          rw [interfaceText_iff]
          simp only [Bool.not_eq_true', Bool.not_eq_false] at hgood hall
          exact ⟨hgood.2.2, hall⟩

-- ================================== labels

/-- The loop that ends with the text sees all labels of a text that does
not end with a full stop. -/
theorem validLabels_eq {fuel : Nat} (hfuel : value.length ≤ fuel)
    (hne : value ≠ []) (hlast : value.getLast? ≠ some 46) :
    Native.validLabels fuel value
      = (value.splitOn 46).all Native.validLabel := by
  induction fuel generalizing value with
  | zero => exact absurd (List.eq_nil_of_length_eq_zero (by omega)) hne
  | succ fuel ih =>
    rw [Native.validLabels, if_neg hne, splitOn_eq_cut, List.all_cons]
    congr 1
    cases hcut : (cut 46 value).2 with
    | none => rfl
    | some rest =>
      have hlt := length_cut_some _ hcut
      have hrest : rest ≠ [] := by
        rintro rfl
        exact hlast (getLast?_cut_nil _ hcut)
      refine ih (by omega) hrest ?_
      rwa [getLast?_cut_some _ hcut hrest]

theorem numericLabels_eq {fuel : Nat} (hfuel : value.length ≤ fuel) :
    Native.numericLabels fuel value
      = (value.splitOn 46).all Native.numericLabel := by
  have hnil : Native.numericLabel [] = false := rfl
  induction fuel generalizing value with
  | zero =>
    rw [List.eq_nil_of_length_eq_zero (Nat.le_zero.mp hfuel)]
    rfl
  | succ fuel ih =>
    rw [Native.numericLabels]
    split
    · rename_i h
      rw [h]
      rfl
    · rw [splitOn_eq_cut, List.all_cons]
      congr 1
      cases hcut : (cut 46 value).2 with
      | none => rfl
      | some rest =>
        have hlt := length_cut_some _ hcut
        exact ih (by omega)

theorem validLabel_eq : Native.validLabel = Ark.validLabel := by
  funext label
  unfold Native.validLabel Ark.validLabel
  cases label <;> simp

theorem numericLabel_eq : Native.numericLabel = Ark.numericLabel := by
  funext label
  unfold Native.numericLabel Ark.numericLabel
  match label with
  | [] => rfl
  | [_] => simp
  | [_, _] => simp
  | ch :: x :: digit :: digits => simp

theorem legacyNumericHost_eq (value : List Nat) :
    Native.legacyNumericHost value = Ark.legacyNumericHost value := by
  unfold Native.legacyNumericHost Ark.legacyNumericHost
  dsimp only
  rw [numericLabels_eq (Nat.le_refl _), numericLabel_eq]

/-- The labels hold all there is between the full stops. -/
theorem hostname_chars (h : (value.splitOn 46).all Ark.validLabel = true) :
    (value.all fun ch => isAsciiAlnum ch || ch = 46 || ch = 45) = true := by
  rw [List.all_eq_true] at h ⊢
  intro ch hch
  rw [← @List.intercalate_splitOn _ value _ _ 46] at hch
  rcases mem_intercalate hch with rfl | ⟨label, hlabel, hmem⟩
  · simp
  · have hvalid := h label hlabel
    unfold Ark.validLabel at hvalid
    rw [Bool.and_eq_true, List.all_eq_true] at hvalid
    have hchar := hvalid.2 ch hmem
    simp only [Bool.or_eq_true, decide_eq_true_eq] at hchar ⊢
    tauto

theorem canonicalHostname_eq (value : List Nat) :
    Native.canonicalHostname value = Ark.canonicalHostname value := by
  unfold Native.canonicalHostname Ark.canonicalHostname
  dsimp only
  generalize (if value.getLast? = some 46 then value.dropLast else value)
    = hostname
  by_cases hshape : hostname = [] ∨ hostname.length > 253
      ∨ hostname.head? = some 46 ∨ hostname.getLast? = some 46
      ∨ codes ".." <:+: hostname
  · rw [if_pos hshape, if_pos]
    rcases hshape with rfl | h | h | h | h
    · exact .inl (by simp)
    · exact .inr (.inl h)
    · exact .inr (.inr (.inl h))
    · exact .inr (.inr (.inr (.inl h)))
    · exact .inr (.inr (.inr (.inr (.inl h))))
  · simp only [not_or] at hshape
    obtain ⟨hne, hlen, hhead, hlast, hdots⟩ := hshape
    have hpos := List.length_pos_of_ne_nil hne
    rw [if_neg (by tauto), validLabels_eq (Nat.le_refl _) hne hlast,
      validLabel_eq]
    by_cases hall : (hostname.splitOn 46).all Ark.validLabel = true
    · have hchars := hostname_chars hall
      rw [if_pos hall, if_neg]
      rw [hchars]
      simp only [Bool.not_true, Bool.false_eq_true, or_false, not_or]
      exact ⟨by omega, hlen, hhead, hlast, hdots⟩
    · rw [if_neg hall]
      split <;> rfl

-- =================================== ports

theorem parsePort_eq (value : List Nat) :
    Native.parsePort value = Ark.parsePort value := by
  unfold Native.parsePort Ark.parsePort
  by_cases hshape : value = [] ∨ value.length > 5
  · rw [if_pos hshape, if_pos]
    rcases hshape with rfl | h
    · rfl
    · have h5 : ¬ value.length ≤ 5 := by omega
      simp [h5]
  · rw [if_neg hshape]
    simp only [not_or] at hshape
    have hpos := List.length_pos_of_ne_nil hshape.1
    have h1 : 1 ≤ value.length := hpos
    have h5 : value.length ≤ 5 := by omega
    simp [h1, h5]

theorem findIdx?_eq (value : List Nat) (ch : Nat) :
    value.findIdx? (· = ch)
      = if ch ∈ value then some (value.idxOf ch) else none := by
  induction value with
  | nil => rfl
  | cons c value ih =>
    rw [List.findIdx?_cons, List.idxOf_cons]
    by_cases h : c = ch
    · simp [h]
    · have hbeq : (c == ch) = false := by simpa using h
      simp only [h, decide_false, Bool.false_eq_true, if_false, ih,
        List.mem_cons, Ne.symm h, false_or, hbeq, cond_false]
      split <;> rfl

/-- Positions fit a `size_t` with room to spare. -/
theorem find_eq {ch position : Nat} :
    value.findIdx? (· = ch) = some position
      → Native.find value ch = position ∧ position < value.length := by
  rw [findIdx?_eq]
  intro h
  split at h
  · rename_i hmem
    cases h
    exact ⟨if_pos hmem, List.idxOf_lt_length_of_mem hmem⟩
  · cases h

theorem find_none {ch : Nat} (h : value.findIdx? (· = ch) = none) :
    Native.find value ch = Native.npos := by
  rw [findIdx?_eq] at h
  split at h
  · cases h
  · exact if_neg ‹_›

-- =============================== the hosts

section Hosts

variable {inetPton : List Nat → Option (List Nat)}

theorem parseBare_eq (h : Rfc4291 inetPton) (host : List Nat)
    (bracketed : Bool) (scope : List Nat) (scopeKind : ScopeKind) :
    Native.parseBare inetPton host bracketed scope scopeKind
      = Ark.parseBare host bracketed scope scopeKind := by
  unfold Native.parseBare Ark.parseBare
  rw [parseIpv4_eq, inetPton_eq h]
  cases Ark.ipv4Octets host with
  | some octets => rfl
  | none =>
    cases hwords : Ark.parseIpv6Words host with
    | some words =>
      have hw := ipv6_words (Ark.parseIpv6Words_iff.mp hwords)
      simp only [Option.map_some, notConnectable_eq hw,
        linkLocal_eq hw, canonicalIpv6_eq hw]
    | none =>
      have hdigits : (46 ∈ host ∧ (host.all fun ch =>
            decide (ch = 46) || isDigitCode ch) = true)
          ↔ host ≠ [] ∧ (host.all fun ch =>
            isDigitCode ch || decide (ch = 46)) = true ∧ 46 ∈ host := by
        simp only [List.all_eq_true, Bool.or_eq_true]
        constructor
        · intro ⟨hdot, hall⟩
          exact ⟨List.ne_nil_of_mem hdot,
            fun ch hch => (hall ch hch).symm, hdot⟩
        · intro ⟨_, hall, hdot⟩
          exact ⟨hdot, fun ch hch => (hall ch hch).symm⟩
      simp only [Option.map_none, legacyNumericHost_eq,
        canonicalHostname_eq, hdigits]

theorem parseScoped_eq (h : Rfc4291 inetPton) (host : List Nat)
    (bracketed : Bool) (mode : ParseMode) :
    Native.parseScoped inetPton host bracketed mode
      = Ark.parseScoped host bracketed mode := by
  unfold Native.parseScoped Ark.parseScoped
  rcases cut 37 host with ⟨bare, _ | rawScope⟩
  · exact parseBare_eq h _ _ _ _
  · dsimp only
    split
    · rfl
    · rw [parseScope_eq]
      dsimp only
      cases Ark.parseScope rawScope mode with
      | none => rfl
      | interface => exact parseBare_eq h _ _ _ _
      | numeric => exact parseBare_eq h _ _ _ _

/-- On the same code units the two host parsers give the same result. -/
theorem parseHost_eq (h : Rfc4291 inetPton) (input : List Nat)
    (mode : ParseMode) :
    Native.parseHost inetPton input mode
      = Ark.parseEndpointHost input mode := by
  unfold Native.parseHost Ark.parseEndpointHost
  simp only [parseScoped_eq h, Nat.sub_sub]
  split
  · rfl
  split
  · rfl
  split
  · rfl
  · rename_i hlen
    have hbound : input.length ≤ 512 := Nat.not_lt.mp hlen
    split
    · have hfind : Native.find input 93 ≠ input.length - 1
          ↔ input.findIdx? (· = 93) ≠ some (input.length - 1) := by
        cases hidx : input.findIdx? (· = 93) with
        | none =>
          rw [find_none hidx]
          unfold Native.npos
          simp
          omega
        | some position =>
          rw [(find_eq hidx).1]
          simp
      simp only [hfind]
    · rfl

/-- And so do the two parsers of authorities. -/
theorem parseAuthority_eq (h : Rfc4291 inetPton) (input : List Nat)
    (defaultPort : UInt16) (mode : ParseMode) :
    Native.parseAuthority inetPton input defaultPort mode
      = Ark.parseEndpointAuthority input defaultPort.toNat mode := by
  unfold Native.parseAuthority Ark.parseEndpointAuthority
  simp only [parseHost_eq h, parsePort_eq]
  split
  · rfl
  split
  · rfl
  split
  · rfl
  split
  · rfl
  · rename_i hne _ hlen
    have hbound : input.length ≤ 512 := Nat.not_lt.mp hlen
    split
    · rename_i hhead
      cases hidx : input.findIdx? (· = 93) with
      | none =>
        have hbehind : (Native.npos + 1) % 2 ^ 64 = 0 := rfl
        have hbig : ¬ Native.npos ≤ 1 := by decide
        rw [find_none hidx, hbehind, List.drop_zero, if_neg hbig,
          if_neg hne, hhead]
        rfl
      | some close =>
        obtain ⟨hfind, hlt⟩ := find_eq hidx
        have hwrap : (close + 1) % 2 ^ 64 = close + 1 :=
          Nat.mod_eq_of_lt (by omega)
        simp only [hfind, hwrap]
    · cases hidx : input.findIdx? (· = 58) with
      | none =>
        rw [find_none hidx, if_neg fun hc => hc.1 rfl]
      | some firstColon =>
        obtain ⟨hfind, hlt⟩ := find_eq hidx
        have hnpos : firstColon ≠ Native.npos := by
          unfold Native.npos
          omega
        have hcond : (firstColon ≠ Native.npos ∧ firstColon > 0
              ∧ firstColon
                = (lastIndexOf input 58).getD Native.npos)
            ↔ firstColon > 0
              ∧ lastIndexOf input 58 = some firstColon := by
          cases hlast : lastIndexOf input 58 with
          | none => simp [hnpos]
          | some last =>
            simp [hnpos, eq_comm]
        simp only [hfind, hcond]

end Hosts

-- =============================== the texts

section Texts

/-- The bytes of a text, as the native policy gets them. -/
def nativeText (cs : List Char) : List Nat := (utf8 cs).map UInt8.toNat

/-- An ASCII text has the same code units in both languages. -/
theorem nativeText_ascii {cs : List Char} (h : ∀ c ∈ cs, c.toNat < 128) :
    nativeText cs = utf16 cs := by
  induction cs with
  | nil => rfl
  | cons c cs ih =>
    obtain ⟨hc, hcs⟩ := List.forall_mem_cons.mp h
    have hbyte : (UInt8.ofNat c.toNat).toNat = c.toNat := by
      rw [UInt8.toNat_ofNat']
      omega
    have hrest : List.map UInt8.toNat (utf8 cs) = utf16 cs := ih hcs
    rw [nativeText, utf8_cons, utf16_cons, utf8Char_one hc,
      utf16Char_one (by omega), List.map_append, hrest, List.map_singleton,
      hbyte]

/-- A code unit beyond ASCII is refused. -/
theorem invalid_of_large {unit : Nat} (hmem : unit ∈ value) (h : 0x7e < unit) :
    invalidEndpointCharacters value = true := by
  by_contra hvalid
  have hsmall := not_invalid_iff.mp (Bool.eq_false_of_not_eq_true hvalid)
  have := (hsmall unit hmem).2.1
  omega

/-- A character beyond ASCII leaves one in either encoding. -/
theorem exists_large {c : Char} (h : ¬ c.toNat < 128) :
    (∃ b ∈ String.utf8EncodeChar c, 0x7e < b.toNat)
      ∧ ∃ unit ∈ utf16Char c, 0x7e < unit := by
  have hbyte : ∀ n, 128 ≤ n → n < 256 →
      0x7e < (UInt8.ofNat n).toNat := by
    intro n hlo hhi
    rw [UInt8.toNat_ofNat']
    omega
  have hscalar : c.toNat < 0x110000 := by
    rcases isScalar_iff.mp (isScalar_toNat c) with h | h <;> omega
  constructor
  · by_cases h2 : c.toNat < 0x800
    · rw [utf8Char_two (by omega) h2]
      exact ⟨_, List.mem_cons_self, hbyte _ (by omega) (by omega)⟩
    · by_cases h3 : c.toNat < 0x10000
      · rw [utf8Char_three (by omega) h3]
        exact ⟨_, List.mem_cons_self, hbyte _ (by omega) (by omega)⟩
      · rw [utf8Char_four (by omega)]
        exact ⟨_, List.mem_cons_self, hbyte _ (by omega) (by omega)⟩
  · by_cases h3 : c.toNat < 0x10000
    · rw [utf16Char_one h3]
      exact ⟨_, List.mem_cons_self, by omega⟩
    · rw [utf16Char_two (by omega)]
      exact ⟨_, List.mem_cons_self, by omega⟩

theorem invalid_texts {cs : List Char} (h : ¬ ∀ c ∈ cs, c.toNat < 128) :
    invalidEndpointCharacters (nativeText cs) = true
      ∧ invalidEndpointCharacters (utf16 cs) = true := by
  simp only [not_forall] at h
  obtain ⟨c, hc, hlarge⟩ := h
  obtain ⟨⟨b, hb, hbig⟩, unit, hunit, hubig⟩ := exists_large hlarge
  refine ⟨invalid_of_large ?_ hbig, invalid_of_large ?_ hubig⟩
  · exact List.mem_map_of_mem (List.mem_flatMap.mpr ⟨c, hc, hb⟩)
  · exact List.mem_flatMap.mpr ⟨c, hc, hunit⟩

variable {inetPton : List Nat → Option (List Nat)}

theorem invalid_ne_nil
    (h : invalidEndpointCharacters value = true) : value ≠ [] := by
  rintro rfl
  cases h

/-- For every text and mode the two policies parse the same host and the
same authority. -/
theorem endpoint_parsers_agree (h : Rfc4291 inetPton) (cs : List Char)
    (mode : ParseMode) (defaultPort : UInt16) :
    Native.parseHost inetPton (nativeText cs) mode
        = Ark.parseEndpointHost (utf16 cs) mode
      ∧ Native.parseAuthority inetPton (nativeText cs) defaultPort mode
        = Ark.parseEndpointAuthority (utf16 cs) defaultPort.toNat mode := by
  by_cases hascii : ∀ c ∈ cs, c.toNat < 128
  · rw [nativeText_ascii hascii]
    exact ⟨parseHost_eq h _ mode, parseAuthority_eq h _ defaultPort mode⟩
  · obtain ⟨hnative, hark⟩ := invalid_texts hascii
    constructor
    · rw [Native.parseHost, Ark.parseEndpointHost,
        if_neg (invalid_ne_nil hnative), if_neg (invalid_ne_nil hark),
        if_pos hnative, if_pos hark]
    · rw [Native.parseAuthority, Ark.parseEndpointAuthority,
        if_neg (invalid_ne_nil hnative), if_neg (invalid_ne_nil hark),
        if_pos hnative, if_pos hark]

/-- The reader of this development behaves as `inet_pton` does. -/
def readIpv6 (text : List Nat) : Option (List Nat) :=
  (Ark.parseIpv6Words text).map addressOf

theorem readIpv6_rfc4291 : Rfc4291 readIpv6 := by
  intro text address
  unfold readIpv6
  rw [Option.map_eq_some_iff]
  constructor
  · rintro ⟨words, hwords, rfl⟩
    exact ⟨words, Ark.parseIpv6Words_iff.mp hwords, rfl⟩
  · rintro ⟨words, htext, rfl⟩
    exact ⟨words, Ark.parseIpv6Words_iff.mpr htext, rfl⟩

/-- A scoped link-local authority with its port. -/
theorem endpoint_parsers_agree_scoped :
    let text := "[fe80::ABCD%eth0]:3389".toList
    Native.parseHost readIpv6 (nativeText text) .runtime
        = Ark.parseEndpointHost (utf16 text) .runtime
      ∧ Native.parseAuthority readIpv6 (nativeText text) 22 .runtime
        = Ark.parseEndpointAuthority (utf16 text) 22 .runtime :=
  endpoint_parsers_agree readIpv6_rfc4291 _ .runtime 22

end Texts

end RemoteDesk.Endpoint
