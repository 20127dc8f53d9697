/-
The canonical form of an endpoint, and its identity.

`Canonical` says what an accepted endpoint looks like, kind by kind. What
the parser accepts is canonical (`parseHost_canonical`), and a canonical
endpoint is read back from its transport host (`parseHost_transport`) and
from its authority (`parseAuthority_format`). The identity text frames
every field, so it is the same only for the same fields
(`identityText_inj`).
-/
import RemoteDesk.Endpoint.Agreement

namespace RemoteDesk.Endpoint

open Lib

-- ============================== host names

theorem splitOn_map {f : Nat → Nat} (hf : ∀ c, f c = 46 ↔ c = 46)
    (value : List Nat) :
    (value.map f).splitOn 46 = (value.splitOn 46).map (List.map f) := by
  induction value with
  | nil => rfl
  | cons c value ih =>
    by_cases h : c = 46
    · rw [List.map_cons, (hf c).mpr h, h, splitOn_cons_sep,
        splitOn_cons_sep, ih]
      rfl
    · rw [List.map_cons, splitOn_cons_ne 46 (mt (hf c).mp h),
        splitOn_cons_ne 46 h, ih]
      cases value.splitOn 46 <;> rfl

variable {c : Nat} {name value words text : List Nat} {kind : ScopeKind}
variable {mode : ParseMode} {e : Address}

theorem asciiLower_eq_iff {d : Nat} (hd : d < 65 ∨ 122 < d ∨
    (90 < d ∧ d < 97)) : asciiLower c = d ↔ c = d := by
  unfold asciiLower
  split <;> omega

theorem asciiLower_asciiLower (c : Nat) :
    asciiLower (asciiLower c) = asciiLower c := by
  unfold asciiLower
  split
  · rw [if_neg (by omega)]
  · rfl

theorem isDigitCode_lower (c : Nat) :
    isDigitCode (asciiLower c) = isDigitCode c := by
  rw [Bool.eq_iff_iff, isDigitCode_iff, isDigitCode_iff]
  unfold asciiLower
  split <;> omega

theorem isHexCode_lower (c : Nat) :
    isHexCode (asciiLower c) = isHexCode c := by
  rw [Bool.eq_iff_iff]
  simp only [isHexCode, Bool.or_eq_true, Bool.and_eq_true,
    decide_eq_true_eq, isDigitCode_iff]
  unfold asciiLower
  split <;> omega

theorem isAsciiAlnum_lower (c : Nat) :
    isAsciiAlnum (asciiLower c) = isAsciiAlnum c := by
  rw [Bool.eq_iff_iff]
  simp only [isAsciiAlnum, isAsciiAlpha, Bool.or_eq_true, Bool.and_eq_true,
    decide_eq_true_eq, isDigitCode_iff]
  unfold asciiLower
  split <;> omega

theorem option_lower {o : Option Nat} {d : Nat} (hd : d < 65) :
    o.map asciiLower = some d ↔ o = some d := by
  cases o with
  | none => simp
  | some c =>
    rw [Option.map_some, Option.some_inj, Option.some_inj]
    exact asciiLower_eq_iff (.inl hd)

theorem validLabel_lower (label : List Nat) :
    Ark.validLabel (label.map asciiLower) = Ark.validLabel label := by
  unfold Ark.validLabel
  have hhyphen : ∀ c, asciiLower c = 45 ↔ c = 45 :=
    fun c => asciiLower_eq_iff (.inl (by norm_num))
  simp only [List.length_map, List.head?_map, List.getLast?_map,
    option_lower (show 45 < 65 by norm_num), List.all_map,
    Function.comp_def, isAsciiAlnum_lower, hhyphen]

theorem numericLabel_lower (label : List Nat) :
    Ark.numericLabel (label.map asciiLower) = Ark.numericLabel label := by
  have hzero : ∀ c, asciiLower c = 48 ↔ c = 48 :=
    fun c => asciiLower_eq_iff (.inl (by norm_num))
  have hx : ∀ c, asciiLower c = 120 ∨ asciiLower c = 88
      ↔ c = 120 ∨ c = 88 := by
    intro c
    unfold asciiLower
    split <;> omega
  match label with
  | [] => rfl
  | [c] => simp [Ark.numericLabel, isDigitCode_lower]
  | c :: x :: digits =>
    have hxb : (decide (asciiLower x = 120) || decide (asciiLower x = 88))
        = (decide (x = 120) || decide (x = 88)) := by
      rw [Bool.eq_iff_iff]
      simpa using hx x
    simp only [Ark.numericLabel, List.map_cons, List.all_cons,
      isDigitCode_lower, List.all_map, Function.comp_def, hzero, hxb,
      isHexCode_lower, ne_eq, List.map_eq_nil_iff, reduceCtorEq]

/-- What the loop over the labels asks of a name, apart from its case. -/
structure Labels (name : List Nat) : Prop where
  ne_nil : name ≠ []
  length_le : name.length ≤ 253
  head : name.head? ≠ some 46
  last : name.getLast? ≠ some 46
  dots : ¬ codes ".." <:+: name
  valid : (name.splitOn 46).all Ark.validLabel = true

/-- A name without the full stop at its end. -/
def undotted (value : List Nat) : List Nat :=
  if value.getLast? = some 46 then value.dropLast else value

theorem Labels.undotted (h : Labels name) :
    undotted name = name := if_neg h.last

theorem canonicalHostname_ne_nil (h : Native.canonicalHostname value ≠ []) :
    Labels (undotted value)
      ∧ Native.canonicalHostname value = (undotted value).map asciiLower := by
  unfold undotted
  unfold Native.canonicalHostname at h ⊢
  dsimp only at h ⊢
  generalize (if value.getLast? = some 46 then value.dropLast else value)
    = name at h ⊢
  split at h
  · exact absurd rfl h
  · rename_i hshape
    rw [if_neg hshape]
    simp only [not_or] at hshape
    obtain ⟨hne, hlen, hhead, hlast, hdots⟩ := hshape
    rw [validLabels_eq (Nat.le_refl _) hne hlast, validLabel_eq] at h ⊢
    split at h
    · rename_i hall
      rw [if_pos hall]
      exact ⟨⟨hne, by omega, hhead, hlast, hdots, hall⟩, rfl⟩
    · exact absurd rfl h

theorem Labels.canonical (h : Labels name) :
    Native.canonicalHostname name = name.map asciiLower := by
  unfold Native.canonicalHostname
  dsimp only
  rw [if_neg h.last, if_neg, validLabels_eq (Nat.le_refl _) h.ne_nil h.last,
    validLabel_eq, if_pos h.valid]
  simp only [not_or]
  have := h.length_le
  exact ⟨h.ne_nil, by omega, h.head, h.last, h.dots⟩

theorem Labels.lower (h : Labels name) : Labels (name.map asciiLower) := by
  have hdot : ∀ c, asciiLower c = 46 ↔ c = 46 :=
    fun c => asciiLower_eq_iff (.inl (by norm_num))
  refine ⟨?_, ?_, ?_, ?_, ?_, ?_⟩
  · simpa using h.ne_nil
  · simpa using h.length_le
  · rw [List.head?_map, ne_eq, option_lower (by norm_num)]
    exact h.head
  · rw [List.getLast?_map, ne_eq, option_lower (by norm_num)]
    exact h.last
  · rintro ⟨p, s, hps⟩
    rw [List.append_assoc] at hps
    obtain ⟨p', r, rfl, -, hr⟩ := List.map_eq_append_iff.mp hps.symm
    obtain ⟨a, r', rfl, ha, hr'⟩ := List.map_eq_cons_iff.mp hr
    obtain ⟨b, s', rfl, hb, -⟩ := List.map_eq_cons_iff.mp hr'
    obtain rfl := (hdot a).mp ha
    obtain rfl := (hdot b).mp hb
    exact h.dots ⟨p', s', by simp [codes]⟩
  · rw [splitOn_map hdot, List.all_map]
    have hvalid := h.valid
    rw [List.all_eq_true] at hvalid ⊢
    intro label hlabel
    rw [Function.comp_apply, validLabel_lower]
    exact hvalid label hlabel

/-- A host name as it is kept: not a number in disguise. -/
structure Hostname (host : List Nat) : Prop where
  labels : Labels host
  lower : host.map asciiLower = host
  named : Native.legacyNumericHost host = false

theorem hostname_of_accepted (hne : Native.canonicalHostname value ≠ [])
    (hnamed : Native.legacyNumericHost value = false) :
    Hostname (Native.canonicalHostname value) := by
  have hdot : ∀ c, asciiLower c = 46 ↔ c = 46 :=
    fun c => asciiLower_eq_iff (.inl (by norm_num))
  obtain ⟨hlabels, hcanonical⟩ := canonicalHostname_ne_nil hne
  rw [hcanonical]
  refine ⟨hlabels.lower, ?_, ?_⟩
  · rw [List.map_map]
    exact List.map_congr_left fun c _ => asciiLower_asciiLower c
  · rw [legacyNumericHost_eq] at hnamed ⊢
    unfold Ark.legacyNumericHost at hnamed ⊢
    change ((undotted value).splitOn 46).all Ark.numericLabel = false
      at hnamed
    change ((undotted ((undotted value).map asciiLower)).splitOn 46).all
      Ark.numericLabel = false
    rw [hlabels.lower.undotted, splitOn_map hdot, List.all_map, ← hnamed]
    congr 1
    funext label
    exact numericLabel_lower label

namespace Hostname

variable {host : List Nat}

theorem canonical (h : Hostname host) :
    Native.canonicalHostname host = host := by
  rw [h.labels.canonical, h.lower]

theorem chars (h : Hostname host) :
    ∀ c ∈ host, isAsciiAlnum c = true ∨ c = 46 ∨ c = 45 := by
  intro c hc
  have hall := hostname_chars h.labels.valid
  rw [List.all_eq_true] at hall
  have hchar := hall c hc
  simp only [Bool.or_eq_true, decide_eq_true_eq] at hchar
  tauto

theorem not_colon (h : Hostname host) : 58 ∉ host := by
  intro hm
  rcases h.chars 58 hm with h | h | h
  · cases h
  · cases h
  · cases h

theorem not_numeric (h : Hostname host) :
    ¬ (host.splitOn 46).all Ark.numericLabel = true := by
  have hnamed := h.named
  rw [legacyNumericHost_eq] at hnamed
  change ((undotted host).splitOn 46).all Ark.numericLabel = false at hnamed
  rw [h.labels.undotted] at hnamed
  exact Bool.not_eq_true _ ▸ hnamed

theorem not_quad (h : Hostname host) : Native.parseIpv4 host = none := by
  by_contra hne
  obtain ⟨octets, hoctets⟩ := Option.ne_none_iff_exists'.mp hne
  have hquad := Native.parseIpv4_iff.mp hoctets
  refine h.not_numeric ?_
  have hdot : ∀ part ∈ octets.map (numeral 10), 46 ∉ part := by
    intro part hpart
    obtain ⟨o, -, rfl⟩ := List.mem_map.mp hpart
    exact notMem_numeral rfl
  have hne : octets.map (numeral 10) ≠ [] := by
    rw [ne_eq, List.map_eq_nil_iff]
    rintro rfl
    cases hquad.length_eq
  rw [hquad.text_eq, List.splitOn_intercalate 46 hdot hne,
    List.all_eq_true]
  intro part hpart
  obtain ⟨o, -, rfl⟩ := List.mem_map.mp hpart
  have hdigits : (numeral 10 o).all isDigitCode = true :=
    List.all_eq_true.mpr fun c hc => isDigitCode_of_mem hc
  simp [Ark.numericLabel, hdigits, numeral_ne_nil]

theorem not_digits (h : Hostname host) :
    ¬ (host.all fun ch => ch = 46 || isDigitCode ch) = true := by
  intro hall
  refine h.not_numeric ?_
  have hvalid := h.labels.valid
  rw [List.all_eq_true] at hall hvalid ⊢
  intro label hlabel
  have hlab := hvalid label hlabel
  unfold Ark.validLabel at hlab
  simp only [Bool.and_eq_true, Bool.not_eq_true', Bool.or_eq_false_iff,
    decide_eq_false_iff_not, List.all_eq_true, Bool.or_eq_true,
    decide_eq_true_eq] at hlab
  have hne : label ≠ [] := by
    rintro rfl
    simp at hlab
  have hdigits : label.all isDigitCode = true := by
    rw [List.all_eq_true]
    intro c hc
    have hmem : c ∈ host := by
      rw [← @List.intercalate_splitOn _ host _ _ 46]
      exact mem_intercalate_of_mem hlabel hc
    have hchar := hall c hmem
    simp only [Bool.or_eq_true, decide_eq_true_eq] at hchar
    rcases hchar with rfl | hdigit
    · have hdot := hlab.2 46 hc
      rcases hdot with h | h
      · cases h
      · cases h
    · exact hdigit
  simp [Ark.numericLabel, hdigits, hne]

end Hostname

-- ================================== scopes

/-- A scope as it is kept. -/
def Scope (mode : ParseMode) (scope : List Nat) (kind : ScopeKind) : Prop :=
  scope = [] ∧ kind = .none
    ∨ kind ≠ .none ∧ Native.parseScope scope mode = (kind, scope)

/-- The code units of hosts and scopes. -/
def Plain (text : List Nat) : Prop :=
  ∀ c ∈ text, isAsciiAlnum c = true ∨ c = 46 ∨ c = 45 ∨ c = 95 ∨ c = 58

theorem plain_char
    (h : isAsciiAlnum c = true ∨ c = 46 ∨ c = 45 ∨ c = 95 ∨ c = 58) :
    0x21 ≤ c ∧ c ≤ 0x7e ∧ c ∉ codes "/\\@?#" ∧ c ≠ 37 ∧ c ≠ 91
      ∧ c ≠ 93 := by
  simp only [isAsciiAlnum, isAsciiAlpha, Bool.or_eq_true, Bool.and_eq_true,
    decide_eq_true_eq, isDigitCode_iff] at h
  simp [codes]
  omega

theorem plain_hex (h : isHexCode c = true) : isAsciiAlnum c = true := by
  simp only [isHexCode, Bool.or_eq_true, Bool.and_eq_true,
    decide_eq_true_eq, isDigitCode_iff] at h
  simp only [isAsciiAlnum, isAsciiAlpha, Bool.or_eq_true, Bool.and_eq_true,
    decide_eq_true_eq, isDigitCode_iff]
  omega

theorem plain_digit (h : isDigitCode c = true) :
    isAsciiAlnum c = true := by simp [isAsciiAlnum, h]

/-- What the scope parser makes of a scope, it makes again of that. -/
theorem parseScope_scope {raw scope : List Nat}
    (h : Native.parseScope raw mode = (kind, scope)) (hkind : kind ≠ .none) :
    scope ≠ [] ∧ scope.length ≤ 32 ∧ Plain scope
      ∧ Native.parseScope scope mode = (kind, scope) := by
  have hraw := h
  unfold Native.parseScope at h
  split at h
  · rename_i hdigits
    split at h
    · exact absurd (Prod.mk.inj h).1.symm hkind
    · rename_i hmode
      dsimp only at h
      split at h
      · exact absurd (Prod.mk.inj h).1.symm hkind
      · rename_i hsmall
        obtain ⟨rfl, rfl⟩ := Prod.mk.inj h
        generalize spelled 10 raw = n at hsmall ⊢
        have hlen : (numeral 10 n).length ≤ 10 := by
          apply length_numeral_le <;> omega
        have hall : (numeral 10 n).all isDigitCode = true :=
          List.all_eq_true.mpr fun c hc => isDigitCode_of_mem hc
        refine ⟨numeral_ne_nil 10 n, by omega, fun c hc => ?_, ?_⟩
        · exact .inl (plain_digit (isDigitCode_of_mem hc))
        · simp only [not_or] at hmode
          rw [Native.parseScope, if_pos ⟨numeral_ne_nil 10 n, hall⟩,
            spelled_numeral (by norm_num) (by norm_num),
            if_neg (by simp [not_not.mp hmode.1, hlen])]
          dsimp only
          rw [if_neg hsmall]
  · split at h
    · exact absurd (Prod.mk.inj h).1.symm hkind
    · rename_i hshape
      split at h
      · exact absurd (Prod.mk.inj h).1.symm hkind
      · rename_i hall
        obtain ⟨rfl, rfl⟩ := Prod.mk.inj h
        simp only [not_or] at hshape
        refine ⟨hshape.1, by omega, fun c hc => ?_, hraw⟩
        simp only [Bool.not_eq_true', Bool.not_eq_false,
          List.all_eq_true] at hall
        have hchar := hall c hc
        simp only [Bool.or_eq_true, decide_eq_true_eq] at hchar
        tauto

theorem Scope.plain {scope : List Nat}
    (h : Scope mode scope kind) : Plain scope ∧ scope.length ≤ 32 := by
  rcases h with ⟨rfl, -⟩ | ⟨hkind, h⟩
  · exact ⟨by simp [Plain], Nat.zero_le _⟩
  · obtain ⟨-, hlen, hplain, -⟩ := parseScope_scope h hkind
    exact ⟨hplain, hlen⟩

-- ============================== IPv6 again

theorem forall₂_numerals (h : ∀ word ∈ words, word < 65536) :
    List.Forall₂ Group (words.map (numeral 16)) words := by
  refine forall₂_group_iff.mpr ⟨fun g hg => ?_, ?_⟩
  · obtain ⟨word, hword, rfl⟩ := List.mem_map.mp hg
    exact (group_iff.mp (group_hex (h word hword))).1
  · rw [List.map_map]
    conv_lhs => rw [← List.map_id words]
    exact List.map_congr_left fun word _ => (spelled_hex word).symm

/-- The canonical text of words is a text of them. -/
theorem canonicalIpv6_text (h : Words words) :
    Ipv6 (Ark.canonicalIpv6 words) words := by
  obtain ⟨hlen, hlt⟩ := h
  unfold Ark.canonicalIpv6
  cases hbest : bestRun words with
  | none => exact .full (.hex (forall₂_numerals hlt)) hlen
  | some run =>
    have hrun := bestRun_run hbest
    obtain ⟨hlong, hin, hzero⟩ := hrun
    dsimp only
    rw [writeWords_some ⟨hlong, hin, hzero⟩]
    have hleft := @forall₂_numerals (words.take run.1)
      fun word hw => hlt word (List.mem_of_mem_take hw)
    have hright := @forall₂_numerals (words.drop (run.1 + run.2))
      fun word hw => hlt word (List.mem_of_mem_drop hw)
    have hl : (words.take run.1).length = run.1 :=
      List.length_take_of_le (by omega)
    have hr : (words.drop (run.1 + run.2)).length
        = 8 - (run.1 + run.2) := by rw [List.length_drop, hlen]
    have hshort := Ipv6.short hleft (.hex hright) (by omega)
    have hwords : words.take run.1 ++ List.replicate
        (8 - ((words.take run.1).length
          + (words.drop (run.1 + run.2)).length)) 0
        ++ words.drop (run.1 + run.2) = words := by
      have hcount : 8 - ((words.take run.1).length
          + (words.drop (run.1 + run.2)).length) = run.2 := by omega
      rw [hcount, ← hzero, List.append_assoc, ← List.drop_drop,
        List.take_append_drop, List.take_append_drop]
    rwa [hwords] at hshort

theorem ipv6_chars (h : Ipv6 text words) :
    58 ∈ text ∧ text.length ≤ 45 ∧ Plain text := by
  have hread := Ark.parseIpv6Words_iff.mpr h
  obtain ⟨⟨-, hlen, hcolon, -, hchars⟩, -⟩ :=
    Ark.parseIpv6Words_eq.mp hread
  refine ⟨hcolon, hlen, fun c hc => ?_⟩
  rcases hchars c hc with h | h | h
  · exact .inl (plain_hex h)
  · simp [h]
  · simp [h]

theorem not_quad_of_colon (h : 58 ∈ text) : Native.parseIpv4 text = none := by
  by_contra hne
  obtain ⟨octets, hoctets⟩ := Option.ne_none_iff_exists'.mp hne
  exact (quad_clean (Native.parseIpv4_iff.mp hoctets)).1.2 h

section Pton

variable {inetPton : List Nat → Option (List Nat)}

theorem inetPton_canonical (h : Rfc4291 inetPton) (hw : Words words) :
    inetPton (Ark.canonicalIpv6 words) = some (addressOf words) :=
  (h _ _).mpr ⟨words, canonicalIpv6_text hw, rfl⟩

theorem inetPton_no_colon (h : Rfc4291 inetPton)
    (hcolon : 58 ∉ text) : inetPton text = none := by
  by_contra hne
  obtain ⟨address, haddress⟩ := Option.ne_none_iff_exists'.mp hne
  obtain ⟨words, htext, -⟩ := (h _ _).mp haddress
  exact hcolon (ipv6_chars htext).1

end Pton

-- ====================== the canonical form

/-- The endpoints of accepted texts. -/
inductive Canonical (mode : ParseMode) : Address → Prop where
  | ipv4 {text octets port} : Quad text octets →
      ipv4NotConnectable octets = false →
      Canonical mode ⟨text, .ipv4, port, [], .none, kAddressVersion⟩
  | ipv6 {words port scope kind} : Words words →
      Native.ipv6NotConnectable (addressOf words) = false →
      (Native.ipv6LinkLocal (addressOf words) = true ↔ scope ≠ []) →
      Scope mode scope kind →
      Canonical mode
        ⟨Ark.canonicalIpv6 words, .ipv6, port, scope, kind, kAddressVersion⟩
  | hostname {host port} : Hostname host →
      Canonical mode ⟨host, .hostname, port, [], .none, kAddressVersion⟩

theorem Canonical.withPort (h : Canonical mode e) (port : Nat) :
    Canonical mode { e with port } := by
  cases h with
  | ipv4 hquad hc => exact .ipv4 hquad hc
  | ipv6 hw hc hl hs => exact .ipv6 hw hc hl hs
  | hostname hh => exact .hostname hh

/-- What is parsed from an accepted text. -/
def accepted (e : Address) : ParseResult where
  ok := true
  endpoint := e
  error := .none

theorem Canonical.plain (h : Canonical mode e) :
    Plain e.canonicalHost ∧ e.canonicalHost ≠ []
      ∧ e.canonicalHost.length ≤ 253
      ∧ (e.family ≠ .ipv6 → 58 ∉ e.canonicalHost ∧ e.scope = []) := by
  cases h with
  | ipv4 hquad hc =>
    obtain ⟨hclean, -, hlen, hchars⟩ := quad_clean hquad
    refine ⟨fun c hc => ?_, hclean.1, by dsimp only; omega,
      fun _ => ⟨hclean.2, rfl⟩⟩
    rcases hchars c hc with h | h
    · exact .inl (plain_digit h)
    · exact .inr (.inl h)
  | ipv6 hw hc hl hs =>
    obtain ⟨hcolon, hlen, hplain⟩ := ipv6_chars (canonicalIpv6_text hw)
    exact ⟨hplain, List.ne_nil_of_mem hcolon, by dsimp only; omega,
      fun hf => absurd rfl hf⟩
  | hostname hh =>
    refine ⟨fun c hc => ?_, hh.labels.ne_nil, hh.labels.length_le,
      fun _ => ⟨hh.not_colon, rfl⟩⟩
    rcases hh.chars c hc with h | h | h
    · exact .inl h
    · exact .inr (.inl h)
    · exact .inr (.inr (.inl h))

theorem Canonical.scope
    (h : Canonical mode e) : Scope mode e.scope e.scopeKind := by
  cases h with
  | ipv4 hquad hc => exact .inl ⟨rfl, rfl⟩
  | ipv6 hw hc hl hs => exact hs
  | hostname hh => exact .inl ⟨rfl, rfl⟩

section Parse

variable {inetPton : List Nat → Option (List Nat)}

variable {bracketed : Bool}

theorem parseBare_canonical (h : Rfc4291 inetPton) {host scope : List Nat}
    (hscope : Scope mode scope kind)
    (hok : (Native.parseBare inetPton host bracketed scope kind).ok = true) :
    ∃ e, Canonical mode e ∧ e.port = 0
      ∧ Native.parseBare inetPton host bracketed scope kind = accepted e := by
  unfold Native.parseBare at hok ⊢
  cases hquad : Native.parseIpv4 host with
  | some octets =>
    rw [hquad] at hok
    dsimp only at hok ⊢
    split at hok
    · cases hok
    split at hok
    · cases hok
    split at hok
    · cases hok
    · rename_i hb hs hc
      rw [if_neg hb, if_neg hs, if_neg hc]
      have hq := Native.parseIpv4_iff.mp hquad
      have htext : canonicalIpv4 octets = host := hq.text_eq.symm
      refine ⟨_, @Canonical.ipv4 _ _ _ 0 hq (by simpa using hc), rfl, ?_⟩
      rw [htext]
      rfl
  | none =>
    rw [hquad] at hok
    dsimp only at hok ⊢
    cases hpton : inetPton host with
    | some address =>
      rw [hpton] at hok
      dsimp only at hok ⊢
      split at hok
      · cases hok
      split at hok
      · cases hok
      split at hok
      · cases hok
      · rename_i hc hneed hno
        rw [if_neg hc, if_neg hneed, if_neg hno]
        obtain ⟨words, htext, rfl⟩ := (h _ _).mp hpton
        have hw := ipv6_words htext
        have hlocal : Native.ipv6LinkLocal (addressOf words) = true
            ↔ scope ≠ [] := by
          simp only [not_and, Bool.not_eq_true', not_not] at hneed hno
          constructor
          · exact hneed
          · intro hs
            by_contra hl
            exact hs (hno (by simpa using hl))
        refine ⟨_, @Canonical.ipv6 _ _ 0 _ _ hw (by simpa using hc) hlocal
          hscope, rfl, ?_⟩
        rw [canonicalIpv6_eq hw]
        rfl
    | none =>
      rw [hpton] at hok
      dsimp only at hok ⊢
      split at hok
      · cases hok
      split at hok
      · cases hok
      split at hok
      · cases hok
      split at hok
      · cases hok
      split at hok
      · cases hok
      · rename_i hcolon hnum hb hs hname
        rw [if_neg hcolon, if_neg hnum, if_neg hb, if_neg hs,
          if_neg hname]
        rw [not_or] at hnum
        have hh := hostname_of_accepted hname (by simpa using hnum.2)
        exact ⟨_, @Canonical.hostname _ _ 0 hh, rfl, rfl⟩

/-- What the host parser accepts is canonical. -/
theorem parseHost_canonical (h : Rfc4291 inetPton) {input : List Nat}
    (hok : (Native.parseHost inetPton input mode).ok = true) :
    ∃ e, Canonical mode e ∧ e.port = 0
      ∧ Native.parseHost inetPton input mode = accepted e := by
  have hscoped : ∀ {host : List Nat} {bracketed : Bool},
      (Native.parseScoped inetPton host bracketed mode).ok = true →
      ∃ e, Canonical mode e ∧ e.port = 0
        ∧ Native.parseScoped inetPton host bracketed mode = accepted e := by
    intro host bracketed hok
    unfold Native.parseScoped at hok ⊢
    cases hcut : cut 37 host with
    | mk bare rest =>
    rw [hcut] at hok
    cases rest with
    | none => exact parseBare_canonical h (.inl ⟨rfl, rfl⟩) hok
    | some raw =>
      dsimp only at hok ⊢
      split at hok
      · cases hok
      · rename_i hpercent
        rw [if_neg hpercent]
        cases hparse : Native.parseScope raw mode with
        | mk kind scope =>
          rw [hparse] at hok
          dsimp only at hok ⊢
          split at hok
          · cases hok
          · rename_i hkind
            rw [if_neg hkind]
            have hscope := parseScope_scope hparse hkind
            exact parseBare_canonical h
              (.inr ⟨hkind, hscope.2.2.2⟩) hok
  unfold Native.parseHost at hok ⊢
  split at hok
  · cases hok
  split at hok
  · cases hok
  split at hok
  · cases hok
  · rename_i hne hvalid hlen
    rw [if_neg hne, if_neg hvalid, if_neg hlen]
    split at hok
    · rename_i hhead
      rw [if_pos hhead]
      split at hok
      · cases hok
      · rename_i hshape
        rw [if_neg hshape]
        exact hscoped hok
    · rename_i hhead
      rw [if_neg hhead]
      split at hok
      · cases hok
      · rename_i hbrackets
        rw [if_neg hbrackets]
        exact hscoped hok

theorem parseBare_of_canonical (h : Rfc4291 inetPton) (he : Canonical mode e)
    (hb : bracketed = false ∨ e.family = .ipv6) :
    Native.parseBare inetPton e.canonicalHost bracketed e.scope e.scopeKind
      = accepted { e with port := 0 } := by
  unfold Native.parseBare
  cases he with
  | ipv4 hquad hc =>
    obtain rfl : bracketed = false := hb.resolve_right (by simp)
    dsimp only
    rw [Native.parseIpv4_iff.mpr hquad]
    dsimp only
    rw [if_neg (by simp), if_neg (by simp), if_neg (by simp [hc])]
    have htext := hquad.text_eq
    rw [canonicalIpv4, ← htext]
    rfl
  | ipv6 hw hc hl hs =>
    dsimp only
    rw [not_quad_of_colon (ipv6_chars (canonicalIpv6_text hw)).1,
      inetPton_canonical h hw]
    dsimp only
    rw [if_neg (by simp [hc]), if_neg, if_neg, canonicalIpv6_eq hw]
    · rfl
    · rintro ⟨hlocal, hscope⟩
      have := hl.mpr hscope
      simp [this] at hlocal
    · rintro ⟨hlocal, hscope⟩
      exact hl.mp hlocal hscope
  | hostname hh =>
    obtain rfl : bracketed = false := hb.resolve_right (by simp)
    dsimp only
    rw [hh.not_quad, inetPton_no_colon h hh.not_colon]
    dsimp only
    rw [if_neg hh.not_colon, if_neg, if_neg (by simp), if_neg (by simp),
      hh.canonical, if_neg hh.labels.ne_nil]
    · rfl
    · rw [not_or, not_and]
      exact ⟨fun _ => hh.not_digits, by simp [hh.named]⟩

theorem Plain.notMem (h : Plain text) : 37 ∉ text ∧ 91 ∉ text ∧ 93 ∉ text := by
  refine ⟨fun hm => ?_, fun hm => ?_, fun hm => ?_⟩
  · exact (plain_char (h _ hm)).2.2.2.1 rfl
  · exact (plain_char (h _ hm)).2.2.2.2.1 rfl
  · exact (plain_char (h _ hm)).2.2.2.2.2 rfl

theorem parseScoped_of_canonical (h : Rfc4291 inetPton) (he : Canonical mode e)
    (hb : bracketed = false ∨ e.family = .ipv6) :
    Native.parseScoped inetPton (Native.transportHost e) bracketed mode
      = accepted { e with port := 0 } := by
  have hbare := parseBare_of_canonical h he hb
  obtain ⟨hplain, -, -, hother⟩ := he.plain
  by_cases hcase : e.family ≠ .ipv6 ∨ e.scope = []
  · have hhost : Native.transportHost e = e.canonicalHost := if_pos hcase
    have hempty : e.scope = [] := by
      rcases hcase with hf | hs
      · exact (hother hf).2
      · exact hs
    rw [hhost, Native.parseScoped, cut_of_notMem hplain.notMem.1]
    rcases he.scope with ⟨-, hkind⟩ | ⟨hkind, hparse⟩
    · rw [hempty, hkind] at hbare ⊢
      exact hbare
    · exact absurd hempty (parseScope_scope hparse hkind).1
  · have hhost : Native.transportHost e
        = e.canonicalHost ++ 37 :: e.scope := by
      rw [Native.transportHost, if_neg hcase, List.append_assoc]
      rfl
    rw [not_or] at hcase
    rw [hhost, Native.parseScoped, cut_append_sep hplain.notMem.1]
    dsimp only
    rw [if_neg he.scope.plain.1.notMem.1]
    rcases he.scope with ⟨hempty, -⟩ | ⟨hkind, hparse⟩
    · exact absurd hempty hcase.2
    · rw [hparse]
      dsimp only
      rw [if_neg hkind, hbare]

/-- A transport host, with what stands around it. -/
theorem transport_plain (he : Canonical mode e) :
    Native.transportHost e ≠ [] ∧ (Native.transportHost e).length ≤ 286
      ∧ (∀ c ∈ Native.transportHost e, c = 37
        ∨ isAsciiAlnum c = true ∨ c = 46 ∨ c = 45 ∨ c = 95 ∨ c = 58)
      ∧ (e.family ≠ .ipv6 → 58 ∉ Native.transportHost e) := by
  obtain ⟨hplain, hne, hlen, hother⟩ := he.plain
  obtain ⟨hscope, hslen⟩ := he.scope.plain
  unfold Native.transportHost
  split
  · exact ⟨hne, by omega, fun c hc => .inr (hplain c hc),
      fun hf => (hother hf).1⟩
  · rename_i hcase
    rw [not_or, not_not] at hcase
    refine ⟨by simp [hne], ?_, fun c hc => ?_,
      fun hf => absurd hcase.1 hf⟩
    · rw [List.length_append, List.length_append]
      simp [codes]
      omega
    · simp only [List.mem_append] at hc
      rcases hc with (hc | hc) | hc
      · exact .inr (hplain c hc)
      · exact .inl (by simpa [codes] using hc)
      · exact .inr (hscope c hc)

theorem host_char (h : c = 37 ∨ isAsciiAlnum c = true ∨ c = 46 ∨ c = 45 ∨ c = 95
      ∨ c = 58) :
    (0x21 ≤ c ∧ c ≤ 0x7e ∧ c ∉ codes "/\\@?#") ∧ c ≠ 91 ∧ c ≠ 93 := by
  rcases h with rfl | h
  · exact ⟨⟨by norm_num, by norm_num, by decide⟩, by norm_num, by norm_num⟩
  · obtain ⟨hlo, hhi, hbad, -, hl, hr⟩ := plain_char h
    exact ⟨⟨hlo, hhi, hbad⟩, hl, hr⟩

/-- A canonical endpoint is read back from its transport host. -/
theorem parseHost_transport (h : Rfc4291 inetPton) (he : Canonical mode e) :
    Native.parseHost inetPton (Native.transportHost e) mode
      = accepted { e with port := 0 } := by
  obtain ⟨hne, hlen, hchars, -⟩ := transport_plain he
  have hvalid : invalidEndpointCharacters (Native.transportHost e)
      = false :=
    not_invalid_iff.mpr fun c hc => (host_char (hchars c hc)).1
  have hopen : 91 ∉ Native.transportHost e :=
    fun hm => (host_char (hchars _ hm)).2.1 rfl
  have hclose : 93 ∉ Native.transportHost e :=
    fun hm => (host_char (hchars _ hm)).2.2 rfl
  have hhead : (Native.transportHost e).head? ≠ some 91 :=
    fun hh => hopen (List.mem_of_head? hh)
  have hshort : ¬ (Native.transportHost e).length > kMaxInputLength := by
    unfold kMaxInputLength
    omega
  rw [Native.parseHost, if_neg hne, hvalid, if_neg Bool.false_ne_true,
    if_neg hshort, if_neg hhead, if_neg (not_or.mpr ⟨hopen, hclose⟩)]
  exact parseScoped_of_canonical h he (.inl rfl)

/-- In brackets too, where it has colons. -/
theorem parseHost_bracketed (h : Rfc4291 inetPton) (he : Canonical mode e)
    (hf : e.family = .ipv6) :
    Native.parseHost inetPton (91 :: (Native.transportHost e ++ [93])) mode
      = accepted { e with port := 0 } := by
  obtain ⟨hne, hlen, hchars, -⟩ := transport_plain he
  have hclose : 93 ∉ Native.transportHost e :=
    fun hm => (host_char (hchars _ hm)).2.2 rfl
  have hvalid : invalidEndpointCharacters
      (91 :: (Native.transportHost e ++ [93])) = false := by
    rw [not_invalid_iff]
    intro c hc
    simp only [List.mem_cons, List.mem_append, List.not_mem_nil,
      or_false] at hc
    rcases hc with rfl | hc | rfl
    · exact ⟨by norm_num, by norm_num, by decide⟩
    · exact (host_char (hchars c hc)).1
    · exact ⟨by norm_num, by norm_num, by decide⟩
  have hpos := List.length_pos_of_ne_nil hne
  have hlength : (91 :: (Native.transportHost e ++ [93])).length
      = (Native.transportHost e).length + 2 := by simp
  have hfind : Native.find (91 :: (Native.transportHost e ++ [93])) 93
      = (Native.transportHost e).length + 1 := by
    rw [Native.find, if_pos (by simp), List.idxOf_cons_ne _ (by norm_num),
      List.idxOf_append_of_notMem hclose]
    rfl
  have hlast : (91 :: (Native.transportHost e ++ [93])).getLast?
      = some 93 := by
    rw [← List.cons_append]
    exact List.getLast?_concat
  rw [Native.parseHost, if_neg (by simp), hvalid,
    if_neg Bool.false_ne_true, if_neg, if_pos (by rfl), if_neg]
  · have hinner : ((91 :: (Native.transportHost e ++ [93])).drop 1).take
        ((91 :: (Native.transportHost e ++ [93])).length - 2)
        = Native.transportHost e := by
      rw [hlength]
      simp
    rw [hinner]
    exact parseScoped_of_canonical h he (.inr hf)
  · rw [hlength, hfind, hlast]
    simp
    omega
  · rw [hlength]
    unfold kMaxInputLength
    omega

end Parse

-- ============================= authorities

theorem parsePort_numeral {port : Nat} (h : validPort port = true) :
    Native.parsePort (numeral 10 port) = port := by
  have hport := h
  simp only [validPort, Bool.and_eq_true, decide_eq_true_eq] at hport
  have hlen : (numeral 10 port).length ≤ 5 := by
    apply length_numeral_le <;> omega
  have hall : (numeral 10 port).all isDigitCode = true :=
    List.all_eq_true.mpr fun c hc => isDigitCode_of_mem hc
  rw [Native.parsePort, if_neg, hall, spelled_numeral (by norm_num)
    (by norm_num)]
  · simp [h]
  · rw [not_or]
    exact ⟨numeral_ne_nil 10 port, by omega⟩

theorem withPort_accepted (e : Address) (port : Nat) :
    (accepted { e with port := 0 }).withPort port
      = accepted { e with port } := rfl

section Authority

variable {inetPton : List Nat → Option (List Nat)}

/-- A canonical endpoint is read back from its authority, whatever valid
port is taken by default. -/
theorem parseAuthority_format (h : Rfc4291 inetPton) (he : Canonical mode e)
    (hport : validPort e.port = true) {defaultPort : UInt16}
    (hdefault : validPort defaultPort.toNat = true) :
    Native.parseAuthority inetPton (Native.formatHostPort e) defaultPort mode
      = accepted e := by
  obtain ⟨hne, hlen, hchars, hcolon⟩ := transport_plain he
  have hports := hport
  simp only [validPort, Bool.and_eq_true, decide_eq_true_eq] at hports
  have hnlen : (numeral 10 e.port).length ≤ 5 := by
    apply length_numeral_le <;> omega
  have hparse := parsePort_numeral hport
  have hzero : e.port ≠ 0 := by omega
  have hdigit : ∀ c ∈ numeral 10 e.port,
      0x21 ≤ c ∧ c ≤ 0x7e ∧ c ∉ codes "/\\@?#" := fun c hc =>
    (host_char (.inr (.inl (plain_digit (isDigitCode_of_mem hc))))).1
  by_cases hf : e.family = .ipv6
  · have htext : Native.formatHostPort e
        = 91 :: (Native.transportHost e ++ [93])
          ++ 58 :: numeral 10 e.port := by
      unfold Native.formatHostPort
      dsimp only
      rw [if_neg hzero, if_pos hf]
      simp [codes]
    have hvalid : invalidEndpointCharacters (Native.formatHostPort e)
        = false := by
      rw [htext, not_invalid_iff]
      intro c hc
      simp only [List.cons_append, List.mem_cons, List.mem_append,
        List.not_mem_nil, or_false] at hc
      rcases hc with rfl | (hc | rfl) | rfl | hc
      · exact ⟨by norm_num, by norm_num, by decide⟩
      · exact (host_char (hchars c hc)).1
      · exact ⟨by norm_num, by norm_num, by decide⟩
      · exact ⟨by norm_num, by norm_num, by decide⟩
      · exact hdigit c hc
    have hclose : 93 ∉ 91 :: Native.transportHost e := by
      intro hm
      rcases List.mem_cons.mp hm with hm | hm
      · cases hm
      · exact (host_char (hchars _ hm)).2.2 rfl
    have hfind : Native.find (Native.formatHostPort e) 93
        = (Native.transportHost e).length + 1 := by
      have hsplit : Native.formatHostPort e
          = (91 :: Native.transportHost e)
            ++ 93 :: 58 :: numeral 10 e.port := by
        rw [htext]
        simp
      rw [hsplit, Native.find, if_pos (by simp),
        List.idxOf_append_of_notMem hclose]
      simp
    have hpos := List.length_pos_of_ne_nil hne
    have hwrap : ((Native.transportHost e).length + 1 + 1) % 2 ^ 64
        = (91 :: (Native.transportHost e ++ [93])).length := by
      rw [Nat.mod_eq_of_lt (by omega)]
      simp
    unfold Native.parseAuthority
    rw [hdefault, hvalid, hfind]
    rw [if_neg (by simp), if_neg (by simp [htext]), if_neg (by simp),
      if_neg, if_pos (by simp [htext])]
    · dsimp only
      rw [if_neg (by omega), hwrap, htext, List.take_left, List.drop_left,
        if_neg (by simp), if_neg (by simp), List.drop_one, List.tail_cons,
        hparse, if_neg hzero, parseHost_bracketed h he hf,
        withPort_accepted]
    · rw [htext]
      simp [kMaxInputLength]
      omega
  · have htext : Native.formatHostPort e
        = Native.transportHost e ++ 58 :: numeral 10 e.port := by
      unfold Native.formatHostPort
      dsimp only
      rw [if_neg hzero, if_neg hf]
      simp [codes]
    have hvalid : invalidEndpointCharacters (Native.formatHostPort e)
        = false := by
      rw [htext, not_invalid_iff]
      intro c hc
      simp only [List.mem_append, List.mem_cons] at hc
      rcases hc with hc | rfl | hc
      · exact (host_char (hchars c hc)).1
      · exact ⟨by norm_num, by norm_num, by decide⟩
      · exact hdigit c hc
    have hpos := List.length_pos_of_ne_nil hne
    have hfind : Native.find (Native.formatHostPort e) 58
        = (Native.transportHost e).length := by
      rw [htext, Native.find, if_pos (by simp),
        List.idxOf_append_of_notMem (hcolon hf)]
      simp
    have hlast : lastIndexOf (Native.formatHostPort e) 58
        = some (Native.transportHost e).length := by
      rw [lastIndexOf, htext,
        cutLast_append (notMem_numeral rfl)]
      rfl
    have hhead : (Native.formatHostPort e).head? ≠ some 91 := by
      rw [htext, List.head?_append_of_ne_nil _ hne]
      intro hh
      exact (host_char (hchars _ (List.mem_of_head? hh))).2.1 rfl
    have hnpos : (Native.transportHost e).length ≠ Native.npos := by
      unfold Native.npos
      omega
    unfold Native.parseAuthority
    rw [hdefault, hvalid, hfind, hlast]
    rw [if_neg (by simp), if_neg (by simp [htext]), if_neg (by simp),
      if_neg, if_neg hhead]
    · dsimp only
      rw [Option.getD_some, if_pos ⟨hnpos, hpos, rfl⟩, htext,
        ← List.drop_drop, List.drop_left, List.drop_one, List.tail_cons,
        hparse, if_neg hzero, List.take_left, parseHost_transport h he,
        withPort_accepted]
    · rw [htext]
      simp [kMaxInputLength]
      omega

/-- The endpoints a text with a port, or a text and a port, are parsed
to. -/
def Parsed (inetPton : List Nat → Option (List Nat)) (mode : ParseMode)
    (e : Address) : Prop :=
  ∃ input port,
    Native.parseAuthority inetPton input port mode = accepted e
      ∨ Native.parseFields inetPton input port mode = accepted e

theorem withPort_canonical (h : Rfc4291 inetPton) {input : List Nat}
    {port : Nat}
    (he : (Native.parseHost inetPton input mode).withPort port = accepted e) :
    Canonical mode e ∧ e.port = port := by
  by_cases hok : (Native.parseHost inetPton input mode).ok = true
  · obtain ⟨e', he', -, hparse⟩ := parseHost_canonical h hok
    rw [hparse] at he
    obtain rfl : { e' with port := port } = e := congrArg ParseResult.endpoint he
    exact ⟨he'.withPort port, rfl⟩
  · rw [ParseResult.withPort, if_pos (by simpa using hok)] at he
    rw [he] at hok
    exact absurd rfl hok

theorem parsePort_valid (h : Native.parsePort value ≠ 0) :
    validPort (Native.parsePort value) = true := by
  unfold Native.parsePort at h ⊢
  split at h
  · exact absurd rfl h
  · rename_i hshape
    rw [if_neg hshape]
    split at h
    · exact absurd rfl h
    · rename_i hdigits
      rw [if_neg hdigits]
      dsimp only at h ⊢
      split at h
      · rename_i hvalid
        rw [if_pos hvalid]
        exact hvalid
      · exact absurd rfl h

/-- A parsed endpoint is canonical and has a valid port. -/
theorem Parsed.canonical (h : Rfc4291 inetPton) (he : Parsed inetPton mode e) :
    Canonical mode e ∧ validPort e.port = true := by
  have hfailed : ∀ {error : AddressError}, failed error ≠ accepted e :=
    fun hc => by cases congrArg ParseResult.ok hc
  have hwith : ∀ {input : List Nat} {port : Nat}, validPort port = true →
      (Native.parseHost inetPton input mode).withPort port = accepted e →
      Canonical mode e ∧ validPort e.port = true := by
    intro input port hvalid hparse
    obtain ⟨hcanonical, hport⟩ := withPort_canonical h hparse
    rw [hport]
    exact ⟨hcanonical, hvalid⟩
  obtain ⟨input, port, hparse | hparse⟩ := he
  · unfold Native.parseAuthority at hparse
    split at hparse
    · exact absurd hparse hfailed
    rename_i hdefault
    have hd : validPort port.toNat = true := by simpa using hdefault
    split at hparse
    · exact absurd hparse hfailed
    split at hparse
    · exact absurd hparse hfailed
    split at hparse
    · exact absurd hparse hfailed
    split at hparse
    · dsimp only at hparse
      split at hparse
      · exact absurd hparse hfailed
      split at hparse
      · exact hwith hd hparse
      split at hparse
      · exact absurd hparse hfailed
      split at hparse
      · exact absurd hparse hfailed
      · exact hwith (parsePort_valid ‹_›) hparse
    · dsimp only at hparse
      split at hparse
      · split at hparse
        · exact absurd hparse hfailed
        · exact hwith (parsePort_valid ‹_›) hparse
      · exact hwith hd hparse
  · unfold Native.parseFields at hparse
    split at hparse
    · exact absurd hparse hfailed
    · rename_i hport
      exact hwith (by simpa using hport) hparse

end Authority

-- ================================ identity

section Identity

variable {inetPton : List Nat → Option (List Nat)}

/-- The identities the server's texts are parsed to; the empty text stands
for none. -/
def ParsedServer (inetPton : List Nat → Option (List Nat))
    (identity : ServerIdentity) : Prop :=
  ∃ input, (Native.parseServerIdentity inetPton input).ok = true
    ∧ (Native.parseServerIdentity inetPton input).identity = identity

theorem plain_valid (h : Plain text) (hlen : text.length ≤ 253) :
    ¬ (text.length > 253 ∨ invalidEndpointCharacters text = true
      ∨ 37 ∈ text ∨ 91 ∈ text ∨ 93 ∈ text) := by
  have hvalid : invalidEndpointCharacters text = false :=
    not_invalid_iff.mpr fun c hc => (host_char (.inr (h c hc))).1
  obtain ⟨hpercent, hopen, hclose⟩ := h.notMem
  simp only [not_or]
  exact ⟨by omega, by simp [hvalid], hpercent, hopen, hclose⟩

/-- An accepted server identity is accepted again, as itself. -/
theorem ParsedServer.again (h : Rfc4291 inetPton) {identity : ServerIdentity}
    (hs : ParsedServer inetPton identity) :
    Native.parseServerIdentity inetPton identity.canonicalName
      = ⟨true, identity, .none⟩ := by
  obtain ⟨input, hok, rfl⟩ := hs
  unfold Native.parseServerIdentity at hok
  generalize hresult : Native.parseServerIdentity inetPton input = result
  unfold Native.parseServerIdentity at hresult
  split at hok
  · rename_i hempty
    rw [if_pos hempty] at hresult
    rw [← hresult]
    rfl
  · rename_i hempty
    rw [if_neg hempty] at hresult
    split at hok
    · cases hok
    · rename_i hshape
      rw [if_neg hshape] at hresult
      cases hquad : Native.parseIpv4 input with
      | some octets =>
        rw [hquad] at hok hresult
        dsimp only at hok hresult
        split at hok
        · cases hok
        · rename_i hc
          rw [if_neg hc] at hresult
          have hq := Native.parseIpv4_iff.mp hquad
          have htext : canonicalIpv4 octets = input := hq.text_eq.symm
          rw [← hresult]
          dsimp only
          rw [htext, Native.parseServerIdentity, if_neg hempty,
            if_neg hshape, hquad]
          dsimp only
          rw [if_neg hc, htext]
      | none =>
        rw [hquad] at hok hresult
        dsimp only at hok hresult
        cases hpton : inetPton input with
        | some address =>
          rw [hpton] at hok hresult
          dsimp only at hok hresult
          split at hok
          · cases hok
          · rename_i hc
            rw [if_neg hc] at hresult
            obtain ⟨words, htext, rfl⟩ := (h _ _).mp hpton
            have hw := ipv6_words htext
            obtain ⟨hcolon, hlen, hplain⟩ :=
              ipv6_chars (canonicalIpv6_text hw)
            rw [← hresult]
            dsimp only
            rw [canonicalIpv6_eq hw, Native.parseServerIdentity,
              if_neg (List.ne_nil_of_mem hcolon),
              if_neg (plain_valid hplain (by omega)),
              not_quad_of_colon hcolon, inetPton_canonical h hw]
            dsimp only
            rw [if_neg hc, canonicalIpv6_eq hw]
        | none =>
          rw [hpton] at hok hresult
          dsimp only at hok hresult
          split at hok
          · cases hok
          split at hok
          · cases hok
          · rename_i hnum hname
            rw [if_neg hnum, if_neg hname] at hresult
            rw [not_or] at hnum
            have hh := hostname_of_accepted hname
              (by simpa using hnum.2)
            have hplain :
                Plain (Native.canonicalHostname input) := by
              intro c hc
              have := hh.chars c hc
              tauto
            rw [← hresult]
            dsimp only
            rw [Native.parseServerIdentity,
              if_neg hh.labels.ne_nil,
              if_neg (plain_valid hplain hh.labels.length_le),
              hh.not_quad, inetPton_no_colon h hh.not_colon]
            dsimp only
            rw [if_neg, hh.canonical, if_neg hname]
            rw [not_or]
            exact ⟨hh.not_colon, by simp [hh.named]⟩

/-- Without a numeric scope a canonical endpoint can be kept. -/
theorem Canonical.persisted (he : Canonical mode e)
    (hkind : e.scopeKind ≠ .numeric) : Canonical .persisted e := by
  cases he with
  | ipv4 hquad hc => exact .ipv4 hquad hc
  | hostname hh => exact .hostname hh
  | ipv6 hw hc hl hs =>
    refine .ipv6 hw hc hl ?_
    rcases hs with hs | ⟨hne, hparse⟩
    · exact .inl hs
    · refine .inr ⟨hne, ?_⟩
      unfold Native.parseScope at hparse ⊢
      split at hparse
      · exfalso
        split at hparse
        · exact hne (Prod.mk.inj hparse).1.symm
        · dsimp only at hparse
          split at hparse
          · exact hne (Prod.mk.inj hparse).1.symm
          · exact hkind (Prod.mk.inj hparse).1.symm
      · rename_i hdigits
        rw [if_neg hdigits]
        exact hparse

theorem matches_of_canonical (h : Rfc4291 inetPton)
    (he : Canonical .persisted e) (hport : validPort e.port = true)
    (hkind : e.scopeKind ≠ .numeric) :
    Native.endpointMatchesCanonicalPolicy inetPton e = true := by
  have hversion : e.version = kAddressVersion := by cases he <;> rfl
  have hinput : (if e.family = .ipv6 ∧ e.scope ≠ [] then
        e.canonicalHost ++ (codes "%" ++ e.scope) else e.canonicalHost)
      = Native.transportHost e := by
    unfold Native.transportHost
    by_cases hcase : e.family = .ipv6 ∧ e.scope ≠ []
    · rw [if_pos hcase, if_neg (by tauto), List.append_assoc]
    · rw [if_neg hcase, if_pos (by tauto)]
  unfold Native.endpointMatchesCanonicalPolicy
  rw [if_neg (by simp [hversion, hport, hkind])]
  dsimp only
  rw [hinput, parseHost_transport h he]
  simp [accepted]

theorem familyText_inj {f g : AddressFamily}
    (h : Native.familyText f = Native.familyText g) : f = g := by
  revert h
  cases f <;> cases g <;> decide

theorem kindText_inj {k l : ServerIdentityKind}
    (h : Native.serverIdentityKindText k = Native.serverIdentityKindText l) :
    k = l := by
  revert h
  cases k <;> cases l <;> decide

/-- The framed fields can be told apart. -/
theorem identityText_inj {e' : Address} {s s' : ServerIdentity} :
    Native.identityText e s = Native.identityText e' s'
      ↔ e.family = e'.family ∧ e.canonicalHost = e'.canonicalHost
        ∧ e.scope = e'.scope ∧ e.port = e'.port ∧ s = s' := by
  constructor
  · intro h
    unfold Native.identityText at h
    simp only [List.append_assoc] at h
    obtain ⟨hfamily, h⟩ :=
      lengthPrefixed_append_inj (List.append_cancel_left h)
    obtain ⟨hhost, h⟩ :=
      lengthPrefixed_append_inj (List.append_cancel_left h)
    obtain ⟨hscope, h⟩ :=
      lengthPrefixed_append_inj (List.append_cancel_left h)
    obtain ⟨hport, h⟩ := numeral_append_inj (c := 124) (d := 124) rfl rfl
      (List.append_cancel_left h)
    obtain ⟨hkind, h⟩ := lengthPrefixed_append_inj
      (@List.append_cancel_left _ (codes "|server-kind=") _ _ h)
    have hlast := List.append_cancel_left h
    obtain ⟨hname, -⟩ := lengthPrefixed_append_inj (s := []) (t := [])
      (by simpa using hlast)
    have hserver : s.kind = s'.kind := kindText_inj hkind
    refine ⟨familyText_inj hfamily, hhost, hscope, hport, ?_⟩
    cases s with
    | mk kind name =>
    cases s' with
    | mk kind' name' => exact congrArg₂ ServerIdentity.mk hserver hname
  · rintro ⟨hfamily, hhost, hscope, hport, rfl⟩
    unfold Native.identityText
    rw [hfamily, hhost, hscope, hport]

theorem identityV2_eq (h : Rfc4291 inetPton) {s : ServerIdentity}
    (he : Parsed inetPton mode e) (hkind : e.scopeKind ≠ .numeric)
    (hs : ParsedServer inetPton s) :
    Native.identityV2 inetPton e s
      = ⟨true, Native.identityText e (Native.effectiveIdentity e s),
        .none⟩ := by
  obtain ⟨hcanonical, hport⟩ := he.canonical h
  have hmatches := matches_of_canonical h (hcanonical.persisted hkind) hport
    hkind
  unfold Native.identityV2
  rw [hmatches, hs.again h]
  simp

/-- Canonicalisation is idempotent; authorities are read back for every
valid default port; and where there is an identity it is the same for the
same family, host, scope, port and effective server identity only. -/
theorem endpoint_canonical_identity (h : Rfc4291 inetPton) :
    (∀ input mode, (Native.parseHost inetPton input mode).ok = true →
      Native.parseHost inetPton (Native.transportHost
          (Native.parseHost inetPton input mode).endpoint) mode
        = Native.parseHost inetPton input mode)
      ∧ (∀ mode e, Parsed inetPton mode e →
        Native.parseHost inetPton (Native.transportHost e) mode
            = accepted { e with port := 0 }
          ∧ ∀ defaultPort : UInt16, validPort defaultPort.toNat = true →
            Native.parseAuthority inetPton (Native.formatHostPort e)
              defaultPort mode = accepted e)
      ∧ ∀ mode mode' e e' s s', Parsed inetPton mode e →
        Parsed inetPton mode' e' → e.scopeKind ≠ .numeric →
        e'.scopeKind ≠ .numeric → ParsedServer inetPton s →
        ParsedServer inetPton s' →
        (Native.identityV2 inetPton e s).ok = true
          ∧ (Native.identityV2 inetPton e' s').ok = true
          ∧ ((Native.identityV2 inetPton e s).identity
              = (Native.identityV2 inetPton e' s').identity
            ↔ e.family = e'.family ∧ e.canonicalHost = e'.canonicalHost
              ∧ e.scope = e'.scope ∧ e.port = e'.port
              ∧ Native.effectiveIdentity e s
                = Native.effectiveIdentity e' s') := by
  refine ⟨fun input mode hok => ?_, fun mode e he => ⟨?_, ?_⟩, ?_⟩
  · obtain ⟨e, he, hport, hparse⟩ := parseHost_canonical h hok
    rw [hparse]
    have hagain := parseHost_transport h he
    rwa [← hport] at hagain
  · exact parseHost_transport h (he.canonical h).1
  · intro defaultPort hdefault
    obtain ⟨hcanonical, hport⟩ := he.canonical h
    exact parseAuthority_format h hcanonical hport hdefault
  · intro mode mode' e e' s s' he he' hk hk' hs hs'
    rw [identityV2_eq h he hk hs, identityV2_eq h he' hk' hs']
    exact ⟨rfl, rfl, identityText_inj⟩

theorem endpoint_canonical_identity_scoped :
    let parsed := Native.parseHost readIpv6 (codes "[FE80::1%eth0]") .persisted
    parsed.ok = true
      ∧ Native.parseHost readIpv6 (Native.transportHost parsed.endpoint)
        .persisted = parsed :=
  ⟨by decide +kernel,
    (endpoint_canonical_identity readIpv6_rfc4291).1 _ _ (by decide +kernel)⟩

/-- A default port of zero is refused before the port of the authority is
looked at, and endpoints with numeric scopes have no identity, so that two
of them have the same text. -/
theorem unidentified_endpoints :
    let parse := fun text port =>
      Native.parseAuthority readIpv6 (codes text) port .runtime
    let host := (parse "a.example:22" 22).endpoint
    let one := (parse "[fe80::1%1]:22" 22).endpoint
    let two := (parse "[fe80::2%1]:22" 22).endpoint
    parse "a.example:22" 22 = accepted host
      ∧ Native.parseAuthority readIpv6 (Native.formatHostPort host) 0 .runtime
        ≠ accepted host
      ∧ parse "[fe80::1%1]:22" 22 = accepted one
      ∧ parse "[fe80::2%1]:22" 22 = accepted two
      ∧ one.canonicalHost ≠ two.canonicalHost
      ∧ (Native.identityV2 readIpv6 one {}).identity
        = (Native.identityV2 readIpv6 two {}).identity := by
  decide +kernel

end Identity

end RemoteDesk.Endpoint
