/-
What the pieces of the two policies accept.

Each is brought to one description: dotted quads to `Quad`
(`Native.parseIpv4_iff`, `Ark.ipv4Octets_iff`), the ArkTS reader of IPv6
texts to `Ipv6` (`Ark.parseIpv6Words_iff`), and the loops over labels to
the labels `splitOn` gives.
-/
import RemoteDesk.Endpoint.NativePolicy
import RemoteDesk.Endpoint.ArkPolicy

namespace RemoteDesk.Endpoint

open Lib

-- ============================ dotted quads

theorem notMem_numeral {n c : Nat} (h : isDigitCode c = false) :
    c ∉ numeral 10 n := by
  intro hm
  rw [isDigitCode_of_mem hm] at h
  cases h

variable {part octets value text front : List Nat}

theorem octet_iff :
    (part ≠ [] ∧ part.length ≤ 3 ∧ (part.head? = some 48 → part.length = 1)
        ∧ (∀ c ∈ part, isDigitCode c = true) ∧ spelled 10 part ≤ 255)
      ↔ part = numeral 10 (spelled 10 part) ∧ spelled 10 part < 256 := by
  constructor
  · intro ⟨hne, _, hhead, hdigits, hle⟩
    exact ⟨eq_numeral hne hdigits hhead, Nat.lt_succ_of_le hle⟩
  · intro ⟨hpart, hlt⟩
    generalize spelled 10 part = n at hpart hlt ⊢
    rw [hpart]
    refine ⟨numeral_ne_nil 10 n, ?_, ?_, ?_, Nat.le_of_lt_succ hlt⟩
    · apply length_numeral_le <;> omega
    · intro hhead
      by_cases hn : n = 0
      · rw [hn]
        rfl
      · exact absurd hhead (head_numeral (by norm_num) (by norm_num) hn)
    · exact fun c hc => isDigitCode_of_mem hc

theorem Native.parseOctet_iff {octet : Nat} :
    Native.parseOctet part = some octet
      ↔ part = numeral 10 octet ∧ octet < 256 := by
  have hspelled : (part = numeral 10 octet ∧ octet < 256)
      ↔ spelled 10 part = octet ∧ part = numeral 10 (spelled 10 part)
        ∧ spelled 10 part < 256 := by
    constructor
    · intro ⟨hpart, hlt⟩
      have h : spelled 10 part = octet := by
        rw [hpart, spelled_numeral (by norm_num) (by norm_num)]
      rw [h]
      exact ⟨rfl, hpart, hlt⟩
    · intro ⟨h, hpart, hlt⟩
      rw [h] at hpart hlt
      exact ⟨hpart, hlt⟩
  rw [hspelled, ← octet_iff]
  unfold Native.parseOctet
  simp only [Bool.not_eq_true', List.all_eq_false]
  split
  · rename_i hbad
    constructor
    · intro h
      cases h
    · intro ⟨_, hne, hle, hhead, _⟩
      rcases hbad with h | h | ⟨hlong, h⟩
      · exact absurd h hne
      · omega
      · have := hhead h
        omega
  · rename_i hgood
    simp only [not_or, not_and] at hgood
    split
    · rename_i hbad
      obtain ⟨c, hc, hnot⟩ := hbad
      constructor
      · intro h
        cases h
      · intro ⟨_, _, _, _, hdigits, _⟩
        exact absurd (hdigits c hc) hnot
    · rename_i hdigits
      simp only [not_exists, not_and, not_not] at hdigits
      have hhead : part.head? = some 48 → part.length = 1 := by
        intro h
        have hpos := List.length_pos_of_ne_nil hgood.1
        have hlong := mt (hgood.2.2) (not_not_intro h)
        omega
      split
      · rename_i hbig
        constructor
        · intro h
          cases h
        · intro ⟨_, _, _, _, _, hle⟩
          omega
      · rename_i hsmall
        rw [Option.some.injEq]
        constructor
        · intro h
          exact ⟨h, hgood.1, by omega, hhead, hdigits, by omega⟩
        · exact And.left

theorem Ark.octetText_iff :
    (octetText part && decide (spelled 10 part ≤ 255)) = true
      ↔ part = numeral 10 (spelled 10 part) ∧ spelled 10 part < 256 := by
  rw [← octet_iff, Bool.and_eq_true, decide_eq_true_eq]
  cases part with
  | nil => simp [octetText]
  | cons ch rest =>
    simp only [octetText, Bool.or_eq_true, Bool.and_eq_true,
      decide_eq_true_eq, List.all_eq_true, List.head?_cons,
      List.length_cons, List.forall_mem_cons, Option.some.injEq,
      isDigitCode_iff]
    constructor
    · rintro ⟨⟨rfl, rfl⟩ | ⟨⟨⟨hlo, hhi⟩, hle⟩, hrest⟩, hsmall⟩
      · exact ⟨by simp, by simp, by simp, ⟨by omega, by simp⟩, hsmall⟩
      · exact ⟨by simp, by omega, by omega, ⟨by omega, hrest⟩, hsmall⟩
    · intro ⟨_, hle, hhead, ⟨hch, hrest⟩, hsmall⟩
      refine ⟨?_, hsmall⟩
      by_cases h : ch = 48
      · left
        have hlen := hhead h
        exact ⟨h, List.eq_nil_of_length_eq_zero (by omega)⟩
      · right
        exact ⟨⟨⟨by omega, by omega⟩, by omega⟩, hrest⟩

theorem Native.parseIpv4From_iff {behind : Nat} :
    parseIpv4From behind value = some octets
      ↔ octets.length = behind + 1 ∧ (∀ o ∈ octets, o < 256)
        ∧ value = [46].intercalate (octets.map (numeral 10)) := by
  have hdot : ∀ n, 46 ∉ numeral 10 n := fun n => notMem_numeral rfl
  induction behind generalizing value octets with
  | zero =>
    cases hcut : cut 46 value with
    | mk part rest =>
    rw [parseIpv4From, hcut]
    cases rest with
    | none =>
      have hmem := cut_none hcut
      rw [cut_of_notMem hmem] at hcut
      obtain rfl := (Prod.mk.inj hcut).1
      dsimp only
      rw [Option.map_eq_some_iff]
      constructor
      · rintro ⟨octet, hoctet, rfl⟩
        obtain ⟨hpart, hlt⟩ := parseOctet_iff.mp hoctet
        refine ⟨rfl, by simpa using hlt, ?_⟩
        rw [List.map_singleton, intercalate_singleton]
        exact hpart
      · intro ⟨hlen, hlt, hvalue⟩
        obtain ⟨octet, rfl⟩ := List.length_eq_one_iff.mp hlen
        rw [List.map_singleton, intercalate_singleton] at hvalue
        exact ⟨octet, parseOctet_iff.mpr ⟨hvalue, by simpa using hlt⟩, rfl⟩
    | some rest =>
      constructor
      · intro h
        cases h
      · intro ⟨hlen, _, hvalue⟩
        obtain ⟨octet, rfl⟩ := List.length_eq_one_iff.mp hlen
        rw [List.map_singleton, intercalate_singleton] at hvalue
        rw [hvalue, cut_of_notMem (hdot octet)] at hcut
        cases hcut
  | succ behind ih =>
    cases hcut : cut 46 value with
    | mk part rest =>
    rw [parseIpv4From, hcut]
    cases rest with
    | none =>
      have hmem := cut_none hcut
      constructor
      · intro h
        cases h
      · intro ⟨hlen, _, hvalue⟩
        obtain ⟨o, p, os, rfl⟩ : ∃ o p os, octets = o :: p :: os := by
          match octets, hlen with
          | o :: p :: os, _ => exact ⟨o, p, os, rfl⟩
        rw [List.map_cons, intercalate_cons (by simp)] at hvalue
        rw [hvalue] at hmem
        simp at hmem
    | some rest =>
      obtain ⟨hvalue, hpart⟩ := cut_some hcut
      dsimp only
      constructor
      · intro h
        split at h
        · cases h
        · rename_i octet hoctet
          obtain ⟨os, hos, rfl⟩ := Option.map_eq_some_iff.mp h
          obtain ⟨hpartEq, hlt⟩ := parseOctet_iff.mp hoctet
          obtain ⟨hlen, hall, hrest⟩ := ih.mp hos
          have hne : os.map (numeral 10) ≠ [] := by
            rw [ne_eq, List.map_eq_nil_iff]
            rintro rfl
            cases hlen
          refine ⟨by rw [List.length_cons, hlen], ?_, ?_⟩
          · exact List.forall_mem_cons.mpr ⟨hlt, hall⟩
          · rw [List.map_cons, intercalate_cons hne, ← hrest,
              ← hpartEq]
            exact hvalue
      · intro ⟨hlen, hall, hjoin⟩
        cases octets with
        | nil => cases hlen
        | cons octet os =>
          have hos : os.length = behind + 1 := by simpa using hlen
          have hne : os.map (numeral 10) ≠ [] := by
            rw [ne_eq, List.map_eq_nil_iff]
            rintro rfl
            cases hos
          obtain ⟨hlt, hall⟩ := List.forall_mem_cons.mp hall
          rw [List.map_cons, intercalate_cons hne] at hjoin
          have hcut' := cut_append_sep (hdot octet)
            ([46].intercalate (os.map (numeral 10)))
          rw [← hjoin, hcut] at hcut'
          obtain ⟨hpartEq, hrestEq⟩ := Prod.mk.inj hcut'
          rw [parseOctet_iff.mpr ⟨hpartEq, hlt⟩]
          dsimp only
          rw [ih.mpr ⟨hos, hall, Option.some.inj hrestEq⟩]
          rfl

theorem Native.parseIpv4_iff :
    parseIpv4 value = some octets ↔ Quad value octets := by
  rw [parseIpv4, parseIpv4From_iff]
  constructor
  · intro ⟨hlen, hlt, htext⟩
    exact ⟨htext, hlen, hlt⟩
  · intro h
    exact ⟨h.length_eq, h.lt, h.text_eq⟩

theorem Ark.ipv4Octets_iff :
    ipv4Octets value = some octets ↔ Quad value octets := by
  have hdot : ∀ part ∈ octets.map (numeral 10), 46 ∉ part := by
    intro part hpart
    obtain ⟨o, -, rfl⟩ := List.mem_map.mp hpart
    exact notMem_numeral rfl
  unfold ipv4Octets
  dsimp only
  constructor
  · intro h
    split at h
    · cases h
    · rename_i hlen
      split at h
      · rename_i hall
        cases h
        have hoctet := fun part hpart =>
          octetText_iff.mp (List.all_eq_true.mp hall part hpart)
        refine ⟨?_, by simpa using hlen, ?_⟩
        · rw [List.map_map]
          have hsame : (value.splitOn 46).map (numeral 10 ∘ spelled 10)
              = value.splitOn 46 := by
            conv_rhs => rw [← List.map_id (value.splitOn 46)]
            exact List.map_congr_left fun part hpart =>
              (hoctet part hpart).1.symm
          rw [hsame]
          exact (List.intercalate_splitOn 46).symm
        · intro o ho
          obtain ⟨part, hpart, rfl⟩ := List.mem_map.mp ho
          exact (hoctet part hpart).2
      · cases h
  · intro ⟨htext, hlen, hlt⟩
    have hne : octets.map (numeral 10) ≠ [] := by
      rw [ne_eq, List.map_eq_nil_iff]
      rintro rfl
      cases hlen
    have hparts : value.splitOn 46 = octets.map (numeral 10) := by
      rw [htext, List.splitOn_intercalate 46 hdot hne]
    have hspelled : (octets.map (numeral 10)).map (spelled 10) = octets := by
      rw [List.map_map]
      conv_rhs => rw [← List.map_id octets]
      exact List.map_congr_left fun o _ =>
        spelled_numeral (by norm_num) (by norm_num)
    rw [hparts, if_neg (by simpa using hlen), if_pos, hspelled]
    rw [List.all_eq_true]
    intro part hpart
    obtain ⟨o, ho, rfl⟩ := List.mem_map.mp hpart
    rw [octetText_iff, spelled_numeral (by norm_num) (by norm_num)]
    exact ⟨rfl, hlt o ho⟩

theorem parseIpv4_eq (value : List Nat) :
    Native.parseIpv4 value = Ark.ipv4Octets value := by
  apply Option.ext
  intro octets
  rw [Native.parseIpv4_iff, Ark.ipv4Octets_iff]

-- ============================== IPv6 texts

theorem group_iff {g : List Nat} {w : Nat} :
    Group g w ↔ Ark.groupText g = true ∧ w = spelled 16 g := by
  unfold Ark.groupText
  simp only [Bool.and_eq_true, decide_eq_true_eq, List.all_eq_true]
  constructor
  · intro h
    exact ⟨⟨⟨h.pos, h.le⟩, h.hex⟩, h.word_eq⟩
  · intro ⟨⟨⟨hpos, hle⟩, hhex⟩, hw⟩
    exact ⟨hpos, hle, hhex, hw⟩

theorem forall₂_group_iff {gs : List (List Nat)} {ws : List Nat} :
    List.Forall₂ Group gs ws
      ↔ (∀ g ∈ gs, Ark.groupText g = true) ∧ ws = gs.map (spelled 16) := by
  induction gs generalizing ws with
  | nil => simp [List.forall₂_nil_left_iff]
  | cons g gs ih =>
    simp only [List.forall₂_cons_left_iff, group_iff, ih,
      List.forall_mem_cons, List.map_cons]
    constructor
    · rintro ⟨w, rest, ⟨hg, rfl⟩, ⟨hgs, rfl⟩, rfl⟩
      exact ⟨⟨hg, hgs⟩, rfl⟩
    · rintro ⟨⟨hg, hgs⟩, rfl⟩
      exact ⟨_, _, ⟨hg, rfl⟩, ⟨hgs, rfl⟩, rfl⟩

theorem clean_of_group {g : List Nat} {w : Nat} (h : Group g w) :
    Clean 58 g :=
  ⟨List.ne_nil_of_length_pos h.pos, fun hm => by cases h.hex 58 hm⟩

theorem groups_clean {gs : List (List Nat)} {ws : List Nat}
    (h : List.Forall₂ Group gs ws) : ∀ g ∈ gs, Clean 58 g := by
  intro g hg
  have hgroup := (forall₂_group_iff.mp h).1 g hg
  exact clean_of_group (group_iff.mpr ⟨hgroup, rfl⟩)

theorem group_hex {w : Nat} (h : w < 65536) : Group (numeral 16 w) w where
  pos := length_numeral_pos 16 w
  le := by apply length_numeral_le <;> omega
  hex := fun c hc => isHexCode_of_mem hc
  word_eq := (spelled_numeral (by norm_num) (by norm_num)).symm

theorem spelled_hex (w : Nat) : spelled 16 (numeral 16 w) = w :=
  spelled_numeral (by norm_num) (by norm_num)

/-- A text without a dotted quad. -/
inductive HexText : List Nat → List Nat → Prop where
  | full {gs ws} : List.Forall₂ Group gs ws → ws.length = 8 →
      HexText ([58].intercalate gs) ws
  | short {ls rs wl wr} : List.Forall₂ Group ls wl →
      List.Forall₂ Group rs wr → wl.length + wr.length ≤ 7 →
      HexText ([58].intercalate ls ++ 58 :: 58 :: [58].intercalate rs)
        (wl ++ List.replicate (8 - (wl.length + wr.length)) 0 ++ wr)

/-- The groups of a text; an empty one has none. -/
def parts (text : List Nat) : List (List Nat) :=
  if text = [] then [] else text.splitOn 58

theorem join_parts (text : List Nat) : [58].intercalate (parts text) = text := by
  unfold parts
  split
  · rename_i h
    rw [h]
    rfl
  · exact List.intercalate_splitOn 58

theorem parts_join {gs : List (List Nat)} (h : ∀ g ∈ gs, Clean 58 g) :
    parts ([58].intercalate gs) = gs := by
  unfold parts
  by_cases hgs : gs = []
  · rw [hgs]
    rfl
  · rw [if_neg (intercalate_ne_nil hgs h),
      List.splitOn_intercalate 58 (fun g hg => (h g hg).2) hgs]

namespace Ark

theorem expandedWords_eq (text : List Nat) :
    expandedWords text = match cutPair 58 text with
      | none =>
        if (parts text).all groupText ∧ (parts text).length = 8 then
          some ((parts text).map (spelled 16))
        else none
      | some (left, right) =>
        if (cutPair 58 right).isNone ∧ (parts left).all groupText
            ∧ (parts right).all groupText
            ∧ (parts left).length + (parts right).length ≤ 7 then
          some ((parts left).map (spelled 16)
            ++ List.replicate
              (8 - ((parts left).length + (parts right).length)) 0
            ++ (parts right).map (spelled 16))
        else none := by
  unfold expandedWords
  cases hcut : cutPair 58 text with
  | none =>
    simp only [Option.any_none, Option.elim_none, Option.isSome_none,
      Bool.false_eq_true, if_false, false_and, if_true, true_and,
      List.all_nil, Bool.not_true, List.map_nil, List.append_nil]
    change (if !(parts text).all groupText then none
      else if (parts text).length ≠ 8 then none
      else if ((parts text).map (spelled 16)).length = 8 then
        some ((parts text).map (spelled 16)) else none) = _
    rw [List.length_map]
    by_cases hall : (parts text).all groupText = true
    · by_cases hlen : (parts text).length = 8
      · simp [hall, hlen]
      · simp [hall, hlen]
    · simp [hall]
  | some p =>
    obtain ⟨left, right⟩ := p
    simp only [Option.any_some, Option.elim_some, Option.isSome_some,
      true_and, if_true, reduceCtorEq, false_and, if_false]
    change (if (cutPair 58 right).isSome then none
      else if !(parts left).all groupText then none
      else if 8 - (parts left).length - (parts right).length < 1 then none
      else if !(parts right).all groupText then none
      else if ((parts left).map (spelled 16)
            ++ List.replicate
              (8 - (parts left).length - (parts right).length) 0
            ++ (parts right).map (spelled 16)).length = 8 then
        some ((parts left).map (spelled 16)
            ++ List.replicate
              (8 - (parts left).length - (parts right).length) 0
            ++ (parts right).map (spelled 16))
      else none) = _
    rw [Nat.sub_sub]
    cases hpair : cutPair 58 right with
    | some q => simp
    | none =>
      by_cases hl : (parts left).all groupText = true
      · by_cases hr : (parts right).all groupText = true
        · by_cases hlen :
              (parts left).length + (parts right).length ≤ 7
          · have hone : ¬ 8 - ((parts left).length
                + (parts right).length) < 1 := by omega
            have height : (parts left).length
                + (8 - ((parts left).length + (parts right).length)
                  + (parts right).length) = 8 := by omega
            simp [hl, hr, hlen, hone, height]
          · have hone : 8 - ((parts left).length
                + (parts right).length) < 1 := by omega
            simp [hl, hr, hlen, hone]
        · simp [hl, hr]
      · simp [hl]

theorem expandedWords_iff {words : List Nat} :
    expandedWords text = some words ↔ HexText text words := by
  rw [expandedWords_eq]
  constructor
  · intro h
    split at h
    · split at h
      · rename_i hall
        cases h
        rw [List.all_eq_true] at hall
        have hgroups := forall₂_group_iff.mpr ⟨hall.1, rfl⟩
        have hfull := HexText.full hgroups (by simpa using hall.2)
        rwa [join_parts] at hfull
      · cases h
    · rename_i left right hcut
      split at h
      · rename_i hall
        obtain ⟨-, hl, hr, hlen⟩ := hall
        rw [List.all_eq_true] at hl hr
        cases h
        have hshort := HexText.short (forall₂_group_iff.mpr ⟨hl, rfl⟩)
          (forall₂_group_iff.mpr ⟨hr, rfl⟩) (by simpa using hlen)
        rw [join_parts, join_parts, ← cutPair_some hcut, List.length_map,
          List.length_map] at hshort
        exact hshort
      · cases h
  · intro h
    cases h with
    | full hgs hlen =>
      have hclean := groups_clean hgs
      obtain ⟨hall, rfl⟩ := forall₂_group_iff.mp hgs
      rw [cutPair_intercalate hclean]
      dsimp only
      rw [parts_join hclean, if_pos]
      exact ⟨List.all_eq_true.mpr hall, by simpa using hlen⟩
    | short hls hrs hlen =>
      have hl := groups_clean hls
      have hr := groups_clean hrs
      obtain ⟨hall, rfl⟩ := forall₂_group_iff.mp hls
      obtain ⟨hall', rfl⟩ := forall₂_group_iff.mp hrs
      rw [cutPair_append (cutPair_intercalate hl)
        (getLast?_intercalate hl)]
      dsimp only
      rw [parts_join hl, parts_join hr, cutPair_intercalate hr, if_pos,
        List.length_map, List.length_map]
      rw [List.length_map, List.length_map] at hlen
      exact ⟨rfl, List.all_eq_true.mpr hall, List.all_eq_true.mpr hall',
        hlen⟩

end Ark

-- ------------------------- the dotted quad

/-- A dotted quad's text can be told from groups. -/
theorem quad_clean (h : Quad text octets) :
    Clean 58 text ∧ 46 ∈ text ∧ text.length ≤ 15
      ∧ ∀ c ∈ text, isDigitCode c = true ∨ c = 46 := by
  obtain ⟨rfl, hlen, hlt⟩ := h
  obtain ⟨o, p, os, rfl⟩ : ∃ o p os, octets = o :: p :: os := by
    match octets, hlen with
    | o :: p :: os, _ => exact ⟨o, p, os, rfl⟩
  have hchars : ∀ c ∈ [46].intercalate ((o :: p :: os).map (numeral 10)),
      isDigitCode c = true ∨ c = 46 := by
    intro c hc
    rcases mem_intercalate hc with h | ⟨part, hpart, hc⟩
    · exact .inr h
    · obtain ⟨n, -, rfl⟩ := List.mem_map.mp hpart
      exact .inl (isDigitCode_of_mem hc)
  have hdot : 46 ∈ [46].intercalate ((o :: p :: os).map (numeral 10)) := by
    rw [List.map_cons, intercalate_cons (by simp)]
    simp
  refine ⟨⟨List.ne_nil_of_mem hdot, fun hm => ?_⟩, hdot, ?_, hchars⟩
  · rcases hchars 58 hm with h | h
    · cases h
    · cases h
  · have hshort : ∀ part ∈ (o :: p :: os).map (numeral 10),
        part.length ≤ 3 := by
      intro part hpart
      obtain ⟨n, hn, rfl⟩ := List.mem_map.mp hpart
      have := hlt n hn
      apply length_numeral_le <;> omega
    have hjoin := @length_intercalate_lt _ 46 _ 3 hshort (by simp)
    rw [List.length_map, hlen] at hjoin
    omega

/-- Where a last group is put behind other text, a colon stands before
it. -/
theorem behind_colon {gs : List (List Nat)}
    (h : gs ≠ [] ∨ ∃ y, front = y ++ [58]) :
    ∃ before, ∀ g, front ++ [58].intercalate (gs ++ [g])
      = before ++ 58 :: g := by
  by_cases hgs : gs = []
  · obtain ⟨y, rfl⟩ := h.resolve_left (not_not_intro hgs)
    refine ⟨y, fun g => ?_⟩
    rw [hgs, List.nil_append, intercalate_singleton, List.append_assoc]
    rfl
  · refine ⟨front ++ [58].intercalate gs, fun g => ?_⟩
    rw [intercalate_concat hgs, List.append_assoc]

/-- And read the other way: a last group that has a colon before it. -/
theorem of_behind_colon {before g : List Nat} {gs : List (List Nat)}
    (hfront : front = [] ∨ ∃ y, front = y ++ [58])
    (hclean : ∀ g ∈ gs, Clean 58 g) (hg : Clean 58 g)
    (h : front ++ [58].intercalate gs = before ++ 58 :: g) :
    ∃ gs', gs = gs' ++ [g] ∧ (gs' ≠ [] ∨ ∃ y, front = y ++ [58])
      ∧ ∀ text, before ++ 58 :: text
        = front ++ [58].intercalate (gs' ++ [text]) := by
  rcases List.eq_nil_or_concat' gs with rfl | ⟨gs', last, rfl⟩
  · exfalso
    rcases hfront with rfl | ⟨y, rfl⟩
    · simp [List.intercalate] at h
    · have hsep : y ++ 58 :: [] = before ++ 58 :: g := by
        simpa [List.intercalate] using h
      exact hg.1 (append_sep_inj (by simp) hg.2 hsep).2.symm
  · have hor : gs' ≠ [] ∨ ∃ y, front = y ++ [58] := by
      rcases hfront with rfl | hy
      · left
        rintro rfl
        rw [List.nil_append, List.nil_append, intercalate_singleton] at h
        refine (hclean last (by simp)).2 ?_
        rw [h]
        simp
      · exact .inr hy
    obtain ⟨before', hbefore⟩ := behind_colon hor
    rw [hbefore] at h
    obtain ⟨rfl, rfl⟩ := append_sep_inj (hclean last (by simp)).2 hg.2 h
    exact ⟨gs', rfl, hor, fun text => (hbefore text).symm⟩

namespace Ark

theorem expand_quad {before quad : List Nat} {a b c d : Nat}
    (h : Quad quad [a, b, c, d]) :
    expandEmbeddedIpv4 (before ++ 58 :: quad)
      = before ++ 58 :: numeral 16 (a * 256 + b)
        ++ 58 :: numeral 16 (c * 256 + d) := by
  obtain ⟨hclean, hdot, -, -⟩ := quad_clean h
  have hmem : 46 ∈ before ++ 58 :: quad := by simp [hdot]
  rw [expandEmbeddedIpv4, if_neg (not_not_intro hmem),
    cutLast_append hclean.2]
  dsimp only
  rw [ipv4Octets_iff.mpr h]
  simp [codes]

theorem expand_plain (h : 46 ∉ text) :
    expandEmbeddedIpv4 text = text := if_pos h

end Ark

theorem quad_four (h : Quad text octets) :
    ∃ a b c d, octets = [a, b, c, d] ∧ a * 256 + b < 65536
      ∧ c * 256 + d < 65536 := by
  have hlen := h.length_eq
  match octets, hlen with
  | [a, b, c, d], _ =>
    have hlt := h.lt
    simp only [List.forall_mem_cons] at hlt
    exact ⟨a, b, c, d, rfl, by omega, by omega⟩

/-- The groups of a text whose last one may be a dotted quad, and those of
the text with the quad expanded. -/
theorem groups_expand {gs : List (List Nat)} {ws : List Nat}
    (hgs : Groups gs ws)
    (hfront : (front = [] ∧ 2 < ws.length) ∨ ∃ y, front = y ++ [58])
    (hplain : 46 ∉ front) :
    ∃ gs', List.Forall₂ Group gs' ws
      ∧ Ark.expandEmbeddedIpv4 (front ++ [58].intercalate gs)
        = front ++ [58].intercalate gs' := by
  cases hgs with
  | hex hgs =>
    refine ⟨gs, hgs, Ark.expand_plain ?_⟩
    rw [List.mem_append, not_or]
    refine ⟨hplain, fun hm => ?_⟩
    rcases mem_intercalate hm with h | ⟨g, hg, hc⟩
    · cases h
    · have hgroup := (forall₂_group_iff.mp hgs).1 g hg
      have hhex := (group_iff.mpr ⟨hgroup, rfl⟩).hex 46 hc
      cases hhex
  | @quad gs ws text a b c d hgs hquad =>
    obtain ⟨_, _, _, _, heq, hhi, hlo⟩ := quad_four hquad
    simp only [List.cons.injEq, and_true] at heq
    obtain ⟨rfl, rfl, rfl, rfl⟩ := heq
    have hlen := (List.Forall₂.length_eq hgs)
    have hor : gs ≠ [] ∨ ∃ y, front = y ++ [58] := by
      rcases hfront with ⟨-, hlong⟩ | hy
      · left
        rintro rfl
        simp at hlen
        simp [← hlen] at hlong
      · exact .inr hy
    obtain ⟨before, hbefore⟩ := behind_colon hor
    refine ⟨gs ++ [numeral 16 (a * 256 + b)]
      ++ [numeral 16 (c * 256 + d)], ?_, ?_⟩
    · have hpair : List.Forall₂ Group
          [numeral 16 (a * 256 + b), numeral 16 (c * 256 + d)]
          [a * 256 + b, c * 256 + d] :=
        .cons (group_hex hhi) (.cons (group_hex hlo) .nil)
      rw [List.append_assoc]
      exact List.rel_append hgs hpair
    · rw [hbefore, Ark.expand_quad hquad,
        intercalate_concat (by simp), ← List.append_assoc, hbefore]

/-- A text whose last two groups stand behind colons. -/
theorem of_last_two {before g g' : List Nat} {gs : List (List Nat)}
    (hfront : front = [] ∨ ∃ y, front = y ++ [58, 58])
    (hclean : ∀ g ∈ gs, Clean 58 g) (hg : Clean 58 g) (hg' : Clean 58 g')
    (h : front ++ [58].intercalate gs = before ++ 58 :: g ++ 58 :: g') :
    ∃ gs', gs = gs' ++ [g, g'] ∧ ∀ text, before ++ 58 :: text
      = front ++ [58].intercalate (gs' ++ [text]) := by
  have hone : front = [] ∨ ∃ y, front = y ++ [58] := by
    rcases hfront with h | ⟨y, rfl⟩
    · exact .inl h
    · exact .inr ⟨y ++ [58], by simp⟩
  obtain ⟨gs', rfl, -, htext⟩ := of_behind_colon hone hclean hg' h
  have hclean' : ∀ g ∈ gs', Clean 58 g := fun g hm => hclean g (by simp [hm])
  by_cases hgs' : gs' = []
  · exfalso
    subst hgs'
    have hempty := htext []
    rw [List.nil_append, intercalate_singleton, List.append_nil] at hempty
    rcases hfront with rfl | ⟨y, rfl⟩
    · simp at hempty
    · have hpair : before ++ 58 :: g = y ++ 58 :: [] := by
        have h2 : (before ++ 58 :: g) ++ [58] = (y ++ [58]) ++ [58] := by
          simpa using hempty
        simpa using List.append_cancel_right h2
      exact hg.1 (append_sep_inj hg.2 (by simp) hpair).2
  · have hempty := htext []
    rw [intercalate_concat hgs', ← List.append_assoc] at hempty
    have hfirst := List.append_cancel_right hempty
    obtain ⟨gs'', rfl, -, htext'⟩ :=
      of_behind_colon hone hclean' hg hfirst.symm
    exact ⟨gs'', by simp, htext'⟩

/-- The bounds a reader may check first hold of every group. -/
theorem groups_plain {gs : List (List Nat)} {ws : List Nat}
    (h : Groups gs ws) :
    (∀ g ∈ gs, Clean 58 g)
      ∧ (∀ g ∈ gs, ∀ c ∈ g, isHexCode c = true ∨ c = 46)
      ∧ ([58].intercalate gs).length ≤ 5 * ws.length + 5
      ∧ (ws ≠ [] → gs ≠ []) := by
  have hhex : ∀ {gs : List (List Nat)} {ws : List Nat},
      List.Forall₂ Group gs ws → gs ≠ [] →
      ([58].intercalate gs).length + 1 ≤ 5 * ws.length := by
    intro gs ws hgs hne
    have hshort : ∀ g ∈ gs, g.length ≤ 4 := fun g hg =>
      (group_iff.mpr ⟨(forall₂_group_iff.mp hgs).1 g hg, rfl⟩).le
    have hjoin := @length_intercalate_lt _ 58 _ 4 hshort hne
    rw [hgs.length_eq] at hjoin
    omega
  cases h with
  | hex hgs =>
    refine ⟨groups_clean hgs, fun g hg c hc => ?_, ?_, ?_⟩
    · have hgroup := (forall₂_group_iff.mp hgs).1 g hg
      exact .inl ((group_iff.mpr ⟨hgroup, rfl⟩).hex c hc)
    · by_cases hne : gs = []
      · rw [hne]
        exact Nat.zero_le _
      · have := hhex hgs hne
        omega
    · rintro hws rfl
      cases hgs
      exact hws rfl
  | @quad gs ws text a b c d hgs hquad =>
    obtain ⟨hclean, -, hlen, hchars⟩ := quad_clean hquad
    refine ⟨?_, ?_, ?_, fun _ => by simp⟩
    · intro g hg
      rcases List.mem_append.mp hg with hg | hg
      · exact groups_clean hgs g hg
      · rw [List.mem_singleton.mp hg]
        exact hclean
    · intro g hg c hc
      rcases List.mem_append.mp hg with hg | hg
      · have hgroup := (forall₂_group_iff.mp hgs).1 g hg
        exact .inl ((group_iff.mpr ⟨hgroup, rfl⟩).hex c hc)
      · rw [List.mem_singleton.mp hg] at hc
        rcases hchars c hc with h | h
        · exact .inl (by simp [isHexCode, h])
        · exact .inr h
    · rw [List.length_append]
      by_cases hne : gs = []
      · rw [hne, List.nil_append, intercalate_singleton]
        simp
        omega
      · have := hhex hgs hne
        rw [intercalate_concat hne, List.length_append]
        simp
        omega

namespace Ark

/-- What the first tests let through. -/
def textLike (value : List Nat) : Prop :=
  2 ≤ value.length ∧ value.length ≤ 45 ∧ 58 ∈ value
    ∧ ¬ codes ":::" <:+: value
    ∧ ∀ c ∈ value, isHexCode c = true ∨ c = 58 ∨ c = 46

theorem parseIpv6Words_eq {words : List Nat} :
    parseIpv6Words value = some words
      ↔ textLike value ∧ HexText (expandEmbeddedIpv4 value) words := by
  unfold parseIpv6Words textLike
  simp only [Bool.not_eq_true', List.all_eq_false, Bool.or_eq_true,
    decide_eq_true_eq]
  split
  · rename_i hbad
    constructor
    · intro h
      cases h
    · rintro ⟨⟨hlo, hhi, hmem, htriple, hchars⟩, -⟩
      rcases hbad with h | h | h | h | ⟨c, hc, h⟩
      · omega
      · omega
      · exact absurd hmem h
      · exact absurd h htriple
      · exact absurd (or_assoc.mpr (hchars c hc)) h
  · rename_i hgood
    simp only [not_or, not_exists, not_and, not_not, Nat.not_lt] at hgood
    obtain ⟨hlo, hhi, hmem, htriple, hchars⟩ := hgood
    have hok : 2 ≤ value.length ∧ value.length ≤ 45 ∧ 58 ∈ value
        ∧ ¬ codes ":::" <:+: value
        ∧ ∀ c ∈ value, isHexCode c = true ∨ c = 58 ∨ c = 46 :=
      ⟨hlo, hhi, hmem, htriple, fun c hc => by
        have := hchars c hc
        tauto⟩
    rw [and_iff_right hok]
    split
    · rename_i hempty
      constructor
      · intro h
        cases h
      · intro h
        have hwords := expandedWords_iff.mpr h
        rw [hempty] at hwords
        cases hwords
    · exact expandedWords_iff

theorem textLike_full {gs : List (List Nat)} {ws : List Nat}
    (h : Groups gs ws) (hlen : ws.length = 8) :
    textLike ([58].intercalate gs) := by
  obtain ⟨hclean, hchars, hshort, hne⟩ := groups_plain h
  have hgs : gs ≠ [] := hne (by
    rintro rfl
    cases hlen)
  obtain ⟨g, g', rest, rfl⟩ : ∃ g g' rest, gs = g :: g' :: rest := by
    match gs, hgs with
    | [g], _ =>
      exfalso
      generalize hone : [g] = gs at h
      cases h with
      | hex hgs =>
        have := hgs.length_eq
        rw [← hone, hlen] at this
        cases this
      | @quad gs ws _ _ _ _ _ hgs _ =>
        have hcount := congrArg List.length hone
        have := hgs.length_eq
        simp only [List.length_append, List.length_cons,
          List.length_nil] at hcount hlen
        omega
    | g :: g' :: rest, _ => exact ⟨g, g', rest, rfl⟩
  have hcolon : 58 ∈ [58].intercalate (g :: g' :: rest) := by
    rw [intercalate_cons (by simp)]
    simp
  refine ⟨?_, by omega, hcolon, not_triple_one hclean, fun c hc => ?_⟩
  · rw [intercalate_cons (by simp), List.length_append, List.length_cons]
    have := List.length_pos_of_ne_nil (hclean g (by simp)).1
    omega
  · rcases mem_intercalate hc with h | ⟨g, hg, hc⟩
    · exact .inr (.inl h)
    · rcases hchars g hg c hc with h | h
      · exact .inl h
      · exact .inr (.inr h)

theorem textLike_short {ls rs : List (List Nat)} {wl wr : List Nat}
    (hl : List.Forall₂ Group ls wl) (hr : Groups rs wr)
    (hlen : wl.length + wr.length ≤ 7) :
    textLike
      ([58].intercalate ls ++ 58 :: 58 :: [58].intercalate rs) := by
  obtain ⟨hcl, hchl, hsl, -⟩ := groups_plain (.hex hl)
  obtain ⟨hcr, hchr, hsr, -⟩ := groups_plain hr
  have hsl' : ([58].intercalate ls).length ≤ 5 * wl.length := by
    by_cases hne : ls = []
    · rw [hne]
      exact Nat.zero_le _
    · have hshort : ∀ g ∈ ls, g.length ≤ 4 := fun g hg =>
        (group_iff.mpr ⟨(forall₂_group_iff.mp hl).1 g hg, rfl⟩).le
      have hjoin := @length_intercalate_lt _ 58 _ 4 hshort hne
      rw [hl.length_eq] at hjoin
      omega
  refine ⟨?_, ?_, by simp, not_triple hcl hcr, fun c hc => ?_⟩
  · rw [List.length_append, List.length_cons, List.length_cons]
    omega
  · rw [List.length_append, List.length_cons, List.length_cons]
    omega
  · have hchars : ∀ {gs : List (List Nat)},
        (∀ g ∈ gs, ∀ c ∈ g, isHexCode c = true ∨ c = 46) →
        c ∈ [58].intercalate gs →
        isHexCode c = true ∨ c = 58 ∨ c = 46 := by
      intro gs hgs hm
      rcases mem_intercalate hm with h | ⟨g, hg, hc⟩
      · exact .inr (.inl h)
      · rcases hgs g hg c hc with h | h
        · exact .inl h
        · exact .inr (.inr h)
    simp only [List.mem_append, List.mem_cons] at hc
    rcases hc with hc | hc | hc | hc
    · exact hchars hchl hc
    · exact .inr (.inl hc)
    · exact .inr (.inl hc)
    · exact hchars hchr hc

/-- The ArkTS reader accepts the IPv6 texts, and reads their words. -/
theorem parseIpv6Words_iff {words : List Nat} :
    parseIpv6Words value = some words ↔ Ipv6 value words := by
  rw [parseIpv6Words_eq]
  constructor
  · intro ⟨_, htext⟩
    by_cases hdot : 46 ∈ value
    · obtain ⟨before, after, octets, hvalue, hquad⟩ : ∃ before after octets,
          value = before ++ 58 :: after ∧ Quad after octets := by
        have hne : expandEmbeddedIpv4 value ≠ [] := by
          intro h
          have hwords := expandedWords_iff.mpr htext
          rw [h] at hwords
          cases hwords
        rw [expandEmbeddedIpv4, if_neg (not_not_intro hdot)] at hne
        cases hcut : cutLast 58 value with
        | none =>
          rw [hcut] at hne
          exact absurd rfl hne
        | some p =>
          obtain ⟨before, after⟩ := p
          rw [hcut] at hne
          dsimp only at hne
          cases hoctets : ipv4Octets after with
          | none =>
            rw [hoctets] at hne
            exact absurd rfl hne
          | some octets =>
            exact ⟨before, after, octets, (cutLast_some hcut).1,
              ipv4Octets_iff.mp hoctets⟩
      obtain ⟨a, b, c, d, rfl, -, -⟩ := quad_four hquad
      rw [hvalue, expand_quad hquad] at htext
      rw [hvalue]
      generalize hexpanded : before ++ 58 :: numeral 16 (a * 256 + b)
        ++ 58 :: numeral 16 (c * 256 + d) = expanded at htext
      cases htext with
      | @full gs _ hgs hlen =>
        obtain ⟨gs', rfl, htext'⟩ := @of_last_two [] _ _ _ _
          (.inl rfl) (groups_clean hgs) (clean_hex _) (clean_hex _)
          hexpanded.symm
        obtain ⟨hall, rfl⟩ := forall₂_group_iff.mp hgs
        have hgs' : List.Forall₂ Group gs' (gs'.map (spelled 16)) :=
          forall₂_group_iff.mpr ⟨fun g hg => hall g (by simp [hg]), rfl⟩
        have hfull := Ipv6.full (Groups.quad hgs' hquad)
          (by simpa using hlen)
        rw [htext' after, List.nil_append, List.map_append,
          List.map_cons, List.map_singleton, spelled_hex, spelled_hex]
        exact hfull
      | @short ls rs wl _ hls hrs hlen =>
        have hsplit : ([58].intercalate ls ++ [58, 58])
            ++ [58].intercalate rs = before
            ++ 58 :: numeral 16 (a * 256 + b)
            ++ 58 :: numeral 16 (c * 256 + d) := by
          rw [hexpanded, List.append_assoc]
          rfl
        obtain ⟨rs', rfl, htext'⟩ := of_last_two
          (.inr ⟨_, rfl⟩) (groups_clean hrs) (clean_hex _) (clean_hex _)
          hsplit
        obtain ⟨hall, rfl⟩ := forall₂_group_iff.mp hrs
        have hrs' : List.Forall₂ Group rs' (rs'.map (spelled 16)) :=
          forall₂_group_iff.mpr ⟨fun g hg => hall g (by simp [hg]), rfl⟩
        have hshort := Ipv6.short hls (Groups.quad hrs' hquad)
          (by simpa using hlen)
        rw [htext' after, List.map_append, List.map_cons,
          List.map_singleton, spelled_hex, spelled_hex, List.append_assoc]
        exact hshort
    · rw [expand_plain hdot] at htext
      cases htext with
      | full hgs hlen => exact .full (.hex hgs) hlen
      | short hls hrs hlen => exact .short hls (.hex hrs) hlen
  · intro h
    cases h with
    | full hgs hlen =>
      refine ⟨textLike_full hgs hlen, ?_⟩
      obtain ⟨gs', hgs', hexpand⟩ := @groups_expand [] _ _ hgs
        (.inl ⟨rfl, by omega⟩) (by simp)
      rw [List.nil_append] at hexpand
      rw [hexpand]
      exact .full hgs' hlen
    | @short ls rs wl wr hls hrs hlen =>
      refine ⟨textLike_short hls hrs hlen, ?_⟩
      have hplain : 46 ∉ [58].intercalate ls ++ [58, 58] := by
        intro hm
        rcases List.mem_append.mp hm with hm | hm
        · rcases mem_intercalate hm with h | ⟨g, hg, hc⟩
          · cases h
          · have hgroup := (forall₂_group_iff.mp hls).1 g hg
            have hhex := (group_iff.mpr ⟨hgroup, rfl⟩).hex 46 hc
            cases hhex
        · simp at hm
      obtain ⟨rs', hrs', hexpand⟩ := groups_expand hrs
        (.inr ⟨[58].intercalate ls ++ [58], by simp⟩) hplain
      rw [List.append_assoc, List.append_assoc] at hexpand
      change expandEmbeddedIpv4 ([58].intercalate ls
        ++ 58 :: 58 :: [58].intercalate rs) = [58].intercalate ls
        ++ 58 :: 58 :: [58].intercalate rs' at hexpand
      rw [hexpand]
      exact .short hls hrs' hlen

end Ark

end RemoteDesk.Endpoint
