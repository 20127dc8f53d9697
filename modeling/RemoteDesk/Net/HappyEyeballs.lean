/-
The order in which the addresses of a host are tried
(cpp/common/happy_eyeballs_connector.cpp).

`InterleaveAddresses` keeps so many addresses of each family, repeated ones
left out, and deals the two families out in turn, the first usable address
first. What it returns is a beginning of the two families in full, dealt out
(`interleaveAddresses_eq`): the caps for each family cut nothing that the cap
for both would keep. So it starves no family, and a second pass over its own
result changes nothing (`addresses_interleaved`).

A socket address is its bytes as they lie in `sockaddr_storage`.
-/
import RemoteDesk.Lib.Interleave

namespace RemoteDesk.Net

open Lib

def AF_UNSPEC : Nat := 0
def AF_INET : Nat := 2
def AF_INET6 : Nat := 10

/-- `sizeof(sockaddr_in)`. -/
def sockaddrInSize : Nat := 16

/-- `sizeof(sockaddr_in6)`. -/
def sockaddrIn6Size : Nat := 28

structure ResolvedAddress where
  storage : List UInt8 := []
  length : Nat := 0
  family : Nat := AF_UNSPEC
  /-- `SOCK_STREAM`. -/
  socktype : Nat := 1
  /-- `IPPROTO_TCP`. -/
  protocol : Nat := 6
  deriving DecidableEq

/-- The bytes of a field. -/
def ResolvedAddress.field (a : ResolvedAddress) (offset size : Nat) :
    List UInt8 :=
  (a.storage.drop offset).take size

def sameAddress (left right : ResolvedAddress) : Bool :=
  if left.family ≠ right.family ∨ left.length ≠ right.length then false
  else if left.family = AF_INET ∧ sockaddrInSize ≤ left.length then
    -- sin_port, sin_addr
    left.field 2 2 = right.field 2 2 && left.field 4 4 = right.field 4 4
  else if left.family = AF_INET6 ∧ sockaddrIn6Size ≤ left.length then
    -- sin6_port, sin6_scope_id, sin6_addr
    left.field 2 2 = right.field 2 2 && left.field 24 4 = right.field 24 4
      && left.field 8 16 = right.field 8 16
  else left.field 0 left.length = right.field 0 left.length

/-- An address the loop does not pass over. -/
def usable (a : ResolvedAddress) : Bool :=
  a.length ≠ 0 && (a.family = AF_INET || a.family = AF_INET6)

/-- The vectors of the loop, and the family of the first. -/
structure Families where
  firstFamily : Nat := AF_UNSPEC
  first : List ResolvedAddress := []
  second : List ResolvedAddress := []

def Families.take (maxCandidates : Nat) (f : Families) (a : ResolvedAddress) :
    Families :=
  if usable a then
    let firstFamily :=
      if f.firstFamily = AF_UNSPEC then a.family else f.firstFamily
    if a.family = firstFamily then
      { f with firstFamily
               first := keepNewUpTo maxCandidates sameAddress f.first a }
    else
      { f with firstFamily
               second := keepNewUpTo maxCandidates sameAddress f.second a }
  else f

/-- The turns of the second loop; `room` is what is left up to the cap. At an
index of both vectors a turn takes two. -/
def dealt : Nat → List ResolvedAddress → List ResolvedAddress →
    List ResolvedAddress
  | 0, _, _ => []
  | 1, a :: _, _ :: _ => [a]
  | room + 2, a :: first, b :: second => a :: b :: dealt room first second
  | room + 1, a :: first, [] => a :: dealt room first []
  | room + 1, [], b :: second => b :: dealt room [] second
  | _ + 1, [], [] => []

def InterleaveAddresses (addresses : List ResolvedAddress)
    (maxCandidates : Nat) : List ResolvedAddress :=
  let f := addresses.foldl (Families.take maxCandidates) {}
  dealt maxCandidates f.first f.second

-- ================================ families

/-- The usable addresses of a family, each once. -/
def deduplicated (family : Nat) (addresses : List ResolvedAddress) :
    List ResolvedAddress :=
  dedupe sameAddress
    (addresses.filter fun a => usable a && a.family = family)

/-- The family of the first usable address. -/
def firstFamily (addresses : List ResolvedAddress) : Nat :=
  ((addresses.find? usable).map ResolvedAddress.family).getD AF_UNSPEC

def otherFamily (family : Nat) : Nat :=
  if family = AF_INET then AF_INET6 else AF_INET

variable {a : ResolvedAddress}

theorem usable_family (h : usable a = true) :
    a.family = AF_INET ∨ a.family = AF_INET6 := by
  simpa [usable] using (Bool.and_eq_true_iff.mp h).2

theorem family_eq_other {family : Nat} (ha : usable a = true)
    (hf : family = AF_INET ∨ family = AF_INET6) :
    a.family = otherFamily family ↔ a.family ≠ family := by
  unfold otherFamily
  rcases usable_family ha with h | h <;> rcases hf with hf | hf <;>
    rw [h, hf] <;> decide

theorem firstFamily_usable {addresses : List ResolvedAddress}
    (h : firstFamily addresses ≠ AF_UNSPEC) :
    firstFamily addresses = AF_INET ∨ firstFamily addresses = AF_INET6 := by
  unfold firstFamily at h ⊢
  cases hfind : addresses.find? usable with
  | none => rw [hfind] at h; exact absurd rfl h
  | some a => exact usable_family (List.find?_some hfind)

theorem mem_deduplicated {family : Nat} {addresses : List ResolvedAddress}
    (h : a ∈ deduplicated family addresses) :
    usable a = true ∧ a.family = family := by
  have hmem := List.of_mem_filter (mem_of_mem_dedupe h)
  rw [Bool.and_eq_true, decide_eq_true_eq] at hmem
  exact hmem

theorem deduplicated_snoc (family : Nat) (l : List ResolvedAddress)
    (a : ResolvedAddress) :
    deduplicated family (l ++ [a])
      = if usable a = true ∧ a.family = family then
          keepNew sameAddress (deduplicated family l) a
        else deduplicated family l := by
  unfold deduplicated
  rw [List.filter_append]
  by_cases ha : usable a = true ∧ a.family = family
  · rw [if_pos ha, List.filter_cons_of_pos (by simpa using ha),
      List.filter_nil, dedupe_snoc]
  · rw [if_neg ha, List.filter_cons_of_neg (by simpa using ha),
      List.filter_nil, List.append_nil]

theorem firstFamily_snoc (l : List ResolvedAddress) (a : ResolvedAddress) :
    firstFamily (l ++ [a])
      = if firstFamily l = AF_UNSPEC ∧ usable a = true then a.family
        else firstFamily l := by
  unfold firstFamily
  rw [List.find?_append]
  cases hfind : l.find? usable with
  | none => by_cases ha : usable a = true <;> simp [ha]
  | some b =>
    have hb := usable_family (List.find?_some hfind)
    have hne : b.family ≠ AF_UNSPEC := by
      rcases hb with h | h <;> rw [h] <;> decide
    simp [hne]

/-- Before any usable address there is nothing to keep. -/
theorem deduplicated_unspec {l : List ResolvedAddress}
    (h : firstFamily l = AF_UNSPEC) (family : Nat) :
    deduplicated family l = [] := by
  have hnone : l.find? usable = none := by
    cases hfind : l.find? usable with
    | none => rfl
    | some b =>
      rw [firstFamily, hfind] at h
      have hb := usable_family (List.find?_some hfind)
      rw [show b.family = AF_UNSPEC from h] at hb
      exact absurd hb (by decide)
  unfold deduplicated
  rw [List.filter_eq_nil_iff.mpr]
  · rfl
  · intro a ha
    have hunusable := List.find?_eq_none.mp hnone a ha
    simp [hunusable]

/-- What the first loop leaves. -/
theorem families_eq (maxCandidates : Nat) (l : List ResolvedAddress) :
    l.foldl (Families.take maxCandidates) {}
      = { firstFamily := firstFamily l
          first := (deduplicated (firstFamily l) l).take maxCandidates
          second := (deduplicated (otherFamily (firstFamily l)) l).take
            maxCandidates } := by
  induction l using List.reverseRecOn with
  | nil => simp [firstFamily, deduplicated, dedupe]
  | append_singleton l a ih =>
    rw [List.foldl_append, ih, List.foldl_cons, List.foldl_nil, Families.take]
    have hnew := firstFamily_snoc l a
    by_cases ha : usable a = true
    · rw [if_pos ha]
      dsimp only
      by_cases hfirst : firstFamily l = AF_UNSPEC
      · have hnone := deduplicated_unspec hfirst
        have hother : a.family ≠ otherFamily a.family := fun h =>
          (family_eq_other ha (usable_family ha)).mp h rfl
        rw [if_pos ⟨hfirst, ha⟩] at hnew
        rw [hnew, if_pos hfirst, if_pos rfl, hnone, hnone, deduplicated_snoc,
          deduplicated_snoc, if_pos ⟨ha, rfl⟩, if_neg (fun h => hother h.2),
          hnone, hnone, keepNewUpTo_take]
      · have hfamily := family_eq_other ha (firstFamily_usable hfirst)
        rw [if_neg (fun h => hfirst h.1)] at hnew
        rw [hnew, if_neg hfirst, deduplicated_snoc, deduplicated_snoc]
        by_cases hsame : a.family = firstFamily l
        · have hnot : ¬ (usable a = true
              ∧ a.family = otherFamily (firstFamily l)) :=
            fun h => hfamily.mp h.2 hsame
          rw [if_pos hsame, if_pos ⟨ha, hsame⟩, if_neg hnot, keepNewUpTo_take]
        · have hnot : ¬ (usable a = true ∧ a.family = firstFamily l) :=
            fun h => hsame h.2
          rw [if_neg hsame, if_neg hnot, if_pos ⟨ha, hfamily.mpr hsame⟩,
            keepNewUpTo_take]
    · rw [if_neg (fun h => ha h.2)] at hnew
      rw [if_neg ha, hnew, deduplicated_snoc, deduplicated_snoc,
        if_neg (fun h => ha h.1), if_neg (fun h => ha h.1)]

-- ================================== order

theorem dealt_eq (room : Nat) (first second : List ResolvedAddress) :
    dealt room first second = (interleave first second).take room := by
  induction room, first, second using dealt.induct with
  | case1 => simp [dealt]
  | case2 a first b second => simp [dealt]
  | case3 room a first b second ih => simp [dealt, ih]
  | case4 room a first ih => simp [dealt, ih]
  | case5 room b second ih => simp [dealt, ih]
  | case6 => simp [dealt]

/-- The caps for each family cut nothing the cap for both keeps. -/
theorem interleaveAddresses_eq (addresses : List ResolvedAddress)
    (maxCandidates : Nat) :
    InterleaveAddresses addresses maxCandidates
      = (interleave (deduplicated (firstFamily addresses) addresses)
          (deduplicated (otherFamily (firstFamily addresses))
            addresses)).take maxCandidates := by
  unfold InterleaveAddresses
  rw [families_eq]
  dsimp only
  rw [dealt_eq, take_interleave_take]

/-- Addresses of two families differ. -/
theorem sameAddress_family {b : ResolvedAddress}
    (h : a.family ≠ b.family) : sameAddress a b = false := by
  rw [sameAddress, if_pos (.inl h)]

-- ================================= results

/-- What holds of the addresses returned. -/
structure Interleaved (addresses : List ResolvedAddress) (maxCandidates : Nat)
    (result : List ResolvedAddress) : Prop where
  few : result.length ≤ maxCandidates
  distinct : result.Pairwise fun a b => sameAddress a b = false
  /-- Of each family the first ones, in the order they came in. -/
  families : ∀ family, (result.filter fun a => a.family = family)
    <+: deduplicated family addresses
  /-- In turn, until a family is exhausted. -/
  turns : result
    = (interleave (deduplicated (firstFamily addresses) addresses)
        (deduplicated (otherFamily (firstFamily addresses))
          addresses)).take maxCandidates
  /-- If there is room for two, each family that is there is among them. -/
  served : 2 ≤ maxCandidates → ∀ a ∈ addresses, usable a = true →
    ∃ b ∈ result, b.family = a.family
  /-- A second pass changes nothing. -/
  again : InterleaveAddresses result maxCandidates = result

section Results

variable (addresses : List ResolvedAddress) (n : Nat)

/-- The two families that are dealt out. -/
theorem sides :
    (∀ a ∈ deduplicated (firstFamily addresses) addresses,
        decide (a.family = firstFamily addresses) = true)
      ∧ ∀ b ∈ deduplicated (otherFamily (firstFamily addresses)) addresses,
        decide (b.family = firstFamily addresses) = false := by
  refine ⟨fun a ha => by simpa using (mem_deduplicated ha).2, fun b hb => ?_⟩
  obtain ⟨husable, hfamily⟩ := mem_deduplicated hb
  by_cases hfirst : firstFamily addresses = AF_UNSPEC
  · rw [deduplicated_unspec hfirst] at hb
    cases hb
  · have hne := (family_eq_other husable (firstFamily_usable hfirst)).mp hfamily
    simpa using hne

theorem interleave_distinct :
    (InterleaveAddresses addresses n).Pairwise
      fun a b => sameAddress a b = false := by
  rw [interleaveAddresses_eq]
  refine List.Pairwise.sublist (List.take_sublist _ _) ?_
  refine pairwise_interleave (dedupe_pairwise _) (dedupe_pairwise _) ?_
  intro a ha b hb
  have hab : a.family ≠ b.family := by
    have hleft := (sides addresses).1 a ha
    have hright := (sides addresses).2 b hb
    rw [decide_eq_true_eq] at hleft
    rw [decide_eq_false_iff_not] at hright
    rw [hleft]
    exact fun h => hright h.symm
  exact ⟨sameAddress_family hab, sameAddress_family hab.symm⟩

theorem mem_interleave
    (h : a ∈ InterleaveAddresses addresses n) : usable a = true := by
  rw [interleaveAddresses_eq] at h
  have hmem := (interleave_perm _ _).mem_iff.mp (List.mem_of_mem_take h)
  rcases List.mem_append.mp hmem with hmem | hmem
  · exact (mem_deduplicated hmem).1
  · exact (mem_deduplicated hmem).1

/-- Sorted by family, what is returned is a beginning of each, and these deal
out to it. -/
theorem interleave_families :
    ∃ m k, (InterleaveAddresses addresses n).filter
          (fun a => a.family = firstFamily addresses)
        = (deduplicated (firstFamily addresses) addresses).take m
      ∧ ((InterleaveAddresses addresses n).filter
          fun a => !decide (a.family = firstFamily addresses))
        = (deduplicated (otherFamily (firstFamily addresses)) addresses).take k
      ∧ interleave ((deduplicated (firstFamily addresses) addresses).take m)
          ((deduplicated (otherFamily (firstFamily addresses))
            addresses).take k)
        = InterleaveAddresses addresses n := by
  rw [interleaveAddresses_eq]
  exact dealt_back (sides addresses).1 (sides addresses).2 n

/-- Of what is returned, the other family is what is not the first. -/
theorem filter_other {l : List ResolvedAddress}
    (hl : ∀ a ∈ l, usable a = true)
    (hfirst : firstFamily addresses ≠ AF_UNSPEC) :
    (l.filter fun a => a.family = otherFamily (firstFamily addresses))
      = l.filter fun a => !decide (a.family = firstFamily addresses) := by
  apply List.filter_congr
  intro a ha
  rw [← decide_not]
  exact decide_eq_decide.mpr
    (family_eq_other (hl a ha) (firstFamily_usable hfirst))

/-- Without a usable address there is nothing to return. -/
theorem interleave_unspec (h : firstFamily addresses = AF_UNSPEC) :
    InterleaveAddresses addresses n = [] := by
  rw [interleaveAddresses_eq, deduplicated_unspec h, deduplicated_unspec h]
  simp

theorem filter_interleave (family : Nat) :
    ((InterleaveAddresses addresses n).filter fun a => a.family = family)
      <+: deduplicated family addresses := by
  by_cases hunspec : firstFamily addresses = AF_UNSPEC
  · rw [interleave_unspec addresses n hunspec]
    exact List.nil_prefix
  obtain ⟨m, k, hm, hk, -⟩ := interleave_families addresses n
  by_cases hfirst : family = firstFamily addresses
  · rw [hfirst, hm]
    exact List.take_prefix _ _
  by_cases hother : family = otherFamily (firstFamily addresses)
  · rw [hother, filter_other addresses (fun a => mem_interleave addresses n)
      hunspec, hk]
    exact List.take_prefix _ _
  · rw [List.filter_eq_nil_iff.mpr]
    · exact List.nil_prefix
    · intro a ha heq
      rw [decide_eq_true_eq] at heq
      have husable := mem_interleave addresses n ha
      have hnot := (family_eq_other husable (firstFamily_usable hunspec)).not
      rw [heq, not_not] at hnot
      exact hfirst (hnot.mp hother)

theorem deduplicated_ne_nil {addresses : List ResolvedAddress}
    (ha : a ∈ addresses) (husable : usable a = true) :
    deduplicated a.family addresses ≠ [] := by
  apply dedupe_ne_nil
  apply List.ne_nil_of_mem
  exact List.mem_filter.mpr ⟨ha, by simp [husable]⟩

theorem deduplicated_first (h : firstFamily addresses ≠ AF_UNSPEC) :
    deduplicated (firstFamily addresses) addresses ≠ [] := by
  unfold firstFamily at h ⊢
  cases hfind : addresses.find? usable with
  | none => rw [hfind] at h; exact absurd rfl h
  | some a =>
    exact deduplicated_ne_nil (List.mem_of_find?_eq_some hfind)
      (List.find?_some hfind)

theorem firstFamily_interleave (hn : n ≠ 0) :
    firstFamily (InterleaveAddresses addresses n) = firstFamily addresses := by
  by_cases hunspec : firstFamily addresses = AF_UNSPEC
  · rw [interleave_unspec addresses n hunspec, hunspec]
    rfl
  have hne := deduplicated_first addresses hunspec
  obtain ⟨a, first, hfirst⟩ := List.exists_cons_of_ne_nil hne
  obtain ⟨k, rfl⟩ := Nat.exists_eq_succ_of_ne_zero hn
  have ha := mem_deduplicated (hfirst ▸ List.mem_cons_self)
  have hhead : ∃ rest, InterleaveAddresses addresses (k + 1) = a :: rest := by
    rw [interleaveAddresses_eq, hfirst]
    cases deduplicated (otherFamily (firstFamily addresses)) addresses with
    | nil => exact ⟨_, rfl⟩
    | cons b second => exact ⟨_, rfl⟩
  obtain ⟨rest, hrest⟩ := hhead
  have hfamily : firstFamily (a :: rest) = a.family := by
    rw [firstFamily, List.find?_cons_of_pos ha.1]
    rfl
  rw [hrest, hfamily]
  exact ha.2

theorem interleave_again :
    InterleaveAddresses (InterleaveAddresses addresses n) n
      = InterleaveAddresses addresses n := by
  by_cases hunspec : firstFamily addresses = AF_UNSPEC
  · rw [interleave_unspec addresses n hunspec]
    exact interleave_unspec [] n rfl
  by_cases hn : n = 0
  · rw [hn, interleaveAddresses_eq, interleaveAddresses_eq]
    simp
  have hmem : ∀ a ∈ InterleaveAddresses addresses n, usable a = true :=
    fun a => mem_interleave addresses n
  have hkept : ∀ family, deduplicated family (InterleaveAddresses addresses n)
      = (InterleaveAddresses addresses n).filter
          fun a => a.family = family := by
    intro family
    have husable : ((InterleaveAddresses addresses n).filter
        fun a => usable a && decide (a.family = family))
          = (InterleaveAddresses addresses n).filter
            fun a => a.family = family :=
      List.filter_congr fun a ha => by rw [hmem a ha, Bool.true_and]
    rw [deduplicated, husable]
    exact dedupe_eq_self ((interleave_distinct addresses n).filter _)
  obtain ⟨m, k, hm, hk, hdealt⟩ := interleave_families addresses n
  rw [interleaveAddresses_eq, firstFamily_interleave addresses n hn, hkept,
    hkept, filter_other addresses hmem hunspec, hm, hk, hdealt,
    List.take_of_length_le]
  rw [interleaveAddresses_eq]
  exact List.length_take_le _ _

theorem interleave_served (hn : 2 ≤ n) (ha : a ∈ addresses)
    (husable : usable a = true) :
    ∃ b ∈ InterleaveAddresses addresses n, b.family = a.family := by
  have hunspec : firstFamily addresses ≠ AF_UNSPEC := by
    intro h
    exact deduplicated_ne_nil ha husable (deduplicated_unspec h a.family)
  obtain ⟨x, first, hfirst⟩ :=
    List.exists_cons_of_ne_nil (deduplicated_first addresses hunspec)
  have hx := (mem_deduplicated (hfirst ▸ List.mem_cons_self)).2
  obtain ⟨k, rfl⟩ := Nat.exists_eq_add_of_le' hn
  rw [interleaveAddresses_eq, hfirst]
  cases hsecond : deduplicated (otherFamily (firstFamily addresses))
      addresses with
  | nil =>
    refine ⟨x, by simp, ?_⟩
    rw [hx]
    by_contra hne
    have hother := (family_eq_other husable (firstFamily_usable hunspec)).mpr
      (Ne.symm hne)
    rw [← hother] at hsecond
    exact deduplicated_ne_nil ha husable hsecond
  | cons y second =>
    have hy := (mem_deduplicated (hsecond ▸ List.mem_cons_self)).2
    by_cases hsame : a.family = firstFamily addresses
    · exact ⟨x, by simp, hx.trans hsame.symm⟩
    · have hother := (family_eq_other husable
        (firstFamily_usable hunspec)).mpr hsame
      exact ⟨y, by simp, hy.trans hother.symm⟩

theorem addresses_interleaved :
    Interleaved addresses n (InterleaveAddresses addresses n) where
  few := by
    rw [interleaveAddresses_eq]
    exact List.length_take_le _ _
  distinct := interleave_distinct addresses n
  families := filter_interleave addresses n
  turns := interleaveAddresses_eq addresses n
  served := fun hn _ ha husable => interleave_served addresses n hn ha husable
  again := interleave_again addresses n

end Results

end RemoteDesk.Net
