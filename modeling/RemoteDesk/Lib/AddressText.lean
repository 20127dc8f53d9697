/-
The textual forms of IP addresses.

`Quad` is the strict dotted quad: four decimal numbers below 256 without
leading zeros. `Ipv6` is the relation between a text and the eight words
it stands for: groups of one to four hexadecimal digits of either case
between colons, at most one `::`, which stands for at least one group,
and in the last place optionally a dotted quad, which stands for two.

`cutPair` finds the first double separator and `cutLast` the last single
one; on joined groups (`Clean`) they find what a reader looks for.
-/
import RemoteDesk.Lib.Numeral
import RemoteDesk.Lib.Paths

namespace RemoteDesk.Lib

-- =============================== the forms

/-- A dotted quad and its octets. -/
structure Quad (text octets : List Nat) : Prop where
  text_eq : text = [46].intercalate (octets.map (numeral 10))
  length_eq : octets.length = 4
  lt : ∀ o ∈ octets, o < 256

/-- A group of hexadecimal digits and its word. -/
structure Group (text : List Nat) (word : Nat) : Prop where
  pos : 0 < text.length
  le : text.length ≤ 4
  hex : ∀ c ∈ text, isHexCode c = true
  word_eq : word = spelled 16 text

/-- Groups, the last of which may be a dotted quad. -/
inductive Groups : List (List Nat) → List Nat → Prop where
  | hex {gs ws} : List.Forall₂ Group gs ws → Groups gs ws
  | quad {gs ws text a b c d} : List.Forall₂ Group gs ws →
      Quad text [a, b, c, d] →
      Groups (gs ++ [text]) (ws ++ [a * 256 + b, c * 256 + d])

/-- A text of an IPv6 address and its eight words. -/
inductive Ipv6 : List Nat → List Nat → Prop where
  | full {gs ws} : Groups gs ws → ws.length = 8 →
      Ipv6 ([58].intercalate gs) ws
  | short {ls rs wl wr} : List.Forall₂ Group ls wl → Groups rs wr →
      wl.length + wr.length ≤ 7 →
      Ipv6 ([58].intercalate ls ++ 58 :: 58 :: [58].intercalate rs)
        (wl ++ List.replicate (8 - (wl.length + wr.length)) 0 ++ wr)

-- ============================== separators

section Separators

variable {α : Type*} [DecidableEq α] (sep : α)

/-- What stands before and after the first two separators in a row. -/
def cutPair : List α → Option (List α × List α)
  | [] => none
  | c :: rest =>
    if c = sep ∧ rest.head? = some sep then some ([], rest.tail)
    else (cutPair rest).map fun p => (c :: p.1, p.2)

/-- What stands before and after the last separator. -/
def cutLast (text : List α) : Option (List α × List α) :=
  match cut sep text.reverse with
  | (_, none) => none
  | (after, some before) => some (before.reverse, after.reverse)

variable {sep}

variable {text a : List α}

theorem cut_append_sep (h : sep ∉ text) (rest : List α) :
    cut sep (text ++ sep :: rest) = (text, some rest) := by
  induction text with
  | nil =>
    show cut sep (sep :: rest) = _
    rw [cut, if_pos rfl]
  | cons c text ih =>
    have hc : c ≠ sep := fun e => h (e ▸ List.mem_cons_self)
    rw [List.cons_append, cut, if_neg hc,
      ih fun hm => h (List.mem_cons_of_mem c hm)]

theorem cut_of_notMem (h : sep ∉ text) : cut sep text = (text, none) := by
  induction text with
  | nil => rfl
  | cons c text ih =>
    have hc : c ≠ sep := fun e => h (e ▸ List.mem_cons_self)
    rw [cut, if_neg hc, ih fun hm => h (List.mem_cons_of_mem c hm)]

/-- A cut gives the text back, with no separator before it. -/
theorem cut_some {b : List α} (h : cut sep text = (a, some b)) :
    text = a ++ sep :: b ∧ sep ∉ a := by
  induction text generalizing a with
  | nil => simp [cut] at h
  | cons c text ih =>
    rw [cut] at h
    split at h
    · rename_i hc
      obtain ⟨rfl, hb⟩ := Prod.mk.inj h
      rw [hc, Option.some.inj hb]
      exact ⟨rfl, by simp⟩
    · rename_i hc
      obtain ⟨ha, hb⟩ := Prod.mk.inj h
      obtain ⟨htext, hmem⟩ := ih (a := (cut sep text).1)
        (by rw [← hb])
      refine ⟨by rw [← ha, List.cons_append, ← htext], ?_⟩
      rw [← ha, List.mem_cons, not_or]
      exact ⟨Ne.symm hc, hmem⟩

theorem cut_none (h : cut sep text = (a, none)) : sep ∉ text := by
  induction text generalizing a with
  | nil => exact List.not_mem_nil
  | cons c text ih =>
    rw [cut] at h
    split at h
    · simp at h
    · rename_i hc
      obtain ⟨-, hb⟩ := Prod.mk.inj h
      rw [List.mem_cons, not_or]
      exact ⟨Ne.symm hc, ih (a := (cut sep text).1) (by rw [← hb])⟩

theorem cutLast_append {b : List α} (h : sep ∉ b) :
    cutLast sep (a ++ sep :: b) = some (a, b) := by
  unfold cutLast
  have hrev : (a ++ sep :: b).reverse = b.reverse ++ sep :: a.reverse := by
    simp
  rw [hrev, cut_append_sep (by simpa using h)]
  simp

theorem cutLast_some {b : List α} (h : cutLast sep text = some (a, b)) :
    text = a ++ sep :: b ∧ sep ∉ b := by
  unfold cutLast at h
  split at h
  · cases h
  · rename_i after before hcut
    obtain ⟨htext, hmem⟩ := cut_some hcut
    obtain ⟨rfl, rfl⟩ := Prod.mk.inj (Option.some.inj h)
    refine ⟨?_, by simpa using hmem⟩
    rw [← List.reverse_reverse text, htext]
    simp

/-- The last component is the same, however a text is written. -/
theorem append_sep_inj {a' b b' : List α} (hb : sep ∉ b) (hb' : sep ∉ b')
    (h : a ++ sep :: b = a' ++ sep :: b') : a = a' ∧ b = b' := by
  have hcut := cutLast_append (a := a) hb
  rw [h, cutLast_append hb'] at hcut
  obtain ⟨ha, hb⟩ := Prod.mk.inj (Option.some.inj hcut)
  exact ⟨ha.symm, hb.symm⟩

theorem cutPair_some {b : List α}
    (h : cutPair sep text = some (a, b)) : text = a ++ sep :: sep :: b := by
  induction text generalizing a with
  | nil => simp [cutPair] at h
  | cons c text ih =>
    rw [cutPair] at h
    split at h
    · rename_i hc
      obtain ⟨rfl, rfl⟩ := Prod.mk.inj (Option.some.inj h)
      obtain ⟨d, rest, rfl⟩ : ∃ d rest, text = d :: rest := by
        cases text with
        | nil => simp at hc
        | cons d rest => exact ⟨d, rest, rfl⟩
      have hd : d = sep := Option.some.inj hc.2
      rw [hc.1, hd]
      rfl
    · obtain ⟨p, hp, hpair⟩ := Option.map_eq_some_iff.mp h
      obtain ⟨rfl, rfl⟩ := Prod.mk.inj hpair
      rw [List.cons_append, ← ih (a := p.1) (by rw [hp])]

/-- The first double separator is found where nothing before it looks
like one. -/
theorem cutPair_append (h : cutPair sep a = none)
    (hlast : a.getLast? ≠ some sep) (b : List α) :
    cutPair sep (a ++ sep :: sep :: b) = some (a, b) := by
  induction a with
  | nil => simp [cutPair]
  | cons c a ih =>
    rw [cutPair] at h
    split at h
    · cases h
    · rename_i hc
      have hnone : cutPair sep a = none := Option.map_eq_none_iff.mp h
      have hrest : a.getLast? ≠ some sep := by
        intro ha
        rw [List.getLast?_cons, ha] at hlast
        exact hlast rfl
      rw [List.cons_append, cutPair, if_neg, ih hnone hrest]
      · rfl
      · rintro ⟨rfl, hhead⟩
        cases a with
        | nil => exact hlast rfl
        | cons d a => exact hc ⟨rfl, hhead⟩

/-- Nothing earlier is a double separator. -/
theorem cutPair_le {p s : List α} (h : text = p ++ sep :: sep :: s) :
    ∃ a b, cutPair sep text = some (a, b) ∧ a.length ≤ p.length := by
  induction p generalizing text with
  | nil =>
    rw [h]
    exact ⟨[], s, by simp [cutPair], Nat.le_refl _⟩
  | cons c p ih =>
    rw [h, List.cons_append, cutPair]
    split
    · exact ⟨[], _, rfl, Nat.zero_le _⟩
    · obtain ⟨a, b, hab, hle⟩ := ih rfl
      rw [hab]
      exact ⟨c :: a, b, rfl, Nat.succ_le_succ hle⟩

theorem cutPair_eq_none_of_notMem (h : sep ∉ text) :
    cutPair sep text = none := by
  by_contra hne
  obtain ⟨⟨a, b⟩, hab⟩ := Option.ne_none_iff_exists'.mp hne
  rw [cutPair_some hab] at h
  simp at h

/-- Three separators in a row leave one behind the first two, or another
two. -/
theorem triple_cut {b : List α} (h : [sep, sep, sep] <:+: text)
    (hcut : cutPair sep text = some (a, b)) :
    b.head? = some sep ∨ cutPair sep b ≠ none := by
  obtain ⟨p, s, hps⟩ := h
  have htext : text = p ++ sep :: sep :: (sep :: s) := by
    rw [← hps]
    simp
  obtain ⟨a', b', hab, hle⟩ := cutPair_le htext
  rw [hcut] at hab
  obtain ⟨rfl, rfl⟩ := Prod.mk.inj (Option.some.inj hab)
  have hsplit := (cutPair_some hcut).symm.trans htext
  obtain ⟨m, rfl⟩ : ∃ m, p = a ++ m := by
    have hprefix : a <+: p ++ sep :: sep :: sep :: s :=
      ⟨_, hsplit⟩
    obtain ⟨m, hm⟩ := List.prefix_of_prefix_length_le hprefix
      (List.prefix_append p _) hle
    exact ⟨m, hm.symm⟩
  rw [List.append_assoc] at hsplit
  have hrest := List.append_cancel_left hsplit
  match m with
  | [] =>
    left
    have hb := (List.cons.inj (List.cons.inj hrest).2).2
    rw [hb]
    rfl
  | [c] =>
    left
    have hb := (List.cons.inj (List.cons.inj hrest).2).2
    rw [hb]
    rfl
  | c :: d :: m =>
    right
    have hb : b = m ++ sep :: sep :: sep :: s :=
      (List.cons.inj (List.cons.inj hrest).2).2
    obtain ⟨a', b', hab, -⟩ := cutPair_le hb
    rw [hab]
    exact Option.some_ne_none _

end Separators

-- ================================= joining

section Joining

variable {α : Type*} {sep : α}

/-- A component: not empty, and without the separator. -/
def Clean (sep : α) (text : List α) : Prop := text ≠ [] ∧ sep ∉ text

variable {as : List (List α)}

theorem intercalate_cons {a : List α} (h : as ≠ []) :
    [sep].intercalate (a :: as) = a ++ sep :: [sep].intercalate as := by
  obtain ⟨b, bs, rfl⟩ := List.exists_cons_of_ne_nil h
  simp [List.intercalate, List.intersperse]

theorem intercalate_concat {a : List α} (h : as ≠ []) :
    [sep].intercalate (as ++ [a]) = [sep].intercalate as ++ sep :: a := by
  induction as with
  | nil => exact absurd rfl h
  | cons b as ih =>
    by_cases has : as = []
    · rw [has]
      simp [List.intercalate, List.intersperse]
    · rw [List.cons_append, intercalate_cons (by simp), ih has,
        intercalate_cons has, List.append_assoc]
      rfl

theorem intercalate_singleton (a : List α) : [sep].intercalate [a] = a := by
  simp [List.intercalate]

theorem intercalate_ne_nil (h : as ≠ [])
    (hclean : ∀ a ∈ as, Clean sep a) : [sep].intercalate as ≠ [] := by
  obtain ⟨a, as, rfl⟩ := List.exists_cons_of_ne_nil h
  have ha := (hclean a List.mem_cons_self).1
  by_cases has : as = []
  · rw [has, intercalate_singleton]
    exact ha
  · rw [intercalate_cons has]
    exact List.append_ne_nil_of_left_ne_nil ha _

/-- Joined components do not start with the separator. -/
theorem head?_intercalate (hclean : ∀ a ∈ as, Clean sep a) :
    ([sep].intercalate as).head? ≠ some sep := by
  cases as with
  | nil => simp [List.intercalate]
  | cons a as =>
    obtain ⟨hne, hmem⟩ := hclean a List.mem_cons_self
    obtain ⟨c, rest, rfl⟩ := List.exists_cons_of_ne_nil hne
    have hc : c ≠ sep := fun e => hmem (e ▸ List.mem_cons_self)
    have hhead : ([sep].intercalate ((c :: rest) :: as)).head?
        = some c := by
      by_cases has : as = []
      · rw [has, intercalate_singleton]
        rfl
      · rw [intercalate_cons has]
        rfl
    rw [hhead]
    exact fun h => hc (Option.some.inj h)

/-- Nor do they end with it. -/
theorem getLast?_intercalate (hclean : ∀ a ∈ as, Clean sep a) :
    ([sep].intercalate as).getLast? ≠ some sep := by
  induction as using List.reverseRecOn with
  | nil => simp [List.intercalate]
  | append_singleton as a ih =>
    obtain ⟨hne, hmem⟩ := hclean a (by simp)
    have hlast : a.getLast? ≠ some sep :=
      fun h => hmem (List.mem_of_getLast? h)
    by_cases has : as = []
    · rw [has, List.nil_append, intercalate_singleton]
      exact hlast
    · rw [intercalate_concat has,
        List.getLast?_append_of_ne_nil _ (by simp), List.getLast?_cons]
      obtain ⟨l, hl⟩ : ∃ l, a.getLast? = some l :=
        ⟨_, List.getLast?_eq_some_getLast hne⟩
      rw [hl] at hlast ⊢
      exact hlast

theorem length_intercalate_lt {k : Nat} (h : ∀ a ∈ as, a.length ≤ k)
    (hne : as ≠ []) :
    ([sep].intercalate as).length + 1 ≤ as.length * (k + 1) := by
  induction as with
  | nil => exact absurd rfl hne
  | cons a as ih =>
    have ha := h a List.mem_cons_self
    by_cases has : as = []
    · rw [has, intercalate_singleton]
      simp
      omega
    · have hrest := ih (fun b hb => h b (List.mem_cons_of_mem a hb)) has
      rw [intercalate_cons has, List.length_append, List.length_cons,
        List.length_cons, Nat.succ_mul]
      omega

theorem mem_intercalate {c : α}
    (h : c ∈ [sep].intercalate as) : c = sep ∨ ∃ a ∈ as, c ∈ a := by
  induction as with
  | nil => simp [List.intercalate] at h
  | cons a as ih =>
    by_cases has : as = []
    · rw [has, intercalate_singleton] at h
      exact .inr ⟨a, List.mem_cons_self, h⟩
    · rw [intercalate_cons has] at h
      rcases List.mem_append.mp h with h | h
      · exact .inr ⟨a, List.mem_cons_self, h⟩
      · rcases List.mem_cons.mp h with h | h
        · exact .inl h
        · rcases ih h with h | ⟨b, hb, hc⟩
          · exact .inl h
          · exact .inr ⟨b, List.mem_cons_of_mem a hb, hc⟩

theorem mem_intercalate_of_mem {a : List α} {c : α} (ha : a ∈ as)
    (hc : c ∈ a) : c ∈ [sep].intercalate as := by
  induction as with
  | nil => cases ha
  | cons b as ih =>
    by_cases has : as = []
    · rw [has] at ha ⊢
      rw [intercalate_singleton, ← List.mem_singleton.mp ha]
      exact hc
    · rw [intercalate_cons has]
      rcases List.mem_cons.mp ha with rfl | ha
      · exact List.mem_append_left _ hc
      · exact List.mem_append_right _ (List.mem_cons_of_mem _ (ih ha))

variable [DecidableEq α]

/-- There is no double separator between joined components. -/
theorem cutPair_intercalate (hclean : ∀ a ∈ as, Clean sep a) :
    cutPair sep ([sep].intercalate as) = none := by
  have hpush : ∀ {a rest : List α}, sep ∉ a →
      rest.head? ≠ some sep → cutPair sep rest = none →
      cutPair sep (a ++ sep :: rest) = none := by
    intro a rest ha hrest hnone
    induction a with
    | nil =>
      rw [List.nil_append, cutPair, if_neg fun h => hrest h.2, hnone]
      rfl
    | cons c a ih =>
      have hc : c ≠ sep := fun e => ha (e ▸ List.mem_cons_self)
      rw [List.cons_append, cutPair, if_neg fun h => hc h.1,
        ih fun h => ha (List.mem_cons_of_mem c h)]
      rfl
  induction as with
  | nil => rfl
  | cons a as ih =>
    obtain ⟨hne, hmem⟩ := hclean a List.mem_cons_self
    have hrest := fun b hb => hclean b (List.mem_cons_of_mem a hb)
    by_cases has : as = []
    · rw [has, intercalate_singleton]
      exact cutPair_eq_none_of_notMem hmem
    · rw [intercalate_cons has]
      exact hpush hmem (head?_intercalate hrest) (ih hrest)

/-- Of two runs of joined components with a double separator between
them, none has three in a row. -/
theorem not_triple {ls rs : List (List α)} (hl : ∀ a ∈ ls, Clean sep a)
    (hr : ∀ a ∈ rs, Clean sep a) :
    ¬ [sep, sep, sep] <:+:
      [sep].intercalate ls ++ sep :: sep :: [sep].intercalate rs := by
  intro h
  have hcut := cutPair_append (cutPair_intercalate hl)
    (getLast?_intercalate hl) ([sep].intercalate rs)
  rcases triple_cut h hcut with hhead | hpair
  · exact head?_intercalate hr hhead
  · exact hpair (cutPair_intercalate hr)

/-- Nor has one run. -/
theorem not_triple_one (h : ∀ a ∈ as, Clean sep a) :
    ¬ [sep, sep, sep] <:+: [sep].intercalate as := by
  rintro ⟨p, s, hps⟩
  obtain ⟨a, b, hab, -⟩ := @cutPair_le _ _ sep ([sep].intercalate as) p (sep :: s)
    (by rw [← hps]; simp)
  rw [cutPair_intercalate h] at hab
  cases hab

end Joining

end RemoteDesk.Lib
