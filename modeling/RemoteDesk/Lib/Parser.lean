/-
Parsers that consume a finite input from the left and stop at the first
error, and three relations between what such parsers read.

# Reading

A `Parser β ε α` takes the symbols not read yet and yields a value with
the symbols left, or an error. `readBytes n e` is the one primitive that
consumes input. `times p n` runs `p` a fixed number of times; `fill item`
is the loop "while something remains, read an item and subtract what it
covers", which has no count fixed in advance.

# What a parser reads

* `Local p`: a successful run depends on the symbols it consumed and on
  nothing after them.
* `Costs p k`: a successful run with value `a` consumes at most `k a`
  symbols.
* `Lockstep R p q`: on every input `p` and `q` fail with the same error,
  or both succeed, consume the same symbols and have `R`-related values.

Each has one rule per way of building a parser, so a proof about a
parser follows its text.
-/
import Mathlib

namespace RemoteDesk.Lib

/-- Reads symbols of `β`, fails with `ε`, yields `α`. -/
abbrev Parser (β ε α : Type) := StateT (List β) (Except ε) α

variable {β ε α α' γ γ' : Type}

namespace Parser

-- ================================ building

/-- Stop with error `e`. -/
def fail (e : ε) : Parser β ε α := fun _ => .error e

/-- The next `n` symbols, or `e` when fewer remain. -/
def readBytes (n : Nat) (e : ε) : Parser β ε (List β) := fun s =>
  if n > s.length then .error e else .ok (s.take n, s.drop n)

/-- The next symbol, or `e` at the end of the input. -/
def readOne (e : ε) : Parser β ε β
  | [] => .error e
  | b :: s => .ok (b, s)

/-- A block of `n` symbols that has to pass `check`. -/
def block (n : Nat) (e : ε) (check : List β → Except ε α) :
    Parser β ε α := do
  let b ← readBytes n e
  match check b with
  | .ok a => pure a
  | .error e' => fail e'

/-- `p`, a fixed number of times. -/
def times (p : Parser β ε α) : Nat → Parser β ε (List α)
  | 0 => pure []
  | n + 1 => do
      let a ← p
      let as ← times p n
      pure (a :: as)

/-- While something remains, read an item and subtract what it covers.
An item covers at least one unit, so `fuel` equal to what remains at the
start is enough. -/
def fill (item : Nat → Parser β ε (Nat × α)) :
    Nat → Nat → Parser β ε (List α)
  | 0, _ => pure []
  | fuel + 1, remaining =>
    if remaining = 0 then pure [] else do
      let (n, a) ← item remaining
      let as ← fill item fuel (remaining - n)
      pure (a :: as)

-- ================================= running

@[simp] theorem pure_run (a : α) (s : List β) :
    (pure a : Parser β ε α) s = .ok (a, s) := rfl

theorem bind_run (p : Parser β ε α) (f : α → Parser β ε γ)
    (s : List β) :
    (p >>= f) s = match p s with
      | .ok (a, r) => f a r
      | .error e => .error e := by
  show (p s >>= fun x => f x.1 x.2) = _
  cases p s <;> rfl

variable {f : α → Parser β ε γ} {n c : Nat} {check : List β → Except ε α}
variable {item : Nat → Parser β ε (Nat × α)} {k : α → Nat}

theorem bind_of_ok {p : Parser β ε α} {s r : List β} {a : α}
    (h : p s = .ok (a, r)) : (p >>= f) s = f a r := by
  rw [bind_run, h]

theorem bind_of_error {p : Parser β ε α} {s : List β} {e : ε}
    (h : p s = .error e) : (p >>= f) s = .error e := by
  rw [bind_run, h]

theorem bind_ok {p : Parser β ε α} {s r : List β} {b : γ} :
    (p >>= f) s = .ok (b, r)
      ↔ ∃ a m, p s = .ok (a, m) ∧ f a m = .ok (b, r) := by
  rw [bind_run]
  cases hp : p s with
  | error e =>
    refine ⟨nofun, ?_⟩
    rintro ⟨a, m, h, -⟩
    cases h
  | ok x =>
    obtain ⟨a, m⟩ := x
    refine ⟨fun h => ⟨a, m, rfl, h⟩, ?_⟩
    rintro ⟨a', m', h, h'⟩
    cases h
    exact h'

theorem readBytes_ok {e : ε} {s r b : List β} :
    readBytes n e s = .ok (b, r)
      ↔ n ≤ s.length ∧ b = s.take n ∧ r = s.drop n := by
  unfold readBytes
  by_cases h : n > s.length
  · rw [if_pos h]
    exact ⟨fun h' => (nomatch h'), fun h' => by omega⟩
  · rw [if_neg h]
    refine ⟨fun h' => ?_, ?_⟩
    · cases h'
      exact ⟨by omega, rfl, rfl⟩
    · rintro ⟨-, rfl, rfl⟩
      rfl

theorem readOne_ok {e : ε} {s r : List β} {b : β} :
    readOne e s = .ok (b, r) ↔ s = b :: r := by
  cases s with
  | nil => exact ⟨(nofun), (nofun)⟩
  | cons c s =>
    refine ⟨fun h => ?_, fun h => ?_⟩
    · cases h; rfl
    · cases h; rfl

theorem block_ok {e : ε} {s r : List β} {a : α} :
    block n e check s = .ok (a, r)
      ↔ n ≤ s.length ∧ check (s.take n) = .ok a ∧ r = s.drop n := by
  unfold block
  rw [bind_ok]
  constructor
  · rintro ⟨b, m, hb, h⟩
    obtain ⟨hn, rfl, rfl⟩ := readBytes_ok.mp hb
    cases hc : check (s.take n) with
    | error e' => rw [hc] at h; cases h
    | ok a' => rw [hc] at h; cases h; exact ⟨hn, rfl, rfl⟩
  · rintro ⟨hn, hc, rfl⟩
    refine ⟨_, _, readBytes_ok.mpr ⟨hn, rfl, rfl⟩, ?_⟩
    rw [hc]
    rfl

-- ================================== blocks

/-- The `i`-th block of `c` symbols. -/
def blockAt (s : List β) (c i : Nat) : List β := (s.drop (i * c)).take c

theorem blockAt_zero (s : List β) (c : Nat) : blockAt s c 0 = s.take c := by
  rw [blockAt, Nat.zero_mul, List.drop_zero]

theorem blockAt_succ (s : List β) (c i : Nat) :
    blockAt s c (i + 1) = blockAt (s.drop c) c i := by
  rw [blockAt, blockAt, List.drop_drop, Nat.succ_mul, Nat.add_comm]

/-- `n` checked blocks succeed exactly when `n` blocks are there and each
passes its check. -/
theorem times_block_ok {e : ε} {s r : List β} {as : List α} :
    times (block c e check) n s = .ok (as, r)
      ↔ n * c ≤ s.length ∧ r = s.drop (n * c)
        ∧ (List.range n).map (fun i => check (blockAt s c i))
          = as.map .ok := by
  induction n generalizing s as with
  | zero =>
    rw [times, pure_run, Nat.zero_mul, List.drop_zero]
    refine ⟨fun h => ?_, ?_⟩
    · cases h; exact ⟨Nat.zero_le _, rfl, rfl⟩
    · rintro ⟨-, rfl, h⟩
      cases as with
      | nil => rfl
      | cons a as => cases h
  | succ n ih =>
    have hblocks : (List.range (n + 1)).map
        (fun i => check (blockAt s c i))
        = check (s.take c) :: (List.range n).map
          (fun i => check (blockAt (s.drop c) c i)) := by
      rw [List.range_succ_eq_map, List.map_cons, List.map_map,
        blockAt_zero]
      exact congrArg _ (List.map_congr_left fun i _ => by
        rw [Function.comp_apply, blockAt_succ])
    rw [times, bind_ok, hblocks]
    constructor
    · rintro ⟨a, m, ha, h⟩
      obtain ⟨as', m', has, h⟩ := bind_ok.mp h
      cases h
      obtain ⟨hc, hcheck, rfl⟩ := block_ok.mp ha
      obtain ⟨hlen, hr, hmap⟩ := ih.mp has
      rw [List.length_drop] at hlen
      refine ⟨by rw [Nat.succ_mul]; omega, ?_, ?_⟩
      · rw [hr, List.drop_drop, Nat.succ_mul, Nat.add_comm]
      · rw [hcheck, hmap, List.map_cons]
    · rintro ⟨hlen, hr, hmap⟩
      rw [Nat.succ_mul] at hlen
      cases as with
      | nil => cases hmap
      | cons a as =>
        rw [List.map_cons] at hmap
        obtain ⟨hcheck, hmap⟩ := List.cons.inj hmap
        refine ⟨a, s.drop c,
          block_ok.mpr ⟨by omega, hcheck, rfl⟩, bind_ok.mpr
          ⟨as, r, ih.mpr ⟨?_, ?_, hmap⟩, rfl⟩⟩
        · rw [List.length_drop]; omega
        · rw [hr, List.drop_drop, Nat.succ_mul, Nat.add_comm]

/-- With enough input, checked blocks fail only on a check. -/
theorem times_block_error {e e' : ε} {s : List β} (hlen : n * c ≤ s.length)
    (h : times (block c e check) n s = .error e') :
    ∃ b, check b = .error e' := by
  induction n generalizing s with
  | zero => cases h
  | succ n ih =>
    rw [Nat.succ_mul] at hlen
    have hread : (readBytes c e : Parser β ε (List β)) s
        = .ok (s.take c, s.drop c) :=
      readBytes_ok.mpr ⟨by omega, rfl, rfl⟩
    cases hc : check (s.take c) with
    | error e₁ =>
      have hb : block c e check s = .error e₁ := by
        rw [block, bind_of_ok hread, hc]
        rfl
      rw [times, bind_of_error hb] at h
      cases h
      exact ⟨_, hc⟩
    | ok a =>
      have hb : block c e check s = .ok (a, s.drop c) :=
        block_ok.mpr ⟨by omega, hc, rfl⟩
      rw [times, bind_of_ok hb, bind_run] at h
      cases ht : times (block c e check) n (s.drop c) with
      | ok x => rw [ht] at h; cases h
      | error e₁ =>
        rw [ht] at h
        cases h
        exact ih (by rw [List.length_drop]; omega) ht

-- =================================== local

/-- A successful run depends on what it consumed only. -/
def Local (p : Parser β ε α) : Prop :=
  ∀ s a r, p s = .ok (a, r) →
    ∃ pre, s = pre ++ r ∧ ∀ r', p (pre ++ r') = .ok (a, r')

theorem Local.pure (a : α) : Local (pure a : Parser β ε α) := by
  intro s b r h
  cases h
  exact ⟨[], rfl, fun _ => rfl⟩

theorem Local.fail (e : ε) : Local (fail e : Parser β ε α) := by
  intro s b r h
  cases h

theorem Local.bind {p : Parser β ε α} (hp : Local p)
    (hf : ∀ a, Local (f a)) : Local (p >>= f) := by
  intro s b r h
  obtain ⟨a, m, ha, hb⟩ := bind_ok.mp h
  obtain ⟨pre, rfl, hpre⟩ := hp s a m ha
  obtain ⟨pre', rfl, hpre'⟩ := hf a m b r hb
  refine ⟨pre ++ pre', (List.append_assoc ..).symm, fun r' => ?_⟩
  rw [List.append_assoc, bind_of_ok (hpre _)]
  exact hpre' r'

theorem Local.readBytes (n : Nat) (e : ε) :
    Local (readBytes n e : Parser β ε (List β)) := by
  intro s b r h
  obtain ⟨hn, rfl, rfl⟩ := readBytes_ok.mp h
  refine ⟨s.take n, (List.take_append_drop n s).symm, fun r' => ?_⟩
  have hlen : (s.take n).length = n := List.length_take_of_le hn
  refine readBytes_ok.mpr ⟨?_, ?_, ?_⟩
  · rw [List.length_append]; omega
  · exact (List.take_left' hlen).symm
  · exact (List.drop_left' hlen).symm

theorem Local.readOne (e : ε) :
    Local (readOne e : Parser β ε β) := by
  intro s b r h
  obtain rfl := readOne_ok.mp h
  exact ⟨[b], rfl, fun _ => rfl⟩

theorem Local.block (n : Nat) (e : ε) (check : List β → Except ε α) :
    Local (block n e check) := by
  refine (Local.readBytes n e).bind fun b => ?_
  cases check b with
  | ok a => exact Local.pure a
  | error e' => exact Local.fail e'

theorem Local.times {p : Parser β ε α} (hp : Local p) :
    ∀ n, Local (times p n) := by
  intro n
  induction n with
  | zero => exact Local.pure []
  | succ n ih =>
    exact hp.bind fun _ => ih.bind fun _ => Local.pure _

theorem Local.fill (hitem : ∀ k, Local (item k)) :
    ∀ fuel remaining, Local (fill item fuel remaining) := by
  intro fuel
  induction fuel with
  | zero => exact fun _ => Local.pure _
  | succ fuel ih =>
    intro remaining
    rw [Parser.fill]
    by_cases h : remaining = 0
    · rw [if_pos h]
      exact Local.pure _
    · rw [if_neg h]
      exact (hitem _).bind fun x =>
        (ih _).bind fun as => Local.pure _

-- ==================================== cost

/-- A run that yields `a` consumes at most `k a` symbols. -/
def Costs (p : Parser β ε α) (k : α → Nat) : Prop :=
  ∀ s a r, p s = .ok (a, r) → s.length ≤ r.length + k a

theorem Costs.pure (a : α) : Costs (pure a : Parser β ε α) k := by
  intro s b r h
  cases h
  exact Nat.le_add_right ..

theorem Costs.fail (e : ε) : Costs (fail e : Parser β ε α) k := by
  intro s b r h
  cases h

theorem Costs.bind {p : Parser β ε α} {l : α → γ → Nat} {m : γ → Nat}
    (hp : Costs p k) (hf : ∀ a, Costs (f a) (l a))
    (hm : ∀ a b, k a + l a b ≤ m b) : Costs (p >>= f) m := by
  intro s b r h
  obtain ⟨a, t, ha, hb⟩ := bind_ok.mp h
  have h₁ := hp s a t ha
  have h₂ := hf a t b r hb
  have h₃ := hm a b
  omega

theorem Costs.weaken {p : Parser β ε α} {l : α → Nat} (hp : Costs p k)
    (hkl : ∀ a, k a ≤ l a) : Costs p l :=
  fun s a r h => (hp s a r h).trans (Nat.add_le_add_left (hkl a) _)

theorem Costs.readBytes (n : Nat) (e : ε) :
    Costs (readBytes n e : Parser β ε (List β)) fun _ => n := by
  intro s b r h
  obtain ⟨hn, -, rfl⟩ := readBytes_ok.mp h
  show s.length ≤ (s.drop n).length + n
  rw [List.length_drop]
  omega

theorem Costs.readOne (e : ε) :
    Costs (readOne e : Parser β ε β) fun _ => 1 := by
  intro s b r h
  obtain rfl := readOne_ok.mp h
  exact Nat.le_refl _

/-- If an item costs at most `c` for each unit it covers and never
covers more than remains, the loop costs at most `c` a unit. -/
theorem Costs.fill (hitem : ∀ k s n a r, 1 ≤ k → item k s = .ok ((n, a), r) →
      n ≤ k ∧ s.length ≤ r.length + c * n) :
    ∀ fuel remaining,
      Costs (fill item fuel remaining) fun _ => c * remaining := by
  intro fuel
  induction fuel with
  | zero => exact fun _ => Costs.pure _
  | succ fuel ih =>
    intro remaining
    rw [Parser.fill]
    by_cases h : remaining = 0
    · rw [if_pos h]
      exact Costs.pure _
    · rw [if_neg h]
      intro s as r hs
      obtain ⟨⟨n, a⟩, m, ha, hs⟩ := bind_ok.mp hs
      obtain ⟨as', m', has, hs⟩ := bind_ok.mp hs
      cases hs
      obtain ⟨hn, hcost⟩ := hitem _ _ _ _ _ (by omega) ha
      have hrest : m.length ≤ r.length + c * (remaining - n) :=
        ih (remaining - n) m as' r has
      have hsplit : c * n + c * (remaining - n) = c * remaining := by
        rw [← Nat.mul_add, Nat.add_sub_cancel' hn]
      show s.length ≤ r.length + c * remaining
      omega

-- ================================ lockstep

/-- Two outcomes that consumed the same input. -/
inductive Same (R : α → γ → Prop) :
    Except ε (α × List β) → Except ε (γ × List β) → Prop
  | ok {a b r} (h : R a b) : Same R (.ok (a, r)) (.ok (b, r))
  | error {e} : Same R (.error e) (.error e)

/-- On every input, the same consumption and the same error. -/
def Lockstep (R : α → γ → Prop) (p : Parser β ε α)
    (q : Parser β ε γ) : Prop :=
  ∀ s, Same R (p s) (q s)

theorem Lockstep.refl (p : Parser β ε α) : Lockstep Eq p p := by
  intro s
  cases p s with
  | error e => exact .error
  | ok x => exact .ok rfl

theorem Lockstep.pure {R : α → γ → Prop} {a : α} {b : γ}
    (h : R a b) : Lockstep R (pure a : Parser β ε α) (pure b) :=
  fun _ => .ok h

theorem Lockstep.fail {R : α → γ → Prop} (e : ε) :
    Lockstep R (fail e : Parser β ε α) (fail e) :=
  fun _ => .error

theorem Lockstep.bind {R : α → γ → Prop} {S : α' → γ' → Prop}
    {p : Parser β ε α} {q : Parser β ε γ} {f : α → Parser β ε α'}
    {g : γ → Parser β ε γ'} (hpq : Lockstep R p q)
    (hfg : ∀ a b, R a b → Lockstep S (f a) (g b)) :
    Lockstep S (p >>= f) (q >>= g) := by
  intro s
  rw [bind_run, bind_run]
  cases hp : p s with
  | error e =>
    have h := hpq s
    rw [hp] at h
    generalize q s = y at h ⊢
    cases h
    exact .error
  | ok x =>
    have h := hpq s
    rw [hp] at h
    generalize q s = y at h ⊢
    cases h with
    | ok h => exact hfg _ _ h _

theorem Lockstep.fill {R : α → γ → Prop} {item' : Nat → Parser β ε (Nat × γ)}
    (hitem : ∀ k, Lockstep (fun x y => x.1 = y.1 ∧ R x.2 y.2)
      (item k) (item' k)) :
    ∀ fuel remaining, Lockstep (List.Forall₂ R)
      (fill item fuel remaining) (fill item' fuel remaining) := by
  intro fuel
  induction fuel with
  | zero => exact fun _ => Lockstep.pure .nil
  | succ fuel ih =>
    intro remaining
    rw [Parser.fill, Parser.fill]
    by_cases h : remaining = 0
    · rw [if_pos h, if_pos h]
      exact Lockstep.pure .nil
    · rw [if_neg h, if_neg h]
      refine (hitem remaining).bind ?_
      rintro ⟨n, a⟩ ⟨n', b⟩ ⟨hn, hab⟩
      obtain rfl : n = n' := hn
      exact (ih _).bind fun as bs h => Lockstep.pure (.cons hab h)

/-- Two checks of the same block. -/
inductive Agree (R : α → γ → Prop) : Except ε α → Except ε γ → Prop
  | ok {a b} (h : R a b) : Agree R (.ok a) (.ok b)
  | error {e} : Agree R (.error e) (.error e)

theorem Lockstep.block {R : α → γ → Prop} {e : ε} {check' : List β → Except ε γ}
    (h : ∀ b, b.length = n → Agree R (check b) (check' b)) :
    Lockstep R (block n e check) (block n e check') := by
  intro s
  by_cases hn : n ≤ s.length
  · have hread : (Parser.readBytes n e : Parser β ε (List β)) s
        = .ok (s.take n, s.drop n) := readBytes_ok.mpr ⟨hn, rfl, rfl⟩
    have hcheck := h (s.take n) (List.length_take_of_le hn)
    unfold Parser.block
    rw [bind_of_ok hread, bind_of_ok hread]
    generalize check (s.take n) = x at hcheck ⊢
    generalize check' (s.take n) = y at hcheck ⊢
    cases hcheck with
    | ok hab => exact .ok hab
    | error => exact .error
  · have hread : (Parser.readBytes n e : Parser β ε (List β)) s
        = .error e := if_pos (by omega)
    unfold Parser.block
    rw [bind_of_error hread, bind_of_error hread]
    exact .error

theorem Lockstep.times {R : α → γ → Prop} {p : Parser β ε α}
    {q : Parser β ε γ} (h : Lockstep R p q) :
    ∀ n, Lockstep (List.Forall₂ R) (times p n) (times q n) := by
  intro n
  induction n with
  | zero => exact Lockstep.pure .nil
  | succ n ih =>
    exact h.bind fun a b hab =>
      ih.bind fun as bs hs => Lockstep.pure (.cons hab hs)

/-- What is done with the values does not matter to the input. -/
theorem Lockstep.map {R : α → γ → Prop} {p : Parser β ε α}
    {q : Parser β ε γ} (h : Lockstep R p q) (f : α → α')
    (g : γ → γ') :
    Lockstep (fun _ _ => True) (do let a ← p; Pure.pure (f a))
      (do let b ← q; Pure.pure (g b)) :=
  h.bind fun _ _ _ => Lockstep.pure trivial

theorem Lockstep.map_left {R : α → γ → Prop} {p : Parser β ε α}
    {q : Parser β ε γ} (h : Lockstep R p q) (f : α → α') :
    Lockstep (fun _ _ => True) (do let a ← p; Pure.pure (f a)) q := by
  have hmap : Lockstep (fun _ _ => True)
      (do let a ← p; Pure.pure (f a)) (q >>= Pure.pure) := h.map f id
  rwa [bind_pure] at hmap

theorem Lockstep.map_right {S : α → Prop} {p : Parser β ε α}
    {q : Parser β ε γ} (h : Lockstep (fun a _ => S a) p q) (g : γ → γ') :
    Lockstep (fun a _ => S a) p (do let b ← q; Pure.pure (g b)) := by
  have hmap : Lockstep (fun a _ => S a) (p >>= Pure.pure)
      (do let b ← q; Pure.pure (g b)) :=
    h.bind fun _ _ ha => Lockstep.pure ha
  rwa [bind_pure] at hmap

/-- Blocks that are only mapped, against one skip over all of them. -/
theorem Lockstep.times_readBytes (c : Nat) (e : ε) (n : Nat)
    (g : List β → α) :
    Lockstep (fun as _ => as.length = n)
      (Parser.times (Parser.block c e fun b => .ok (g b)) n)
      (Parser.readBytes (n * c) e) := by
  intro s
  by_cases hlen : n * c ≤ s.length
  · have hread : (Parser.readBytes (n * c) e : Parser β ε (List β)) s
        = .ok (s.take (n * c), s.drop (n * c)) :=
      readBytes_ok.mpr ⟨hlen, rfl, rfl⟩
    have htimes : Parser.times (Parser.block c e fun b => .ok (g b)) n s
        = .ok ((List.range n).map fun i => g (blockAt s c i),
          s.drop (n * c)) :=
      times_block_ok.mpr ⟨hlen, rfl, by rw [List.map_map]; rfl⟩
    rw [hread, htimes]
    exact .ok (by rw [List.length_map, List.length_range])
  · have hread : (Parser.readBytes (n * c) e : Parser β ε (List β)) s
        = .error e := if_pos (by omega)
    rw [hread]
    have htimes : Parser.times (Parser.block c e fun b => .ok (g b)) n s
        = .error e := by
      induction n generalizing s with
      | zero => omega
      | succ n ih =>
        rw [Parser.times]
        by_cases hc : c ≤ s.length
        · have hb : Parser.block c e (fun b => .ok (g b)) s
              = .ok (g (s.take c), s.drop c) :=
            block_ok.mpr ⟨hc, rfl, rfl⟩
          rw [Nat.succ_mul] at hlen
          have hrest : ¬ n * c ≤ (s.drop c).length := by
            rw [List.length_drop]; omega
          rw [bind_of_ok hb, bind_of_error
            (ih (s.drop c) hrest (if_pos (by omega)))]
        · have hb : Parser.block c e (fun b => .ok (g b)) s = .error e := by
            rw [Parser.block, bind_of_error (if_pos (by omega))]
          rw [bind_of_error hb]
    rw [htimes]
    exact .error

-- ======================== what is consumed

/-- `p` succeeds on `s` and leaves `r`. -/
def Leaves (p : Parser β ε α) (s r : List β) : Prop :=
  ∃ a, p s = .ok (a, r)

/-- `p` succeeds on `s` and consumes exactly `n` symbols. -/
def Consumes (p : Parser β ε α) (s : List β) (n : Nat) : Prop :=
  n ≤ s.length ∧ Leaves p s (s.drop n)

theorem Lockstep.leaves_iff {R : α → γ → Prop} {p : Parser β ε α}
    {q : Parser β ε γ} (h : Lockstep R p q) (s r : List β) :
    Leaves p s r ↔ Leaves q s r := by
  have hs := h s
  unfold Leaves
  generalize p s = x at hs ⊢
  generalize q s = y at hs ⊢
  cases hs with
  | error => exact ⟨(nofun), (nofun)⟩
  | ok _ =>
    constructor
    · rintro ⟨_, h⟩; cases h; exact ⟨_, rfl⟩
    · rintro ⟨_, h⟩; cases h; exact ⟨_, rfl⟩

/-- A local parser does the same on the symbols it consumed alone. -/
theorem Local.run_take {p : Parser β ε α} (hp : Local p)
    {s r : List β} {a : α} (h : p s = .ok (a, r)) :
    p (s.take (s.length - r.length)) = .ok (a, []) := by
  obtain ⟨pre, rfl, hpre⟩ := hp s a r h
  rw [List.length_append, Nat.add_sub_cancel, List.take_left]
  have := hpre []
  rwa [List.append_nil] at this

/-- What every item of a loop satisfies, all of them do. -/
theorem fill_forall {P : α → Prop}
    (hitem : ∀ k s n a r, item k s = .ok ((n, a), r) → P a) :
    ∀ {fuel remaining : Nat} {s r : List β} {as : List α},
      fill item fuel remaining s = .ok (as, r) → ∀ a ∈ as, P a := by
  intro fuel
  induction fuel with
  | zero =>
    intro remaining s r as h a ha
    cases h
    cases ha
  | succ fuel ih =>
    intro remaining s r as h
    rw [Parser.fill] at h
    by_cases hzero : remaining = 0
    · rw [if_pos hzero] at h
      cases h
      exact fun a ha => nomatch ha
    · rw [if_neg hzero] at h
      obtain ⟨⟨n, a⟩, m, ha, h⟩ := bind_ok.mp h
      obtain ⟨as', m', has, h⟩ := bind_ok.mp h
      cases h
      intro b hb
      rcases List.mem_cons.mp hb with rfl | hb
      · exact hitem _ _ _ _ _ ha
      · exact ih has b hb

/-- If an item has weight `c` for each unit it covers, the loop has
weight `c` for each unit there was. -/
theorem fill_sum {f : α → Nat}
    (hitem : ∀ k s n a r, 1 ≤ k → item k s = .ok ((n, a), r) →
      1 ≤ n ∧ n ≤ k ∧ f a = c * n) :
    ∀ {fuel remaining : Nat} {s r : List β} {as : List α},
      remaining ≤ fuel → fill item fuel remaining s = .ok (as, r) →
      (as.map f).sum = c * remaining := by
  intro fuel
  induction fuel with
  | zero =>
    intro remaining s r as hfuel h
    cases h
    obtain rfl : remaining = 0 := by omega
    rfl
  | succ fuel ih =>
    intro remaining s r as hfuel h
    rw [Parser.fill] at h
    by_cases hzero : remaining = 0
    · rw [if_pos hzero] at h
      cases h
      subst hzero
      rfl
    · rw [if_neg hzero] at h
      obtain ⟨⟨n, a⟩, m, ha, h⟩ := bind_ok.mp h
      obtain ⟨as', m', has, h⟩ := bind_ok.mp h
      cases h
      obtain ⟨hone, hle, hf⟩ := hitem _ _ _ _ _ (by omega) ha
      rw [List.map_cons, List.sum_cons, hf, ih (by omega) has,
        ← Nat.mul_add, Nat.add_sub_cancel' hle]

end Parser

-- ========================= checked mapping

variable {f : α → Except ε γ}

/-- A checked mapping succeeds where every check does. -/
theorem mapM_ok {l : List α} {bs : List γ} :
    l.mapM f = .ok bs ↔ l.map f = bs.map .ok := by
  induction l generalizing bs with
  | nil =>
    refine ⟨fun h => by cases h; rfl, fun h => ?_⟩
    cases bs with
    | nil => rfl
    | cons b bs => cases h
  | cons x l ih =>
    rw [List.mapM_cons, List.map_cons]
    constructor
    · intro h
      cases hx : f x with
      | error e => rw [hx] at h; cases h
      | ok b =>
        cases hl : l.mapM f with
        | error e => rw [hx, hl] at h; cases h
        | ok bs' =>
          rw [hx, hl] at h
          cases h
          rw [ih.mp hl]
          rfl
    · intro h
      cases bs with
      | nil => cases h
      | cons b bs =>
        obtain ⟨hx, hl⟩ := List.cons.inj h
        rw [hx, ih.mpr hl]
        rfl

/-- A checked mapping fails with the error of one of its checks. -/
theorem mapM_error {l : List α} {e : ε}
    (h : l.mapM f = .error e) : ∃ x ∈ l, f x = .error e := by
  induction l with
  | nil => cases h
  | cons x l ih =>
    rw [List.mapM_cons] at h
    cases hx : f x with
    | error e' =>
      rw [hx] at h
      cases h
      exact ⟨x, List.mem_cons_self, hx⟩
    | ok b =>
      cases hl : l.mapM f with
      | ok bs => rw [hx, hl] at h; cases h
      | error e' =>
        rw [hx, hl] at h
        cases h
        obtain ⟨y, hy, he⟩ := ih hl
        exact ⟨y, List.mem_cons_of_mem x hy, he⟩

theorem mapM_isOk {l : List α} :
    (∃ bs, l.mapM f = .ok bs) ↔ ∀ x ∈ l, ∃ b, f x = .ok b := by
  constructor
  · rintro ⟨bs, h⟩ x hx
    have hmem := List.mem_map_of_mem (f := f) hx
    rw [mapM_ok.mp h] at hmem
    obtain ⟨b, -, hb⟩ := List.mem_map.mp hmem
    exact ⟨b, hb.symm⟩
  · intro h
    cases hm : l.mapM f with
    | ok bs => exact ⟨bs, rfl⟩
    | error e =>
      obtain ⟨x, hx, he⟩ := mapM_error hm
      obtain ⟨b, hb⟩ := h x hx
      rw [he] at hb
      cases hb

theorem mapM_agree {R : γ → γ' → Prop} {g : α → Except ε γ'}
    (h : ∀ x, Parser.Agree R (f x) (g x)) (l : List α) :
    Parser.Agree (List.Forall₂ R) (l.mapM f) (l.mapM g) := by
  induction l with
  | nil => exact .ok .nil
  | cons x l ih =>
    rw [List.mapM_cons, List.mapM_cons]
    have hx := h x
    generalize f x = a at hx ⊢
    generalize g x = b at hx ⊢
    cases hx with
    | error => exact .error
    | ok hab =>
      generalize l.mapM f = as at ih ⊢
      generalize l.mapM g = bs at ih ⊢
      cases ih with
      | error => exact .error
      | ok hs => exact .ok (.cons hab hs)

end RemoteDesk.Lib
