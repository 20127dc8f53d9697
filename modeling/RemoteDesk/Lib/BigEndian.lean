/-
Digits of a fixed number, most significant first.

`fixedDigits b k n` are the low `k` digits of `n` in base `b`; `digitsValue`
reads digits back. They are inverse up to what does not fit
(`digitsValue_fixedDigits`, `fixedDigits_digitsValue`), and a number that
fits is its shortest numeral behind zeros (`fixedDigits_eq_padded`). Bytes
are the digits of base 256 (`beBytes`, `beNat`).
-/
import RemoteDesk.Lib.Numeral

namespace RemoteDesk.Lib

-- ================================== digits

def fixedDigits (base : Nat) : Nat → Nat → List Nat
  | 0, _ => []
  | k + 1, n => fixedDigits base k (n / base) ++ [n % base]

def digitsValue (base : Nat) (ds : List Nat) : Nat :=
  ds.foldl (fun n d => n * base + d) 0

section Digits

variable {base : Nat}

@[simp] theorem length_fixedDigits (k n : Nat) :
    (fixedDigits base k n).length = k := by
  induction k generalizing n with
  | zero => rfl
  | succ k ih => rw [fixedDigits, List.length_append, ih]; rfl

@[simp] theorem digitsValue_nil : digitsValue base [] = 0 := rfl

theorem digitsValue_concat (ds : List Nat) (d : Nat) :
    digitsValue base (ds ++ [d]) = digitsValue base ds * base + d := by
  rw [digitsValue, List.foldl_append]
  rfl

theorem digitsValue_lt {ds : List Nat} (h : ∀ d ∈ ds, d < base) :
    digitsValue base ds < base ^ ds.length := by
  induction ds using List.reverseRecOn with
  | nil => simp
  | append_singleton ds d ih =>
    have hd := h d (by simp)
    have hlt := ih fun x hx => h x (List.mem_append_left _ hx)
    rw [digitsValue_concat, List.length_append, List.length_singleton,
      Nat.pow_succ]
    calc digitsValue base ds * base + d
        < digitsValue base ds * base + base := by omega
      _ = (digitsValue base ds + 1) * base := by ring
      _ ≤ base ^ ds.length * base := Nat.mul_le_mul_right _ hlt

theorem mem_fixedDigits (hb : 0 < base) {k n d : Nat}
    (h : d ∈ fixedDigits base k n) : d < base := by
  induction k generalizing n with
  | zero => cases h
  | succ k ih =>
    rw [fixedDigits, List.mem_append, List.mem_singleton] at h
    rcases h with h | rfl
    · exact ih h
    · exact Nat.mod_lt _ hb

theorem digitsValue_fixedDigits (k n : Nat) :
    digitsValue base (fixedDigits base k n) = n % base ^ k := by
  induction k generalizing n with
  | zero => rw [Nat.pow_zero, Nat.mod_one]; rfl
  | succ k ih =>
    rw [fixedDigits, digitsValue_concat, ih, Nat.pow_succ', Nat.mod_mul]
    ring

theorem fixedDigits_digitsValue {ds : List Nat} (h : ∀ d ∈ ds, d < base) :
    fixedDigits base ds.length (digitsValue base ds) = ds := by
  induction ds using List.reverseRecOn with
  | nil => rfl
  | append_singleton ds d ih =>
    have hd := h d (by simp)
    have hlow : (digitsValue base ds * base + d) % base = d := by
      rw [Nat.add_comm, Nat.add_mul_mod_self_right, Nat.mod_eq_of_lt hd]
    have hhigh : (digitsValue base ds * base + d) / base
        = digitsValue base ds := by
      rw [Nat.mul_comm, Nat.mul_add_div (by omega), Nat.div_eq_of_lt hd,
        Nat.add_zero]
    rw [digitsValue_concat, List.length_append, List.length_singleton,
      fixedDigits, hlow, hhigh, ih fun x hx =>
        h x (List.mem_append_left _ hx)]

/-- Digits are told apart by their value. -/
theorem digits_eq_of_value {ds ds' : List Nat} (h : ∀ d ∈ ds, d < base)
    (h' : ∀ d ∈ ds', d < base) (hlen : ds.length = ds'.length)
    (hvalue : digitsValue base ds = digitsValue base ds') : ds = ds' := by
  rw [← fixedDigits_digitsValue h, ← fixedDigits_digitsValue h', hlen, hvalue]

theorem fixedDigits_zero (k : Nat) :
    fixedDigits base k 0 = List.replicate k 0 := by
  induction k with
  | zero => rfl
  | succ k ih =>
    rw [fixedDigits, Nat.zero_div, Nat.zero_mod, ih,
      List.replicate_succ']

end Digits

/-- A number that fits is its numeral behind zeros. -/
theorem fixedDigits_eq_padded {k n : Nat} (hk : 0 < k) (h : n < 10 ^ k) :
    List.replicate (k - (numeral 10 n).length) 48 ++ numeral 10 n
      = (fixedDigits 10 k n).map (48 + ·) := by
  have hcode : ∀ m, (Nat.digits 10 m).reverse.map digitCode
      = (Nat.digits 10 m).reverse.map (48 + ·) := by
    intro m
    refine List.map_congr_left fun d hd => ?_
    rw [digitCode, if_pos (Nat.digits_lt_base (by norm_num)
      (List.mem_reverse.mp hd))]
  have hpad : ∀ k m, m < 10 ^ k → List.replicate
      (k - (Nat.digits 10 m).length) 0 ++ (Nat.digits 10 m).reverse
        = fixedDigits 10 k m := by
    intro k
    induction k with
    | zero =>
      intro m hm
      obtain rfl : m = 0 := by simpa using hm
      rfl
    | succ k ih =>
      intro m hm
      by_cases hzero : m = 0
      · rw [hzero, Nat.digits_zero, fixedDigits_zero]
        simp
      · have hdiv : m / 10 < 10 ^ k := by
          rw [Nat.pow_succ] at hm
          omega
        rw [Nat.digits_def' (by norm_num) (by omega), List.reverse_cons,
          List.length_cons, Nat.add_sub_add_right, fixedDigits,
          ← ih (m / 10) hdiv, List.append_assoc]
  by_cases hzero : n = 0
  · rw [hzero, fixedDigits_zero, List.map_replicate]
    show List.replicate (k - 1) 48 ++ [48] = _
    rw [← List.replicate_succ', Nat.sub_add_cancel hk]
  · rw [numeral, if_neg hzero, ← hpad k n h, hcode, List.map_append,
      List.map_replicate, List.length_map, List.length_reverse]

-- =================================== bytes

/-- The number bytes spell, most significant byte first. -/
def beNat (bs : List UInt8) : Nat := digitsValue 256 (bs.map UInt8.toNat)

/-- The low `k` bytes of a number, most significant first. -/
def beBytes (k n : Nat) : List UInt8 := (fixedDigits 256 k n).map UInt8.ofNat

@[simp] theorem length_beBytes (k n : Nat) : (beBytes k n).length = k := by
  rw [beBytes, List.length_map, length_fixedDigits]

theorem beBytes_succ (k n : Nat) :
    beBytes (k + 1) n = beBytes k (n / 256) ++ [UInt8.ofNat n] := by
  rw [beBytes, fixedDigits, List.map_append, List.map_singleton]
  congr 2
  apply UInt8.toNat.inj
  simp

theorem toNat_lt_of_mem {bs : List UInt8} :
    ∀ d ∈ bs.map UInt8.toNat, d < 256 := by
  intro d hd
  obtain ⟨b, -, rfl⟩ := List.mem_map.mp hd
  exact b.toNat_lt

theorem beNat_lt (bs : List UInt8) : beNat bs < 256 ^ bs.length := by
  have hlt := digitsValue_lt (@toNat_lt_of_mem bs)
  rwa [List.length_map] at hlt

theorem beNat_concat (bs : List UInt8) (b : UInt8) :
    beNat (bs ++ [b]) = beNat bs * 256 + b.toNat := by
  rw [beNat, List.map_append, List.map_singleton, digitsValue_concat]
  rfl

theorem beNat_inj {bs bs' : List UInt8} (hlen : bs.length = bs'.length)
    (h : beNat bs = beNat bs') : bs = bs' := by
  have hdigits := digits_eq_of_value toNat_lt_of_mem toNat_lt_of_mem
    (by simpa using hlen) h
  exact List.map_injective_iff.mpr (fun _ _ => UInt8.toNat.inj) hdigits

theorem beBytes_beNat (bs : List UInt8) :
    beBytes bs.length (beNat bs) = bs := by
  have hdigits := fixedDigits_digitsValue (@toNat_lt_of_mem bs)
  rw [List.length_map] at hdigits
  rw [beBytes, beNat, hdigits, List.map_map]
  conv_rhs => rw [← List.map_id bs]
  exact List.map_congr_left fun b _ => UInt8.ofNat_toNat

end RemoteDesk.Lib
