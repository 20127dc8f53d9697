/-
Flat buffers: copying ranges between them, and writers that only ever
store one target value at each address.

# Copying

`memcpy dst pos src off n` copies `n` elements; `getElem?_memcpy` reads
the result back. `copyRows` is the loop over the rows of a rectangle
in two buffers with different strides: a row element shows the source
(`getElem?_copyRows`), everything else is as it was
(`getElem?_copyRows_of_ne`). `resize` is that of a zero-filling vector.

# Painting

A buffer that several writers fill in an unknown order is described by
the values it is meant to end with. `Paint T m m'` says that between
`m` and `m'` each address was left alone or given its target `T a`: it
composes, it never undoes a painted address (`Paint.keeps`), and it
leaves every address without a target as it was (`Paint.frame`).
-/
import Mathlib

namespace RemoteDesk.Lib

variable {α : Type*}

-- ================================= copying

/-- Copy `n` elements of `src` from `off` to `dst` at `pos`. -/
def memcpy (dst : List α) (pos : Nat) (src : List α) (off n : Nat) :
    List α :=
  dst.take pos ++ (src.drop off).take n ++ dst.drop (pos + n)

section Memcpy

variable {dst src : List α} {pos off n : Nat}

theorem length_memcpy (hdst : pos + n ≤ dst.length)
    (hsrc : off + n ≤ src.length) :
    (memcpy dst pos src off n).length = dst.length := by
  unfold memcpy
  rw [List.length_append, List.length_append, List.length_take,
    List.length_take, List.length_drop, List.length_drop]
  omega

/-- Inside the range the source shows, outside it the old buffer. -/
theorem getElem?_memcpy (hdst : pos + n ≤ dst.length)
    (hsrc : off + n ≤ src.length) (i : Nat) :
    (memcpy dst pos src off n)[i]?
      = if pos ≤ i ∧ i < pos + n then src[off + (i - pos)]? else dst[i]? := by
  have hhead : (dst.take pos).length = pos :=
    List.length_take_of_le (by omega)
  have hbody : ((src.drop off).take n).length = n := by
    rw [List.length_take, List.length_drop]
    omega
  unfold memcpy
  by_cases hbefore : i < pos
  · rw [if_neg (by omega), List.append_assoc,
      List.getElem?_append_left (by omega),
      List.getElem?_take_of_lt hbefore]
  by_cases hinside : i < pos + n
  · rw [if_pos ⟨by omega, hinside⟩, List.append_assoc,
      List.getElem?_append_right (by omega), hhead,
      List.getElem?_append_left (by omega),
      List.getElem?_take_of_lt (by omega), List.getElem?_drop]
  · rw [if_neg (by omega), List.getElem?_append_right (by
        rw [List.length_append]; omega),
      List.length_append, hhead, hbody, List.getElem?_drop,
      Nat.add_sub_cancel' (by omega)]

end Memcpy

/-- Cut off the end, or grow by copies of `fill`. -/
def resize (buffer : List α) (fill : α) (n : Nat) : List α :=
  buffer.take n ++ List.replicate (n - buffer.length) fill

@[simp] theorem length_resize (buffer : List α) (fill : α) (n : Nat) :
    (resize buffer fill n).length = n := by
  unfold resize
  rw [List.length_append, List.length_take, List.length_replicate]
  omega

/-- Copy `rows` rows of `n` elements, from `off` in steps of `srcStride`
to `pos` in steps of `dstStride`. -/
def copyRows (dst : List α) (pos dstStride : Nat) (src : List α)
    (off srcStride n rows : Nat) : List α :=
  (List.range rows).foldl (fun m row =>
    memcpy m (pos + row * dstStride) src (off + row * srcStride) n) dst

section CopyRows

variable {dst src : List α} {pos dstStride off srcStride n : Nat}

theorem copyRows_succ (rows : Nat) :
    copyRows dst pos dstStride src off srcStride n (rows + 1)
      = memcpy (copyRows dst pos dstStride src off srcStride n rows)
        (pos + rows * dstStride) src (off + rows * srcStride) n := by
  unfold copyRows
  rw [List.range_succ, List.foldl_append]
  rfl

/-- All rows lie in a buffer when each of them does. -/
def RowsInside (length pos stride n rows : Nat) : Prop :=
  ∀ row < rows, pos + row * stride + n ≤ length

theorem length_copyRows {rows : Nat}
    (hdst : RowsInside dst.length pos dstStride n rows)
    (hsrc : RowsInside src.length off srcStride n rows) :
    (copyRows dst pos dstStride src off srcStride n rows).length
      = dst.length := by
  induction rows with
  | zero => rfl
  | succ rows ih =>
    have hrest := ih (fun row h => hdst row (by omega))
      fun row h => hsrc row (by omega)
    rw [copyRows_succ, length_memcpy
      (by rw [hrest]; exact hdst rows (by omega))
      (hsrc rows (by omega)), hrest]

/-- An element of no copied row is as it was. -/
theorem getElem?_copyRows_of_ne {rows i : Nat}
    (hdst : RowsInside dst.length pos dstStride n rows)
    (hsrc : RowsInside src.length off srcStride n rows)
    (h : ∀ row < rows, ∀ k < n, i ≠ pos + row * dstStride + k) :
    (copyRows dst pos dstStride src off srcStride n rows)[i]?
      = dst[i]? := by
  induction rows with
  | zero => rfl
  | succ rows ih =>
    have hdst' : RowsInside dst.length pos dstStride n rows :=
      fun row h => hdst row (by omega)
    have hsrc' : RowsInside src.length off srcStride n rows :=
      fun row h => hsrc row (by omega)
    rw [copyRows_succ, getElem?_memcpy
      (by rw [length_copyRows hdst' hsrc']; exact hdst rows (by omega))
      (hsrc rows (by omega)), if_neg, ih hdst' hsrc'
        fun row hrow => h row (by omega)]
    rintro ⟨hle, hlt⟩
    exact h rows (by omega) (i - (pos + rows * dstStride)) (by omega)
      (by omega)

/-- An element of a copied row shows the source. -/
theorem getElem?_copyRows {rows row k : Nat} (hstride : n ≤ dstStride)
    (hdst : RowsInside dst.length pos dstStride n rows)
    (hsrc : RowsInside src.length off srcStride n rows)
    (hrow : row < rows) (hk : k < n) :
    (copyRows dst pos dstStride src off srcStride n rows)[pos
        + row * dstStride + k]?
      = src[off + row * srcStride + k]? := by
  induction rows with
  | zero => exact absurd hrow (Nat.not_lt_zero row)
  | succ rows ih =>
    have hdst' : RowsInside dst.length pos dstStride n rows :=
      fun row h => hdst row (by omega)
    have hsrc' : RowsInside src.length off srcStride n rows :=
      fun row h => hsrc row (by omega)
    rw [copyRows_succ, getElem?_memcpy
      (by rw [length_copyRows hdst' hsrc']; exact hdst rows (by omega))
      (hsrc rows (by omega))]
    by_cases hlast : row = rows
    · rw [hlast, if_pos ⟨by omega, by omega⟩]
      congr 1
      omega
    · have hlt : row < rows := by omega
      have hnext : (row + 1) * dstStride ≤ rows * dstStride :=
        Nat.mul_le_mul_right _ hlt
      rw [Nat.succ_mul] at hnext
      rw [if_neg (by omega), ih hdst' hsrc' hlt]

end CopyRows

-- ================================ painting

/-- Each address is as it was, or shows its target. -/
def Paint (T : Nat → Option α) (m m' : List α) : Prop :=
  m'.length = m.length
    ∧ ∀ a, m'[a]? = m[a]? ∨ (T a).isSome ∧ m'[a]? = T a

namespace Paint

variable {T : Nat → Option α} {m m' m'' : List α}

theorem refl (T : Nat → Option α) (m : List α) : Paint T m m :=
  ⟨rfl, fun _ => .inl rfl⟩

theorem trans (h : Paint T m m') (h' : Paint T m' m'') :
    Paint T m m'' := by
  refine ⟨h'.1.trans h.1, fun a => ?_⟩
  rcases h'.2 a with heq | hpaint
  · rcases h.2 a with heq' | ⟨hsome, hpaint⟩
    · exact .inl (heq.trans heq')
    · exact .inr ⟨hsome, heq.trans hpaint⟩
  · exact .inr hpaint

/-- What shows its target keeps showing it. -/
theorem keeps (h : Paint T m m') {a : Nat} (ha : m[a]? = T a) :
    m'[a]? = T a := by
  rcases h.2 a with heq | ⟨-, hpaint⟩
  · exact heq.trans ha
  · exact hpaint

/-- An address without a target is never written. -/
theorem frame (h : Paint T m m') {a : Nat} (ha : T a = none) :
    m'[a]? = m[a]? := by
  rcases h.2 a with heq | ⟨hsome, -⟩
  · exact heq
  · rw [ha] at hsome
    cases hsome

/-- Copying the targets of a range paints the range. -/
theorem memcpy {src : List α} {pos off n : Nat}
    (hdst : pos + n ≤ m.length) (hsrc : off + n ≤ src.length)
    (hT : ∀ k < n, T (pos + k) = src[off + k]?) :
    Paint T m (Lib.memcpy m pos src off n)
      ∧ ∀ k < n, (Lib.memcpy m pos src off n)[pos + k]? = T (pos + k) := by
  have hget := getElem?_memcpy hdst hsrc
  refine ⟨⟨length_memcpy hdst hsrc, fun a => ?_⟩, fun k hk => ?_⟩
  · rw [hget a]
    by_cases hin : pos ≤ a ∧ a < pos + n
    · have hk := hT (a - pos) (by omega)
      rw [Nat.add_sub_cancel' hin.1] at hk
      rw [if_pos hin, hk]
      refine .inr ⟨?_, rfl⟩
      rw [List.getElem?_eq_getElem (by omega)]
      rfl
    · rw [if_neg hin]
      exact .inl rfl
  · rw [hget, if_pos ⟨by omega, by omega⟩, hT k hk,
      Nat.add_sub_cancel_left]

end Paint

end RemoteDesk.Lib
