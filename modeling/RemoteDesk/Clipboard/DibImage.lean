/-
The DIBV5 image of the RDP clipboard (rdp_clipboard_content.cpp): a
header of 124 bytes, then BGRA pixels, row by row.

# What is modelled

`le`, `put`, `dimensions`, `encodeDibV5` and `decodeDibV5`. A
`std::vector` is a list, written in place with `List.set`; a null
pointer is the empty list. Both pixel loops are the list of the copies
they make, in order: each takes four bytes from one vector to another
and swaps red and blue (`swapPixel`). The writer puts the first row on
top; the reader also takes images that start at the bottom.

# Results

What a `put` leaves elsewhere is said once for a byte and once for a
word (`byteAt_put_other`, `le_put_other`). The reader's two loops over
rows and columns are one run over the pixels when the first row is on
top (`range_rows`), and two swaps cancel (`decodeDibV5_encodeDibV5`).
-/
import RemoteDesk.Lib.LittleEndian

namespace RemoteDesk.Clipboard

open Lib

def kMaxDimension : Nat := 8192

def kMaxPixels : Nat := 4194304

/-- `RdpClipboardContent`. -/
structure RdpClipboardContent where
  textUtf8 : Option (List UInt8) := none
  png : List UInt8 := []
  htmlUtf8 : Option (List UInt8) := none
  rtfBytes : List UInt8 := []
  rgbaStraight : List UInt8 := []
  width : Nat := 0
  height : Nat := 0
deriving DecidableEq, Repr

-- =================================== words

def le (data : List UInt8) (p : Nat) : Nat :=
  (byteAt data p).toNat ||| (byteAt data (p + 1)).toNat <<< 8
    ||| (byteAt data (p + 2)).toNat <<< 16
    ||| (byteAt data (p + 3)).toNat <<< 24

def put (b : List UInt8) (p v : Nat) : List UInt8 :=
  (((b.set p (UInt8.ofNat v)).set (p + 1) (UInt8.ofNat (v >>> 8))).set
    (p + 2) (UInt8.ofNat (v >>> 16))).set (p + 3) (UInt8.ofNat (v >>> 24))

@[simp] theorem length_put (b : List UInt8) (p v : Nat) :
    (put b p v).length = b.length := by
  simp [put]

variable {b : List UInt8} {p : Nat}

theorem byteAt_put_other {v q : Nat}
    (h : q < p ∨ p + 4 ≤ q) : byteAt (put b p v) q = byteAt b q := by
  unfold put
  rw [byteAt_set_other (by omega), byteAt_set_other (by omega),
    byteAt_set_other (by omega), byteAt_set_other (by omega)]

/-- The word is the number its four bytes spell. -/
theorem le_eq (data : List UInt8) (p : Nat) :
    le data p = leNat [byteAt data p, byteAt data (p + 1),
      byteAt data (p + 2), byteAt data (p + 3)] := by
  rw [← leNat_cons_or, ← leNat_cons_or, ← leNat_cons_or]
  have h0 : leNat [byteAt data (p + 3)] = (byteAt data (p + 3)).toNat := by
    simp
  rw [h0]
  unfold le
  simp only [Nat.shiftLeft_or_distrib, ← Nat.shiftLeft_add, Nat.or_assoc]

theorem le_congr {a : List UInt8}
    (h : ∀ i < 4, byteAt a (p + i) = byteAt b (p + i)) : le a p = le b p := by
  have h0 := h 0 (by omega)
  rw [Nat.add_zero] at h0
  unfold le
  rw [h0, h 1 (by omega), h 2 (by omega), h 3 (by omega)]

theorem le_put_other {v q : Nat}
    (h : q + 4 ≤ p ∨ p + 4 ≤ q) : le (put b p v) q = le b q := by
  apply le_congr
  intro i hi
  apply byteAt_put_other
  omega

theorem le_set_other {i q : Nat} {a : UInt8}
    (h : i < q ∨ q + 4 ≤ i) : le (b.set i a) q = le b q := by
  apply le_congr
  intro j hj
  apply byteAt_set_other
  omega

theorem le_put {v : Nat} (hp : p + 4 ≤ b.length)
    (hv : v < 2 ^ 32) : le (put b p v) p = v := by
  have hbytes : [byteAt (put b p v) p, byteAt (put b p v) (p + 1),
      byteAt (put b p v) (p + 2), byteAt (put b p v) (p + 3)]
      = leBytes 4 v := by
    unfold put
    rw [byteAt_set_other (by omega), byteAt_set_other (by omega),
      byteAt_set_other (by omega), byteAt_set_same (by omega),
      byteAt_set_other (by omega), byteAt_set_other (by omega),
      byteAt_set_same (by rw [List.length_set]; omega),
      byteAt_set_other (by omega),
      byteAt_set_same (by simp only [List.length_set]; omega),
      byteAt_set_same (by simp only [List.length_set]; omega)]
    simp only [Nat.shiftRight_eq_div_pow, leBytes, Nat.div_div_eq_div_mul,
      Nat.reducePow, Nat.reduceMul]
  rw [le_eq, hbytes]
  exact leNat_leBytes_of_lt (by norm_num at hv ⊢; exact hv)

-- ================================== pixels

/-- One pixel from `src` to `dst`, with red and blue swapped. -/
def swapPixel (data : List UInt8) (src : Nat) (out : List UInt8)
    (dst : Nat) : List UInt8 :=
  (((out.set dst (byteAt data (src + 2))).set (dst + 1)
    (byteAt data (src + 1))).set (dst + 2) (byteAt data src)).set (dst + 3)
      (byteAt data (src + 3))

/-- A loop over pixels: its copies `(src, dst)` in order. -/
def copyPixels (data : List UInt8) (copies : List (Nat × Nat))
    (out : List UInt8) : List UInt8 :=
  copies.foldl (fun out copy => swapPixel data copy.1 out copy.2) out

def dimensions (w h : Nat) : Bool :=
  w ≠ 0 && h ≠ 0 && w ≤ kMaxDimension && h ≤ kMaxDimension
    && w * h ≤ kMaxPixels

/-- The 124 bytes of the header, in a vector that has room for `size`
bytes of pixels. -/
def dibHeader (width height size : Nat) : List UInt8 :=
  let result := List.replicate (124 + size) 0
  let result := put result 0 124
  let result := put result 4 width
  let result := put result 8 ((2 ^ 32 - height) % 2 ^ 32)
  let result := result.set 12 1
  let result := result.set 14 32
  let result := put result 16 3
  let result := put result 20 size
  let result := put result 40 0x00ff0000
  let result := put result 44 0x0000ff00
  let result := put result 48 0x000000ff
  let result := put result 52 0xff000000
  let result := put result 56 0x73524742
  put result 108 4

def encodeDibV5 (rgba : List UInt8) (width height : Nat) :
    Option (List UInt8) :=
  if ¬ dimensions width height ∨ rgba.length ≠ width * height * 4 then none
  else some (copyPixels rgba
    ((List.range (rgba.length / 4)).map fun k => (4 * k, 124 + 4 * k))
    (dibHeader width height rgba.length))

/-- The copies of the reader, row by row. -/
def dibCopies (w h : Nat) (top : Bool) : List (Nat × Nat) :=
  (List.range h).flatMap fun y => (List.range w).map fun x =>
    (124 + ((if top then y else h - 1 - y) * w + x) * 4, (y * w + x) * 4)

def decodeDibV5 (data : List UInt8) (result : RdpClipboardContent) :
    Option RdpClipboardContent :=
  if data.length < 124 ∨ 124 + kMaxPixels * 4 < data.length
      ∨ le data 0 ≠ 124 then none
  else
    let w := le data 4
    let rawH := le data 8
    let top := rawH &&& 0x80000000 ≠ 0
    let h := if top then (2 ^ 32 - rawH) % 2 ^ 32 else rawH
    if ¬ dimensions w h ∨ byteAt data 12 ≠ 1 ∨ byteAt data 13 ≠ 0
        ∨ byteAt data 14 ≠ 32 ∨ byteAt data 15 ≠ 0 ∨ le data 16 ≠ 3
        ∨ le data 32 ≠ 0 ∨ le data 36 ≠ 0 ∨ le data 40 ≠ 0x00ff0000
        ∨ le data 44 ≠ 0x0000ff00 ∨ le data 48 ≠ 0xff
        ∨ le data 52 ≠ 0xff000000 ∨ le data 56 ≠ 0x73524742
        ∨ le data 112 ≠ 0 ∨ le data 116 ≠ 0 ∨ le data 120 ≠ 0 then none
    -- no embedded calibrated color or gamma
    else if ∃ i ∈ List.range 48, byteAt data (60 + i) ≠ 0 then none
    else
      let bytes := w * h * 4
      if le data 20 ≠ 0 ∧ le data 20 ≠ bytes
          ∨ data.length ≠ 124 + bytes then none
      else some { result with
        rgbaStraight := copyPixels data (dibCopies w h top)
          (List.replicate bytes 0)
        width := w
        height := h }

-- ============================== the header

theorem length_dibHeader (w h size : Nat) :
    (dibHeader w h size).length = 124 + size := by
  simp [dibHeader]

theorem le_replicate (n p : Nat) : le (List.replicate n 0) p = 0 := by
  simp [le, byteAt_replicate]

/-- A word of the header, from the fields written last to first. -/
theorem dibHeader_words {w h size : Nat} (hw : w < 2 ^ 32)
    (hsize : size < 2 ^ 32) :
    le (dibHeader w h size) 0 = 124 ∧ le (dibHeader w h size) 4 = w
      ∧ le (dibHeader w h size) 8 = (2 ^ 32 - h) % 2 ^ 32
      ∧ le (dibHeader w h size) 16 = 3
      ∧ le (dibHeader w h size) 20 = size
      ∧ le (dibHeader w h size) 40 = 0x00ff0000
      ∧ le (dibHeader w h size) 44 = 0x0000ff00
      ∧ le (dibHeader w h size) 48 = 0xff
      ∧ le (dibHeader w h size) 52 = 0xff000000
      ∧ le (dibHeader w h size) 56 = 0x73524742 := by
  have hh : (2 ^ 32 - h) % 2 ^ 32 < 2 ^ 32 := Nat.mod_lt _ (by norm_num)
  unfold dibHeader
  dsimp only
  generalize (2 ^ 32 - h) % 2 ^ 32 = h at hh ⊢
  refine ⟨?_, ?_, ?_, ?_, ?_, ?_, ?_, ?_, ?_, ?_⟩ <;>
    simp (disch := first | omega | (simp; omega)) only
      [le_put_other, le_set_other, le_put]

/-- The words the header leaves at zero. -/
theorem dibHeader_zero_word {w h size : Nat}
    (hp : p = 32 ∨ p = 36 ∨ p = 112 ∨ p = 116 ∨ p = 120) :
    le (dibHeader w h size) p = 0 := by
  unfold dibHeader
  dsimp only
  rw [le_put_other (by omega), le_put_other (by omega),
    le_put_other (by omega), le_put_other (by omega),
    le_put_other (by omega), le_put_other (by omega),
    le_put_other (by omega), le_put_other (by omega),
    le_set_other (by omega), le_set_other (by omega),
    le_put_other (by omega), le_put_other (by omega),
    le_put_other (by omega), le_replicate]

/-- The bytes the header leaves at zero. -/
theorem dibHeader_zero_byte {w h size : Nat}
    (hp : p = 13 ∨ p = 15 ∨ 60 ≤ p ∧ p < 108) :
    byteAt (dibHeader w h size) p = 0 := by
  unfold dibHeader
  dsimp only
  rw [byteAt_put_other (by omega), byteAt_put_other (by omega),
    byteAt_put_other (by omega), byteAt_put_other (by omega),
    byteAt_put_other (by omega), byteAt_put_other (by omega),
    byteAt_put_other (by omega), byteAt_put_other (by omega),
    byteAt_set_other (by omega), byteAt_set_other (by omega),
    byteAt_put_other (by omega), byteAt_put_other (by omega),
    byteAt_put_other (by omega), byteAt_replicate]

theorem dibHeader_planes (w h size : Nat) :
    byteAt (dibHeader w h size) 12 = 1
      ∧ byteAt (dibHeader w h size) 14 = 32 := by
  unfold dibHeader
  dsimp only
  constructor <;>
    simp (disch := first | omega | (simp; omega)) only
      [byteAt_put_other, byteAt_set_other, byteAt_set_same]

-- =============================== the loops

/-- The place of a byte after the swap of red and blue. -/
def swapped : Nat → Nat
  | 0 => 2
  | 2 => 0
  | c => c

theorem swapped_lt {c : Nat} (h : c < 4) : swapped c < 4 := by
  match c, h with
  | 0, _ => decide
  | 1, _ => decide
  | 2, _ => decide
  | 3, _ => decide

theorem swapped_swapped (c : Nat) : swapped (swapped c) = c := by
  match c with
  | 0 => rfl
  | 1 => rfl
  | 2 => rfl
  | _ + 3 => rfl

theorem length_swapPixel (data : List UInt8) (src : Nat) (out : List UInt8)
    (dst : Nat) : (swapPixel data src out dst).length = out.length := by
  simp [swapPixel]

section Pixel

variable {data out : List UInt8} {src dst : Nat}

theorem byteAt_swapPixel_other {q : Nat} (h : q < dst ∨ dst + 4 ≤ q) :
    byteAt (swapPixel data src out dst) q = byteAt out q := by
  unfold swapPixel
  rw [byteAt_set_other (by omega), byteAt_set_other (by omega),
    byteAt_set_other (by omega), byteAt_set_other (by omega)]

theorem byteAt_swapPixel (h : dst + 4 ≤ out.length) {c : Nat} (hc : c < 4) :
    byteAt (swapPixel data src out dst) (dst + c)
      = byteAt data (src + swapped c) := by
  unfold swapPixel
  match c, hc with
  | 0, _ =>
    rw [byteAt_set_other (by omega), byteAt_set_other (by omega),
      byteAt_set_other (by omega)]
    exact byteAt_set_same (by omega)
  | 1, _ =>
    rw [byteAt_set_other (by omega), byteAt_set_other (by omega),
      byteAt_set_same (by rw [List.length_set]; omega)]
    rfl
  | 2, _ =>
    rw [byteAt_set_other (by omega),
      byteAt_set_same (by simp only [List.length_set]; omega)]
    rfl
  | 3, _ =>
    rw [byteAt_set_same (by simp only [List.length_set]; omega)]
    rfl

end Pixel

theorem length_copyPixels (data : List UInt8) (copies : List (Nat × Nat))
    (out : List UInt8) : (copyPixels data copies out).length = out.length := by
  induction copies generalizing out with
  | nil => rfl
  | cons copy copies ih =>
    exact (ih _).trans (length_swapPixel data copy.1 out copy.2)

/-- `n` pixels in a row, from `s` on to `d` on. -/
def rowCopies (s d n : Nat) : List (Nat × Nat) :=
  (List.range n).map fun k => (s + 4 * k, d + 4 * k)

theorem copyPixels_rowCopies_succ (data out : List UInt8) (s d n : Nat) :
    copyPixels data (rowCopies s d (n + 1)) out
      = swapPixel data (s + 4 * n) (copyPixels data (rowCopies s d n) out)
          (d + 4 * n) := by
  rw [rowCopies, List.range_succ, List.map_append, copyPixels,
    List.foldl_append]
  rfl

section Row

variable {data out : List UInt8} {s d n : Nat}

/-- Bytes before the row are left alone. -/
theorem byteAt_copyPixels_before {q : Nat} (hq : q < d) :
    byteAt (copyPixels data (rowCopies s d n) out) q = byteAt out q := by
  induction n with
  | zero => rfl
  | succ n ih =>
    rw [copyPixels_rowCopies_succ, byteAt_swapPixel_other (by omega), ih]

/-- Every pixel of the row arrives, swapped. -/
theorem byteAt_copyPixels (hroom : d + 4 * n ≤ out.length) {k c : Nat}
    (hk : k < n) (hc : c < 4) :
    byteAt (copyPixels data (rowCopies s d n) out) (d + 4 * k + c)
      = byteAt data (s + 4 * k + swapped c) := by
  induction n with
  | zero => omega
  | succ n ih =>
    rw [copyPixels_rowCopies_succ]
    by_cases hlast : k = n
    · rw [hlast]
      apply byteAt_swapPixel _ hc
      rw [length_copyPixels]
      omega
    · rw [byteAt_swapPixel_other (by omega)]
      exact ih (by omega) (by omega)

end Row

theorem range_rows (w h : Nat) :
    ((List.range h).flatMap fun y => (List.range w).map fun x => y * w + x)
      = List.range (h * w) := by
  induction h with
  | zero => simp
  | succ h ih =>
    rw [List.range_succ, List.flatMap_append, ih, Nat.succ_mul,
      List.range_add]
    simp

/-- With the first row on top, rows and columns are one run. -/
theorem dibCopies_top (w h : Nat) :
    dibCopies w h true = rowCopies 124 0 (h * w) := by
  rw [rowCopies, ← range_rows, List.map_flatMap, dibCopies]
  congr 1
  funext y
  rw [List.map_map]
  apply List.map_congr_left
  intro x _
  simp only [if_true, Function.comp_apply, Prod.mk.injEq]
  omega

/-- Two runs of swaps, there and back. -/
theorem copyPixels_twice {rgba out zeros : List UInt8} {n : Nat}
    (hrgba : rgba.length = 4 * n) (hout : out.length = 124 + 4 * n)
    (hzeros : zeros.length = 4 * n) :
    copyPixels (copyPixels rgba (rowCopies 0 124 n) out)
      (rowCopies 124 0 n) zeros = rgba := by
  apply eq_of_byteAt
  · rw [length_copyPixels, hzeros, hrgba]
  · intro i hi
    rw [length_copyPixels, hzeros] at hi
    have hc : i % 4 < 4 := Nat.mod_lt i (by decide)
    have hi' : i = 0 + 4 * (i / 4) + i % 4 := by omega
    rw [hi', byteAt_copyPixels (by omega) (by omega) hc,
      byteAt_copyPixels (by omega) (by omega) (swapped_lt hc),
      swapped_swapped]

/-- The image as written: its pixels do not reach the header. -/
theorem le_copyPixels {rgba out : List UInt8} {n : Nat} (hp : p + 4 ≤ 124) :
    le (copyPixels rgba (rowCopies 0 124 n) out) p = le out p := by
  apply le_congr
  intro i hi
  apply byteAt_copyPixels_before
  omega

-- ============================== round trip

theorem dimensions_iff {w h : Nat} :
    dimensions w h = true ↔ w ≠ 0 ∧ h ≠ 0 ∧ w ≤ kMaxDimension
      ∧ h ≤ kMaxDimension ∧ w * h ≤ kMaxPixels := by
  simp [dimensions, and_assoc]

/-- The sign bit of a negated height. -/
theorem negated_top {h : Nat} (h0 : h ≠ 0) (hmax : h ≤ kMaxDimension) :
    (2 ^ 32 - h) % 2 ^ 32 &&& 0x80000000 ≠ 0 := by
  have hdim : kMaxDimension = 8192 := rfl
  have hmod : (2 ^ 32 - h) % 2 ^ 32 = 2 ^ 31 * 1 + (2 ^ 31 - h) := by omega
  have hlow : 2 ^ 31 - h < 2 ^ 31 := by omega
  intro hzero
  have hbit := congrArg (Nat.testBit · 31) hzero
  rw [hmod, Nat.two_pow_add_eq_or_of_lt hlow] at hbit
  have htop : Nat.testBit 2147483648 31 = true := by decide
  simp [htop] at hbit

theorem decodeDibV5_encodeDibV5 {rgba bytes : List UInt8} {w h : Nat}
    (henc : encodeDibV5 rgba w h = some bytes)
    (content : RdpClipboardContent) :
    decodeDibV5 bytes content
      = some { content with rgbaStraight := rgba, width := w, height := h } := by
  unfold encodeDibV5 at henc
  split at henc
  · cases henc
  · rename_i hok
    simp only [not_or, not_not] at hok
    obtain ⟨hdim, hlen⟩ := hok
    obtain ⟨hw0, hh0, hw, hh, hpixels⟩ := dimensions_iff.mp hdim
    have hmaxdim : kMaxDimension = 8192 := rfl
    have hmaxpix : kMaxPixels = 4194304 := rfl
    have hcount : rgba.length / 4 = w * h := by omega
    have hrow : (List.range (rgba.length / 4)).map
        (fun k => (4 * k, 124 + 4 * k)) = rowCopies 0 124 (w * h) := by
      rw [hcount, rowCopies]
      simp only [Nat.zero_add]
    rw [hrow] at henc
    have hbytes := Option.some.inj henc
    have hsize : bytes.length = 124 + w * h * 4 := by
      rw [← hbytes, length_copyPixels, length_dibHeader, hlen]
    have hword : ∀ {p}, p + 4 ≤ 124 →
        le bytes p = le (dibHeader w h rgba.length) p := by
      intro p hp
      rw [← hbytes]
      exact le_copyPixels hp
    have hbyte : ∀ {p}, p < 124 →
        byteAt bytes p = byteAt (dibHeader w h rgba.length) p := by
      intro p hp
      rw [← hbytes]
      exact byteAt_copyPixels_before hp
    obtain ⟨h0, h4, h8, h16, h20, h40, h44, h48, h52, h56⟩ :=
      @dibHeader_words w h rgba.length (by omega) (by omega)
    obtain ⟨h12, h14⟩ := dibHeader_planes w h rgba.length
    have htop := negated_top hh0 hh
    have hheight : (2 ^ 32 - (2 ^ 32 - h) % 2 ^ 32) % 2 ^ 32 = h := by
      omega
    have hz : ∀ {p}, (p = 32 ∨ p = 36 ∨ p = 112 ∨ p = 116 ∨ p = 120) →
        le bytes p = 0 := by
      intro p hp
      rw [hword (by omega), dibHeader_zero_word hp]
    have hzb : ∀ {p}, (p = 13 ∨ p = 15 ∨ 60 ≤ p ∧ p < 108) →
        byteAt bytes p = 0 := by
      intro p hp
      rw [hbyte (by omega), dibHeader_zero_byte hp]
    rw [← hword (by omega)] at h0 h4 h8 h16 h20 h40 h44 h48 h52 h56
    rw [← hbyte (by omega)] at h12 h14
    unfold decodeDibV5
    rw [if_neg (by omega)]
    dsimp only
    rw [h4, h8, if_pos htop, hheight, if_neg, if_neg, if_neg]
    · rw [decide_eq_true htop, dibCopies_top, Nat.mul_comm h w, ← hbytes,
        copyPixels_twice (by omega)
          (by rw [length_dibHeader]; omega)
          (by rw [List.length_replicate]; omega)]
    · omega
    · intro ⟨i, hi, hne⟩
      rw [List.mem_range] at hi
      exact hne (hzb (by omega))
    · simp only [not_or, not_not]
      exact ⟨hdim, h12, hzb (by omega), h14, hzb (by omega), h16,
        hz (by omega), hz (by omega), h40, h44, h48, h52, h56,
        hz (by omega), hz (by omega), hz (by omega)⟩

end RemoteDesk.Clipboard
