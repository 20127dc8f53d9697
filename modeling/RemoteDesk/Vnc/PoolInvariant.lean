/-
What the worker pool does to the destination, whatever the schedule.

# Targets

`DecodeRun.target` gives each address of the rectangle the byte of the
one job that covers it. The jobs' ranges decode to the tiles the stream
decodes to one after the other (`decodeTiles_iff`), so the targets are
those of the reference decode.

# Invariant

`Pool.Inv` says that the memory is painted with targets, that a worker
in the middle of a tile has painted the rows behind it, and that every
claimed job is finished, in some worker's hands, or lost to a failure.
A pool that stops without a failure has therefore finished every job
(`Inv.finished`), and a pool whose allocations succeed fails only over a
tile that cannot be decoded (`Blames`).
-/
import RemoteDesk.Vnc.TilePool

namespace RemoteDesk.Vnc

open Lib (Parser Paint memcpy exec Meets)
open Lib.Parser (Local Leaves)

-- ===================== jobs and the stream

variable {job : ZrleTileJob} {tile : Bytes}

namespace DecodeRun

variable (run : DecodeRun)

/-- The tile of a job, when its range decodes to the end. -/
def jobTile (job : ZrleTileJob) : Option Bytes :=
  match decodeZrleTile run.decoder job.rect.width job.rect.height
      (job.range run.data) with
  | .ok (tile, []) => some tile
  | _ => none

theorem jobTile_eq :
    run.jobTile job = some tile
      ↔ decodeZrleTile run.decoder job.rect.width job.rect.height
        (job.range run.data) = .ok (tile, []) := by
  unfold jobTile
  constructor
  · intro h
    split at h
    · rename_i tile' heq
      cases h
      exact heq
    · cases h
  · intro h
    rw [h]

/-- A decodable job yields a full tile. -/
theorem length_jobTile (h : run.jobTile job = some tile) :
    tile.length = 4 * (job.rect.width * job.rect.height) :=
  length_decodeZrleTile (run.jobTile_eq.mp h)

end DecodeRun

/-- Decoding from the stream and decoding the scanned range agree. -/
private theorem decode_iff_range {format : PixelFormat} {blueFirst : Bool}
    (hvalid : format.validPixelFormat = true) {rect : TileRect}
    (hsize : TileSize rect.width rect.height) {s m m' : Bytes}
    (hscan : scanZrleTile format.compactPixelBytes rect.width rect.height s
      = .ok ((), m)) :
    decodeZrleTile (.new format blueFirst) rect.width rect.height s
        = .ok (tile, m')
      ↔ m' = m ∧ decodeZrleTile (.new format blueFirst) rect.width
        rect.height (s.take (s.length - m.length)) = .ok (tile, []) := by
  constructor
  · intro h
    obtain ⟨u, hm⟩ := ((decodeZrleTile_leaves hvalid hsize).mp ⟨_, h⟩).1
    rw [hscan] at hm
    cases hm
    exact ⟨rfl, (local_decodeZrleTile _ _ _).run_take h⟩
  · rintro ⟨rfl, h⟩
    obtain ⟨pre, hpre, -⟩ :=
      local_scanZrleTile _ _ _ _ _ _ hscan
    have htake : s.take (s.length - m'.length) = pre := by
      rw [hpre, List.length_append, Nat.add_sub_cancel, List.take_left]
    rw [htake] at h
    obtain ⟨pre', hpre', hany⟩ := local_decodeZrleTile _ _ _ _ _ _ h
    rw [List.append_nil] at hpre'
    rw [hpre, hpre']
    exact hany m'

/-- The reference decodes the stream exactly when every job decodes its
range, to the same tiles, and it ends where the scanner ended. -/
theorem decodeTiles_iff {format : PixelFormat} {blueFirst : Bool}
    (hvalid : format.validPixelFormat = true) {run : DecodeRun}
    (hdecoder : run.decoder = .new format blueFirst) :
    ∀ {rects : List TileRect} {k : Nat} {jobs : List ZrleTileJob}
      {r r' : Bytes} {tiles : List (TileRect × Bytes)},
      k ≤ run.data.length →
      (∀ rect ∈ rects, TileSize rect.width rect.height) →
      scanTiles format.compactPixelBytes run.data.length rects
        (run.data.drop k) = .ok (jobs, r) →
      (decodeTiles run.decoder rects (run.data.drop k) = .ok (tiles, r')
        ↔ r' = r ∧ jobs.map (fun job => (job.rect, run.jobTile job))
          = tiles.map fun t => (t.1, some t.2)) := by
  intro rects
  induction rects with
  | nil =>
    intro k jobs r r' tiles _ _ h
    cases h
    constructor
    · intro h; cases h; exact ⟨rfl, rfl⟩
    · rintro ⟨rfl, h⟩
      cases tiles with
      | nil => rfl
      | cons t tiles => cases h
  | cons rect rects ih =>
    intro k jobs r r' tiles hk hsizes h
    obtain ⟨k', rest, hle, hk', hscan, hrest, rfl⟩ :=
      scanTiles_cons hk h
    have hsize := hsizes rect List.mem_cons_self
    have hrange : ZrleTileJob.range ⟨rect, k, k' - k⟩ run.data
        = (run.data.drop k).take ((run.data.drop k).length
          - (run.data.drop k').length) :=
      (take_drop_length hle hk').symm
    have htile : ∀ {tile m'}, decodeZrleTile run.decoder rect.width
          rect.height (run.data.drop k) = .ok (tile, m')
        ↔ m' = run.data.drop k'
          ∧ run.jobTile ⟨rect, k, k' - k⟩ = some tile := by
      intro tile m'
      rw [run.jobTile_eq, hrange, hdecoder]
      exact decode_iff_range hvalid hsize hscan
    have hsizes' : ∀ x ∈ rects, TileSize x.width x.height :=
      fun x hx => hsizes x (List.mem_cons_of_mem _ hx)
    rw [decodeTiles, Parser.bind_ok]
    constructor
    · rintro ⟨tile, m, hdec, hmore⟩
      obtain ⟨rfl, hjob⟩ := htile.mp hdec
      obtain ⟨tiles', m', htiles, hmore⟩ := Parser.bind_ok.mp hmore
      cases hmore
      obtain ⟨rfl, hmap⟩ := (ih hk' hsizes' hrest).mp htiles
      exact ⟨rfl, by rw [List.map_cons, List.map_cons, hjob, hmap]⟩
    · rintro ⟨rfl, hmap⟩
      cases tiles with
      | nil => cases hmap
      | cons t tiles =>
        rw [List.map_cons, List.map_cons] at hmap
        obtain ⟨hhead, hmap⟩ := List.cons.inj hmap
        obtain ⟨hrect, hjob⟩ := Prod.mk.inj hhead
        refine ⟨t.2, _, htile.mpr ⟨rfl, hjob⟩, Parser.bind_ok.mpr
          ⟨tiles, r', (ih hk' hsizes' hrest).mpr ⟨rfl, hmap⟩, ?_⟩⟩
        have ht : (rect, t.2) = t := Prod.ext hrect rfl
        rw [ht]
        rfl

-- ================================= targets

namespace DecodeRun

variable (run : DecodeRun)

/-- The tiles that can be decoded. -/
def decodable : List (TileRect × Bytes) :=
  run.jobs.filterMap fun job =>
    (run.jobTile job).map fun tile => (job.rect, tile)

/-- The byte an address of a `width` by `height` rectangle ends with. -/
def target (width height a : Nat) : Option UInt8 :=
  if run.base ≤ a ∧ (a - run.base) / run.stride < height
      ∧ (a - run.base) % run.stride < 4 * width then
    pixelByte run.decodable ((a - run.base) % run.stride / 4)
      ((a - run.base) / run.stride) ((a - run.base) % run.stride % 4)
  else none

/-- The rectangle lies in the memory, and the jobs are its tiles. -/
structure Fits (width height length : Nat) : Prop where
  stride_le : 4 * width ≤ run.stride
  inside : run.base + (height - 1) * run.stride + 4 * width ≤ length
  rects : run.jobs.map (·.rect) = tileRects width height

end DecodeRun

/-- A pixel lies in one tile only. -/
theorem tileRect_unique {width height x y : Nat} {rect rect' : TileRect}
    (h : rect ∈ tileRects width height)
    (h' : rect' ∈ tileRects width height)
    (hc : rect.contains x y = true) (hc' : rect'.contains x y = true) :
    rect = rect' := by
  obtain ⟨hx, hy, hw, hh⟩ := mem_tileRects.mp h
  obtain ⟨hx', hy', hw', hh'⟩ := mem_tileRects.mp h'
  rw [mem_tileStarts] at hx hy hx' hy'
  unfold TileRect.contains at hc hc'
  rw [decide_eq_true_eq] at hc hc'
  obtain ⟨rx, ry, rw', rh⟩ := rect
  obtain ⟨rx', ry', rw'', rh'⟩ := rect'
  dsimp only at *
  obtain rfl : rx = rx' := by omega
  obtain rfl : ry = ry' := by omega
  subst hw hh hw' hh'
  rfl

theorem nodup_tileStarts (length : Nat) : (tileStarts length).Nodup := by
  unfold tileStarts
  exact List.nodup_range.map fun a b h => by omega

theorem nodup_tileRects (width height : Nat) :
    (tileRects width height).Nodup := by
  unfold tileRects
  refine List.nodup_flatMap.mpr ⟨fun y _ => ?_, ?_⟩
  · exact (nodup_tileStarts width).map fun a b h =>
      congrArg TileRect.x h
  · refine (nodup_tileStarts height).imp fun {y y'} hne => ?_
    intro rect hrect hrect'
    obtain ⟨x, -, rfl⟩ := List.mem_map.mp hrect
    obtain ⟨x', -, h⟩ := List.mem_map.mp hrect'
    exact hne (congrArg TileRect.y h).symm

namespace DecodeRun

variable {run : DecodeRun} {width height length : Nat}

/-- The pixel of a decodable tile, read through the list of them. -/
theorem pixelByte_decodable (hfits : run.Fits width height length)
    (hjob : job ∈ run.jobs) (htile : run.jobTile job = some tile) {x y : Nat}
    (hc : job.rect.contains x y = true) (channel : Nat) :
    pixelByte run.decodable x y channel
      = tile[4 * ((y - job.rect.y) * job.rect.width
        + (x - job.rect.x)) + channel]? := by
  have hnodup : (run.jobs.map (·.rect)).Nodup := by
    rw [hfits.rects]
    exact nodup_tileRects width height
  have hmem : ∀ job' ∈ run.jobs, job'.rect ∈ tileRects width height := by
    intro job' hjob'
    rw [← hfits.rects]
    exact List.mem_map_of_mem hjob'
  have hin : (job.rect, tile) ∈ run.decodable :=
    List.mem_filterMap.mpr ⟨job, hjob, by rw [htile]; rfl⟩
  have hfind : run.decodable.find? (fun t => t.1.contains x y)
      = some (job.rect, tile) := by
    cases hf : run.decodable.find? fun t => t.1.contains x y with
    | none =>
      exact absurd hc (List.find?_eq_none.mp hf _ hin)
    | some t =>
      have hct := List.find?_some hf
      obtain ⟨job', hjob', ht⟩ :=
        List.mem_filterMap.mp (List.mem_of_find?_eq_some hf)
      obtain ⟨tile', htile', rfl⟩ := Option.map_eq_some_iff.mp ht
      have hrect := tileRect_unique (hmem job' hjob') (hmem job hjob)
        hct hc
      obtain rfl := List.inj_on_of_nodup_map hnodup hjob' hjob hrect
      rw [htile] at htile'
      cases htile'
      rfl
  unfold pixelByte
  rw [hfind]
  rfl

/-- The address where row `row` of a job starts. -/
def rowStart (run : DecodeRun) (job : ZrleTileJob) (row : Nat) : Nat :=
  run.base + (job.rect.y + row) * run.stride + job.rect.x * 4

/-- What the tiles of a rectangle satisfy. -/
theorem rect_inside (hfits : run.Fits width height length)
    (hjob : job ∈ run.jobs) :
    job.rect.x + job.rect.width ≤ width
      ∧ job.rect.y + job.rect.height ≤ height
      ∧ TileSize job.rect.width job.rect.height := by
  have hmem : job.rect ∈ tileRects width height := by
    rw [← hfits.rects]
    exact List.mem_map_of_mem hjob
  obtain ⟨hx, hy, hw, hh⟩ := mem_tileRects.mp hmem
  rw [mem_tileStarts] at hx hy
  exact ⟨by omega, by omega, tileSize_of_mem hmem⟩

/-- The targets of a row are the bytes of that row of the tile. -/
theorem target_row (hfits : run.Fits width height length)
    (hjob : job ∈ run.jobs) (htile : run.jobTile job = some tile) {row k : Nat}
    (hrow : row < job.rect.height) (hk : k < job.rect.width * 4) :
    run.target width height (run.rowStart job row + k)
      = tile[row * (job.rect.width * 4) + k]? := by
  obtain ⟨hx, hy, -⟩ := rect_inside hfits hjob
  have hstride := hfits.stride_le
  have hoff : run.rowStart job row + k - run.base
      = run.stride * (job.rect.y + row) + (job.rect.x * 4 + k) := by
    unfold rowStart
    rw [Nat.mul_comm run.stride]
    omega
  have hlt : job.rect.x * 4 + k < run.stride := by omega
  have hdiv : (run.rowStart job row + k - run.base) / run.stride
      = job.rect.y + row := by
    rw [hoff, Nat.mul_add_div (by omega), Nat.div_eq_of_lt hlt,
      Nat.add_zero]
  have hmod : (run.rowStart job row + k - run.base) % run.stride
      = job.rect.x * 4 + k := by
    rw [hoff, Nat.mul_add_mod, Nat.mod_eq_of_lt hlt]
  unfold target
  rw [hdiv, hmod, if_pos ⟨by unfold rowStart; omega, by omega, by omega⟩]
  have hcol : (job.rect.x * 4 + k) / 4 = job.rect.x + k / 4 := by omega
  have hchan : (job.rect.x * 4 + k) % 4 = k % 4 := by omega
  have hcontains : job.rect.contains (job.rect.x + k / 4)
      (job.rect.y + row) = true :=
    decide_eq_true ⟨by omega, by omega, by omega, by omega⟩
  rw [hcol, hchan, pixelByte_decodable hfits hjob htile hcontains,
    Nat.add_sub_cancel_left, Nat.add_sub_cancel_left]
  congr 1
  have : 4 * (row * job.rect.width) = row * (job.rect.width * 4) := by
    rw [Nat.mul_comm 4, Nat.mul_assoc]
  omega

/-- Row `row` of a job shows its targets. -/
def RowPainted (run : DecodeRun) (width height : Nat) (memory : Bytes)
    (job : ZrleTileJob) (row : Nat) : Prop :=
  ∀ k < job.rect.width * 4,
    memory[run.rowStart job row + k]?
      = run.target width height (run.rowStart job row + k)

theorem RowPainted.paint {memory memory' : Bytes} {row : Nat}
    (h : run.RowPainted width height memory job row)
    (hpaint : Paint (run.target width height) memory memory') :
    run.RowPainted width height memory' job row :=
  fun k hk => hpaint.keeps (h k hk)

/-- Copying a row of a decoded tile paints it. -/
theorem memcpy_row {memory : Bytes}
    (hfits : run.Fits width height memory.length) (hjob : job ∈ run.jobs)
    (htile : run.jobTile job = some tile) {row : Nat}
    (hrow : row < job.rect.height) :
    Paint (run.target width height) memory
        (memcpy memory (run.rowStart job row) tile
          (row * (job.rect.width * 4)) (job.rect.width * 4))
      ∧ run.RowPainted width height
        (memcpy memory (run.rowStart job row) tile
          (row * (job.rect.width * 4)) (job.rect.width * 4)) job row := by
  obtain ⟨hx, hy, -⟩ := rect_inside hfits hjob
  have hinside := hfits.inside
  have hlast : (job.rect.y + row) * run.stride
      ≤ (height - 1) * run.stride :=
    Nat.mul_le_mul_right _ (by omega)
  have hdst : run.rowStart job row + job.rect.width * 4
      ≤ memory.length := by
    unfold rowStart
    omega
  have hlen := run.length_jobTile htile
  have hrows : row * (job.rect.width * 4) + job.rect.width * 4
      ≤ job.rect.height * (job.rect.width * 4) := by
    rw [← Nat.succ_mul]
    exact Nat.mul_le_mul_right _ hrow
  have hsrc : row * (job.rect.width * 4) + job.rect.width * 4
      ≤ tile.length := by
    rw [hlen, show 4 * (job.rect.width * job.rect.height)
      = job.rect.height * (job.rect.width * 4) by ring]
    exact hrows
  exact Paint.memcpy hdst hsrc fun k hk =>
    target_row hfits hjob htile hrow hk

end DecodeRun

-- =============================== invariant

/-- The worker has the job in hand. -/
def Worker.Holds (worker : Worker) (index : Nat) : Prop :=
  worker = .decoding index ∨ ∃ tile row, worker = .copying index tile row

/-- The job is decoded and all its rows are painted. -/
def DecodeRun.Finished (run : DecodeRun) (width height : Nat)
    (memory : Bytes) (job : ZrleTileJob) : Prop :=
  (∃ tile, run.jobTile job = some tile) ∧ ∀ r < job.rect.height,
    run.RowPainted width height memory job r

/-- A worker in the middle of a tile has painted the rows behind it. -/
def DecodeRun.Copied (run : DecodeRun) (width height : Nat)
    (memory : Bytes) : Worker → Prop
  | .copying index tile row =>
    ∃ job, run.jobs[index]? = some job ∧ run.jobTile job = some tile
      ∧ ∀ r < row, r < job.rect.height →
        run.RowPainted width height memory job r
  | _ => True

/-- What holds whenever a worker is about to move. -/
structure Pool.Inv (run : DecodeRun) (width height : Nat)
    (memory : Bytes) (p : Pool) : Prop where
  crew : 0 < p.workers.length
  paint : Paint (run.target width height) memory p.memory
  copied : ∀ (i : Nat) (worker : Worker), p.workers[i]? = some worker →
    run.Copied width height p.memory worker
  claimed : ∀ index < p.nextJob, ∀ job, run.jobs[index]? = some job →
    p.failed = true
      ∨ (∃ (i : Nat) (worker : Worker),
        p.workers[i]? = some worker ∧ worker.Holds index)
      ∨ run.Finished width height p.memory job
  stopped : ∀ i : Nat, p.workers[i]? = some Worker.done →
    p.failed = true ∨ run.jobs.length ≤ p.nextJob

namespace Pool

variable {run : DecodeRun} {width height : Nat} {memory : Bytes}
  {p : Pool}

@[simp] theorem set_workers (i : Nat) (worker : Worker) :
    (p.set i worker).workers = p.workers.set i worker := rfl

@[simp] theorem set_nextJob (i : Nat) (worker : Worker) :
    (p.set i worker).nextJob = p.nextJob := rfl

@[simp] theorem set_failed (i : Nat) (worker : Worker) :
    (p.set i worker).failed = p.failed := rfl

@[simp] theorem set_memory (i : Nat) (worker : Worker) :
    (p.set i worker).memory = p.memory := rfl

@[simp] theorem fail_workers (error : String) :
    (p.fail error).workers = p.workers := by
  unfold fail; split <;> rfl

@[simp] theorem fail_nextJob (error : String) :
    (p.fail error).nextJob = p.nextJob := by
  unfold fail; split <;> rfl

@[simp] theorem fail_failed (error : String) :
    (p.fail error).failed = true := by
  unfold fail
  split
  · assumption
  · rfl

@[simp] theorem fail_memory (error : String) :
    (p.fail error).memory = p.memory := by
  unfold fail; split <;> rfl

/-- One worker moves from `old` to `new`: the invariant asks only about
the job it held and the job it claims. -/
private theorem Inv.moved (h : p.Inv run width height memory)
    {i : Nat} {old : Worker} (hi : p.workers[i]? = some old)
    (new : Worker) {p' : Pool} (hworkers : p'.workers = p.workers.set i new)
    (hpaint : Paint (run.target width height) p.memory p'.memory)
    (hfailed : p.failed = true → p'.failed = true)
    (hnext : p.nextJob ≤ p'.nextJob)
    (hcopied : run.Copied width height p'.memory new)
    (hheld : ∀ index < p'.nextJob, ∀ job, run.jobs[index]? = some job →
      p.nextJob ≤ index ∨ old.Holds index →
      p'.failed = true ∨ new.Holds index
        ∨ run.Finished width height p'.memory job)
    (hdone : new = .done →
      p'.failed = true ∨ run.jobs.length ≤ p'.nextJob) :
    p'.Inv run width height memory := by
  have hlt : i < p.workers.length := (List.getElem?_eq_some_iff.mp hi).1
  have hself : p'.workers[i]? = some new := by
    rw [hworkers, List.getElem?_set_self hlt]
  have hother : ∀ j, j ≠ i → p'.workers[j]? = p.workers[j]? := by
    intro j hne
    rw [hworkers, List.getElem?_set_ne (Ne.symm hne)]
  have hkeep : ∀ job r, run.RowPainted width height p.memory job r →
      run.RowPainted width height p'.memory job r :=
    fun job r hr => hr.paint hpaint
  constructor
  · rw [hworkers, List.length_set]
    exact h.crew
  · exact h.paint.trans hpaint
  · intro j worker hj
    by_cases hij : j = i
    · subst hij
      rw [hself] at hj
      cases hj
      exact hcopied
    · rw [hother j hij] at hj
      have hc := h.copied j worker hj
      cases worker with
      | copying index tile row =>
        obtain ⟨job, hjob, htile, hrows⟩ := hc
        exact ⟨job, hjob, htile, fun r hr hlt =>
          hkeep job r (hrows r hr hlt)⟩
      | _ => trivial
  · intro index hindex job hjob
    by_cases hmine : p.nextJob ≤ index ∨ old.Holds index
    · rcases hheld index hindex job hjob hmine with hf | hnew | hfin
      · exact .inl hf
      · exact .inr (.inl ⟨i, new, hself, hnew⟩)
      · exact .inr (.inr hfin)
    · obtain ⟨hbelow, hnot⟩ := not_or.mp hmine
      rcases h.claimed index (by omega) job hjob with
        hf | ⟨j, worker, hj, hholds⟩ | ⟨htile, hrows⟩
      · exact .inl (hfailed hf)
      · have hne : j ≠ i := by
          rintro rfl
          rw [hi] at hj
          cases hj
          exact hnot hholds
        exact .inr (.inl ⟨j, worker, by rw [hother j hne]; exact hj,
          hholds⟩)
      · exact .inr (.inr ⟨htile, fun r hr => hkeep job r (hrows r hr)⟩)
  · intro j hj
    by_cases hij : j = i
    · subst hij
      rw [hself] at hj
      exact hdone (Option.some.inj hj)
    · rw [hother j hij] at hj
      rcases h.stopped j hj with hf | hall
      · exact .inl (hfailed hf)
      · exact .inr (hall.trans hnext)

/-- A worker that only stops because of a failure. -/
private theorem Inv.stop (h : p.Inv run width height memory)
    {i : Nat} {old : Worker} (hi : p.workers[i]? = some old)
    (error : String) :
    ((p.fail error).set i .done).Inv run width height memory := by
  refine h.moved hi .done (by simp) ?_ (by simp) (by simp) trivial ?_ ?_
  · rw [set_memory, fail_memory]
    exact Paint.refl _ _
  · intro index _ job _ _
    exact .inl (by simp)
  · exact fun _ => .inl (by simp)

/-- Every move of every worker keeps the invariant. -/
theorem Inv.step (hfits : run.Fits width height memory.length)
    (h : p.Inv run width height memory) (event : Nat × Bool) :
    (p.step run event).Inv run width height memory := by
  obtain ⟨i, fault⟩ := event
  unfold Pool.step
  cases hi : p.workers[i]? with
  | none => exact h
  | some worker =>
    dsimp only
    cases worker with
    | done => exact h
    | ready =>
      refine h.moved hi _ rfl (Paint.refl _ _) id (Nat.le_refl _) ?_ ?_ ?_
      · split <;> trivial
      · rintro index hindex job - (hnext | hholds | ⟨_, _, hholds⟩)
        · exact absurd hindex (Nat.not_lt.mpr hnext)
        · cases hholds
        · cases hholds
      · intro hdone
        by_cases hf : p.failed = true
        · exact .inl hf
        · rw [if_neg hf] at hdone
          cases hdone
    | claiming =>
      refine h.moved hi _ rfl (Paint.refl _ _) id (Nat.le_succ _) ?_ ?_ ?_
      · split <;> trivial
      · rintro index hindex job hjob (hnext | hholds | ⟨_, _, hholds⟩)
        · have hindex : index < p.nextJob + 1 := hindex
          obtain rfl : index = p.nextJob := by omega
          have hlt := (List.getElem?_eq_some_iff.mp hjob).1
          rw [if_neg (by omega)]
          exact .inr (.inl (.inl rfl))
        · cases hholds
        · cases hholds
      · intro hdone
        by_cases hall : p.nextJob ≥ run.jobs.length
        · exact .inr (Nat.le_succ_of_le hall)
        · rw [if_neg hall] at hdone
          cases hdone
    | decoding index =>
      unfold Pool.move
      dsimp only
      cases hjob : run.jobs[index]? with
      | none => exact h
      | some job =>
        dsimp only
        by_cases hfault : fault = true
        · rw [if_pos hfault]
          exact h.stop hi _
        rw [if_neg hfault]
        cases hdec : decodeZrleTile run.decoder job.rect.width
            job.rect.height (job.range run.data) with
        | error tileError => exact h.stop hi _
        | ok x =>
          obtain ⟨tile, reader⟩ := x
          dsimp only
          by_cases hleft : reader.length ≠ 0
          · rw [if_pos hleft]
            exact h.stop hi _
          rw [if_neg hleft]
          have hnil : reader = [] :=
            List.length_eq_zero_iff.mp (not_not.mp hleft)
          subst hnil
          refine h.moved hi _ rfl (Paint.refl _ _) id
            (Nat.le_refl _) ⟨job, hjob, run.jobTile_eq.mpr hdec,
              fun r hr => absurd hr (Nat.not_lt_zero r)⟩ ?_ nofun
          rintro index' hindex job' - (hnext | hholds | ⟨_, _, hh⟩)
          · exact absurd hindex (Nat.not_lt.mpr hnext)
          · cases hholds
            exact .inr (.inl (.inr ⟨tile, 0, rfl⟩))
          · cases hh
    | copying index tile row =>
      obtain ⟨job, hjob, htile, hrows⟩ := h.copied i _ hi
      have hmem : job ∈ run.jobs := List.mem_of_getElem? hjob
      unfold Pool.move
      dsimp only
      rw [hjob]
      dsimp only
      by_cases hrow : row < job.rect.height
      · rw [if_pos hrow]
        have hfits' : run.Fits width height p.memory.length := by
          rw [h.paint.1]
          exact hfits
        obtain ⟨hpaint, hpainted⟩ :=
          DecodeRun.memcpy_row hfits' hmem htile hrow
        refine h.moved hi _ rfl hpaint id (Nat.le_refl _)
          ⟨job, hjob, htile, fun r hr hlt => ?_⟩ ?_ nofun
        · by_cases hlast : r = row
          · rw [hlast]
            exact hpainted
          · exact (hrows r (by omega) hlt).paint hpaint
        · rintro index' hindex job' - (hnext | hholds | ⟨_, _, hh⟩)
          · exact absurd hindex (Nat.not_lt.mpr hnext)
          · cases hholds
          · cases hh
            exact .inr (.inl (.inr ⟨tile, row + 1, rfl⟩))
      · rw [if_neg hrow]
        refine h.moved hi _ rfl (Paint.refl _ _) id (Nat.le_refl _)
          trivial ?_ nofun
        rintro index' hindex job' hjob' (hnext | hholds | ⟨_, _, hh⟩)
        · exact absurd hindex (Nat.not_lt.mpr hnext)
        · cases hholds
        · cases hh
          rw [hjob] at hjob'
          cases hjob'
          exact .inr (.inr ⟨⟨tile, htile⟩, fun r hr =>
            hrows r (by omega) hr⟩)

/-- The invariant holds as the workers start. -/
theorem Inv.initial (run : DecodeRun) (width height : Nat)
    (memory : Bytes) {workers : Nat} (hworkers : 0 < workers) :
    (Pool.initial memory workers).Inv run width height memory := by
  have hready : ∀ (i : Nat) (worker : Worker),
      (Pool.initial memory workers).workers[i]? = some worker →
      worker = .ready := by
    intro i worker hi
    exact List.eq_of_mem_replicate (List.mem_of_getElem? hi)
  constructor
  · show 0 < (List.replicate workers Worker.ready).length
    rwa [List.length_replicate]
  · exact Paint.refl _ _
  · intro i worker hi
    rw [hready i worker hi]
    trivial
  · exact fun index hindex => absurd hindex (Nat.not_lt_zero index)
  · intro i hi
    cases hready i _ hi

/-- The invariant holds after every schedule. -/
theorem Inv.reached (hfits : run.Fits width height memory.length)
    {workers : Nat} (hworkers : 0 < workers)
    (schedule : List (Nat × Bool)) :
    (exec (Pool.step run) (.initial memory workers) schedule).Inv run
      width height memory :=
  have hstep : ∀ (p : Pool) (event : Nat × Bool),
      p.Inv run width height memory →
      (p.step run event).Inv run width height memory :=
    fun _ event h => Inv.step hfits h event
  Lib.exec_invariant hstep schedule
    (Inv.initial run width height memory hworkers)

/-- Every worker stopped and none failed: every job is finished. -/
theorem Inv.finished (h : p.Inv run width height memory)
    (hjoined : p.joined = true) (hok : p.failed = false)
    (hjob : job ∈ run.jobs) : run.Finished width height p.memory job := by
  have hdone : ∀ worker ∈ p.workers, worker = .done := by
    intro worker hworker
    exact beq_iff_eq.mp (List.all_eq_true.mp hjoined worker hworker)
  have hcrew := h.crew
  have hfirst : p.workers[0]? = some Worker.done := by
    rw [List.getElem?_eq_getElem hcrew,
      hdone _ (List.getElem_mem hcrew)]
  have hall : run.jobs.length ≤ p.nextJob := by
    rcases h.stopped 0 hfirst with hf | hall
    · rw [hok] at hf
      cases hf
    · exact hall
  obtain ⟨index, hindex⟩ := List.mem_iff_getElem?.mp hjob
  have hlt := (List.getElem?_eq_some_iff.mp hindex).1
  rcases h.claimed index (by omega) job hindex with
    hf | ⟨i, worker, hi, hholds⟩ | hfin
  · rw [hok] at hf
    cases hf
  · rw [hdone worker (List.mem_of_getElem? hi)] at hholds
    rcases hholds with hholds | ⟨_, _, hholds⟩
    · cases hholds
    · cases hholds
  · exact hfin

/-- A failure has a tile to blame. -/
def Blames (run : DecodeRun) (p : Pool) : Prop :=
  p.failed = true → ∃ job ∈ run.jobs, run.jobTile job = none

/-- While allocations succeed only a bad tile fails the pool. -/
theorem Blames.step (h : p.Blames run) {event : Nat × Bool}
    (hevent : event.2 = false) : (p.step run event).Blames run := by
  obtain ⟨i, fault⟩ := event
  dsimp only at hevent
  subst hevent
  unfold Pool.step
  cases hi : p.workers[i]? with
  | none => exact h
  | some worker =>
    dsimp only
    cases worker with
    | ready => exact h
    | claiming => exact h
    | done => exact h
    | decoding index =>
      unfold Pool.move
      dsimp only
      cases hjob : run.jobs[index]? with
      | none => exact h
      | some job =>
        dsimp only
        rw [if_neg Bool.false_ne_true]
        have hmem := List.mem_of_getElem? hjob
        cases hdec : decodeZrleTile run.decoder job.rect.width
            job.rect.height (job.range run.data) with
        | error tileError =>
          exact fun _ => ⟨job, hmem, by
            unfold DecodeRun.jobTile; rw [hdec]⟩
        | ok x =>
          obtain ⟨tile, reader⟩ := x
          cases reader with
          | nil => exact h
          | cons b reader =>
            exact fun _ => ⟨job, hmem, by
              unfold DecodeRun.jobTile; rw [hdec]⟩
    | copying index tile row =>
      unfold Pool.move
      dsimp only
      cases hjob : run.jobs[index]? with
      | none => exact h
      | some job =>
        dsimp only
        by_cases hrow : row < job.rect.height
        · rw [if_pos hrow]
          exact h
        · rw [if_neg hrow]
          exact h

theorem Blames.reached (run : DecodeRun) (memory : Bytes) (workers : Nat)
    {schedule : List (Nat × Bool)}
    (hfaultless : ∀ event ∈ schedule, event.2 = false) :
    (exec (Pool.step run) (.initial memory workers) schedule).Blames
      run := by
  have hstep : ∀ (p : Pool) (event : Nat × Bool), p.Blames run →
      event.2 = false → (p.step run event).Blames run :=
    fun _ _ h hevent => h.step hevent
  have hinitial : (Pool.initial memory workers).Blames run := by
    intro hfailed
    cases hfailed
  exact (Meets.of_forall hfaultless _).invariant hstep hinitial

end Pool

end RemoteDesk.Vnc
