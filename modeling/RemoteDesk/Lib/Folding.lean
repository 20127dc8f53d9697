/-
A stream whose updates fold together while they wait.

# The stream

Messages are accepted, wait, and are delivered. Those of one kind (the
updates) wait in a slot and fold into one message there; the others (the
markers) queue behind what the slot held. `Folding` is such a stream
with its two histories, and `Folding.Step` is what may happen to it. Two
rules lose updates: a marker that begins the stream anew drops the slot,
and a purge drops every update that waits.

# The account of it

`Explained` cuts what was accepted into consecutive groups, in order,
one for every message that waits or has gone and one for every message
that was dropped. A group of updates shows as the left fold of its
parts, a marker is a group of its own. Every step keeps an explanation
(`Step.explained`).
-/
import Mathlib

namespace RemoteDesk.Lib

variable {M : Type*}

-- ================================== stream

/-- How a stream treats its messages. -/
structure FoldRules (M : Type*) where
  isUpdate : M → Bool
  fold : M → M → M
  /-- The markers that begin the stream anew. -/
  restarts : M → Bool
  marks : ∀ m, restarts m = true → isUpdate m = false

/-- A stream: what it accepted and delivered, and what waits. -/
structure Folding (M : Type*) where
  accepted : List M := []
  delivered : List M := []
  queue : List M := []
  slot : Option M := none

/-- What may happen to a stream. Only some streams are ever purged. -/
inductive Folding.Step (r : FoldRules M) (purges : Prop) :
    Folding M → Folding M → Prop
  /-- An update finds the slot empty. -/
  | opens (s : Folding M) (m : M) (hm : r.isUpdate m = true)
      (hs : s.slot = none) :
      Step r purges s
        { s with accepted := s.accepted ++ [m], slot := some m }
  | joins (s : Folding M) (m v : M) (hm : r.isUpdate m = true)
      (hs : s.slot = some v) (hv : r.isUpdate (r.fold v m) = true) :
      Step r purges s
        { s with
          accepted := s.accepted ++ [m], slot := some (r.fold v m) }
  | flush (s : Folding M) (v : M) (hs : s.slot = some v) :
      Step r purges s { s with queue := s.queue ++ [v], slot := none }
  /-- A marker is queued with nothing left in the slot. -/
  | marks (s : Folding M) (m : M) (hm : r.isUpdate m = false)
      (hs : s.slot = none) :
      Step r purges s
        { s with accepted := s.accepted ++ [m], queue := s.queue ++ [m] }
  /-- A marker that begins the stream anew drops the slot. -/
  | restarts (s : Folding M) (m : M) (hr : r.restarts m = true) :
      Step r purges s
        { s with
          accepted := s.accepted ++ [m]
          queue := s.queue ++ [m]
          slot := none }
  | purge (s : Folding M) (hp : purges) :
      Step r purges s
        { s with
          queue := s.queue.filter fun m => !r.isUpdate m
          slot := none }
  | pop (s : Folding M) (m : M) (rest : List M)
      (hq : s.queue = m :: rest) :
      Step r purges s
        { s with delivered := s.delivered ++ [m], queue := rest }
  /-- The slot goes out when the queue is empty. -/
  | popSlot (s : Folding M) (v : M) (hq : s.queue = [])
      (hs : s.slot = some v) :
      Step r purges s
        { s with delivered := s.delivered ++ [v], slot := none }

-- ================================== groups

/-- Consecutive accepted messages that show as one, or were dropped. -/
structure FoldGroup (M : Type*) where
  first : M
  more : List M := []
  kept : Bool := true

variable {m : M} {g : FoldGroup M}

namespace FoldGroup

def parts (g : FoldGroup M) : List M := g.first :: g.more

variable (r : FoldRules M)

/-- The message a group shows as. -/
def value (g : FoldGroup M) : M := g.more.foldl r.fold g.first

def output (g : FoldGroup M) : Option M :=
  if g.kept then some (g.value r) else none

/-- A marker is a group of its own and is never dropped; updates group
with updates, and show as one. -/
structure Sound (g : FoldGroup M) : Prop where
  marker : r.isUpdate g.first = false → g.more = [] ∧ g.kept = true
  updates : r.isUpdate g.first = true →
    (∀ m ∈ g.more, r.isUpdate m = true) ∧ r.isUpdate (g.value r) = true

/-- The group without its message. -/
def drop (g : FoldGroup M) : FoldGroup M := { g with kept := false }

/-- The group after a purge. -/
def purge (g : FoldGroup M) : FoldGroup M :=
  if r.isUpdate g.first then g.drop else g

variable {r}

theorem output_kept (h : g.kept = true) : g.output r = some (g.value r) :=
  if_pos h

theorem output_drop : g.drop.output r = none := rfl

theorem Sound.single : Sound r { first := m } where
  marker _ := ⟨rfl, rfl⟩
  updates h := ⟨by simp, h⟩

theorem Sound.drop (h : g.Sound r) (hu : r.isUpdate g.first = true) :
    g.drop.Sound r where
  marker hm := by
    have hm' : r.isUpdate g.first = false := hm
    rw [hu] at hm'
    cases hm'
  updates := h.updates

/-- A group of updates takes another in. -/
theorem Sound.join (h : g.Sound r) (hu : r.isUpdate g.first = true)
    (hm : r.isUpdate m = true) (hv : r.isUpdate (r.fold (g.value r) m) = true) :
    Sound r { g with more := g.more ++ [m] } where
  marker hf := by
    have hf' : r.isUpdate g.first = false := hf
    rw [hu] at hf'
    cases hf'
  updates _ := by
    refine ⟨fun p hp => ?_, ?_⟩
    · rcases List.mem_append.mp hp with hp | hp
      · exact (h.updates hu).1 p hp
      · rw [List.mem_singleton.mp hp]
        exact hm
    · simpa [value] using hv

/-- A group that shows a marker is that marker. -/
theorem Sound.parts_marker (h : g.Sound r) (hm : r.isUpdate m = false)
    (hout : g.output r = some m) : g.parts = [m] := by
  have hkept : g.kept = true := by
    by_contra hdropped
    rw [output, if_neg hdropped] at hout
    cases hout
  rw [output_kept hkept] at hout
  cases hu : r.isUpdate g.first with
  | true =>
    rw [← Option.some.inj hout, (h.updates hu).2] at hm
    cases hm
  | false =>
    have hmore := (h.marker hu).1
    rw [value, hmore] at hout
    rw [parts, hmore, ← Option.some.inj hout]
    rfl

theorem Sound.purge (h : g.Sound r) : (g.purge r).Sound r := by
  unfold FoldGroup.purge
  split
  · next hu => exact h.drop hu
  · exact h

/-- A purge leaves of what a group shows the markers. -/
theorem Sound.output_purge (h : g.Sound r) :
    (g.purge r).output r
      = (g.output r).filter fun m => !r.isUpdate m := by
  unfold FoldGroup.purge
  split
  · next hu =>
    rw [output_drop]
    unfold output
    split <;> simp [Option.filter, (h.updates hu).2]
  · next hu =>
    have hm : r.isUpdate g.first = false := by simpa using hu
    obtain ⟨hmore, hkept⟩ := h.marker hm
    rw [output_kept hkept, value, hmore]
    simp [Option.filter, hm]

end FoldGroup

-- ============================ explanations

/-- What was delivered is what was accepted, cut into groups. -/
def Cut (r : FoldRules M) (accepted delivered : List M) : Prop :=
  ∃ groups : List (FoldGroup M),
    accepted = groups.flatMap FoldGroup.parts
      ∧ delivered = groups.filterMap (FoldGroup.output r)
      ∧ ∀ g ∈ groups, g.Sound r

/-- A group is dropped only for a marker that begins anew. -/
def DropsRestart (r : FoldRules M) (groups : List (FoldGroup M)) : Prop :=
  ∀ pre g post, groups = pre ++ g :: post → g.kept = false →
    ∃ h later, post = h :: later ∧ r.restarts h.first = true

namespace DropsRestart

variable {r : FoldRules M} {groups : List (FoldGroup M)}

theorem nil : DropsRestart r [] := by
  intro pre g post h
  simp at h

/-- A kept group can follow. -/
theorem snoc (h : DropsRestart r groups)
    (hg : g.kept = true) : DropsRestart r (groups ++ [g]) := by
  intro pre d post hsplit hd
  rcases List.eq_nil_or_concat post with rfl | ⟨init, last, rfl⟩
  · obtain ⟨-, hlast⟩ := List.append_inj' hsplit rfl
    rw [List.singleton_inj] at hlast
    rw [← hlast, hg] at hd
    cases hd
  · rw [List.concat_eq_append] at hsplit ⊢
    have hsplit' : groups ++ [g] = (pre ++ d :: init) ++ [last] := by
      simpa using hsplit
    obtain ⟨e, later, rfl, he⟩ :=
      h pre d init (List.append_inj' hsplit' rfl).1 hd
    exact ⟨e, later ++ [last], rfl, he⟩

/-- What precedes a group of updates needs it for no dropped group. -/
theorem of_snoc (h : DropsRestart r (groups ++ [g]))
    (hg : r.isUpdate g.first = true) : DropsRestart r groups := by
  intro pre d post hsplit hd
  obtain ⟨e, later, hpost, he⟩ :=
    h pre d (post ++ [g]) (by rw [hsplit]; simp) hd
  cases post with
  | nil =>
    rw [List.nil_append] at hpost
    obtain ⟨rfl, -⟩ := List.cons.inj hpost
    rw [r.marks _ he] at hg
    cases hg
  | cons e' later' =>
    rw [List.cons_append] at hpost
    obtain ⟨rfl, -⟩ := List.cons.inj hpost
    exact ⟨e', later', rfl, he⟩

/-- The last group may be dropped for a marker that begins anew. -/
theorem drop_snoc (h : DropsRestart r groups) {m : FoldGroup M}
    (hm : m.kept = true) (hr : r.restarts m.first = true) :
    DropsRestart r (groups ++ [g.drop] ++ [m]) := by
  intro pre d post hsplit hd
  rcases List.eq_nil_or_concat post with rfl | ⟨init, last, rfl⟩
  · obtain ⟨-, hlast⟩ := List.append_inj' hsplit rfl
    rw [List.singleton_inj] at hlast
    rw [← hlast, hm] at hd
    cases hd
  · rw [List.concat_eq_append] at hsplit ⊢
    have hsplit' : groups ++ [g.drop] ++ [m]
        = (pre ++ d :: init) ++ [last] := by
      simpa using hsplit
    obtain ⟨hfront, hlast⟩ := List.append_inj' hsplit' rfl
    rw [List.singleton_inj] at hlast
    rcases List.eq_nil_or_concat init with rfl | ⟨init, inner, rfl⟩
    · exact ⟨last, [], rfl, hlast ▸ hr⟩
    · rw [List.concat_eq_append] at hfront ⊢
      have hfront' : groups ++ [g.drop]
          = (pre ++ d :: init) ++ [inner] := by
        simpa using hfront
      obtain ⟨e, later, rfl, he⟩ :=
        h pre d init (List.append_inj' hfront' rfl).1 hd
      exact ⟨e, later ++ [inner] ++ [last], by simp, he⟩

end DropsRestart

/-- An explanation of a stream: the groups that have gone, those queued,
and the one in the slot. -/
structure Explained (r : FoldRules M) (purges : Prop) (s : Folding M)
    (gone queued : List (FoldGroup M)) (last : Option (FoldGroup M)) :
    Prop where
  accepted : s.accepted
    = (gone ++ queued ++ last.toList).flatMap FoldGroup.parts
  delivered : s.delivered = gone.filterMap (FoldGroup.output r)
  queue : s.queue = queued.filterMap (FoldGroup.output r)
  slot : s.slot = last.map (FoldGroup.value r)
  waits : ∀ g, last = some g →
    g.kept = true ∧ r.isUpdate g.first = true
  sound : ∀ g ∈ gone ++ queued ++ last.toList, g.Sound r
  drops : ¬ purges → DropsRestart r (gone ++ queued ++ last.toList)

namespace Explained

variable {r : FoldRules M} {purges : Prop} {s : Folding M}
  {gone queued : List (FoldGroup M)} {last : Option (FoldGroup M)}

theorem init : Explained r purges {} [] [] none where
  accepted := rfl
  delivered := rfl
  queue := rfl
  slot := rfl
  waits _ h := by cases h
  sound _ h := by cases h
  drops _ := .nil

/-- A message of its own, behind what is queued. -/
theorem opens (h : Explained r purges s gone queued none)
    (hm : r.isUpdate m = true) :
    Explained r purges
      { s with accepted := s.accepted ++ [m], slot := some m }
      gone queued (some { first := m }) where
  accepted := by simp [h.accepted, FoldGroup.parts]
  delivered := h.delivered
  queue := h.queue
  slot := rfl
  waits g hg := by
    cases hg
    exact ⟨rfl, hm⟩
  sound g hg := by
    rcases List.mem_append.mp hg with hg | hg
    · exact h.sound g (List.mem_append_left _ hg)
    · rw [List.mem_singleton.mp hg]
      exact .single
  drops hp := by
    have hdrops := h.drops hp
    rw [Option.toList_none, List.append_nil] at hdrops
    exact hdrops.snoc rfl

/-- An update joins the group in the slot. -/
theorem joins (h : Explained r purges s gone queued (some g))
    (hm : r.isUpdate m = true) (hv : r.isUpdate (r.fold (g.value r) m) = true) :
    Explained r purges
      { s with
        accepted := s.accepted ++ [m]
        slot := some (r.fold (g.value r) m) }
      gone queued (some { g with more := g.more ++ [m] }) where
  accepted := by simp [h.accepted, FoldGroup.parts]
  delivered := h.delivered
  queue := h.queue
  slot := by simp [FoldGroup.value]
  waits g' hg' := by
    cases hg'
    exact h.waits g rfl
  sound g' hg' := by
    rcases List.mem_append.mp hg' with hg' | hg'
    · exact h.sound g' (List.mem_append_left _ hg')
    · rw [List.mem_singleton.mp hg']
      exact (h.sound g (by simp)).join (h.waits g rfl).2 hm hv
  drops hp := (h.drops hp).of_snoc (h.waits g rfl).2 |>.snoc
    (h.waits g rfl).1

theorem flush (h : Explained r purges s gone queued (some g)) :
    Explained r purges
      { s with queue := s.queue ++ [g.value r], slot := none }
      gone (queued ++ [g]) none where
  accepted := by simp [h.accepted]
  delivered := h.delivered
  queue := by
    rw [List.filterMap_append, ← h.queue]
    simp [FoldGroup.output_kept (h.waits g rfl).1]
  slot := rfl
  waits _ hg := by cases hg
  sound g' hg' := h.sound g' (by simpa using hg')
  drops hp := by simpa using h.drops hp

theorem marks (h : Explained r purges s gone queued none) :
    Explained r purges
      { s with accepted := s.accepted ++ [m], queue := s.queue ++ [m] }
      gone (queued ++ [{ first := m }]) none where
  accepted := by simp [h.accepted, FoldGroup.parts]
  delivered := h.delivered
  queue := by
    rw [List.filterMap_append, ← h.queue]
    rfl
  slot := h.slot
  waits _ hg := by cases hg
  sound g hg := by
    simp only [Option.toList_none, List.append_nil, ← List.append_assoc,
      List.mem_append, List.mem_singleton] at hg
    rcases hg with hg | rfl
    · exact h.sound g (by simpa using hg)
    · exact .single
  drops hp := by
    have hdrops := h.drops hp
    rw [Option.toList_none, List.append_nil] at hdrops ⊢
    rw [← List.append_assoc]
    exact hdrops.snoc rfl

/-- The slot is dropped, and the marker queued. -/
theorem restarts (h : Explained r purges s gone queued (some g))
    (hr : r.restarts m = true) :
    Explained r purges
      { s with
        accepted := s.accepted ++ [m]
        queue := s.queue ++ [m]
        slot := none }
      gone (queued ++ [g.drop, { first := m }]) none where
  accepted := by simp [h.accepted, FoldGroup.parts, FoldGroup.drop]
  delivered := h.delivered
  queue := by
    rw [List.filterMap_append, ← h.queue]
    rfl
  slot := rfl
  waits _ hg := by cases hg
  sound g' hg' := by
    have hmem : g' ∈ gone ++ queued ∨ g' = g.drop
        ∨ g' = ({ first := m } : FoldGroup M) := by
      simpa [or_assoc] using hg'
    rcases hmem with hmem | rfl | rfl
    · exact h.sound g' (List.mem_append_left _ hmem)
    · exact (h.sound g (by simp)).drop (h.waits g rfl).2
    · exact .single
  drops hp := by
    have hdrops := ((h.drops hp).of_snoc (h.waits g rfl).2).drop_snoc
      (g := g) (m := { first := m }) rfl hr
    simpa using hdrops

/-- A purge takes every update that waits. -/
theorem purge (hp : purges) (h : Explained r purges s gone queued last) :
    Explained r purges
      { s with
        queue := s.queue.filter fun m => !r.isUpdate m
        slot := none }
      gone ((queued ++ last.toList).map (FoldGroup.purge r)) none where
  accepted := by
    have hparts : ∀ g : FoldGroup M, (g.purge r).parts = g.parts := by
      intro g
      unfold FoldGroup.purge
      split <;> rfl
    simp [h.accepted, List.flatMap_append, List.flatMap_map, hparts]
  delivered := h.delivered
  queue := by
    have hlast : (last.toList.map (FoldGroup.purge r)).filterMap
        (FoldGroup.output r) = [] := by
      cases hl : last with
      | none => rfl
      | some g =>
        have hu := (h.waits g hl).2
        simp [FoldGroup.purge, hu, FoldGroup.output_drop]
    have hqueued : (queued.map (FoldGroup.purge r)).filterMap
        (FoldGroup.output r)
          = (queued.filterMap (FoldGroup.output r)).filter
            fun m => !r.isUpdate m := by
      have hsound : ∀ g ∈ queued, g.Sound r := fun g hg =>
        h.sound g (by simp [hg])
      rw [List.filterMap_map, List.filter_filterMap]
      refine List.filterMap_congr fun g hg => ?_
      exact (hsound g hg).output_purge
    rw [List.map_append, List.filterMap_append, hlast, List.append_nil,
      hqueued, ← h.queue]
  slot := rfl
  waits _ hg := by cases hg
  sound g hg := by
    rw [Option.toList_none, List.append_nil] at hg
    rcases List.mem_append.mp hg with hmem | hmem
    · exact h.sound g (by simp [hmem])
    · obtain ⟨g', hg', rfl⟩ := List.mem_map.mp hmem
      refine (h.sound g' ?_).purge
      rw [List.append_assoc]
      exact List.mem_append_right _ hg'
  drops hnone := absurd hp hnone

/-- The head of the queue goes, and with it what was dropped before. -/
theorem pop (h : Explained r purges s gone queued last) {rest : List M}
    (hq : s.queue = m :: rest) :
    ∃ gone' queued',
      Explained r purges
        { s with delivered := s.delivered ++ [m], queue := rest }
        gone' queued' last := by
  rw [h.queue, List.filterMap_eq_cons_iff] at hq
  obtain ⟨dropped, g, later, rfl, hnone, hg, hlater⟩ := hq
  refine ⟨gone ++ dropped ++ [g], later, ?_⟩
  have hsame : gone ++ dropped ++ [g] ++ later ++ last.toList
      = gone ++ (dropped ++ g :: later) ++ last.toList := by simp
  constructor
  · rw [hsame]
    exact h.accepted
  · have hdropped : dropped.filterMap (FoldGroup.output r) = [] :=
      List.filterMap_eq_nil_iff.mpr hnone
    rw [List.filterMap_append, List.filterMap_append, hdropped,
      List.append_nil, ← h.delivered, List.filterMap_cons_some hg]
    rfl
  · exact hlater.symm
  · exact h.slot
  · exact h.waits
  · rw [hsame]
    exact h.sound
  · rw [hsame]
    exact h.drops

theorem popSlot (h : Explained r purges s gone queued (some g))
    (hq : s.queue = []) :
    Explained r purges
      { s with delivered := s.delivered ++ [g.value r], slot := none }
      (gone ++ queued ++ [g]) [] none where
  accepted := by simp [h.accepted]
  delivered := by
    rw [List.filterMap_append, List.filterMap_append, ← h.queue, hq,
      List.append_nil, ← h.delivered]
    simp [FoldGroup.output_kept (h.waits g rfl).1]
  queue := hq
  slot := rfl
  waits _ hg := by cases hg
  sound g' hg' := h.sound g' (by simpa using hg')
  drops hp := by simpa using h.drops hp

end Explained

namespace Explained

variable {r : FoldRules M} {purges : Prop} {s : Folding M}
  {gone queued : List (FoldGroup M)} {last : Option (FoldGroup M)}

/-- A marker goes out after everything accepted before it, and before
everything accepted after it. -/
theorem cut_at_marker (h : Explained r purges s gone queued last)
    {pre post : List M} (hm : r.isUpdate m = false)
    (hsplit : s.delivered = pre ++ m :: post) :
    ∃ before after waiting,
      s.accepted = before ++ m :: (after ++ waiting)
        ∧ Cut r before pre ∧ Cut r after post := by
  have hsound : ∀ g ∈ gone, g.Sound r := fun g hg =>
    h.sound g (by simp [hg])
  rw [h.delivered, List.filterMap_eq_append_iff] at hsplit
  obtain ⟨before, rest, rfl, hpre, hrest⟩ := hsplit
  rw [List.filterMap_eq_cons_iff] at hrest
  obtain ⟨dropped, g, after, rfl, hnone, hg, hpost⟩ := hrest
  have hparts := (hsound g (by simp)).parts_marker hm hg
  refine ⟨(before ++ dropped).flatMap FoldGroup.parts,
    after.flatMap FoldGroup.parts,
    (queued ++ last.toList).flatMap FoldGroup.parts,
    ?_, ⟨before ++ dropped, rfl, ?_, fun g' hg' => hsound g' ?_⟩,
    ⟨after, rfl, hpost.symm, fun g' hg' => hsound g' ?_⟩⟩
  · rw [h.accepted]
    simp [List.flatMap_append, hparts]
  · rw [List.filterMap_append, hpre, List.filterMap_eq_nil_iff.mpr hnone,
      List.append_nil]
  · rcases List.mem_append.mp hg' with hg' | hg' <;> simp [hg']
  · simp [hg']

/-- A stream never purged with nothing waiting has delivered what it
accepted, but for the updates dropped where it began anew. -/
theorem cut_of_drained (h : Explained r purges s gone queued last)
    (hp : ¬ purges) (hqueue : s.queue = []) (hslot : s.slot = none) :
    ∃ groups : List (FoldGroup M),
      s.accepted = groups.flatMap FoldGroup.parts
        ∧ s.delivered = groups.filterMap (FoldGroup.output r)
        ∧ (∀ g ∈ groups, g.Sound r) ∧ DropsRestart r groups := by
  have hlast : last = none := by
    simpa [hslot] using h.slot.symm
  subst hlast
  have hnone : queued.filterMap (FoldGroup.output r) = [] :=
    h.queue.symm.trans hqueue
  refine ⟨gone ++ queued, ?_, ?_, ?_, ?_⟩
  · simpa using h.accepted
  · rw [List.filterMap_append, hnone, List.append_nil]
    exact h.delivered
  · simpa using h.sound
  · simpa using h.drops hp

end Explained

/-- Every step keeps some explanation. -/
theorem Folding.Step.explained {r : FoldRules M} {purges : Prop}
    {s s' : Folding M} (h : Folding.Step r purges s s')
    (hs : ∃ gone queued last, Explained r purges s gone queued last) :
    ∃ gone queued last, Explained r purges s' gone queued last := by
  obtain ⟨gone, queued, last, hs⟩ := hs
  have hslot := hs.slot
  cases h with
  | opens m hm hnone =>
    rw [hnone] at hslot
    cases last with
    | none => exact ⟨_, _, _, hs.opens hm⟩
    | some g => cases hslot
  | joins m v hm hsome hv =>
    rw [hsome] at hslot
    cases last with
    | none => cases hslot
    | some g =>
      cases hslot
      exact ⟨_, _, _, hs.joins hm hv⟩
  | flush v hsome =>
    rw [hsome] at hslot
    cases last with
    | none => cases hslot
    | some g =>
      cases hslot
      exact ⟨_, _, _, hs.flush⟩
  | marks m hm hnone =>
    rw [hnone] at hslot
    cases last with
    | none => exact ⟨_, _, _, hs.marks⟩
    | some g => cases hslot
  | restarts m hr =>
    cases last with
    | none =>
      have hmarks := hs.marks (m := m)
      rw [show s.slot = none from hslot] at hmarks
      exact ⟨_, _, _, hmarks⟩
    | some g => exact ⟨_, _, _, hs.restarts hr⟩
  | purge hp => exact ⟨_, _, _, hs.purge hp⟩
  | pop m rest hq =>
    obtain ⟨gone', queued', hpop⟩ := hs.pop hq
    exact ⟨_, _, _, hpop⟩
  | popSlot v hq hsome =>
    rw [hsome] at hslot
    cases last with
    | none => cases hslot
    | some g =>
      cases hslot
      exact ⟨_, _, _, hs.popSlot hq⟩

/-- So does every run. -/
theorem Folding.explained_run {r : FoldRules M} {purges : Prop}
    {s s' : Folding M}
    (h : Relation.ReflTransGen (Folding.Step r purges) s s')
    (hs : ∃ gone queued last, Explained r purges s gone queued last) :
    ∃ gone queued last, Explained r purges s' gone queued last := by
  induction h with
  | refl => exact hs
  | tail _ hlast ih => exact hlast.explained ih

end RemoteDesk.Lib
