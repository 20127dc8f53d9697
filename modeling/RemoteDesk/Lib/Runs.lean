/-
Runs of a deterministic step machine, and histories read off them.

# Runs

`exec step s ops` is the state a machine ends in after the operations
`ops`. A run is only as good as the conditions its steps met, so
`Meets step guard s ops` says that every operation of the run met
`guard` at the state it was issued in. The one induction every safety
proof of the development uses is `Meets.invariant`: what a guarded step
preserves, a guarded run preserves.

# Simulation

When a machine's steps are runs of a simpler relation (`view` forgets
the rest of the state), invariants are proved of the relation, one rule
at a time, and read back through `Meets.simulates`.

# Partial machines

A machine whose step can fail (an index outside its buffer, say) runs
in `Option`: `execM` stops at the first failure. `MeetsM` is the same
guard predicate over it, and `MeetsM.invariant` the same induction with
the absence of failure as part of its conclusion.

# Histories

`EveryAt P l` says that `P pre a` holds for every entry `a` of `l`
against the entries `pre` before it: the shape of "whenever `a` was
delivered, …had happened before". It grows by one entry at a time
(`everyAt_snoc`), which is how the logs of a run grow. `Since a Q l` says
that `a` is in `l` and that every entry after it meets `Q`: the shape of
"`a` has happened, and nothing has undone it".
-/
import Mathlib

namespace RemoteDesk.Lib

variable {σ ο α : Type*}

-- ==================================== runs

/-- The state reached after the operations `ops`. -/
def exec (step : σ → ο → σ) (s : σ) (ops : List ο) : σ :=
  ops.foldl step s

/-- Every operation of the run meets `guard` where it is issued. -/
def Meets (step : σ → ο → σ) (guard : σ → ο → Prop) : σ → List ο → Prop
  | _, [] => True
  | s, op :: ops => guard s op ∧ Meets step guard (step s op) ops

instance Meets.decidable (step : σ → ο → σ) (guard : σ → ο → Prop)
    [∀ s op, Decidable (guard s op)] :
    ∀ (s : σ) (ops : List ο), Decidable (Meets step guard s ops)
  | _, [] => isTrue trivial
  | s, op :: ops =>
    have := Meets.decidable step guard (step s op) ops
    inferInstanceAs (Decidable (_ ∧ _))

section Total

variable {step : σ → ο → σ} {guard guard' : σ → ο → Prop}

@[simp] theorem exec_nil (s : σ) : exec step s [] = s := rfl

@[simp] theorem exec_cons (s : σ) (op : ο) (ops : List ο) :
    exec step s (op :: ops) = exec step (step s op) ops := rfl

theorem exec_append (s : σ) (ops ops' : List ο) :
    exec step s (ops ++ ops') = exec step (exec step s ops) ops' :=
  List.foldl_append

/-- The run induction: an invariant every guarded step preserves holds
at the end of every guarded run. -/
theorem Meets.invariant {Inv : σ → Prop}
    (hstep : ∀ s op, Inv s → guard s op → Inv (step s op)) :
    ∀ {s : σ} {ops : List ο}, Meets step guard s ops → Inv s →
      Inv (exec step s ops) := by
  intro s ops
  induction ops generalizing s with
  | nil => exact fun _ hs => hs
  | cons op ops ih =>
    rintro ⟨hg, hrest⟩ hs
    exact ih hrest (hstep s op hs hg)

/-- A guard on the operations alone is met wherever they are issued. -/
theorem Meets.of_forall {guard : ο → Prop} {ops : List ο}
    (h : ∀ op ∈ ops, guard op) (s : σ) :
    Meets step (fun _ op => guard op) s ops := by
  induction ops generalizing s with
  | nil => trivial
  | cons op ops ih =>
    exact ⟨h op List.mem_cons_self,
      ih (fun op' hop => h op' (List.mem_cons_of_mem _ hop)) _⟩

/-- What every step preserves, every run preserves. -/
theorem exec_invariant {Inv : σ → Prop}
    (hstep : ∀ s op, Inv s → Inv (step s op)) {s : σ} (ops : List ο)
    (hs : Inv s) : Inv (exec step s ops) := by
  induction ops generalizing s with
  | nil => exact hs
  | cons op ops ih => exact ih (hstep s op hs)

/-- Step-wise simulation, run-wise: if every guarded step is a run of
`R` under `view`, so is every guarded run. -/
theorem Meets.simulates {τ : Type*} {view : σ → τ} {R : τ → τ → Prop}
    (hstep : ∀ s op, guard s op →
      Relation.ReflTransGen R (view s) (view (step s op))) :
    ∀ {s : σ} {ops : List ο}, Meets step guard s ops →
      Relation.ReflTransGen R (view s) (view (exec step s ops)) := by
  intro s ops
  induction ops generalizing s with
  | nil => exact fun _ => .refl
  | cons op ops ih =>
    rintro ⟨hg, hrest⟩
    exact (hstep s op hg).trans (ih hrest)

/-- What every rule of `R` preserves, every run of `R` preserves. -/
theorem reflTransGen_invariant {τ : Type*} {R : τ → τ → Prop}
    {Inv : τ → Prop} (hR : ∀ t t', R t t' → Inv t → Inv t') {t t' : τ}
    (h : Relation.ReflTransGen R t t') (ht : Inv t) : Inv t' := by
  induction h with
  | refl => exact ht
  | tail _ hlast ih => exact hR _ _ hlast ih

theorem meets_append {s : σ} {ops ops' : List ο} :
    Meets step guard s (ops ++ ops') ↔ Meets step guard s ops
      ∧ Meets step guard (exec step s ops) ops' := by
  induction ops generalizing s with
  | nil => exact ⟨fun h => ⟨trivial, h⟩, fun h => h.2⟩
  | cons op ops ih =>
    rw [List.cons_append, Meets, Meets, exec_cons, ih, and_assoc]

/-- A measure no guarded step lowers is not lowered by a guarded run. -/
theorem Meets.monotone {Inv : σ → Prop} [Preorder α] {f : σ → α}
    (hstep : ∀ s op, Inv s → guard s op →
      Inv (step s op) ∧ f s ≤ f (step s op)) :
    ∀ {s : σ} {ops : List ο}, Meets step guard s ops → Inv s →
      f s ≤ f (exec step s ops) := by
  intro s ops
  induction ops generalizing s with
  | nil => exact fun _ _ => le_rfl
  | cons op ops ih =>
    rintro ⟨hg, hrest⟩ hs
    obtain ⟨hinv, hle⟩ := hstep s op hs hg
    exact hle.trans (ih hrest hinv)

end Total

-- ============================ partial runs

/-- The run of a machine whose step can fail. -/
def execM (step : σ → ο → Option σ) : σ → List ο → Option σ
  | s, [] => some s
  | s, op :: ops => (step s op).bind fun s' => execM step s' ops

/-- Every operation a partial run reaches meets `guard`. -/
def MeetsM (step : σ → ο → Option σ) (guard : σ → ο → Prop) :
    σ → List ο → Prop
  | _, [] => True
  | s, op :: ops =>
    guard s op ∧ ∀ s', step s op = some s' → MeetsM step guard s' ops

section Partial

variable {step : σ → ο → Option σ} {guard : σ → ο → Prop}

@[simp] theorem execM_nil (s : σ) : execM step s [] = some s := rfl

@[simp] theorem execM_cons (s : σ) (op : ο) (ops : List ο) :
    execM step s (op :: ops)
      = (step s op).bind fun s' => execM step s' ops := rfl

/-- The run induction of a partial machine: if a guarded step never
fails and keeps the invariant, neither does a guarded run. -/
theorem MeetsM.invariant {Inv : σ → Prop}
    (hstep : ∀ s op, Inv s → guard s op →
      ∃ s', step s op = some s' ∧ Inv s') :
    ∀ {s : σ} {ops : List ο}, MeetsM step guard s ops → Inv s →
      ∃ s', execM step s ops = some s' ∧ Inv s' := by
  intro s ops
  induction ops generalizing s with
  | nil => exact fun _ hs => ⟨s, rfl, hs⟩
  | cons op ops ih =>
    rintro ⟨hg, hrest⟩ hs
    obtain ⟨s₁, hs₁, hinv⟩ := hstep s op hs hg
    obtain ⟨s₂, hs₂, hinv₂⟩ := ih (hrest s₁ hs₁) hinv
    refine ⟨s₂, ?_, hinv₂⟩
    rw [execM_cons, hs₁]
    exact hs₂

/-- The run induction of a partial machine, where a run does not fail: what a
guarded step keeps if it does not fail, such a run keeps. -/
theorem MeetsM.keeps {Inv : σ → Prop}
    (hstep : ∀ s op s', Inv s → guard s op → step s op = some s' → Inv s') :
    ∀ {s : σ} {ops : List ο}, MeetsM step guard s ops → Inv s →
      ∀ {s' : σ}, execM step s ops = some s' → Inv s' := by
  intro s ops
  induction ops generalizing s with
  | nil =>
    intro _ hs s' hrun
    rw [execM_nil, Option.some.injEq] at hrun
    exact hrun ▸ hs
  | cons op ops ih =>
    rintro ⟨hg, hrest⟩ hs s' hrun
    rw [execM_cons, Option.bind_eq_some_iff] at hrun
    obtain ⟨s₁, hs₁, hrun⟩ := hrun
    exact ih (hrest s₁ hs₁) (hstep s op s₁ hs hg hs₁) hrun

/-- What a step keeps if it does not fail, a run keeps. -/
theorem execM_keeps {Inv : σ → Prop}
    (hstep : ∀ s op s', Inv s → step s op = some s' → Inv s') {s s' : σ}
    {ops : List ο} (hs : Inv s) (hrun : execM step s ops = some s') : Inv s' := by
  induction ops generalizing s with
  | nil =>
    rw [execM_nil, Option.some.injEq] at hrun
    exact hrun ▸ hs
  | cons op ops ih =>
    rw [execM_cons, Option.bind_eq_some_iff] at hrun
    obtain ⟨s₁, hs₁, hrun⟩ := hrun
    exact ih (hstep s op s₁ hs hs₁) hrun

/-- If no step fails and every step keeps the invariant, so does no run. -/
theorem execM_invariant {Inv : σ → Prop}
    (hstep : ∀ s op, Inv s → ∃ s', step s op = some s' ∧ Inv s') {s : σ}
    (ops : List ο) (hs : Inv s) : ∃ s', execM step s ops = some s' ∧ Inv s' := by
  induction ops generalizing s with
  | nil => exact ⟨s, rfl, hs⟩
  | cons op ops ih =>
    obtain ⟨s₁, hs₁, hinv⟩ := hstep s op hs
    obtain ⟨s₂, hs₂, hinv₂⟩ := ih hinv
    refine ⟨s₂, ?_, hinv₂⟩
    rw [execM_cons, hs₁]
    exact hs₂

end Partial

-- =============================== histories

/-- `P` holds of every entry of `l` against the entries before it. -/
def EveryAt (P : List α → α → Prop) (l : List α) : Prop :=
  ∀ pre a post, l = pre ++ a :: post → P pre a

@[simp] theorem everyAt_nil (P : List α → α → Prop) : EveryAt P [] := by
  intro pre a post h
  simp at h

/-- A history grows by one entry: what was said of the old entries
still has to be said, and the new entry is read against all of them. -/
theorem everyAt_snoc {P : List α → α → Prop} {l : List α} {a : α} :
    EveryAt P (l ++ [a]) ↔ EveryAt P l ∧ P l a := by
  constructor
  · intro h
    refine ⟨fun pre b post hl => h pre b (post ++ [a]) ?_, h l a [] rfl⟩
    rw [hl, List.append_assoc, List.cons_append]
  · rintro ⟨hold, hnew⟩ pre b post hl
    rcases List.eq_nil_or_concat post with rfl | ⟨post, c, rfl⟩
    · obtain ⟨rfl, hab⟩ := List.append_inj' hl rfl
      rw [List.singleton_inj] at hab
      exact hab ▸ hnew
    · have hl' : l ++ [a] = (pre ++ b :: post) ++ [c] := by
        simpa using hl
      exact hold pre b post (List.append_inj' hl' rfl).1

/-- Several entries at once, when each is good after the history
extended by any of them. -/
theorem EveryAt.append {P : List α → α → Prop} {l out : List α}
    (h : EveryAt P l)
    (hout : ∀ a ∈ out, ∀ pre, (∀ b ∈ pre, b ∈ out) → P (l ++ pre) a) :
    EveryAt P (l ++ out) := by
  induction out using List.reverseRecOn with
  | nil => rwa [List.append_nil]
  | append_singleton out a ih =>
    rw [← List.append_assoc, everyAt_snoc]
    refine ⟨ih fun b hb pre hpre => ?_, hout a (by simp) out ?_⟩
    · exact hout b (List.mem_append_left _ hb) pre
        fun c hc => List.mem_append_left _ (hpre c hc)
    · exact fun b hb => List.mem_append_left _ hb

/-- What is said of a history was said of its beginning. -/
theorem EveryAt.left {P : List α → α → Prop} {l l' : List α}
    (h : EveryAt P (l ++ l')) : EveryAt P l := by
  intro pre a post hl
  exact h pre a (post ++ l') (by rw [hl]; simp)

theorem EveryAt.mono {P Q : List α → α → Prop} {l : List α}
    (h : EveryAt P l)
    (hPQ : ∀ pre a, (∀ b ∈ pre, b ∈ l) → a ∈ l → P pre a → Q pre a) :
    EveryAt Q l := by
  intro pre a post hl
  refine hPQ pre a (fun b hb => ?_) ?_ (h pre a post hl)
  · rw [hl]; exact List.mem_append_left _ hb
  · rw [hl]; simp

/-- A history ends with its last entry, or has it before the end. -/
theorem snoc_eq_append_cons {l before since : List α} {a b : α}
    (h : l ++ [b] = before ++ a :: since) :
    (since = [] ∧ a = b ∧ before = l)
      ∨ ∃ since', since = since' ++ [b] ∧ l = before ++ a :: since' := by
  rcases List.eq_nil_or_concat' since with rfl | ⟨since', c, rfl⟩
  · obtain ⟨hl, hab⟩ := List.append_inj' h rfl
    exact Or.inl ⟨rfl, (List.singleton_inj.mp hab).symm, hl.symm⟩
  · right
    have h' : l ++ [b] = (before ++ a :: since') ++ [c] := by simpa using h
    obtain ⟨hl, hbc⟩ := List.append_inj' h' rfl
    rw [← List.singleton_inj.mp hbc]
    exact ⟨since', rfl, hl⟩

/-- `a` has happened, and every entry after it meets `Q`. -/
def Since (a : α) (Q : α → Prop) (l : List α) : Prop :=
  ∃ before since, l = before ++ a :: since ∧ ∀ b ∈ since, Q b

section Since

variable {a b : α} {Q Q' : α → Prop} {l : List α}

theorem Since.mem (h : Since a Q l) : a ∈ l := by
  obtain ⟨before, since, rfl, -⟩ := h
  simp

theorem since_self : Since a Q (l ++ [a]) :=
  ⟨l, [], rfl, fun _ hb => absurd hb List.not_mem_nil⟩

theorem Since.snoc (h : Since a Q l) (hb : Q b) : Since a Q (l ++ [b]) := by
  obtain ⟨before, since, rfl, hsince⟩ := h
  refine ⟨before, since ++ [b], by simp, fun c hc => ?_⟩
  rcases List.mem_append.mp hc with hc | hc
  · exact hsince c hc
  · rwa [List.mem_singleton.mp hc]

theorem Since.append {l' : List α} (h : Since a Q l)
    (hl' : ∀ b ∈ l', Q b) : Since a Q (l ++ l') := by
  obtain ⟨before, since, rfl, hsince⟩ := h
  refine ⟨before, since ++ l', by simp, fun c hc => ?_⟩
  rcases List.mem_append.mp hc with hc | hc
  · exact hsince c hc
  · exact hl' c hc

theorem Since.mono (h : Since a Q l) (hQ : ∀ b, Q b → Q' b) :
    Since a Q' l := by
  obtain ⟨before, since, hl, hsince⟩ := h
  exact ⟨before, since, hl, fun b hb => hQ b (hsince b hb)⟩

/-- What has happened since `a`, read from the end. -/
theorem since_snoc (h : Since a Q (l ++ [b])) :
    a = b ∨ Since a Q l ∧ Q b := by
  obtain ⟨before, since, hl, hsince⟩ := h
  rcases snoc_eq_append_cons hl with ⟨-, hab, -⟩ | ⟨since', rfl, hl'⟩
  · exact Or.inl hab
  · refine Or.inr ⟨⟨before, since', hl', fun c hc => ?_⟩, ?_⟩
    · exact hsince c (List.mem_append_left _ hc)
    · exact hsince b (by simp)

/-- What has happened since `a`, read without the last entries. -/
theorem Since.left {l' : List α} (h : Since a Q (l ++ l')) (ha : a ∉ l') :
    Since a Q l := by
  induction l' using List.reverseRecOn with
  | nil => rwa [List.append_nil] at h
  | append_singleton l' b ih =>
    rw [← List.append_assoc] at h
    rcases since_snoc h with rfl | ⟨h, -⟩
    · simp at ha
    · exact ih h fun hm => ha (List.mem_append_left _ hm)

/-- What follows the last `a` follows every `a`. -/
theorem mem_of_last {p p' q q' : List α} (h : p ++ a :: q = p' ++ a :: q')
    (ha : a ∉ q) (hb : b ∈ q) : b ∈ q' := by
  rcases List.append_eq_append_iff.mp h with ⟨c, rfl, hc⟩ | ⟨c, rfl, hc⟩
  · cases c with
    | nil =>
      obtain rfl : q = q' := by simpa using hc
      exact hb
    | cons x c =>
      obtain ⟨-, rfl⟩ := List.cons_eq_cons.mp hc
      exact absurd (List.mem_append_right _ List.mem_cons_self) ha
  · cases c with
    | nil =>
      obtain rfl : q' = q := by simpa using hc
      exact hb
    | cons x c =>
      obtain ⟨-, rfl⟩ := List.cons_eq_cons.mp hc
      exact List.mem_append_right _ (List.mem_cons_of_mem _ hb)

end Since

end RemoteDesk.Lib
