/-
A queue that collapses runs of one kind of element.

# Runs

A queue takes elements in and gives them out in order; an element of a
kind (`p`) put in behind one of the kind that is still in the queue
takes its place. What went in is cut into runs, each of which the queue
shows as its last element, and the `n`-th element to leave stands for
the `n`-th run. `RunLedger` says just that: it keeps every run and
counts those that left.
-/
import Mathlib

namespace RemoteDesk.Lib

variable {α : Type*}

inductive QueueOp (α : Type*)
  | enqueue (a : α)
  | pop
deriving DecidableEq, Repr

/-- What was put in, in order. -/
def enqueued (ops : List (QueueOp α)) : List α :=
  ops.filterMap fun op => match op with
    | .enqueue a => some a
    | .pop => none

/-- The elements an entry of the queue stands for: those replaced, the
one that shows, and how many runs had left when this one began. -/
structure Run (α : Type*) where
  replaced : List α := []
  last : α
  begun : Nat
deriving DecidableEq, Repr

def Run.elements (run : Run α) : List α := run.replaced ++ [run.last]

/-- `a` takes the place of the run's last element. -/
def Run.extend (run : Run α) (a : α) : Run α :=
  { run with replaced := run.elements, last := a }

/-- All runs so far, and how many of them have left. -/
structure RunLedger (α : Type*) where
  runs : List (Run α) := []
  left : Nat := 0
deriving DecidableEq, Repr

namespace RunLedger

variable (p : α → Bool)

/-- The last run takes `a` in: it is of the kind, and so is `a`, and its
entry has not left. -/
def takes (l : RunLedger α) (run : Run α) (a : α) : Bool :=
  p a && p run.last && decide (l.left < l.runs.length)

def enqueue (l : RunLedger α) (a : α) : RunLedger α :=
  match l.runs.getLast? with
  | some run =>
    if l.takes p run a then
      { l with runs := l.runs.dropLast ++ [run.extend a] }
    else { l with runs := l.runs ++ [{ last := a, begun := l.left }] }
  | none => { l with runs := l.runs ++ [{ last := a, begun := l.left }] }

def step (l : RunLedger α) : QueueOp α → RunLedger α
  | .enqueue a => l.enqueue p a
  | .pop => { l with left := min (l.left + 1) l.runs.length }

/-- What has left. -/
def popped (l : RunLedger α) : List α := (l.runs.take l.left).map Run.last

/-- What is in the queue. -/
def contents (l : RunLedger α) : List α := (l.runs.drop l.left).map Run.last

/-- What keeps a ledger: runs of more than one element are of the kind,
and a run of the kind follows another only if that one had left when it
began. -/
structure Collapsed (l : RunLedger α) : Prop where
  left_le : l.left ≤ l.runs.length
  kind : ∀ run ∈ l.runs, run.replaced = [] ∨ ∀ a ∈ run.elements, p a = true
  maximal : ∀ (k : Nat) (a b : Run α), l.runs[k]? = some a →
    l.runs[k + 1]? = some b → p a.last = true → p b.last = true →
    k < b.begun

variable {p} {l : RunLedger α}

/-- An element joins the last run or begins one. -/
theorem enqueue_cases (l : RunLedger α) (a : α) :
    (∃ init run, l.runs = init ++ [run] ∧ p a = true ∧ p run.last = true
        ∧ l.left ≤ init.length
        ∧ l.enqueue p a = { l with runs := init ++ [run.extend a] })
      ∨ ((∀ init run, l.runs = init ++ [run] → p a = true →
          p run.last = true → l.runs.length ≤ l.left)
        ∧ l.enqueue p a
          = { l with runs := l.runs ++ [{ last := a, begun := l.left }] }) := by
  unfold enqueue
  rcases List.eq_nil_or_concat l.runs with hnil | ⟨init, run, hrun⟩
  · rw [hnil]
    refine .inr ⟨fun init run h => ?_, rfl⟩
    simp at h
  · rw [List.concat_eq_append] at hrun
    rw [hrun, List.getLast?_concat, List.dropLast_concat]
    dsimp only
    split
    · next htakes =>
      simp only [takes, Bool.and_eq_true, decide_eq_true_eq, hrun,
        List.length_append, List.length_singleton] at htakes
      exact .inl ⟨init, run, rfl, htakes.1.1, htakes.1.2, by omega, rfl⟩
    · next htakes =>
      refine .inr ⟨fun init' run' h ha hlast => ?_, rfl⟩
      obtain ⟨-, hsame⟩ := List.append_inj' h rfl
      rw [List.singleton_inj] at hsame
      subst hsame
      by_contra hlt
      refine htakes ?_
      simp only [takes, Bool.and_eq_true, decide_eq_true_eq, hrun]
      exact ⟨⟨ha, hlast⟩, by omega⟩

theorem Collapsed.init : Collapsed p ({} : RunLedger α) where
  left_le := le_rfl
  kind _ h := by cases h
  maximal _ _ _ h := by cases h

theorem Collapsed.step (h : Collapsed p l) (op : QueueOp α) :
    Collapsed p (l.step p op) := by
  cases op with
  | pop =>
    exact { h with left_le := min_le_right _ _ }
  | enqueue a =>
    show Collapsed p (l.enqueue p a)
    rcases l.enqueue_cases a with
      ⟨init, run, hruns, ha, hlast, hleft, heq⟩ | ⟨hfresh, heq⟩
    · rw [heq]
      have hall : ∀ b ∈ run.elements, p b = true := by
        rcases h.kind run (by rw [hruns]; simp) with hone | hall
        · intro b hb
          rw [Run.elements, hone, List.nil_append,
            List.mem_singleton] at hb
          exact hb ▸ hlast
        · exact hall
      constructor
      · simp only [List.length_append, List.length_singleton]
        omega
      · intro run' hrun'
        rcases List.mem_append.mp hrun' with hold | hnew
        · exact h.kind run' (by rw [hruns]; exact List.mem_append_left _ hold)
        · rw [List.mem_singleton.mp hnew]
          refine .inr fun b hb => ?_
          rcases List.mem_append.mp hb with hb | hb
          · exact hall b hb
          · rw [List.mem_singleton.mp hb]
            exact ha
      · -- the run that grew had the same place and kind before
        have hback : ∀ (k : Nat) (b : Run α),
            (init ++ [run.extend a])[k]? = some b →
            ∃ b', l.runs[k]? = some b' ∧ b'.begun = b.begun
              ∧ (p b.last = true → p b'.last = true) := by
          intro k b hb
          rw [hruns]
          by_cases hk : k < init.length
          · rw [List.getElem?_append_left hk] at hb ⊢
            exact ⟨b, hb, rfl, id⟩
          · rw [List.getElem?_append_right (by omega)] at hb ⊢
            rw [List.getElem?_singleton] at hb ⊢
            split at hb
            · next hzero =>
              rw [if_pos hzero]
              cases hb
              exact ⟨run, rfl, rfl, fun _ => hlast⟩
            · cases hb
        intro k b c hb hc hpb hpc
        obtain ⟨b', hb', -, hpb'⟩ := hback k b hb
        obtain ⟨c', hc', hbegun, hpc'⟩ := hback (k + 1) c hc
        rw [← hbegun]
        exact h.maximal k b' c' hb' hc' (hpb' hpb) (hpc' hpc)
    · rw [heq]
      constructor
      · have := h.left_le
        simp only [List.length_append, List.length_singleton]
        omega
      · intro run' hrun'
        rcases List.mem_append.mp hrun' with hold | hnew
        · exact h.kind run' hold
        · rw [List.mem_singleton.mp hnew]
          exact .inl rfl
      · intro k b c hb hc hpb hpc
        by_cases hk : k + 1 < l.runs.length
        · rw [List.getElem?_append_left (by omega)] at hb
          rw [List.getElem?_append_left hk] at hc
          exact h.maximal k b c hb hc hpb hpc
        · -- the new run is the last, and the one before it had left
          rw [List.getElem?_append_right (by omega),
            List.getElem?_singleton] at hc
          split at hc
          · next hzero =>
            cases hc
            have hlast : k < l.runs.length := by omega
            rw [List.getElem?_append_left hlast] at hb
            have hsplit : l.runs = l.runs.take k ++ [b] := by
              have hdrop := List.drop_eq_getElem_cons hlast
              have hend : l.runs.drop (k + 1) = [] :=
                List.drop_eq_nil_of_le (by omega)
              obtain ⟨_, hget⟩ := List.getElem?_eq_some_iff.mp hb
              rw [hget, hend] at hdrop
              rw [← hdrop, List.take_append_drop]
            have := hfresh _ b hsplit hpc hpb
            show k < l.left
            omega
          · cases hc

/-- The first of the contents leaves. -/
theorem Collapsed.pop (h : Collapsed p l) :
    (l.step p .pop).popped = l.popped ++ l.contents.head?.toList
      ∧ (l.step p .pop).contents = l.contents.tail := by
  show (l.runs.take (min (l.left + 1) l.runs.length)).map Run.last
      = (l.runs.take l.left).map Run.last
        ++ ((l.runs.drop l.left).map Run.last).head?.toList
    ∧ (l.runs.drop (min (l.left + 1) l.runs.length)).map Run.last
      = ((l.runs.drop l.left).map Run.last).tail
  by_cases hlt : l.left < l.runs.length
  · rw [Nat.min_eq_left hlt, List.drop_eq_getElem_cons hlt,
      List.take_add_one, List.getElem?_eq_getElem hlt, List.map_append]
    exact ⟨rfl, rfl⟩
  · have hall : l.left = l.runs.length := by
      have := h.left_le
      omega
    rw [Nat.min_eq_right (by omega), hall, List.drop_length]
    exact ⟨(List.append_nil _).symm, rfl⟩

/-- The runs are what was put in. -/
theorem elements_step (l : RunLedger α) (op : QueueOp α) :
    (l.step p op).runs.flatMap Run.elements
      = l.runs.flatMap Run.elements ++ enqueued [op] := by
  cases op with
  | pop => exact (List.append_nil _).symm
  | enqueue a =>
    show (l.enqueue p a).runs.flatMap Run.elements = _
    rcases l.enqueue_cases (p := p) a with
      ⟨init, run, hruns, -, -, -, heq⟩ | ⟨-, heq⟩
    · rw [heq, hruns]
      simp [Run.extend, Run.elements, enqueued]
    · rw [heq]
      simp [Run.elements, enqueued]

/-- What left or is in the queue is the last of each run. -/
theorem popped_append_contents (l : RunLedger α) :
    l.popped ++ l.contents = l.runs.map Run.last := by
  unfold popped contents
  rw [← List.map_append, List.take_append_drop]

/-- The entries are some of the elements put in, in their order. -/
theorem last_sublist (runs : List (Run α)) :
    (runs.map Run.last).Sublist (runs.flatMap Run.elements) := by
  induction runs with
  | nil => exact .refl _
  | cons run runs ih =>
    rw [List.map_cons, List.flatMap_cons, Run.elements, List.append_assoc]
    exact ((ih.cons_cons run.last).trans
      (List.sublist_append_right run.replaced _))

/-- No element of another kind is replaced. -/
theorem Collapsed.filter_last (h : Collapsed p l) :
    (l.runs.map Run.last).filter (fun a => !p a)
      = (l.runs.flatMap Run.elements).filter (fun a => !p a) := by
  have hruns : ∀ runs : List (Run α), (∀ run ∈ runs, run ∈ l.runs) →
      (runs.map Run.last).filter (fun a => !p a)
        = (runs.flatMap Run.elements).filter (fun a => !p a) := by
    intro runs
    induction runs with
    | nil => exact fun _ => rfl
    | cons run runs ih =>
      intro hmem
      have hrest := ih fun r hr => hmem r (List.mem_cons_of_mem _ hr)
      have hreplaced : run.replaced.filter (fun a => !p a) = [] := by
        rcases h.kind run (hmem run List.mem_cons_self) with hone | hall
        · rw [hone]
          rfl
        · refine List.filter_eq_nil_iff.mpr fun a ha => ?_
          simp [hall a (List.mem_append_left _ ha)]
      rw [List.map_cons, List.flatMap_cons, Run.elements,
        List.append_assoc, List.filter_append, hreplaced, List.nil_append,
        List.singleton_append, List.filter_cons, List.filter_cons, hrest]
  exact hruns l.runs fun _ => id

end RunLedger

end RemoteDesk.Lib
