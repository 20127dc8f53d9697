/-
Accounts of a stream of amounts.

# Segments

A stream carries amounts between markers. Its `account` has one line for
each marker, with what the stream carried since the marker before it,
and a running line for what came after the last. Two streams with the
same account carry the same amounts between the same markers, however
they are cut into messages.
-/
import Mathlib

namespace RemoteDesk.Lib

variable {M V : Type*}

/-- What a message is to an account. -/
inductive Reading (V : Type*)
  | amount (v : V)
  | marker
  | silent
deriving DecidableEq, Repr

structure Account (M V : Type*) where
  closed : List (V × M)
  running : V
deriving DecidableEq, Repr

namespace Account

section Zero

variable [Zero V]

/-- Nothing carried yet. -/
def empty : Account M V := { closed := [], running := 0 }

/-- A marker closes the running line. -/
def close (a : Account M V) (m : M) : Account M V :=
  { closed := a.closed ++ [(a.running, m)], running := 0 }

end Zero

/-- An amount on the running line. -/
def add [Add V] (a : Account M V) (v : V) : Account M V :=
  { a with running := a.running + v }

variable [AddMonoid V]

def post (read : M → Reading V) (a : Account M V) (m : M) :
    Account M V :=
  match read m with
  | .amount v => a.add v
  | .marker => a.close m
  | .silent => a

/-- The account of a stream. -/
def of (read : M → Reading V) (ms : List M) : Account M V :=
  ms.foldl (post read) empty

variable {read : M → Reading V}

theorem post_silent {a : Account M V} {m : M} (h : read m = .silent) :
    post read a m = a := by
  simp [post, h]

theorem of_append (ms ms' : List M) :
    of read (ms ++ ms') = ms'.foldl (post read) (of read ms) :=
  List.foldl_append

@[simp] theorem of_snoc (ms : List M) (m : M) :
    of read (ms ++ [m]) = post read (of read ms) m := by
  simp [of_append]

@[simp] theorem add_zero (a : Account M V) : a.add 0 = a := by
  simp [add]

@[simp] theorem add_add (a : Account M V) (v w : V) :
    (a.add v).add w = a.add (v + w) := by
  simp [add, add_assoc]

theorem foldl_silent (a : Account M V) {ms : List M}
    (h : ∀ m ∈ ms, read m = .silent) : ms.foldl (post read) a = a := by
  induction ms with
  | nil => rfl
  | cons m ms ih =>
    rw [List.foldl_cons, post_silent (h m List.mem_cons_self)]
    exact ih fun m' hm' => h m' (List.mem_cons_of_mem m hm')

/-- Messages that are silent may stand anywhere. -/
theorem of_append_silent (ms : List M) {quiet : List M}
    (h : ∀ m ∈ quiet, read m = .silent) (ms' : List M) :
    of read (ms ++ quiet ++ ms') = of read (ms ++ ms') := by
  rw [of_append, of_append, foldl_silent _ h, of_append]

end Account

end RemoteDesk.Lib
