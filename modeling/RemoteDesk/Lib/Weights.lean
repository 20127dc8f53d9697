/-
Finite maps whose values have a weight.

`totalWeight w m` is what all values of `m` weigh together. An entry that is
taken out takes its own weight along (`totalWeight_erase`), and one that comes
in brings it (`totalWeight_insert`).
-/
import Mathlib

namespace RemoteDesk.Lib

variable {κ ν : Type*} {w : ν → Nat}

def totalWeight (w : ν → Nat) (m : AList fun _ : κ => ν) : Nat :=
  (m.entries.map fun entry => w entry.2).sum

variable [DecidableEq κ] {m : AList fun _ : κ => ν} {k : κ} {v : ν}

theorem totalWeight_erase (h : m.lookup k = some v) :
    totalWeight w (m.erase k) + w v = totalWeight w m := by
  have hkey : k ∈ m.entries.keys :=
    AList.lookup_isSome.1 (by rw [h]; rfl)
  obtain ⟨v', before, behind, hbefore, hentries, herased⟩ :=
    List.exists_of_kerase hkey
  have hmem : (⟨k, v'⟩ : Sigma fun _ : κ => ν) ∈ m.entries := by
    rw [hentries]
    simp
  have hv : v' = v := by
    have hlookup := (AList.mem_lookup_iff (s := m)).2 hmem
    rw [h] at hlookup
    exact (Option.some.inj hlookup).symm
  show ((m.entries.kerase k).map _).sum + w v = _
  rw [herased, totalWeight, hentries, hv]
  simp only [List.map_append, List.map_cons, List.sum_append, List.sum_cons]
  omega

theorem totalWeight_insert (h : k ∉ m) :
    totalWeight w (m.insert k v) = totalWeight w m + w v := by
  rw [totalWeight, AList.entries_insert_of_notMem h, List.map_cons,
    List.sum_cons, Nat.add_comm]
  rfl

end RemoteDesk.Lib
