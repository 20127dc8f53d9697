/-
What holds of handles in every run.

A token stands for one entry, which the log tells all of (`Told`): who it is
bound to, whether a destroy call has taken it and been handed its object.
Every step writes down only what is right of the log before it
(`HandleEvent.Right`). Nothing is lost either: an object that was registered
is in the map, or with the one call that took it (`handle_registry`).
-/
import RemoteDesk.Lib.Holdings
import RemoteDesk.Render.HandleRegistry

namespace RemoteDesk.Render

open Lib

variable {T : Type}

-- ================================= history

def HandleEvent.token : HandleEvent T → Int
  | .registered token _ => token
  | .bound token _ => token
  | .deactivated token => token
  | .granted token _ => token
  | .released token => token
  | .taken token => token
  | .handed token _ => token

def HandleEvent.grants (token : Int) : HandleEvent T → Bool
  | .granted token' _ => token' = token
  | _ => false

def HandleEvent.releases (token : Int) : HandleEvent T → Bool
  | .released token' => token' = token
  | _ => false

/-- Neither a deactivation of a token nor a destroy call that takes it. -/
def HandleEvent.Quiet (token : Int) (event : HandleEvent T) : Prop :=
  event ≠ .deactivated token ∧ event ≠ .taken token

/-- As many leases were released as were granted. -/
def Drained (token : Int) (log : List (HandleEvent T)) : Prop :=
  log.countP (HandleEvent.grants token)
    = log.countP (HandleEvent.releases token)

/-- What is right after what happened before. A token is above all others. It
is bound to one owner for good. A lease is granted to the owner it is bound
to, with no deactivation and no destroy call since. One destroy call takes
it, and that call is handed the object that was registered, with every lease
released. -/
def HandleEvent.Right (before : List (HandleEvent T)) :
    HandleEvent T → Prop
  | .registered token _ => ∀ event ∈ before, event.token < token
  | .bound token owner => owner.valid = true
      ∧ (∀ owner', .bound token owner' ∈ before → owner' = owner)
      ∧ .taken token ∉ before
  | .deactivated token => .taken token ∉ before
  | .granted token owner =>
    Since (.bound token owner) (HandleEvent.Quiet token) before
      ∧ .taken token ∉ before ∧ ∀ object, .handed token object ∉ before
  | .released token => before.countP (HandleEvent.releases token)
      < before.countP (HandleEvent.grants token)
  | .taken token => .taken token ∉ before
  | .handed token object => .taken token ∈ before
      ∧ (∀ object', .handed token object' ∉ before)
      ∧ (∃ value, object = some value ∧ .registered token value ∈ before)
      ∧ Drained token before

/-- What the log tells of the entry of a token. -/
structure Entry.Told (log : List (HandleEvent T)) (token : Int)
    (entry : Entry T) : Prop where
  bound : ∀ owner, .bound token owner ∈ log →
    entry.boundOwner = owner ∧ owner.valid = true
  live : entry.active = true → entry.detached = false →
    Since (.bound token entry.boundOwner) (HandleEvent.Quiet token) log
  taken : entry.destroying = true ↔ .taken token ∈ log
  object : ∀ value, entry.object = some value →
    .registered token value ∈ log ∧ ∀ object, .handed token object ∉ log
  moved : entry.object = none → ∃ value, .handed token (some value) ∈ log

/-- What happens to other tokens. -/
theorem Entry.Told.other {log events : List (HandleEvent T)} {token : Int}
    {entry : Entry T} (h : entry.Told log token)
    (hother : ∀ event ∈ events, event.token ≠ token) :
    entry.Told (log ++ events) token := by
  have hmem : ∀ {event : HandleEvent T}, event.token = token →
      (event ∈ log ++ events ↔ event ∈ log) := by
    intro event htoken
    rw [List.mem_append, or_iff_left]
    exact fun hevent => hother event hevent htoken
  refine ⟨fun owner howner => ?_, fun hactive hdetached => ?_, ?_,
    fun value hvalue => ?_, fun hnone => ?_⟩
  · exact h.bound owner ((hmem rfl).mp howner)
  · refine (h.live hactive hdetached).append fun event hevent => ⟨?_, ?_⟩
    · rintro rfl
      exact hother _ hevent rfl
    · rintro rfl
      exact hother _ hevent rfl
  · rw [hmem rfl]
    exact h.taken
  · obtain ⟨hregistered, hhanded⟩ := h.object value hvalue
    refine ⟨(hmem rfl).mpr hregistered, fun object hobject => ?_⟩
    exact hhanded object ((hmem rfl).mp hobject)
  · obtain ⟨value, hvalue⟩ := h.moved hnone
    exact ⟨value, (hmem rfl).mpr hvalue⟩

variable {event : HandleEvent T}

/-- An event that says nothing of the entry, as those of leases do. -/
theorem Entry.Told.silent {log : List (HandleEvent T)} {token : Int}
    {entry : Entry T} (h : entry.Told log token)
    (hbound : ∀ owner, event ≠ .bound token owner) (hquiet : event.Quiet token)
    (hhanded : ∀ object, event ≠ .handed token object) :
    entry.Told (log ++ [event]) token := by
  refine ⟨fun owner howner => ?_,
    fun hactive hdetached => (h.live hactive hdetached).snoc hquiet, ?_,
    fun value hvalue => ?_, fun hnone => ?_⟩
  · rcases List.mem_append.mp howner with howner | howner
    · exact h.bound owner howner
    · exact absurd (List.mem_singleton.mp howner).symm (hbound owner)
  · rw [List.mem_append, List.mem_singleton,
      or_iff_left (Ne.symm hquiet.2)]
    exact h.taken
  · obtain ⟨hregistered, hnot⟩ := h.object value hvalue
    refine ⟨List.mem_append_left _ hregistered, fun object hobject => ?_⟩
    rcases List.mem_append.mp hobject with hobject | hobject
    · exact hnot object hobject
    · exact hhanded object (List.mem_singleton.mp hobject).symm
  · obtain ⟨value, hvalue⟩ := h.moved hnone
    exact ⟨value, List.mem_append_left _ hvalue⟩

-- ================================== tokens

namespace OpaqueHandleRegistry

variable {r : OpaqueHandleRegistry T} {token : Int} {index : Nat}

/-- The first token that is tried is taken, where it is one and is free. -/
theorem freshToken_first {rounds raw : Nat} (hrounds : rounds ≠ 0)
    (hpos : raw ≠ 0) (hbound : raw < 2 ^ 63)
    (hfree : r.lookup (raw : Int) = none) :
    r.freshToken rounds raw = some ((raw : Int), raw + 1) := by
  obtain ⟨rounds, rfl⟩ := Nat.exists_eq_succ_of_ne_zero hrounds
  rw [freshToken, if_neg (by omega), if_pos hfree, Nat.mod_eq_of_lt (by omega)]

/-- An object is registered under the next token, where that is free. -/
theorem registerObject_first {value : T} {owner : DecoderSessionIdentity}
    (hpos : r.nextToken ≠ 0) (hbound : r.nextToken < 2 ^ 63)
    (hfree : r.lookup (r.nextToken : Int) = none) :
    r.registerObject (some value) owner =
      ({ nextToken := r.nextToken + 1
         entries := r.entries ++ [((r.nextToken : Int), r.heap.length)]
         heap := r.heap ++ [Entry.new value owner] }, (r.nextToken : Int)) := by
  have hrounds : 2 ^ 64 ≠ 0 := Nat.pow_pos (by decide) |>.ne'
  rw [registerObject, freshToken_first hrounds hpos hbound hfree]

theorem lookup_append {r' : OpaqueHandleRegistry T} {p : Int × Nat}
    (hr' : r'.entries = r.entries ++ [p]) (hfree : r.lookup p.1 = none) :
    r'.lookup token = if token = p.1 then some p.2 else r.lookup token := by
  rw [lookup, hr', List.find?_append, lookup]
  by_cases htoken : token = p.1
  · rw [lookup, Option.map_eq_none_iff] at hfree
    rw [if_pos htoken, htoken, hfree, Option.none_or,
      List.find?_cons_of_pos (by simp)]
    rfl
  · rw [if_neg htoken, List.find?_cons_of_neg (by simp [Ne.symm htoken]),
      List.find?_nil, Option.or_none]

theorem lookup_filter {r' : OpaqueHandleRegistry T} {token' : Int}
    (hr' : r'.entries = r.entries.filter fun p => p.1 ≠ token') :
    r'.lookup token = if token = token' then none else r.lookup token := by
  rw [lookup, hr', lookup, List.find?_filter]
  split
  · next heq =>
      rw [Option.map_eq_none_iff, List.find?_eq_none]
      simp [heq]
  · next hne =>
      congr 2
      funext p
      by_cases hp : p.1 = token
      · simp [hp, hne]
      · simp [hp]

end OpaqueHandleRegistry

-- =============================== invariant

/-- What steps keep. The entries are numbered as their tokens are. -/
structure HandleRun.Kept (run : HandleRun T) : Prop where
  next : run.registry.nextToken = run.registry.heap.length + 1
  entries : ∀ token index, run.registry.lookup token = some index ↔
    token = (index : Int) + 1 ∧ ∃ entry,
      run.registry.heap[index]? = some entry ∧ entry.destroying = false
  waiting : ∀ p, p ∈ run.waiting ↔ p.1 = (p.2 : Int) + 1 ∧ ∃ entry,
    run.registry.heap[p.2]? = some entry ∧ entry.destroying = true
      ∧ entry.object ≠ none
  once : run.waiting.Nodup
  leases : ∀ p ∈ run.leases, p.1 = (p.2.entry : Int) + 1
  counts : ∀ token, run.log.countP (HandleEvent.grants token)
    = run.log.countP (HandleEvent.releases token)
      + run.leases.countP fun p => p.1 = token
  told : ∀ (index : Nat) (entry : Entry T),
    run.registry.heap[index]? = some entry →
    entry.Told run.log ((index : Int) + 1)
  known : ∀ event ∈ run.log, ∃ index : Nat, event.token = (index : Int) + 1
    ∧ index < run.registry.heap.length
  right : EveryAt HandleEvent.Right run.log

namespace HandleRun.Kept

variable {run : HandleRun T} {token : Int} {index : Nat} {entry : Entry T}

/-- What a token is found to be. -/
theorem found (h : run.Kept)
    (hfound : run.registry.findLocked token = some (index, entry)) :
    token = (index : Int) + 1 ∧ run.registry.heap[index]? = some entry
      ∧ entry.destroying = false := by
  rw [OpaqueHandleRegistry.findLocked] at hfound
  split at hfound
  · cases hfound
  · obtain ⟨index', hindex', hentry⟩ := Option.bind_eq_some_iff.mp hfound
    obtain ⟨entry', hentry', heq⟩ := Option.map_eq_some_iff.mp hentry
    obtain ⟨rfl, rfl⟩ := Prod.mk.inj heq
    obtain ⟨htoken, entry'', hentry'', hdestroying⟩ :=
      (h.entries token index').mp hindex'
    rw [hentry'] at hentry''
    obtain rfl := Option.some.inj hentry''
    exact ⟨htoken, hentry', hdestroying⟩

/-- An entry that can be found has its object. -/
theorem present (h : run.Kept) (hentry : run.registry.heap[index]? = some entry)
    (hdestroying : entry.destroying = false) :
    ∃ value, entry.object = some value := by
  cases hobject : entry.object with
  | some value => exact ⟨value, rfl⟩
  | none =>
    have htold := h.told index entry hentry
    obtain ⟨value, hvalue⟩ := htold.moved hobject
    obtain ⟨before, after, hlog⟩ := List.append_of_mem hvalue
    have htaken : .taken ((index : Int) + 1) ∈ run.log := by
      rw [hlog]
      exact List.mem_append_left _ (h.right before _ after hlog).1
    rw [← htold.taken, hdestroying] at htaken
    cases htaken

/-- The entry of one token changes, and the log tells of it. -/
theorem update (h : run.Kept) {entry' : Entry T}
    (hentry : run.registry.heap[index]? = some entry)
    (hdestroying : entry'.destroying = entry.destroying)
    (hobject : entry'.object = entry.object)
    (htoken : event.token = (index : Int) + 1)
    (hgrants : ∀ token, event.grants token = false)
    (hreleases : ∀ token, event.releases token = false)
    (htold : entry'.Told (run.log ++ [event]) ((index : Int) + 1))
    (hright : event.Right run.log) :
    Kept { run with
      registry := run.registry.update index entry'
      log := run.log ++ [event] } := by
  have hlt := (List.getElem?_eq_some_iff.mp hentry).1
  -- the entry changes, but neither whether it is found nor its object
  have hsame : ∀ (p : Entry T → Prop) (i : Nat), (p entry' ↔ p entry) →
      ((∃ e, (run.registry.heap.set index entry')[i]? = some e ∧ p e)
        ↔ ∃ e, run.registry.heap[i]? = some e ∧ p e) := by
    intro p i hp
    by_cases hi : i = index
    · subst hi
      rw [List.getElem?_set_self hlt, hentry]
      simpa using hp
    · rw [List.getElem?_set_ne (Ne.symm hi)]
  refine ⟨?_, fun token' i => ?_, fun p => ?_, h.once, h.leases,
    fun token' => ?_, fun i e he => ?_, fun event' hevent' => ?_, ?_⟩
  · show run.registry.nextToken = (run.registry.heap.set _ _).length + 1
    rw [List.length_set]
    exact h.next
  · refine (h.entries token' i).trans (and_congr_right fun _ => ?_)
    exact (hsame _ i (by rw [hdestroying])).symm
  · refine (h.waiting p).trans (and_congr_right fun _ => ?_)
    exact (hsame _ p.2 (by rw [hdestroying, hobject])).symm
  · show (run.log ++ [event]).countP _ = (run.log ++ [event]).countP _ + _
    rw [List.countP_append, List.countP_append, List.countP_singleton,
      List.countP_singleton, hgrants, hreleases]
    exact h.counts token'
  · rcases getElem?_set_some he with ⟨rfl, rfl⟩ | ⟨hi, he⟩
    · exact htold
    · refine (h.told i e he).other fun event' hevent' => ?_
      rw [List.mem_singleton.mp hevent', htoken]
      omega
  · show ∃ i, _ ∧ i < (run.registry.heap.set _ _).length
    rw [List.length_set]
    rcases List.mem_append.mp hevent' with hevent' | hevent'
    · exact h.known event' hevent'
    · rw [List.mem_singleton.mp hevent']
      exact ⟨index, htoken, hlt⟩
  · exact everyAt_snoc.mpr ⟨h.right, hright⟩

/-- Nothing was said of the next token yet. -/
theorem unknown (h : run.Kept) (hevent : event ∈ run.log) :
    event.token ≠ (run.registry.heap.length : Int) + 1 := by
  obtain ⟨index, htoken, hlt⟩ := h.known event hevent
  omega

/-- The entry that is found is bound, by `bind` or `activate`. -/
theorem bind (h : run.Kept) (owner : DecoderSessionIdentity) :
    Kept (run.called (run.registry.bind token owner)
      (.bound token owner)) := by
  rw [HandleRun.called, OpaqueHandleRegistry.bind]
  split
  · exact h
  · next hvalid =>
      rw [Bool.not_eq_true', Bool.not_eq_false] at hvalid
      split
      · exact h
      · next index entry hfound =>
          obtain ⟨rfl, hentry, hdestroying⟩ := h.found hfound
          have htold := h.told index entry hentry
          have htaken : .taken ((index : Int) + 1) ∉ run.log := by
            rw [← htold.taken, hdestroying]
            exact Bool.false_ne_true
          split
          · exact h
          · next hrefused =>
              rw [hdestroying, Bool.false_or, Bool.and_eq_true, not_and,
                decide_eq_true_eq, not_not] at hrefused
              refine h.update hentry rfl rfl rfl (fun _ => rfl)
                (fun _ => rfl) ⟨?_, ?_, ?_, ?_, ?_⟩ ⟨hvalid, ?_, htaken⟩
              · intro owner' howner'
                rcases List.mem_append.mp howner' with howner' | howner'
                · obtain ⟨rfl, hvalid'⟩ := htold.bound owner' howner'
                  exact ⟨(hrefused hvalid').symm, hvalid'⟩
                · cases List.mem_singleton.mp howner'
                  exact ⟨rfl, hvalid⟩
              · exact fun _ _ => since_self
              · rw [List.mem_append, List.mem_singleton,
                  or_iff_left (fun h => by cases h)]
                exact htold.taken
              · intro value hvalue
                obtain ⟨hregistered, hhanded⟩ := htold.object value hvalue
                refine ⟨List.mem_append_left _ hregistered, ?_⟩
                simpa using hhanded
              · intro hnone
                obtain ⟨value, hvalue⟩ := htold.moved hnone
                exact ⟨value, List.mem_append_left _ hvalue⟩
              · intro owner' howner'
                obtain ⟨rfl, hvalid'⟩ := htold.bound owner' howner'
                exact hrefused hvalid'

theorem deactivate (h : run.Kept) (owner : DecoderSessionIdentity) :
    Kept (run.called (run.registry.deactivate token owner)
      (.deactivated token)) := by
  rw [HandleRun.called, OpaqueHandleRegistry.deactivate]
  split
  · exact h
  · split
    · exact h
    · next index entry hfound =>
        obtain ⟨rfl, hentry, hdestroying⟩ := h.found hfound
        have htold := h.told index entry hentry
        have htaken : .taken ((index : Int) + 1) ∉ run.log := by
          rw [← htold.taken, hdestroying]
          exact Bool.false_ne_true
        split
        · exact h
        · refine h.update hentry rfl rfl rfl (fun _ => rfl)
            (fun _ => rfl) ⟨?_, ?_, ?_, ?_, ?_⟩ htaken
          · simpa using htold.bound
          · exact fun hactive => Bool.noConfusion hactive
          · simpa using htold.taken
          · simpa using htold.object
          · simpa using htold.moved

theorem acquire (h : run.Kept) (owner : DecoderSessionIdentity) :
    Kept (run.step (.acquire token owner)) := by
  rw [HandleRun.step]
  split
  · exact h
  · next lease hlease =>
      rw [OpaqueHandleRegistry.acquire] at hlease
      split at hlease
      · cases hlease
      · split at hlease
        · cases hlease
        · next index entry hfound =>
            obtain ⟨rfl, hentry, hdestroying⟩ := h.found hfound
            split at hlease
            · cases hlease
            · next hlive =>
                obtain ⟨value, hvalue, rfl⟩ := Option.map_eq_some_iff.mp hlease
                simp only [Bool.or_eq_true, Bool.not_eq_true',
                  decide_eq_true_eq, not_or, Bool.not_eq_false,
                  Bool.not_eq_true, not_not] at hlive
                obtain ⟨⟨⟨-, hactive⟩, hdetached⟩, rfl⟩ := hlive
                have htold := h.told index entry hentry
                have hright : HandleEvent.Right run.log
                    (.granted ((index : Int) + 1) entry.boundOwner) := by
                  refine ⟨htold.live hactive hdetached, ?_,
                    (htold.object value hvalue).2⟩
                  rw [← htold.taken, hdestroying]
                  exact Bool.false_ne_true
                refine ⟨h.next, h.entries, h.waiting, h.once, fun p hp => ?_,
                  fun token => ?_, fun i e he => ?_, fun event hevent => ?_,
                  everyAt_snoc.mpr ⟨h.right, hright⟩⟩
                · rcases List.mem_append.mp hp with hp | hp
                  · exact h.leases p hp
                  · rw [List.mem_singleton.mp hp]
                · have hcounts := h.counts token
                  simp only [List.countP_append, List.countP_singleton,
                    HandleEvent.grants, HandleEvent.releases,
                    decide_eq_true_eq, Bool.false_eq_true, if_false]
                  omega
                · exact (h.told i e he).silent nofun ⟨nofun, nofun⟩ nofun
                · have hlt := (List.getElem?_eq_some_iff.mp hentry).1
                  rcases List.mem_append.mp hevent with hevent | hevent
                  · exact h.known event hevent
                  · rw [List.mem_singleton.mp hevent]
                    exact ⟨index, rfl, hlt⟩

/-- Whoever releases a lease had it. -/
theorem release (h : run.Kept) (lease : Nat) :
    Kept (run.step (.release lease)) := by
  rw [HandleRun.step]
  split
  · exact h
  · next token held hheld =>
      obtain ⟨hlt, hget⟩ := List.getElem?_eq_some_iff.mp hheld
      have hperm : ((token, held) :: run.leases.eraseIdx lease).Perm
          run.leases := by
        rw [← hget]
        exact List.getElem_cons_eraseIdx_perm hlt
      have hcounts : ∀ token', run.leases.countP (fun p => p.1 = token')
          = (run.leases.eraseIdx lease).countP (fun p => p.1 = token')
            + if token = token' then 1 else 0 := by
        intro token'
        rw [← hperm.countP_eq, List.countP_cons]
        simp
      have htoken := h.counts token
      rw [hcounts token, if_pos rfl] at htoken
      have hright : HandleEvent.Right run.log (.released token) := by
        show _ < _
        omega
      refine ⟨h.next, h.entries, h.waiting, h.once, fun p hp => ?_,
        fun token' => ?_, fun i e he => ?_, fun event hevent => ?_,
        everyAt_snoc.mpr ⟨h.right, hright⟩⟩
      · exact h.leases p (List.mem_of_mem_eraseIdx hp)
      · have hall := h.counts token'
        rw [hcounts] at hall
        simp only [List.countP_append, List.countP_singleton,
          HandleEvent.grants, HandleEvent.releases, decide_eq_true_eq,
          Bool.false_eq_true, if_false]
        omega
      · exact (h.told i e he).silent nofun ⟨nofun, nofun⟩ nofun
      · rcases List.mem_append.mp hevent with hevent | hevent
        · exact h.known event hevent
        · rw [List.mem_singleton.mp hevent]
          have hgranted : 0 < run.log.countP (HandleEvent.grants token) := by
            omega
          obtain ⟨granted, hgranted, hof⟩ := List.countP_pos_iff.mp hgranted
          have hknown := h.known granted hgranted
          cases granted with
          | granted token' _ =>
            rw [HandleEvent.grants, decide_eq_true_eq] at hof
            exact hof ▸ hknown
          | _ => cases hof

/-- The entry of one token is not found any more, or loses its object. -/
theorem told_set (h : run.Kept) {entry' : Entry T}
    (htoken : event.token = (index : Int) + 1)
    (htold : entry'.Told (run.log ++ [event]) ((index : Int) + 1)) {i : Nat}
    {e : Entry T} (he : (run.registry.heap.set index entry')[i]? = some e) :
    e.Told (run.log ++ [event]) ((i : Int) + 1) := by
  rcases getElem?_set_some he with ⟨rfl, rfl⟩ | ⟨hi, he⟩
  · exact htold
  · refine (h.told i e he).other fun event' hevent' => ?_
    rw [List.mem_singleton.mp hevent', htoken]
    omega

/-- A destroy call takes the entry that it finds. -/
theorem take (h : run.Kept)
    (hentry : run.registry.heap[index]? = some entry)
    (hdestroying : entry.destroying = false)
    {registry : OpaqueHandleRegistry T}
    (hheap : registry.heap = run.registry.heap.set index { entry with
      active := false
      detached := true
      destroying := true })
    (hentries : registry.entries = run.registry.entries.filter
      fun p => p.1 ≠ (index : Int) + 1)
    (hnext : registry.nextToken = run.registry.nextToken) :
    Kept { run with
      registry
      waiting := run.waiting ++ [((index : Int) + 1, index)]
      log := run.log ++ [.taken ((index : Int) + 1)] } := by
  have hlt := (List.getElem?_eq_some_iff.mp hentry).1
  have htold := h.told index entry hentry
  have htaken : .taken ((index : Int) + 1) ∉ run.log := by
    rw [← htold.taken, hdestroying]
    exact Bool.false_ne_true
  obtain ⟨value, hvalue⟩ := h.present hentry hdestroying
  refine ⟨?_, fun token i => ?_, fun p => ?_, ?_, h.leases, fun token => ?_,
    fun i e he => ?_, fun event hevent => ?_,
    everyAt_snoc.mpr ⟨h.right, htaken⟩⟩
  · show registry.nextToken = registry.heap.length + 1
    rw [hnext, hheap, List.length_set]
    exact h.next
  · show registry.lookup token = some i ↔ _ ∧ ∃ e, registry.heap[i]? = _ ∧ _
    rw [OpaqueHandleRegistry.lookup_filter hentries, hheap]
    by_cases hi : i = index
    · subst hi
      rw [List.getElem?_set_self hlt]
      split
      · simp
      · next hne => exact ⟨fun hlookup => absurd ((h.entries token i).mp
          hlookup).1 hne, fun hlookup => absurd hlookup.1 hne⟩
    · rw [List.getElem?_set_ne (Ne.symm hi)]
      split
      · next heq =>
          refine ⟨nofun, fun hlookup => ?_⟩
          have := hlookup.1
          omega
      · exact h.entries token i
  · show p ∈ _ ↔ _ ∧ ∃ e, registry.heap[p.2]? = _ ∧ _
    rw [List.mem_append, List.mem_singleton, hheap]
    by_cases hi : p.2 = index
    · rw [hi, List.getElem?_set_self hlt]
      have hnot : p ∉ run.waiting := by
        intro hp
        obtain ⟨-, e, he, hdestroyed, -⟩ := (h.waiting p).mp hp
        rw [hi, hentry] at he
        obtain rfl := Option.some.inj he
        rw [hdestroying] at hdestroyed
        cases hdestroyed
      rw [or_iff_right hnot]
      refine ⟨fun hp => ?_, fun hp => Prod.ext hp.1 hi⟩
      rw [hp]
      exact ⟨rfl, _, rfl, rfl, by simp [hvalue]⟩
    · rw [List.getElem?_set_ne (Ne.symm hi),
        or_iff_left (fun hp => hi (by rw [hp]))]
      exact h.waiting p
  · refine List.nodup_append.mpr ⟨h.once, List.nodup_singleton _, ?_⟩
    rintro p hp q hq rfl
    rw [List.mem_singleton.mp hq] at hp
    obtain ⟨-, e, he, hdestroyed, -⟩ := (h.waiting _).mp hp
    rw [hentry] at he
    obtain rfl := Option.some.inj he
    rw [hdestroying] at hdestroyed
    cases hdestroyed
  · simpa [HandleEvent.grants, HandleEvent.releases] using h.counts token
  · rw [hheap] at he
    have htold' : Entry.Told (run.log ++ [.taken ((index : Int) + 1)])
        ((index : Int) + 1) { entry with
          active := false
          detached := true
          destroying := true } := by
      refine ⟨?_, fun hactive => Bool.noConfusion hactive, ?_, ?_, ?_⟩
      · simpa using htold.bound
      · simp
      · simpa using htold.object
      · simpa using htold.moved
    exact h.told_set rfl htold' he
  · show ∃ i, _ ∧ i < registry.heap.length
    rw [hheap, List.length_set]
    rcases List.mem_append.mp hevent with hevent | hevent
    · exact h.known event hevent
    · rw [List.mem_singleton.mp hevent]
      exact ⟨index, rfl, hlt⟩

theorem destroy (h : run.Kept) (owner : Option DecoderSessionIdentity) :
    Kept (run.step (.destroy token owner)) := by
  rw [HandleRun.step]
  split
  · exact h
  · split
    · exact h
    · next registry index htake =>
        rw [OpaqueHandleRegistry.destroyTake] at htake
        split at htake
        · cases htake
        · next index' entry hfound =>
            obtain ⟨rfl, hentry, hdestroying⟩ := h.found hfound
            split at htake
            · cases htake
            · obtain ⟨rfl, hindex⟩ := Prod.mk.inj htake
              obtain rfl := Option.some.inj hindex
              exact h.take hentry hdestroying rfl rfl rfl

/-- A destroy call that waits is handed the object, once nobody else has a
lease. -/
theorem drain (h : run.Kept) (caller : Nat) :
    Kept (run.step (.drain caller)) := by
  rw [HandleRun.step]
  split
  · exact h
  · next token index hcaller =>
      split
      · exact h
      · next hleases =>
          obtain ⟨hplace, hget⟩ := List.getElem?_eq_some_iff.mp hcaller
          have hwaits : (token, index) ∈ run.waiting := hget ▸
            List.getElem_mem hplace
          obtain ⟨htoken, entry, hentry, hdestroying, hobject⟩ :=
            (h.waiting _).mp hwaits
          obtain rfl : token = (index : Int) + 1 := htoken
          obtain ⟨value, hvalue⟩ := Option.ne_none_iff_exists'.mp hobject
          have hlt := (List.getElem?_eq_some_iff.mp hentry).1
          have htold := h.told index entry hentry
          obtain ⟨hregistered, hhanded⟩ := htold.object value hvalue
          have hnone : run.leases.countP
              (fun p => p.1 = (index : Int) + 1) = 0 := by
            rw [List.countP_eq_zero]
            intro p hp heq
            rw [decide_eq_true_eq, h.leases p hp] at heq
            refine hleases (List.any_eq_true.mpr ⟨p, hp, ?_⟩)
            rw [decide_eq_true_eq]
            omega
          have hperm : (((index : Int) + 1, index) ::
              run.waiting.eraseIdx caller).Perm run.waiting := by
            rw [← hget]
            exact List.getElem_cons_eraseIdx_perm hplace
          have honce := hperm.nodup_iff.mpr h.once
          rw [List.nodup_cons] at honce
          rw [OpaqueHandleRegistry.destroyDrain, hentry]
          refine ⟨?_, fun token i => ?_, fun p => ?_, honce.2, h.leases,
            fun token => ?_, fun i e he => ?_, fun event hevent => ?_, ?_⟩
          · show run.registry.nextToken
              = (run.registry.heap.set _ _).length + 1
            rw [List.length_set]
            exact h.next
          · refine (h.entries token i).trans (and_congr_right fun _ => ?_)
            show _ ↔ ∃ e, (run.registry.heap.set _ _)[i]? = _ ∧ _
            by_cases hi : i = index
            · rw [hi, List.getElem?_set_self hlt, hentry]
              simp
            · rw [List.getElem?_set_ne (Ne.symm hi)]
          · show _ ↔ _ ∧ ∃ e, (run.registry.heap.set _ _)[p.2]? = _ ∧ _
            by_cases hi : p.2 = index
            · rw [hi, List.getElem?_set_self hlt]
              refine ⟨fun hp => absurd hp fun hp => ?_, ?_⟩
              · have hpair := ((h.waiting p).mp
                  (List.mem_of_mem_eraseIdx hp)).1
                rw [hi] at hpair
                exact honce.1 ((Prod.ext hpair hi : p = (_, _)) ▸ hp)
              · rintro ⟨-, e, he, -, hsome⟩
                rw [← Option.some.inj he] at hsome
                exact absurd rfl hsome
            · rw [List.getElem?_set_ne (Ne.symm hi), ← h.waiting p,
                ← hperm.mem_iff, List.mem_cons, or_iff_right]
              exact fun hp => hi (by rw [hp])
          · simpa [HandleEvent.grants, HandleEvent.releases]
              using h.counts token
          · have htold' : Entry.Told
                (run.log ++ [.handed ((index : Int) + 1) entry.object])
                ((index : Int) + 1) { entry with object := none } := by
              refine ⟨?_, fun hactive hdetached => ?_, ?_, nofun, ?_⟩
              · simpa using htold.bound
              · exact (htold.live hactive hdetached).snoc ⟨nofun, nofun⟩
              · simpa using htold.taken
              · exact fun _ => ⟨value, by simp [hvalue]⟩
            exact h.told_set rfl htold' he
          · show ∃ i, _ ∧ i < (run.registry.heap.set _ _).length
            rw [List.length_set]
            rcases List.mem_append.mp hevent with hevent | hevent
            · exact h.known event hevent
            · rw [List.mem_singleton.mp hevent]
              exact ⟨index, rfl, hlt⟩
          · refine everyAt_snoc.mpr ⟨h.right, htold.taken.mp hdestroying,
              hhanded, ⟨value, hvalue, hregistered⟩, ?_⟩
            have hcounts := h.counts ((index : Int) + 1)
            rwa [hnone, Nat.add_zero] at hcounts

/-- What the log tells of an entry that is new. -/
theorem told_new (h : run.Kept) (value : T) (owner : DecoderSessionIdentity)
    (htoken : token = (run.registry.heap.length : Int) + 1) :
    (Entry.new value owner).Told (run.log ++ [.registered token value]
      ++ if owner.valid then [.bound token owner] else []) token := by
  have hnot : ∀ event ∈ run.log, event.token ≠ token := fun event hevent =>
    htoken ▸ h.unknown hevent
  have hmem : ∀ {event : HandleEvent T}, event.token = token →
      event ∈ run.log ++ [.registered token value]
        ++ (if owner.valid then [.bound token owner] else []) →
      event = .registered token value
        ∨ (owner.valid = true ∧ event = .bound token owner) := by
    intro event heq hevent
    rcases List.mem_append.mp hevent with hevent | hevent
    · rcases List.mem_append.mp hevent with hevent | hevent
      · exact absurd heq (hnot event hevent)
      · exact Or.inl (List.mem_singleton.mp hevent)
    · split at hevent
      · next hvalid =>
          exact Or.inr ⟨hvalid, List.mem_singleton.mp hevent⟩
      · cases hevent
  refine ⟨fun owner' howner' => ?_, fun hactive _ => ?_, ?_,
    fun value' hvalue' => ⟨?_, fun object hobject => ?_⟩, nofun⟩
  · rcases hmem rfl howner' with heq | ⟨hvalid, heq⟩
    · cases heq
    · cases heq
      exact ⟨rfl, hvalid⟩
  · have hvalid : owner.valid = true := hactive
    rw [if_pos hvalid]
    exact since_self
  · refine ⟨nofun, fun htaken => ?_⟩
    rcases hmem rfl htaken with heq | ⟨-, heq⟩
    · cases heq
    · cases heq
  · rw [← Option.some.inj hvalue']
    exact List.mem_append_left _ (List.mem_append_right _
      List.mem_cons_self)
  · rcases hmem rfl hobject with heq | ⟨-, heq⟩
    · cases heq
    · cases heq

/-- A token that nothing was said of, and a new entry for it. -/
theorem registerObject (h : run.Kept) (object : Option T)
    (owner : DecoderSessionIdentity)
    (hfew : run.registry.heap.length + 1 < 2 ^ 63) :
    Kept (run.step (.registerObject object owner)) := by
  cases object with
  | none => exact h
  | some value =>
    obtain ⟨n, hn⟩ : ∃ n, n = run.registry.heap.length := ⟨_, rfl⟩
    have hnext : run.registry.nextToken = n + 1 := hn ▸ h.next
    have hcast : ((n + 1 : Nat) : Int) = (n : Int) + 1 := Int.natCast_succ n
    have hfree : run.registry.lookup ((n : Int) + 1) = none := by
      rw [Option.eq_none_iff_forall_ne_some]
      intro index hindex
      obtain ⟨htoken, e, he, -⟩ := (h.entries _ index).mp hindex
      have := (List.getElem?_eq_some_iff.mp he).1
      omega
    have hresult : run.registry.registerObject (some value) owner = _ :=
      OpaqueHandleRegistry.registerObject_first
        (by rw [hnext]; exact Nat.succ_ne_zero n) (by omega)
        (by rwa [hnext, hcast])
    rw [hnext, hcast, ← hn] at hresult
    have hstep : run.step (.registerObject (some value) owner) =
        { run with
          registry :=
            { nextToken := n + 1 + 1
              entries := run.registry.entries ++ [((n : Int) + 1, n)]
              heap := run.registry.heap ++ [Entry.new value owner] }
          log := run.log ++ [.registered ((n : Int) + 1) value]
            ++ if owner.valid then [.bound ((n : Int) + 1) owner]
              else [] } := by
      show (if (run.registry.registerObject (some value) owner).2 = 0
        then _ else _) = _
      rw [hresult, if_neg (by dsimp only; omega)]
    rw [hstep]
    have hlookup : ∀ token, OpaqueHandleRegistry.lookup
        { nextToken := n + 1 + 1
          entries := run.registry.entries ++ [((n : Int) + 1, n)]
          heap := run.registry.heap ++ [Entry.new value owner] } token
        = if token = (n : Int) + 1 then some n
          else run.registry.lookup token := fun token =>
      OpaqueHandleRegistry.lookup_append
        (r := run.registry) (p := ((n : Int) + 1, n)) rfl hfree
    have hnone : run.registry.heap[n]? = none :=
      List.getElem?_eq_none hn.ge
    -- the entries that were there, and the new one behind them
    have hheap : ∀ i, (run.registry.heap ++ [Entry.new value owner])[i]?
        = if i = n then some (Entry.new value owner)
          else run.registry.heap[i]? := by
      intro i
      split
      · next hi =>
          rw [hi, hn, List.getElem?_concat_length]
      · next hi =>
          rcases Nat.lt_or_gt_of_ne (hn ▸ hi) with hlt | hgt
          · exact List.getElem?_append_left hlt
          · rw [List.getElem?_eq_none (by simp; omega),
              List.getElem?_eq_none hgt.le]
    have htold := h.told_new value owner (congrArg (fun n : Nat =>
      (n : Int) + 1) hn)
    refine ⟨?_, fun token i => ?_, fun p => ?_, h.once, h.leases,
      fun token => ?_, fun i e he => ?_, fun event hevent => ?_, ?_⟩
    · show n + 1 + 1 = (run.registry.heap ++ [_]).length + 1
      rw [List.length_append, List.length_singleton, hn]
    · show OpaqueHandleRegistry.lookup _ _ = _ ↔ _ ∧ ∃ e,
        (run.registry.heap ++ [_])[i]? = some e ∧ _
      rw [hlookup, hheap]
      by_cases hi : i = n
      · subst hi
        rw [if_pos rfl]
        split
        · next heq => exact ⟨fun _ => ⟨heq, _, rfl, rfl⟩, fun _ => rfl⟩
        · next hne =>
            refine ⟨fun hold => ?_, fun hnew => absurd hnew.1 hne⟩
            exact absurd ((h.entries token i).mp hold).1 hne
      · rw [if_neg hi]
        split
        · next heq =>
            refine ⟨fun hsome => absurd (Option.some.inj hsome).symm hi,
              fun hold => ?_⟩
            have := hold.1
            omega
        · exact h.entries token i
    · refine (h.waiting p).trans (and_congr_right fun _ => ?_)
      show _ ↔ ∃ e, (run.registry.heap ++ [_])[p.2]? = some e ∧ _
      rw [hheap]
      split
      · next hi =>
          rw [hi, hnone]
          simp [Entry.new]
      · rfl
    · have hcounts := h.counts token
      split
      · simpa [HandleEvent.grants, HandleEvent.releases] using hcounts
      · simpa [HandleEvent.grants, HandleEvent.releases] using hcounts
    · have he' : (run.registry.heap ++ [Entry.new value owner])[i]?
          = some e := he
      rw [hheap] at he'
      split at he'
      · next hi =>
          subst hi
          rw [← Option.some.inj he']
          exact htold
      · next hi =>
          rw [List.append_assoc]
          refine (h.told i e he').other fun event hevent => ?_
          have htoken : event.token = (n : Int) + 1 := by
            rcases List.mem_append.mp hevent with hevent | hevent
            · rw [List.mem_singleton.mp hevent]
              rfl
            · split at hevent
              · rw [List.mem_singleton.mp hevent]
                rfl
              · cases hevent
          rw [htoken]
          omega
    · show ∃ i : Nat, _ ∧ i
        < (run.registry.heap ++ [Entry.new value owner]).length
      rw [List.length_append, List.length_singleton, ← hn]
      rcases List.mem_append.mp hevent with hevent | hevent
      · rcases List.mem_append.mp hevent with hevent | hevent
        · obtain ⟨i, htoken, hlt⟩ := h.known event hevent
          exact ⟨i, htoken, by omega⟩
        · rw [List.mem_singleton.mp hevent]
          exact ⟨n, rfl, Nat.lt_succ_self n⟩
      · split at hevent
        · rw [List.mem_singleton.mp hevent]
          exact ⟨n, rfl, Nat.lt_succ_self n⟩
        · cases hevent
    · have hright : EveryAt HandleEvent.Right
          (run.log ++ [.registered ((n : Int) + 1) value]) := by
        refine everyAt_snoc.mpr ⟨h.right, fun event hevent => ?_⟩
        obtain ⟨i, htoken, hlt⟩ := h.known event hevent
        omega
      split
      · next hvalid =>
          refine everyAt_snoc.mpr ⟨hright, hvalid, fun owner' howner' => ?_,
            fun htaken => ?_⟩
          · rcases List.mem_append.mp howner' with howner' | howner'
            · exact absurd rfl (hn ▸ h.unknown howner')
            · cases List.mem_singleton.mp howner'
          · rcases List.mem_append.mp htaken with htaken | htaken
            · exact absurd rfl (hn ▸ h.unknown htaken)
            · cases List.mem_singleton.mp htaken
      · rw [List.append_nil]
        exact hright

end HandleRun.Kept

-- ==================================== runs

def HandleStep.registers : HandleStep T → Bool
  | .registerObject _ _ => true
  | _ => false

namespace HandleRun

variable {run : HandleRun T}

theorem kept_start : ({} : HandleRun T).Kept := by
  refine ⟨rfl, fun token index => ⟨nofun, ?_⟩, fun p => ⟨nofun, ?_⟩,
    List.nodup_nil, nofun, fun _ => rfl, nofun, nofun, everyAt_nil _⟩
  · rintro ⟨-, entry, hentry, -⟩
    cases hentry
  · rintro ⟨-, entry, hentry, -⟩
    cases hentry

/-- Entries are made by registrations only. -/
theorem length_heap_step (run : HandleRun T) (step : HandleStep T) :
    (run.step step).registry.heap.length
      ≤ run.registry.heap.length + if step.registers then 1 else 0 := by
  cases step with
  | registerObject object owner =>
    cases object with
    | none => exact Nat.le_succ _
    | some value =>
      show (if _ then run else _ : HandleRun T).registry.heap.length ≤ _
      split
      · exact Nat.le_succ _
      · show ((run.registry.registerObject _ owner).1).heap.length ≤ _
        rw [OpaqueHandleRegistry.registerObject]
        split
        · exact Nat.le_succ _
        · exact (List.length_append).le
  | bind token owner =>
    show ((run.registry.bind token owner).1).heap.length ≤ _
    rw [OpaqueHandleRegistry.bind]
    split
    · exact le_rfl
    · split
      · exact le_rfl
      · split
        · exact le_rfl
        · exact (List.length_set).le
  | activate token owner =>
    show ((run.registry.bind token owner).1).heap.length ≤ _
    rw [OpaqueHandleRegistry.bind]
    split
    · exact le_rfl
    · split
      · exact le_rfl
      · split
        · exact le_rfl
        · exact (List.length_set).le
  | deactivate token owner =>
    show ((run.registry.deactivate token owner).1).heap.length ≤ _
    rw [OpaqueHandleRegistry.deactivate]
    split
    · exact le_rfl
    · split
      · exact le_rfl
      · split
        · exact le_rfl
        · exact (List.length_set).le
  | acquire token owner =>
    rw [HandleRun.step]
    split
    · exact le_rfl
    · exact le_rfl
  | release lease =>
    rw [HandleRun.step]
    split
    · exact le_rfl
    · exact le_rfl
  | destroy token owner =>
    rw [HandleRun.step]
    split
    · exact le_rfl
    · split
      · exact le_rfl
      · next htake =>
          rw [OpaqueHandleRegistry.destroyTake] at htake
          split at htake
          · cases htake
          · split at htake
            · cases htake
            · rw [← (Prod.mk.inj htake).1]
              exact (List.length_set).le
  | drain caller =>
    rw [HandleRun.step]
    split
    · exact le_rfl
    · split
      · exact le_rfl
      · show (run.registry.destroyDrain _).1.heap.length ≤ _
        rw [OpaqueHandleRegistry.destroyDrain]
        split
        · exact le_rfl
        · exact (List.length_set).le

theorem Kept.step (h : run.Kept) (step : HandleStep T)
    (hfew : run.registry.heap.length + (if step.registers then 1 else 0)
      < 2 ^ 63) : (run.step step).Kept := by
  cases step with
  | registerObject object owner => exact h.registerObject object owner hfew
  | bind token owner => exact h.bind owner
  | activate token owner => exact h.bind owner
  | deactivate token owner => exact h.deactivate owner
  | acquire token owner => exact h.acquire owner
  | release lease => exact h.release lease
  | destroy token owner => exact h.destroy owner
  | drain caller => exact h.drain caller

end HandleRun

theorem kept_handleRun (steps : List (HandleStep T))
    (hfew : steps.countP HandleStep.registers < 2 ^ 63) :
    (handleRun steps).Kept ∧ (handleRun steps).registry.heap.length
      ≤ steps.countP HandleStep.registers := by
  induction steps using List.reverseRecOn with
  | nil => exact ⟨HandleRun.kept_start, le_rfl⟩
  | append_singleton steps step ih =>
    rw [List.countP_append, List.countP_singleton] at hfew ⊢
    obtain ⟨hkept, hlength⟩ := ih (by omega)
    have hnext : handleRun (steps ++ [step])
        = (handleRun steps).step step := exec_append _ _ _
    have hgrown := (handleRun steps).length_heap_step step
    rw [hnext]
    exact ⟨hkept.step step (by omega), by omega⟩

namespace HandleRun.Kept

variable {run : HandleRun T} {token : Int}

/-- A token is registered once. -/
theorem registered_unique (h : run.Kept) {value value' : T}
    (hvalue : .registered token value ∈ run.log)
    (hvalue' : .registered token value' ∈ run.log) : value = value' := by
  obtain ⟨before, after, hlog⟩ := List.append_of_mem hvalue
  have hright := h.right before _ after hlog
  rw [hlog] at hvalue'
  rcases List.mem_append.mp hvalue' with hvalue' | hvalue'
  · exact absurd (hright _ hvalue') (lt_irrefl token)
  · rcases List.mem_cons.mp hvalue' with heq | hvalue'
    · cases heq
      rfl
    · obtain ⟨before', after', hafter⟩ := List.append_of_mem hvalue'
      have hlog' : run.log
          = (before ++ .registered token value :: before')
            ++ .registered token value' :: after' := by
        rw [hlog, hafter, List.append_assoc, List.cons_append]
      refine absurd (h.right _ _ after' hlog' (.registered token value) ?_)
        (lt_irrefl token)
      simp

/-- An object that was registered is found, or with the call that took it,
or was handed to it. -/
theorem somewhere (h : run.Kept) {value : T}
    (hvalue : .registered token value ∈ run.log) :
    ((∃ index, run.registry.lookup token = some index)
        ∧ .taken token ∉ run.log)
      ∨ (.taken token ∈ run.log
        ∧ run.waiting.countP (fun p => p.1 = token) = 1
        ∧ ∀ object, .handed token object ∉ run.log)
      ∨ (.handed token (some value) ∈ run.log
        ∧ ∀ p ∈ run.waiting, p.1 ≠ token) := by
  obtain ⟨index, htoken, hlt⟩ := h.known _ hvalue
  obtain rfl : token = (index : Int) + 1 := htoken
  have hentry := List.getElem?_eq_getElem hlt
  have htold := h.told index _ hentry
  cases hdestroying : (run.registry.heap[index]).destroying with
  | false =>
    refine Or.inl ⟨⟨index, ?_⟩, ?_⟩
    · exact (h.entries _ index).mpr ⟨rfl, _, hentry, hdestroying⟩
    · rw [← htold.taken, hdestroying]
      exact Bool.false_ne_true
  | true =>
    right
    cases hobject : (run.registry.heap[index]).object with
    | some value' =>
      refine Or.inl ⟨htold.taken.mp hdestroying, ?_,
        (htold.object value' hobject).2⟩
      have hmem : ((index : Int) + 1, index) ∈ run.waiting :=
        (h.waiting _).mpr ⟨rfl, _, hentry, hdestroying, by
          rw [hobject]
          exact Option.some_ne_none value'⟩
      have hcount := List.count_eq_one_of_mem h.once hmem
      rw [List.count] at hcount
      refine Eq.trans (List.countP_congr fun p hp => ?_) hcount
      rw [decide_eq_true_eq, beq_iff_eq]
      refine ⟨fun heq => ?_, fun heq => by rw [heq]⟩
      have hplace := ((h.waiting p).mp hp).1
      exact Prod.ext heq (by omega)
    | none =>
      refine Or.inr ⟨?_, fun p hp heq => ?_⟩
      · obtain ⟨value', hhanded⟩ := htold.moved hobject
        obtain ⟨before, after, hlog⟩ := List.append_of_mem hhanded
        obtain ⟨-, -, ⟨value'', heq, hregistered⟩, -⟩ :=
          h.right before _ after hlog
        obtain rfl := Option.some.inj heq
        have hmem : .registered ((index : Int) + 1) value' ∈ run.log := by
          rw [hlog]
          exact List.mem_append_left _ hregistered
        rwa [h.registered_unique hvalue hmem]
      · obtain ⟨hplace, entry, hentry', -, hsome⟩ := (h.waiting p).mp hp
        obtain rfl : index = p.2 := by omega
        rw [hentry] at hentry'
        rw [← Option.some.inj hentry'] at hsome
        exact hsome hobject

/-- The call that took an entry goes on once its leases are released. -/
theorem drains (h : run.Kept) {caller index : Nat}
    (hcaller : run.waiting[caller]? = some (token, index))
    (hdrained : Drained token run.log) :
    ∃ value, .registered token value ∈ run.log
      ∧ (run.step (.drain caller)).log
        = run.log ++ [.handed token (some value)] := by
  have hwaits := List.mem_of_getElem? hcaller
  obtain ⟨htoken, entry, hentry, -, hobject⟩ := (h.waiting _).mp hwaits
  obtain rfl : token = (index : Int) + 1 := htoken
  obtain ⟨value, hvalue⟩ := Option.ne_none_iff_exists'.mp hobject
  have hnone : run.leases.countP
      (fun p => p.1 = (index : Int) + 1) = 0 := by
    have hcounts := h.counts ((index : Int) + 1)
    rw [Drained] at hdrained
    omega
  have hleases : ¬ (run.leases.any
      fun lease => lease.2.entry = index) = true := by
    rw [List.any_eq_true]
    rintro ⟨p, hp, heq⟩
    rw [List.countP_eq_zero] at hnone
    refine hnone p hp ?_
    rw [decide_eq_true_eq] at heq ⊢
    rw [h.leases p hp, heq]
  refine ⟨value, ((h.told index entry hentry).object value hvalue).1, ?_⟩
  rw [HandleRun.step, hcaller]
  dsimp only
  rw [if_neg hleases, OpaqueHandleRegistry.destroyDrain, hentry]
  dsimp only
  rw [hvalue]

end HandleRun.Kept

end RemoteDesk.Render
