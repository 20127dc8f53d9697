/-
What the gate of callbacks keeps, where its owners keep to one cycle.

The leases in flight are all of the cycle that is open or was last. While the
gate is open no closing call has returned in it, and none is under way; a
cleanup that is kept belongs to the leases in flight, and one that was taken
to be run has none left (`CallbackRun.Kept`).
-/
import RemoteDesk.Render.CallbackAdmission

namespace RemoteDesk.Render

open Lib

variable {κ : Type}

-- =============================== invariant

/-- What safe steps keep. -/
structure CallbackRun.Kept (run : CallbackRun κ) : Prop where
  inFlight : run.context.inFlight = run.leases.length
  current : ∀ lease ∈ run.leases, lease.1 = run.cycle
  counts : ∀ cycle, run.log.countP (CallbackEvent.grantedIn cycle)
    = run.log.countP (CallbackEvent.releasedIn cycle)
      + run.leases.countP fun lease => lease.1 = cycle
  opened : run.context.accepting = true →
    Since .bound (fun event => event.returns = false) run.log
  waits : run.waiting ≠ 0 → run.context.accepting = false
  returning : ∀ taken ∈ run.running, taken.returns = true →
    run.context.accepting = false
  quiet : ∀ taken ∈ run.running, taken.cycle ≤ run.cycle
    ∧ (taken.cycle = run.cycle →
      run.context.accepting = false ∧ run.leases = [])
  deferred : ∀ kept, run.context.deferredCleanup = some kept →
    kept.1 = run.cycle ∧ run.context.accepting = false ∧ run.leases ≠ []
  scheduled : run.context.cleanupScheduled = false →
    ∀ cycle cleanup, .handed cycle cleanup ∉ run.log
  account : ∀ cycle, (run.cleanups cycle).Perm
    (run.firstHanded cycle).toList
  right : EveryAt CallbackEvent.Right run.log

namespace CallbackRun.Kept

variable {run : CallbackRun κ}

/-- No lease of a cycle is out. -/
theorem returned (h : run.Kept) {cycle : Nat}
    (hnone : ∀ lease ∈ run.leases, lease.1 ≠ cycle) :
    Returned cycle run.log := by
  have hcounts := h.counts cycle
  have hzero : run.leases.countP (fun lease => lease.1 = cycle) = 0 := by
    rw [List.countP_eq_zero]
    intro lease hlease
    rw [decide_eq_true_eq]
    exact hnone lease hlease
  rwa [hzero, Nat.add_zero] at hcounts

/-- No lease is out at all. -/
theorem returned_all (h : run.Kept) (hnone : run.context.inFlight = 0)
    (cycle : Nat) : Returned cycle run.log := by
  refine h.returned fun lease hlease => ?_
  rw [List.eq_nil_of_length_eq_zero (h.inFlight.symm.trans hnone)] at hlease
  cases hlease

variable {events : List (CallbackEvent κ)}

/-- Events that are about no lease. -/
theorem counts_silent (h : run.Kept)
    (hnone : ∀ event ∈ events, ∀ cycle, event.grantedIn cycle = false
      ∧ event.releasedIn cycle = false) (cycle : Nat) :
    (run.log ++ events).countP (CallbackEvent.grantedIn cycle)
      = (run.log ++ events).countP (CallbackEvent.releasedIn cycle)
        + run.leases.countP fun lease => lease.1 = cycle := by
  have hgranted : events.countP (CallbackEvent.grantedIn cycle) = 0 := by
    rw [List.countP_eq_zero]
    intro event hevent
    rw [(hnone event hevent cycle).1]
    exact Bool.false_ne_true
  have hreleased : events.countP (CallbackEvent.releasedIn cycle) = 0 := by
    rw [List.countP_eq_zero]
    intro event hevent
    rw [(hnone event hevent cycle).2]
    exact Bool.false_ne_true
  rw [List.countP_append, List.countP_append, hgranted, hreleased]
  exact h.counts cycle

/-- Events that are about no cleanup. One that was kept may be taken. -/
theorem account_silent (h : run.Kept) {run' : CallbackRun κ}
    (hlog : run'.log = run.log ++ events) (hmoved : ∀ cycle,
      run'.running.filterMap (ofCycle cycle) ++ run'.deferredIn cycle
        = run.running.filterMap (ofCycle cycle) ++ run.deferredIn cycle)
    (hran : ∀ cycle, events.filterMap (CallbackEvent.ranIn cycle) = [])
    (hhanded : ∀ cycle, events.filterMap (CallbackEvent.handedIn cycle) = [])
    (cycle : Nat) :
    (run'.cleanups cycle).Perm (run'.firstHanded cycle).toList := by
  have haccount := h.account cycle
  rw [CallbackRun.cleanups, CallbackRun.firstHanded, List.append_assoc]
    at haccount ⊢
  rw [hlog, hmoved, List.filterMap_append, List.filterMap_append,
    hran, hhanded, List.append_nil, List.append_nil]
  exact haccount

/-- An event that hands nothing over. -/
theorem scheduled_snoc (h : run.Kept) {event : CallbackEvent κ}
    (hevent : ∀ cycle cleanup, event ≠ .handed cycle cleanup)
    (hunscheduled : run.context.cleanupScheduled = false) (cycle : Nat)
    (cleanup : κ) : .handed cycle cleanup ∉ run.log ++ [event] := by
  intro hhanded
  rcases List.mem_append.mp hhanded with hhanded | hhanded
  · exact h.scheduled hunscheduled cycle cleanup hhanded
  · exact hevent cycle cleanup (List.mem_singleton.mp hhanded).symm

theorem start (owner : DecoderSessionIdentity) :
    (CallbackRun.start owner : CallbackRun κ).Kept := by
  refine ⟨rfl, nofun, fun _ => rfl, nofun, nofun, nofun, nofun, nofun,
    nofun, fun _ => List.Perm.refl _, everyAt_nil _⟩

theorem bind (h : run.Kept) {token : Int} {owner : DecoderSessionIdentity}
    {generation : Nat} (hsafe : run.Safe (.bind token owner generation)) :
    (run.step (.bind token owner generation)).Kept := by
  rw [CallbackRun.step]
  split
  · next hbound =>
      have hopen : ¬ (run.context.accepting || run.context.inFlight ≠ 0
          || token ≤ 0 || !owner.valid || generation = 0) = true := by
        intro hrefused
        rw [CallbackAdmissionContext.bind, if_pos hrefused] at hbound
        cases hbound
      have hcontext : (run.context.bind token owner generation).1
          = { run.context with token, owner, generation, accepting := true } := by
        rw [CallbackAdmissionContext.bind, if_neg hopen]
      simp only [Bool.or_eq_true, decide_eq_true_eq, not_or, not_not,
        Bool.not_eq_true', Bool.not_eq_true, Bool.not_eq_false, not_le]
        at hopen
      obtain ⟨⟨⟨⟨-, hnone⟩, htoken⟩, hvalid⟩, hgeneration⟩ := hopen
      obtain ⟨hwaiting, hreturning⟩ := hsafe htoken hvalid hgeneration hnone
      have hleases : run.leases = [] :=
        List.eq_nil_of_length_eq_zero (h.inFlight.symm.trans hnone)
      rw [hcontext]
      refine ⟨h.inFlight, ?_, fun cycle => ?_, fun _ => since_self,
        fun hno => absurd hwaiting hno, fun taken htaken hreturns => ?_,
        fun taken htaken => ?_, fun kept hkept => ?_,
        h.scheduled_snoc nofun,
        h.account_silent rfl (fun _ => rfl) (fun _ => rfl) (fun _ => rfl),
        everyAt_snoc.mpr ⟨h.right, trivial⟩⟩
      · rw [hleases]
        nofun
      · exact h.counts_silent (by
          simp [CallbackEvent.grantedIn, CallbackEvent.releasedIn]) cycle
      · rw [hreturning taken htaken] at hreturns
        cases hreturns
      · have hle := (h.quiet taken htaken).1
        refine ⟨Nat.le_succ_of_le hle, fun heq => ?_⟩
        dsimp only at heq
        omega
      · exact absurd hleases (h.deferred kept hkept).2.2
  · exact h

theorem tryAcquire (h : run.Kept) : (run.step .tryAcquire).Kept := by
  rw [CallbackRun.step]
  split
  · exact h
  · next context snapshot hacquire =>
      rw [CallbackAdmissionContext.tryAcquire] at hacquire
      split at hacquire
      · cases hacquire
      · next hrefused =>
          obtain ⟨rfl, -⟩ := Prod.mk.inj hacquire
          have haccepting : run.context.accepting = true := by
            by_contra hclosed
            exact hrefused (by simp [hclosed])
          refine ⟨?_, fun lease hlease => ?_, fun cycle => ?_,
            fun _ => (h.opened haccepting).snoc rfl, h.waits, h.returning,
            fun taken htaken => ?_, fun kept hkept => ?_,
            h.scheduled_snoc nofun,
            h.account_silent rfl (fun _ => rfl) (fun _ => rfl) (fun _ => rfl),
            everyAt_snoc.mpr ⟨h.right, h.opened haccepting⟩⟩
          · show run.context.inFlight + 1 = (run.leases ++ [_]).length
            rw [List.length_append, List.length_singleton, h.inFlight]
          · rcases List.mem_append.mp hlease with hlease | hlease
            · exact h.current lease hlease
            · rw [List.mem_singleton.mp hlease]
          · have hcounts := h.counts cycle
            simp only [List.countP_append, List.countP_singleton,
              CallbackEvent.grantedIn, CallbackEvent.releasedIn,
              decide_eq_true_eq, Bool.false_eq_true, if_false]
            omega
          · obtain ⟨hle, hlast⟩ := h.quiet taken htaken
            refine ⟨hle, fun heq => ?_⟩
            rw [(hlast heq).1] at haccepting
            cases haccepting
          · have hclosed := (h.deferred kept hkept).2.1
            rw [haccepting] at hclosed
            cases hclosed

/-- The last lease of a cycle takes the cleanup that was kept with it. -/
theorem release (h : run.Kept) (lease : Nat) :
    (run.step (.release lease)).Kept := by
  rw [CallbackRun.step]
  split
  · exact h
  · next cycle snapshot hlease =>
      obtain ⟨hlt, hget⟩ := List.getElem?_eq_some_iff.mp hlease
      have hmem : (cycle, snapshot) ∈ run.leases := hget ▸ List.getElem_mem hlt
      obtain rfl : cycle = run.cycle := h.current _ hmem
      have hlength : run.context.inFlight - 1
          = (run.leases.eraseIdx lease).length := by
        rw [List.length_eraseIdx_of_lt hlt, h.inFlight]
      have hperm : ((run.cycle, snapshot) :: run.leases.eraseIdx lease).Perm
          run.leases := by
        rw [← hget]
        exact List.getElem_cons_eraseIdx_perm hlt
      have hcounts : ∀ cycle,
          (run.log ++ [CallbackEvent.released run.cycle]).countP
            (CallbackEvent.grantedIn cycle)
          = (run.log ++ [CallbackEvent.released run.cycle]).countP
              (CallbackEvent.releasedIn cycle)
            + (run.leases.eraseIdx lease).countP
              fun lease => lease.1 = cycle := by
        intro cycle
        have hcounts := h.counts cycle
        rw [← hperm.countP_eq, List.countP_cons] at hcounts
        simp only [List.countP_append, List.countP_singleton,
          CallbackEvent.grantedIn, CallbackEvent.releasedIn,
          decide_eq_true_eq, Bool.false_eq_true, if_false] at hcounts ⊢
        omega
      have hcurrent : ∀ held ∈ run.leases.eraseIdx lease,
          held.1 = run.cycle := fun held hheld =>
        h.current held (List.mem_of_mem_eraseIdx hheld)
      have hleases : run.leases ≠ [] := List.ne_nil_of_mem hmem
      have hquiet : ∀ taken ∈ run.running, taken.cycle ≤ run.cycle
          ∧ (taken.cycle = run.cycle → run.context.accepting = false
            ∧ run.leases.eraseIdx lease = []) := by
        refine fun taken htaken => ⟨(h.quiet taken htaken).1, fun heq => ?_⟩
        exact absurd ((h.quiet taken htaken).2 heq).2 hleases
      rw [CallbackAdmissionContext.release]
      dsimp only
      split
      · next hnone =>
          -- nothing is in flight now
          have hempty : run.leases.eraseIdx lease = [] :=
            List.eq_nil_of_length_eq_zero (hlength.symm.trans hnone)
          refine ⟨hlength, hcurrent, hcounts,
            fun haccepting => (h.opened haccepting).snoc rfl, h.waits,
            fun taken htaken hreturns => ?_, fun taken htaken => ?_, nofun,
            h.scheduled_snoc nofun, h.account_silent rfl (fun cycle => ?_)
              (fun _ => rfl) (fun _ => rfl),
            everyAt_snoc.mpr ⟨h.right, trivial⟩⟩
          · rcases List.mem_append.mp htaken with htaken | htaken
            · exact h.returning taken htaken hreturns
            · obtain ⟨kept, -, rfl⟩ := Option.map_eq_some_iff.mp
                (Option.mem_toList.mp htaken)
              cases hreturns
          · rcases List.mem_append.mp htaken with htaken | htaken
            · exact hquiet taken htaken
            · obtain ⟨kept, hkept, rfl⟩ := Option.map_eq_some_iff.mp
                (Option.mem_toList.mp htaken)
              obtain ⟨hcycle, hclosed, -⟩ := h.deferred kept hkept
              exact ⟨hcycle.le, fun _ => ⟨hclosed, hempty⟩⟩
          · rw [CallbackRun.deferredIn, CallbackRun.deferredIn,
              List.filterMap_append, List.append_assoc]
            cases run.context.deferredCleanup with
            | none => rfl
            | some kept =>
              rw [Option.toList_none, List.filterMap_nil, List.append_nil]
              rfl
      · next hsome =>
          refine ⟨hlength, hcurrent, hcounts,
            fun haccepting => (h.opened haccepting).snoc rfl, h.waits, ?_, ?_,
            fun kept hkept => ?_, h.scheduled_snoc nofun,
            h.account_silent rfl (fun cycle => ?_) (fun _ => rfl)
              (fun _ => rfl),
            everyAt_snoc.mpr ⟨h.right, trivial⟩⟩
          · simpa using h.returning
          · simpa using hquiet
          · obtain ⟨hcycle, hclosed, -⟩ := h.deferred kept hkept
            refine ⟨hcycle, hclosed, fun hempty => hsome ?_⟩
            rw [hlength]
            exact List.length_eq_zero_iff.mpr hempty
          · simp [CallbackRun.deferredIn]

/-- The gate is closed, whether closing calls return with it or not. -/
theorem close (h : run.Kept) {run' : CallbackRun κ}
    (hlog : run'.log = run.log ++ events)
    (hevents : ∀ event ∈ events, event.returns = true)
    (hright : EveryAt CallbackEvent.Right (run.log ++ events))
    (hclosed : run'.context.accepting = false)
    (hstays : run'.context.deferredCleanup = run.context.deferredCleanup
      ∧ run'.context.cleanupScheduled = run.context.cleanupScheduled
      ∧ run'.context.inFlight = run.context.inFlight
      ∧ run'.running = run.running ∧ run'.leases = run.leases
      ∧ run'.cycle = run.cycle) : run'.Kept := by
  obtain ⟨hdeferred, hscheduled, hinFlight, hrunning, hleases, hcycle⟩ := hstays
  -- what returns is neither a lease nor a cleanup
  have hother : ∀ event ∈ events, (∀ cycle,
      event.grantedIn cycle = false ∧ event.releasedIn cycle = false
        ∧ event.ranIn cycle = none ∧ event.handedIn cycle = none)
      ∧ ∀ cycle cleanup, event ≠ .handed cycle cleanup := by
    intro event hevent
    have hreturns := hevents event hevent
    cases event with
    | closeReturned => exact ⟨fun _ => ⟨rfl, rfl, rfl, rfl⟩, nofun⟩
    | deferReturned => exact ⟨fun _ => ⟨rfl, rfl, rfl, rfl⟩, nofun⟩
    | _ => cases hreturns
  refine ⟨?_, ?_, fun cycle => ?_, fun haccepting => ?_, fun _ => hclosed,
    fun _ _ _ => hclosed, fun taken htaken => ?_, fun kept hkept => ?_,
    fun hunscheduled cycle cleanup hhanded => ?_, ?_, ?_⟩
  · rw [hinFlight, hleases]
    exact h.inFlight
  · rw [hleases, hcycle]
    exact h.current
  · rw [hlog, hleases]
    refine h.counts_silent (fun event hevent cycle => ?_) cycle
    obtain ⟨hgranted, hreleased, -⟩ := (hother event hevent).1 cycle
    exact ⟨hgranted, hreleased⟩
  · rw [hclosed] at haccepting
    cases haccepting
  · rw [hrunning] at htaken
    obtain ⟨hle, hlast⟩ := h.quiet taken htaken
    rw [hcycle, hleases]
    exact ⟨hle, fun heq => ⟨hclosed, (hlast heq).2⟩⟩
  · rw [hdeferred] at hkept
    obtain ⟨hof, -, hsome⟩ := h.deferred kept hkept
    rw [hcycle, hleases]
    exact ⟨hof, hclosed, hsome⟩
  · rw [hscheduled] at hunscheduled
    rw [hlog] at hhanded
    rcases List.mem_append.mp hhanded with hhanded | hhanded
    · exact h.scheduled hunscheduled cycle cleanup hhanded
    · exact (hother _ hhanded).2 cycle cleanup rfl
  · refine h.account_silent hlog (fun cycle => ?_) (fun cycle => ?_)
      (fun cycle => ?_)
    · rw [hrunning, CallbackRun.deferredIn, hdeferred]
      rfl
    · rw [List.filterMap_eq_nil_iff]
      exact fun event hevent => ((hother event hevent).1 cycle).2.2.1
    · rw [List.filterMap_eq_nil_iff]
      exact fun event hevent => ((hother event hevent).1 cycle).2.2.2
  · rw [hlog]
    exact hright

theorem closeAndWait (h : run.Kept) (hsafe : run.Safe .closeAndWait) :
    (run.step .closeAndWait).Kept := by
  have hright : ∀ {drained : Bool},
      (drained = true → run.context.inFlight = 0) →
      EveryAt CallbackEvent.Right (run.log ++ [.closeReturned drained]) := by
    intro drained hdrained
    refine everyAt_snoc.mpr ⟨h.right, ?_⟩
    cases drained with
    | false => trivial
    | true => exact h.returned_all (hdrained rfl)
  rw [CallbackRun.step, CallbackAdmissionContext.closeAndWait]
  by_cases hattempted : run.context.closeAttempted = true
  · rw [if_pos hattempted]
    have hclosed : run.context.accepting = false := by
      rw [← Bool.not_eq_true]
      exact fun haccepting => hsafe ⟨hattempted, haccepting⟩
    exact h.close rfl (by simp [CallbackEvent.returns])
      (hright of_decide_eq_true) hclosed ⟨rfl, rfl, rfl, rfl, rfl, rfl⟩
  · rw [if_neg hattempted]
    by_cases hnone : run.context.inFlight = 0
    · dsimp only
      rw [if_pos hnone]
      exact h.close rfl (by simp [CallbackEvent.returns])
        (hright fun _ => hnone) rfl ⟨rfl, rfl, rfl, rfl, rfl, rfl⟩
    · dsimp only
      rw [if_neg hnone]
      exact h.close (List.append_nil _).symm nofun
        (by rw [List.append_nil]; exact h.right) rfl
        ⟨rfl, rfl, rfl, rfl, rfl, rfl⟩

/-- A call that waited returns true only with nothing in flight. -/
theorem returnClosed (h : run.Kept) (hwaiting : run.waiting ≠ 0)
    {drained : Bool} (hdrained : drained = true → run.context.inFlight = 0) :
    (run.returnClosed drained).Kept := by
  refine h.close rfl (by simp [CallbackEvent.returns])
    (everyAt_snoc.mpr ⟨h.right, ?_⟩) (h.waits hwaiting)
    ⟨rfl, rfl, rfl, rfl, rfl, rfl⟩
  cases drained with
  | false => trivial
  | true => exact h.returned_all (hdrained rfl)

/-- A cleanup is handed over, and the gate closed. -/
theorem hand (h : run.Kept) {context : CallbackAdmissionContext (Nat × κ)}
    {running : List (Running κ)} {cleanup : κ}
    (hclosed : context.accepting = false)
    (hscheduled : context.cleanupScheduled = true)
    (hinFlight : context.inFlight = run.context.inFlight)
    (hrunning : ∀ taken ∈ running, taken ∈ run.running
      ∨ (taken.cycle = run.cycle ∧ run.leases = []))
    (hdeferred : ∀ kept, context.deferredCleanup = some kept →
      kept.1 = run.cycle ∧ run.leases ≠ [])
    (haccount : ∀ cycle, (CallbackRun.cleanups
        { run with
          context
          running
          log := run.log ++ [.handed run.cycle cleanup] } cycle).Perm
      ((run.log ++ [CallbackEvent.handed run.cycle cleanup]).filterMap
        (CallbackEvent.handedIn cycle)).head?.toList) :
    CallbackRun.Kept { run with
      context
      running
      log := run.log ++ [.handed run.cycle cleanup] } := by
  refine ⟨hinFlight.trans h.inFlight, h.current, h.counts_silent ?_,
    fun haccepting => ?_, fun _ => hclosed, fun _ _ _ => hclosed,
    fun taken htaken => ?_, fun kept hkept => ?_, fun hunscheduled => ?_,
    haccount, everyAt_snoc.mpr ⟨h.right, trivial⟩⟩
  · simp [CallbackEvent.grantedIn, CallbackEvent.releasedIn]
  · rw [hclosed] at haccepting
    cases haccepting
  · rcases hrunning taken htaken with htaken | ⟨hcycle, hnone⟩
    · obtain ⟨hle, hlast⟩ := h.quiet taken htaken
      exact ⟨hle, fun heq => ⟨hclosed, (hlast heq).2⟩⟩
    · exact ⟨hcycle.le, fun _ => ⟨hclosed, hnone⟩⟩
  · obtain ⟨hcycle, hsome⟩ := hdeferred kept hkept
    exact ⟨hcycle, hclosed, hsome⟩
  · rw [hscheduled] at hunscheduled
    cases hunscheduled

/-- Nothing is to be run where nothing was handed over. -/
theorem nothing (h : run.Kept)
    (hunscheduled : run.context.cleanupScheduled = false) (cycle : Nat) :
    run.log.filterMap (CallbackEvent.handedIn cycle) = []
      ∧ run.log.filterMap (CallbackEvent.ranIn cycle) = []
      ∧ run.running.filterMap (ofCycle cycle) = []
      ∧ run.deferredIn cycle = [] := by
  have hnone : run.log.filterMap (CallbackEvent.handedIn cycle) = [] := by
    rw [List.filterMap_eq_nil_iff]
    intro event hevent
    cases event with
    | handed cycle' cleanup =>
      exact absurd hevent (h.scheduled hunscheduled cycle' cleanup)
    | _ => rfl
  have haccount := h.account cycle
  rw [CallbackRun.firstHanded, hnone] at haccount
  have hnil := List.append_eq_nil_iff.mp haccount.eq_nil
  obtain ⟨hran, hrunning⟩ := List.append_eq_nil_iff.mp hnil.1
  exact ⟨hnone, hran, hrunning, hnil.2⟩

theorem deferCleanup (h : run.Kept) {cleanup : κ}
    (hsafe : run.Safe (.deferCleanupAfterDrain (some cleanup))) :
    (run.step (.deferCleanupAfterDrain (some cleanup))).Kept := by
  have hreturned : ∀ {run' : CallbackRun κ}, run'.Kept →
      run'.context.accepting = false → CallbackRun.Kept
        { run' with log := run'.log ++ [.deferReturned false] } := by
    intro run' h' hclosed
    exact h'.close rfl (by simp [CallbackEvent.returns])
      (everyAt_snoc.mpr ⟨h'.right, trivial⟩) hclosed
      ⟨rfl, rfl, rfl, rfl, rfl, rfl⟩
  have hran : ∀ cycle, (run.log
      ++ [CallbackEvent.handed run.cycle cleanup]).filterMap
        (CallbackEvent.ranIn cycle)
      = run.log.filterMap (CallbackEvent.ranIn cycle) := by
    intro cycle
    rw [List.filterMap_append]
    exact List.append_nil _
  have hhanded : ∀ cycle,
      [CallbackEvent.handed run.cycle cleanup].filterMap
        (CallbackEvent.handedIn cycle)
      = if run.cycle = cycle then [cleanup] else [] := by
    intro cycle
    by_cases heq : run.cycle = cycle
    · simp [CallbackEvent.handedIn, heq]
    · simp [CallbackEvent.handedIn, heq]
  rw [CallbackRun.step, CallbackAdmissionContext.deferCleanupAfterDrain]
  dsimp only
  by_cases hscheduled : run.context.cleanupScheduled = true
  · -- one of this cycle is scheduled, and this one is dropped
    rw [if_pos hscheduled]
    have hkept : CallbackRun.Kept { run with
        context := { run.context with accepting := false }
        log := run.log ++ [.handed run.cycle cleanup] } := by
      refine h.hand rfl hscheduled rfl (fun _ => Or.inl)
        (fun kept hkept => ?_) fun cycle => ?_
      · obtain ⟨hcycle, -, hsome⟩ := h.deferred kept hkept
        exact ⟨hcycle, hsome⟩
      · have haccount := h.account cycle
        rw [CallbackRun.cleanups] at haccount ⊢
        rw [hran, List.filterMap_append, hhanded]
        split
        · next heq =>
            obtain ⟨first, hfirst⟩ :=
              Option.isSome_iff_exists.mp (hsafe hscheduled)
            rw [← heq] at haccount ⊢
            rw [hfirst] at haccount
            rw [List.head?_append, CallbackRun.firstHanded] at *
            rw [hfirst]
            exact haccount
        · rw [List.append_nil]
          exact haccount
    exact hreturned hkept rfl
  · rw [if_neg hscheduled]
    rw [Bool.not_eq_true] at hscheduled
    have hfirst : ∀ cycle, ((run.log
        ++ [CallbackEvent.handed run.cycle cleanup]).filterMap
          (CallbackEvent.handedIn cycle)).head?.toList
        = if run.cycle = cycle then [cleanup] else [] := by
      intro cycle
      rw [List.filterMap_append, (h.nothing hscheduled cycle).1, hhanded]
      split
      · rfl
      · rfl
    by_cases hempty : run.context.inFlight = 0
    · rw [if_pos hempty]
      have hleases : run.leases = [] :=
        List.eq_nil_of_length_eq_zero (h.inFlight.symm.trans hempty)
      refine h.hand rfl rfl rfl (fun taken htaken => ?_)
        (fun kept hkept => ?_) fun cycle => ?_
      · rcases List.mem_append.mp htaken with htaken | htaken
        · exact Or.inl htaken
        · rw [List.mem_singleton.mp htaken]
          exact Or.inr ⟨rfl, hleases⟩
      · obtain ⟨hcycle, -, hsome⟩ := h.deferred kept hkept
        exact ⟨hcycle, hsome⟩
      · obtain ⟨-, hnoran, hnorunning, hnodeferred⟩ :=
          h.nothing hscheduled cycle
        rw [hfirst, CallbackRun.cleanups, hran, hnoran,
          List.filterMap_append, hnorunning]
        show ([] ++ ([] ++ _) ++ run.deferredIn cycle).Perm _
        rw [hnodeferred]
        by_cases heq : run.cycle = cycle
        · simp [ofCycle, heq]
        · simp [ofCycle, heq]
    · rw [if_neg hempty]
      have hkept : CallbackRun.Kept { run with
          context := { run.context with
            accepting := false
            cleanupScheduled := true
            deferredCleanup := some (run.cycle, cleanup) }
          log := run.log ++ [.handed run.cycle cleanup] } := by
        refine h.hand rfl rfl rfl (fun _ => Or.inl) (fun kept hkept => ?_)
          fun cycle => ?_
        · rw [← Option.some.inj hkept]
          refine ⟨rfl, fun hnone => hempty ?_⟩
          rw [h.inFlight, hnone]
          rfl
        · obtain ⟨-, hnoran, hnorunning, -⟩ := h.nothing hscheduled cycle
          rw [hfirst, CallbackRun.cleanups, hran, hnoran, hnorunning]
          by_cases heq : run.cycle = cycle
          · simp [CallbackRun.deferredIn, heq]
          · simp [CallbackRun.deferredIn, heq]
      exact hreturned hkept rfl

/-- A cleanup that was taken runs, with no lease of its cycle left. -/
theorem runTaken (h : run.Kept) (place : Nat) :
    (run.step (.run place)).Kept := by
  rw [CallbackRun.step]
  split
  · exact h
  · next taken htaken =>
      obtain ⟨hlt, hget⟩ := List.getElem?_eq_some_iff.mp htaken
      have hmem : taken ∈ run.running := hget ▸ List.getElem_mem hlt
      obtain ⟨hle, hlast⟩ := h.quiet taken hmem
      have hperm : (taken :: run.running.eraseIdx place).Perm
          run.running := by
        rw [← hget]
        exact List.getElem_cons_eraseIdx_perm hlt
      have hreturned : Returned taken.cycle run.log := by
        refine h.returned fun lease hlease heq => ?_
        rw [h.current lease hlease] at heq
        rw [(hlast heq.symm).2] at hlease
        cases hlease
      have hran : CallbackRun.Kept { run with
          running := run.running.eraseIdx place
          log := run.log ++ [.ran taken.cycle taken.cleanup] } := by
        refine ⟨h.inFlight, h.current, h.counts_silent ?_,
          fun haccepting => (h.opened haccepting).snoc rfl, h.waits,
          fun taken htaken => h.returning taken (List.mem_of_mem_eraseIdx htaken),
          fun taken htaken => h.quiet taken (List.mem_of_mem_eraseIdx htaken),
          h.deferred, h.scheduled_snoc nofun, fun cycle => ?_,
          everyAt_snoc.mpr ⟨h.right, hreturned⟩⟩
        · simp [CallbackEvent.grantedIn, CallbackEvent.releasedIn]
        · have haccount := h.account cycle
          rw [CallbackRun.cleanups, CallbackRun.firstHanded] at haccount ⊢
          rw [List.filterMap_append, List.filterMap_append]
          show (_ ++ [taken].filterMap (ofCycle cycle) ++ _
            ++ run.deferredIn cycle).Perm (_ ++ []).head?.toList
          rw [List.append_nil, List.append_assoc (List.filterMap _ _),
            ← List.filterMap_append, List.singleton_append]
          refine (List.Perm.append_right _ ?_).trans haccount
          exact (hperm.filterMap _).append_left _
      split
      · next hreturns =>
          have hclosed := h.returning taken hmem hreturns
          refine hran.close (List.append_assoc _ [_] _).symm
            (by simp [CallbackEvent.returns])
            (everyAt_snoc.mpr ⟨hran.right, trivial⟩) hclosed
            ⟨rfl, rfl, rfl, rfl, rfl, rfl⟩
      · exact hran

theorem step (h : run.Kept) (step : CallbackStep κ) (hsafe : run.Safe step) :
    (run.step step).Kept := by
  cases step with
  | bind token owner generation => exact h.bind hsafe
  | tryAcquire => exact h.tryAcquire
  | release lease => exact h.release lease
  | closeAndWait => exact h.closeAndWait hsafe
  | wake =>
    rw [CallbackRun.step]
    split
    · exact h
    · next hwakes =>
        rw [not_or, not_not] at hwakes
        exact h.returnClosed hwakes.1 fun _ => hwakes.2
  | expire =>
    rw [CallbackRun.step]
    split
    · exact h
    · next hwaiting => exact h.returnClosed hwaiting of_decide_eq_true
  | deferCleanupAfterDrain cleanup =>
    cases cleanup with
    | none =>
      exact h.close rfl (by simp [CallbackEvent.returns])
        (everyAt_snoc.mpr ⟨h.right, trivial⟩) hsafe
        ⟨rfl, rfl, rfl, rfl, rfl, rfl⟩
    | some cleanup => exact h.deferCleanup hsafe
  | run place => exact h.runTaken place

end CallbackRun.Kept

-- ==================================== runs

/-- As long as the steps are safe: a lease is granted in a cycle in which no
closing call has returned, a call that returns true leaves none in flight,
and of the cleanups of a cycle the one that was handed over first runs, once,
with no lease of the cycle in flight. It is kept while one is. -/
theorem callback_admission (owner : DecoderSessionIdentity)
    (steps : List (CallbackStep κ))
    (hsafe : Meets CallbackRun.step CallbackRun.Safe (.start owner) steps) :
    let run := callbackRun owner steps
    EveryAt CallbackEvent.Right run.log
      ∧ (∀ cycle, (run.cleanups cycle).Perm (run.firstHanded cycle).toList)
      ∧ ∀ kept, run.context.deferredCleanup = some kept →
        ∃ lease ∈ run.leases, lease.1 = kept.1 := by
  have hkept : (callbackRun owner steps).Kept :=
    hsafe.invariant (fun _ step h hsafe => h.step step hsafe) (.start owner)
  refine ⟨hkept.right, hkept.account, fun kept hdeferred => ?_⟩
  obtain ⟨hcycle, -, hsome⟩ := hkept.deferred kept hdeferred
  obtain ⟨lease, hlease⟩ := List.exists_mem_of_ne_nil _ hsome
  exact ⟨lease, hlease, (hkept.current lease hlease).trans hcycle.symm⟩

/-- A cleanup that waits for a lease behind a wait that was too long. -/
theorem callback_admission_late :
    let steps : List (CallbackStep Char) := [.bind 1 ⟨1, 1, 1⟩ 1, .tryAcquire,
      .closeAndWait, .expire, .deferCleanupAfterDrain (some 'a'), .release 0,
      .run 0]
    ((callbackRun {} steps).cleanups 1).Perm
      ((callbackRun {} steps).firstHanded 1).toList :=
  (callback_admission {} [.bind 1 ⟨1, 1, 1⟩ 1, .tryAcquire,
    .closeAndWait, .expire, .deferCleanupAfterDrain (some 'a'), .release 0,
    .run 0] (by decide)).2.1 1

/-- The gate is bound again, and a second `closeAndWait` leaves it open. -/
theorem second_close_leaves_open :
    let steps : List (CallbackStep Char) := [.bind 1 ⟨1, 1, 1⟩ 1,
      .closeAndWait, .bind 2 ⟨1, 1, 1⟩ 2, .closeAndWait, .tryAcquire]
    (callbackRun {} steps).log = [.bound, .closeReturned true, .bound,
        .closeReturned true, .granted 2]
      ∧ ¬ EveryAt CallbackEvent.Right (callbackRun {} steps).log := by
  have hlog : (callbackRun {} ([.bind 1 ⟨1, 1, 1⟩ 1, .closeAndWait,
      .bind 2 ⟨1, 1, 1⟩ 2, .closeAndWait, .tryAcquire]
        : List (CallbackStep Char))).log
      = [.bound, .closeReturned true, .bound] ++ [.closeReturned true]
        ++ [.granted 2] := by decide
  refine ⟨hlog, fun hright => ?_⟩
  rw [hlog] at hright
  -- the last event but one is the return of the closing call
  rcases since_snoc (everyAt_snoc.mp hright).2 with heq | ⟨-, hreturns⟩
  · cases heq
  · cases hreturns

end RemoteDesk.Render
