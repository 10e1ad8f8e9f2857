import WebSyncPlay.Library.TransitionSystem

/-! The slots of the yt-dlp runner (`media/yt-dlp/runner.ts`). A call is a number; a step is what
runs up to the next `await`. -/
namespace WebSyncPlay

open Library

/-- How `runYtDlpInner` ends; the slot is given back all the same. -/
inductive YtDlpOutcome
  | succeeded
  | failed
  | threw
  deriving DecidableEq

inductive YtDlpPhase
  | idle
  | waiting
  /-- The slot is taken and the call has not resumed. -/
  | granted
  | running
  | released (outcome : YtDlpOutcome)
  deriving DecidableEq

/-- Between acquire and release. -/
def YtDlpPhase.holdsSlot : YtDlpPhase → Bool
  | granted => true
  | running => true
  | _ => false

/-- The counter and the queue, with the calls as they arrived and as they were granted slots. -/
structure YtDlpSlots where
  activeCount : ℤ
  waitQueue : List ℕ
  phase : ℕ → YtDlpPhase
  arrivals : List ℕ
  grants : List ℕ

inductive YtDlpAction
  | call (c : ℕ)
  | resume (c : ℕ)
  | settle (c : ℕ) (outcome : YtDlpOutcome)

namespace YtDlpSlots

def initial : YtDlpSlots := ⟨0,[],fun _ => .idle,[],[]⟩

def setPhase (s : YtDlpSlots) (c : ℕ) (phase : YtDlpPhase) : YtDlpSlots :=
  { s with phase := Function.update s.phase c phase }

/-- `activeCount += 1`, for a call that then goes on. -/
def grant (s : YtDlpSlots) (c : ℕ) : YtDlpSlots :=
  { s.setPhase c .granted with
    activeCount := s.activeCount+1
    grants := s.grants ++ [c] }

def acquireSlot (maxConcurrent : ℕ) (s : YtDlpSlots) (c : ℕ) : YtDlpSlots :=
  if s.activeCount < maxConcurrent then s.grant c
  else { s.setPhase c .waiting with waitQueue := s.waitQueue ++ [c] }

def releaseSlot (s : YtDlpSlots) : YtDlpSlots :=
  let s := { s with activeCount := s.activeCount-1 }
  match s.waitQueue with
  | [] => s
  | next :: rest => ({ s with waitQueue := rest } : YtDlpSlots).grant next

def step (maxConcurrent : ℕ) (s : YtDlpSlots) : YtDlpAction → Option YtDlpSlots
  | .call c =>
    if s.phase c = .idle then
      some ({ s with arrivals := s.arrivals ++ [c] }.acquireSlot maxConcurrent c)
    else none
  | .resume c => if s.phase c = .granted then some (s.setPhase c .running) else none
  | .settle c outcome =>
    if s.phase c = .running then some (s.setPhase c (.released outcome)).releaseSlot else none

def holders (s : YtDlpSlots) : ℕ := s.arrivals.countP fun c => (s.phase c).holdsSlot

end YtDlpSlots

def ytDlpSystem (maxConcurrent : ℕ) : TransitionSystem YtDlpSlots YtDlpAction where
  init s := s = .initial
  step s a s' := s.step maxConcurrent a = some s'

namespace YtDlpSlots

theorem countP_congr_update {l : List ℕ} {f : ℕ → YtDlpPhase} {c : ℕ} {phase : YtDlpPhase}
    (hc : c ∉ l) : l.countP (fun a => (Function.update f c phase a).holdsSlot) =
      l.countP fun a => (f a).holdsSlot := by
  refine List.countP_congr ?_
  intro a ha
  have hne : a ≠ c := fun hsame => hc (hsame ▸ ha)
  rw [Function.update_of_ne hne]

theorem countP_update {l : List ℕ} {f : ℕ → YtDlpPhase} {c : ℕ} (phase : YtDlpPhase)
    (hl : l.Nodup) (hc : c ∈ l) :
    l.countP (fun a => (Function.update f c phase a).holdsSlot)+(f c).holdsSlot.toNat =
      l.countP (fun a => (f a).holdsSlot)+phase.holdsSlot.toNat := by
  induction l with
  | nil => cases hc
  | cons a l ih =>
    obtain ⟨ha,hl⟩ := List.nodup_cons.mp hl
    rw [List.countP_cons,List.countP_cons]
    rcases List.mem_cons.mp hc with rfl | hc
    · rw [countP_congr_update ha,Function.update_self]
      cases phase.holdsSlot <;> cases (f c).holdsSlot <;> simp
    · have hne : a ≠ c := fun hsame => ha (hsame ▸ hc)
      rw [Function.update_of_ne hne]
      have hrest := ih hl hc
      omega

structure Invariant (maxConcurrent : ℕ) (s : YtDlpSlots) : Prop where
  nodup : s.arrivals.Nodup
  arrived : ∀ c, c ∈ s.arrivals ↔ s.phase c ≠ .idle
  waiting : ∀ c, c ∈ s.waitQueue ↔ s.phase c = .waiting
  order : s.arrivals = s.grants ++ s.waitQueue
  count : s.activeCount = s.holders
  le : s.activeCount ≤ maxConcurrent
  full : s.waitQueue ≠ [] → s.activeCount = maxConcurrent

variable {maxConcurrent : ℕ} {s : YtDlpSlots} {c : ℕ}

theorem invariant_initial : Invariant maxConcurrent .initial :=
  ⟨List.nodup_nil,by simp [initial],by simp [initial],rfl,rfl,by simp [initial],
    by simp [initial]⟩

theorem Invariant.queue_nodup (h : Invariant maxConcurrent s) : s.waitQueue.Nodup := by
  have hnodup := h.nodup
  rw [h.order] at hnodup
  exact hnodup.of_append_right

theorem Invariant.call (h : Invariant maxConcurrent s) (hc : s.phase c = .idle) :
    Invariant maxConcurrent ({ s with arrivals := s.arrivals ++ [c] }.acquireSlot maxConcurrent c)
      := by
  have hnew : c ∉ s.arrivals := fun hin => (h.arrived c).mp hin hc
  have hqueue : c ∉ s.waitQueue := by
    intro hin
    rw [(h.waiting c).mp hin] at hc
    cases hc
  have hnodup : (s.arrivals ++ [c]).Nodup := by
    rw [List.nodup_append_comm]
    exact List.nodup_cons.mpr ⟨hnew,h.nodup⟩
  have harrived : ∀ phase, phase ≠ .idle → ∀ a, a ∈ s.arrivals ++ [c] ↔
      Function.update s.phase c phase a ≠ .idle := by
    intro phase hphase a
    by_cases ha : a = c
    · rw [ha,Function.update_self]
      exact iff_of_true (by simp) hphase
    · rw [Function.update_of_ne ha,List.mem_append,h.arrived a,List.mem_singleton]
      exact or_iff_left ha
  have hcount : ∀ phase : YtDlpPhase, (s.arrivals ++ [c]).countP
      (fun a => (Function.update s.phase c phase a).holdsSlot) =
        s.holders+phase.holdsSlot.toNat := by
    intro phase
    rw [List.countP_append,countP_congr_update hnew,List.countP_singleton,Function.update_self,
      holders]
    cases phase.holdsSlot <;> rfl
  rw [acquireSlot]
  split
  · rename_i hfree
    -- a slot is free, so nobody waits
    have hnone : s.waitQueue = [] := by
      by_contra hne
      exact hfree.ne (h.full hne)
    refine ⟨hnodup,harrived _ (by decide),?_,?_,?_,?_,?_⟩
    · intro a
      change a ∈ s.waitQueue ↔ Function.update s.phase c .granted a = .waiting
      by_cases ha : a = c
      · rw [ha,Function.update_self]
        exact iff_of_false hqueue (by decide)
      · rw [Function.update_of_ne ha,h.waiting a]
    · change s.arrivals ++ [c] = s.grants ++ [c] ++ s.waitQueue
      rw [h.order,hnone,List.append_nil,List.append_nil]
    · change s.activeCount+1 = _
      refine Eq.trans ?_ (congrArg (Nat.cast : ℕ → ℤ) (hcount .granted)).symm
      rw [h.count]
      rfl
    · change s.activeCount+1 ≤ maxConcurrent
      change s.activeCount < maxConcurrent at hfree
      omega
    · exact fun hne => absurd hnone hne
  · rename_i hbusy
    have hfull : s.activeCount = maxConcurrent := le_antisymm h.le (not_lt.mp hbusy)
    refine ⟨hnodup,harrived _ (by decide),?_,?_,?_,h.le,fun _ => hfull⟩
    · intro a
      change a ∈ s.waitQueue ++ [c] ↔ Function.update s.phase c .waiting a = .waiting
      by_cases ha : a = c
      · rw [ha,Function.update_self]
        exact iff_of_true (by simp) rfl
      · rw [Function.update_of_ne ha,List.mem_append,h.waiting a,List.mem_singleton]
        exact or_iff_left ha
    · change s.arrivals ++ [c] = s.grants ++ (s.waitQueue ++ [c])
      rw [h.order,List.append_assoc]
    · refine Eq.trans ?_ (congrArg (Nat.cast : ℕ → ℤ) (hcount .waiting)).symm
      exact h.count

theorem Invariant.setPhase (h : Invariant maxConcurrent s) (phase : YtDlpPhase)
    (hc : s.phase c ≠ .idle) (hwait : s.phase c ≠ .waiting) (hphase : phase ≠ .idle)
    (hphase' : phase ≠ .waiting) :
    (∀ a, a ∈ s.arrivals ↔ Function.update s.phase c phase a ≠ .idle) ∧
    (∀ a, a ∈ s.waitQueue ↔ Function.update s.phase c phase a = .waiting) ∧
    (s.setPhase c phase).holders+(s.phase c).holdsSlot.toNat =
      s.holders+phase.holdsSlot.toNat := by
  refine ⟨?_,?_,countP_update phase h.nodup ((h.arrived c).mpr hc)⟩
  · intro a
    by_cases ha : a = c
    · rw [ha,Function.update_self]
      exact iff_of_true ((h.arrived c).mpr hc) hphase
    · rw [Function.update_of_ne ha,h.arrived a]
  · intro a
    by_cases ha : a = c
    · rw [ha,Function.update_self]
      exact iff_of_false (fun hin => hwait ((h.waiting c).mp hin)) hphase'
    · rw [Function.update_of_ne ha,h.waiting a]

theorem Invariant.resume (h : Invariant maxConcurrent s) (hc : s.phase c = .granted) :
    Invariant maxConcurrent (s.setPhase c .running) := by
  obtain ⟨harrived,hwaiting,hcount⟩ := h.setPhase (c := c) .running (by simp [hc])
    (by simp [hc]) (by decide) (by decide)
  refine ⟨h.nodup,harrived,hwaiting,h.order,?_,h.le,h.full⟩
  rw [hc] at hcount
  change s.activeCount = _
  rw [h.count]
  exact congrArg _ (Nat.add_right_cancel hcount).symm

theorem Invariant.settle (h : Invariant maxConcurrent s) (hc : s.phase c = .running)
    (outcome : YtDlpOutcome) :
    Invariant maxConcurrent (s.setPhase c (.released outcome)).releaseSlot := by
  obtain ⟨harrived,hwaiting,hcount⟩ := h.setPhase (c := c) (.released outcome)
    (by simp [hc]) (by simp [hc]) (by simp) (by simp)
  rw [hc] at hcount
  change _+1 = _+0 at hcount
  have hactive : s.activeCount-1 = (s.setPhase c (.released outcome)).holders := by
    rw [h.count]
    omega
  cases hqueue : s.waitQueue with
  | nil =>
    have hrelease : (s.setPhase c (.released outcome)).releaseSlot =
        { s.setPhase c (.released outcome) with activeCount := s.activeCount-1 } := by
      rw [releaseSlot]
      simp only [YtDlpSlots.setPhase,hqueue]
    rw [hrelease]
    refine ⟨h.nodup,harrived,hwaiting,h.order,hactive,?_,fun hne => absurd hqueue hne⟩
    have hle := h.le
    change s.activeCount-1 ≤ maxConcurrent
    omega
  | cons next rest =>
    have hfull := h.full (by rw [hqueue]; exact List.cons_ne_nil next rest)
    have hnext : next ∈ s.waitQueue := by
      rw [hqueue]
      exact List.mem_cons_self
    have hnextWaits := (hwaiting next).mp hnext
    have hnodup := h.queue_nodup
    rw [hqueue] at hnodup
    have hrelease : (s.setPhase c (.released outcome)).releaseSlot =
        { s with
          activeCount := s.activeCount-1+1
          waitQueue := rest
          phase := Function.update (Function.update s.phase c (.released outcome)) next .granted
          grants := s.grants ++ [next] } := by
      rw [releaseSlot]
      simp only [YtDlpSlots.setPhase,hqueue,grant]
    rw [hrelease]
    refine ⟨h.nodup,?_,?_,?_,?_,?_,?_⟩
    · intro a
      change a ∈ s.arrivals ↔
        Function.update (Function.update s.phase c (.released outcome)) next .granted a ≠ .idle
      by_cases ha : a = next
      · rw [ha,Function.update_self]
        refine iff_of_true ((harrived next).mpr ?_) (by decide)
        rw [hnextWaits]
        decide
      · rw [Function.update_of_ne ha,harrived a]
    · intro a
      change a ∈ rest ↔
        Function.update (Function.update s.phase c (.released outcome)) next .granted a = .waiting
      by_cases ha : a = next
      · rw [ha,Function.update_self]
        exact iff_of_false (List.nodup_cons.mp hnodup).1 (by decide)
      · rw [Function.update_of_ne ha,← hwaiting a,hqueue,List.mem_cons]
        exact (or_iff_right ha).symm
    · change s.arrivals = s.grants ++ [next] ++ rest
      rw [h.order,hqueue]
      simp
    · change s.activeCount-1+1 = _
      have hgain := countP_update (f := Function.update s.phase c (.released outcome))
        .granted h.nodup ((harrived next).mpr (by rw [hnextWaits]; decide))
      rw [hnextWaits] at hgain
      rw [hactive]
      change _+0 = _+1 at hgain
      exact_mod_cast hgain.symm
    · change s.activeCount-1+1 ≤ maxConcurrent
      omega
    · intro _
      change s.activeCount-1+1 = maxConcurrent
      omega

theorem Invariant.step {s' : YtDlpSlots} {a : YtDlpAction} (h : Invariant maxConcurrent s)
    (hstep : s.step maxConcurrent a = some s') : Invariant maxConcurrent s' := by
  cases a with
  | call c =>
    rw [YtDlpSlots.step] at hstep
    split at hstep
    · rename_i hc
      obtain rfl := Option.some.inj hstep
      exact h.call hc
    · cases hstep
  | resume c =>
    rw [YtDlpSlots.step] at hstep
    split at hstep
    · rename_i hc
      obtain rfl := Option.some.inj hstep
      exact h.resume hc
    · cases hstep
  | settle c outcome =>
    rw [YtDlpSlots.step] at hstep
    split at hstep
    · rename_i hc
      obtain rfl := Option.some.inj hstep
      exact h.settle hc outcome
    · cases hstep

theorem invariant_of_reachable (h : (ytDlpSystem maxConcurrent).Reachable s) :
    Invariant maxConcurrent s := by
  refine h.invariant (Invariant maxConcurrent) ?_ ?_
  · rintro s rfl
    exact invariant_initial
  · intro s a s' _ hs hstep
    exact hs.step hstep

theorem Invariant.ncard (h : Invariant maxConcurrent s) :
    Set.ncard {c | (s.phase c).holdsSlot = true} = s.holders := by
  have hset : {c | (s.phase c).holdsSlot = true} =
      ((s.arrivals.filter fun c => (s.phase c).holdsSlot).toFinset : Set ℕ) := by
    ext c
    simp only [Set.mem_ofPred_eq,List.coe_toFinset,List.mem_filter]
    refine (and_iff_right_of_imp fun hholds => (h.arrived c).mpr ?_).symm
    intro hidle
    rw [hidle] at hholds
    cases hholds
  rw [hset,Set.ncard_coe_finset,List.toFinset_card_of_nodup (h.nodup.filter _),holders,
    List.countP_eq_length_filter]

end YtDlpSlots

/-- At every moment the counter is the number of calls that hold a slot and is at most the maximum,
calls wait only when it is the maximum, and calls get their slots in the order in which they
arrived. -/
theorem yt_dlp_slots {maxConcurrent : ℕ} {s : YtDlpSlots}
    (h : (ytDlpSystem maxConcurrent).Reachable s) :
    s.activeCount = Set.ncard {c | (s.phase c).holdsSlot = true} ∧ s.activeCount ≤ maxConcurrent ∧
      (s.waitQueue ≠ [] → s.activeCount = maxConcurrent) ∧
      (∀ c, c ∈ s.waitQueue ↔ s.phase c = .waiting) ∧
      s.arrivals = s.grants ++ s.waitQueue ∧
      ∀ c, c ∈ s.grants ↔ s.phase c ≠ .idle ∧ s.phase c ≠ .waiting := by
  have hinv := YtDlpSlots.invariant_of_reachable h
  refine ⟨?_,hinv.le,hinv.full,hinv.waiting,hinv.order,?_⟩
  · rw [hinv.ncard]
    exact hinv.count
  · intro c
    have hnodup := hinv.nodup
    rw [hinv.order] at hnodup
    rw [← hinv.arrived c,ne_eq,← hinv.waiting c,hinv.order,List.mem_append]
    constructor
    · intro hin
      exact ⟨Or.inl hin,fun hwait => List.disjoint_of_nodup_append hnodup hin hwait⟩
    · rintro ⟨hin,hnot⟩
      exact hin.resolve_right hnot

/-- Two calls and one slot: the second waits until the first has thrown. -/
theorem yt_dlp_slots_handover : ∃ s, (ytDlpSystem 1).Reachable s ∧ s.grants = [0,1] ∧
    s.activeCount = Set.ncard {c | (s.phase c).holdsSlot = true} := by
  obtain ⟨s,hs,hgrants⟩ : ∃ s, TransitionSystem.runSteps (YtDlpSlots.step 1) .initial
      [.call 0,.call 1,.resume 0,.settle 0 .threw] = some s ∧ s.grants = [0,1] :=
    ⟨_,rfl,rfl⟩
  have hreach : (ytDlpSystem 1).Reachable s :=
    .of_runSteps (fun _ _ _ h => h) _ (.init rfl) hs
  exact ⟨s,hreach,hgrants,(yt_dlp_slots hreach).1⟩

end WebSyncPlay
