import WebSyncPlay.FixedWindow
import WebSyncPlay.Library.Ledger

/-! Hot events on one key (`consumeHotWsEventLimit` in `security/rate-limit.ts`): nodes charge the
shared bucket for a batch and let the rest of it through by themselves. A step is a call up to its
first await, a Redis command, a call from one await to the next, or the loss of an entry. -/
namespace WebSyncPlay

open Library

structure HotEventLimit where
  capacity : ℚ
  refillPerSecond : ℚ
  batch : ℕ

/-- The types in `HOT_WS_COALESCE_BATCH`. -/
inductive CoalescedEvent
  | seekPreview
  | webrtcSignal
  deriving DecidableEq

def CoalescedEvent.limit : CoalescedEvent → HotEventLimit
  | .seekPreview => ⟨48,24,4⟩
  | .webrtcSignal => ⟨60,20,4⟩

structure HotWsCoalesceEntry where
  remainingLocal : ℕ
  deniedUntilMs : ℚ
  deriving DecidableEq

def hotWsCoalesceDenyBackoffMs : ℚ := 100

def hotWsCoalesceStaleMs : ℚ := 5*60000

/-- What `pruneStaleHotWsCoalesce` deletes. -/
def HotWsCoalesceEntry.stale (entry : HotWsCoalesceEntry) (nowMs : ℚ) : Bool :=
  let idle := decide (entry.remainingLocal = 0 ∧ 0 < entry.deniedUntilMs ∧
    nowMs-entry.deniedUntilMs ≥ hotWsCoalesceStaleMs)
  let spent := decide (entry.remainingLocal = 0 ∧ entry.deniedUntilMs = 0)
  idle || spent

inductive HotCharge
  | batch
  | one
  deriving DecidableEq

inductive HotEventPhase
  | charging (charge : HotCharge)
  | replied (charge : HotCharge) (result : RateLimitResult)
  | finished (result : RateLimitResult)
  deriving DecidableEq

structure HotEventCall (ν : Type*) where
  node : ν
  nowMs : ℚ
  phase : HotEventPhase
  evals : List Delivery := []

structure HotEventState (ν ι : Type*) where
  bucket : Option TokenBucket := none
  /-- The tokens charged to the bucket so far. -/
  charged : ℕ := 0
  entries : ν → Option HotWsCoalesceEntry := fun _ => none
  calls : ι → Option (HotEventCall ν) := fun _ => none

inductive HotEventAction (ν ι : Type*)
  /-- `full`: the map has grown to the size at which it is pruned. -/
  | begin (c : ι) (n : ν) (nowMs : ℚ) (full : Bool)
  | eval (c : ι) (delivery : Delivery)
  | resume (c : ι)
  /-- A call of another key may prune too, and a node may start again. -/
  | prune (n : ν)
  /-- The bucket's time to live ends. -/
  | expire

def HotEventLimit.cost (limit : HotEventLimit) : HotCharge → ℕ
  | .batch => limit.batch
  | .one => 1

variable {ν ι : Type*} [DecidableEq ν] [DecidableEq ι]

namespace HotEventState

def setCall (s : HotEventState ν ι) (c : ι) (call : HotEventCall ν) : HotEventState ν ι :=
  { s with calls := Function.update s.calls c (some call) }

def setEntry (s : HotEventState ν ι) (n : ν) (entry : Option HotWsCoalesceEntry) :
    HotEventState ν ι :=
  { s with entries := Function.update s.entries n entry }

def pruneStale (s : HotEventState ν ι) (n : ν) (nowMs : ℚ) : HotEventState ν ι :=
  s.setEntry n ((s.entries n).filter fun entry => !entry.stale nowMs)

def enter (s : HotEventState ν ι) (c : ι) (n : ν) (nowMs : ℚ) : HotEventState ν ι :=
  match s.entries n with
  | some entry =>
    if entry.deniedUntilMs > nowMs then s.setCall c ⟨n,nowMs,.finished ⟨false,0⟩,[]⟩
    else if 0 < entry.remainingLocal then
      (s.setEntry n (some { entry with remainingLocal := entry.remainingLocal-1 })).setCall c
        ⟨n,nowMs,.finished ⟨true,entry.remainingLocal-1⟩,[]⟩
    else s.setCall c ⟨n,nowMs,.charging .batch,[]⟩
  | none => s.setCall c ⟨n,nowMs,.charging .batch,[]⟩

def answer (limit : HotEventLimit) (s : HotEventState ν ι) (nowMs : ℚ) (charge : HotCharge) :
    RateLimitResult × TokenBucket :=
  consumeRedisTokenBucket limit.capacity limit.refillPerSecond ⟨nowMs,limit.cost charge⟩ s.bucket

def charge (limit : HotEventLimit) (s : HotEventState ν ι) (nowMs : ℚ) (charge : HotCharge) :
    HotEventState ν ι :=
  { s with
    bucket := some (s.answer limit nowMs charge).2
    charged :=
      if (s.answer limit nowMs charge).1.allowed then s.charged+limit.cost charge else s.charged }

/-- An EVAL of a call. One that fails denies, carried out or not. -/
def eval (limit : HotEventLimit) (s : HotEventState ν ι) (c : ι) (call : HotEventCall ν)
    (charge : HotCharge) (delivery : Delivery) : HotEventState ν ι :=
  let replied (result : RateLimitResult) : HotEventCall ν :=
    { call with phase := .replied charge result, evals := call.evals ++ [delivery] }
  match delivery with
  | .refused => s.setCall c (replied ⟨false,0⟩)
  | .lost => (s.charge limit call.nowMs charge).setCall c (replied ⟨false,0⟩)
  | .answered => (s.charge limit call.nowMs charge).setCall c
      (replied (s.answer limit call.nowMs charge).1)

/-- A call from the answer to its next await or its end. -/
def resume (limit : HotEventLimit) (s : HotEventState ν ι) (c : ι) (call : HotEventCall ν) :
    HotCharge → RateLimitResult → HotEventState ν ι
  | .batch,result =>
    if result.allowed then
      (s.setEntry call.node (some ⟨limit.batch-1,0⟩)).setCall c
        { call with phase := .finished ⟨true,result.remaining+(limit.batch-1 : ℕ)⟩ }
    else s.setCall c { call with phase := .charging .one }
  | .one,result =>
    (s.setEntry call.node (some
      (if result.allowed then ⟨0,0⟩ else ⟨0,call.nowMs+hotWsCoalesceDenyBackoffMs⟩))).setCall c
      { call with phase := .finished result }

def step (limit : HotEventLimit) (s : HotEventState ν ι) :
    HotEventAction ν ι → Option (HotEventState ν ι)
  | .begin c n nowMs full =>
    if (s.calls c).isNone then
      some ((if full then s.pruneStale n nowMs else s).enter c n nowMs)
    else none
  | .eval c delivery =>
    (s.calls c).bind fun call =>
      match call.phase with
      | .charging charge => some (s.eval limit c call charge delivery)
      | _ => none
  | .resume c =>
    (s.calls c).bind fun call =>
      match call.phase with
      | .replied charge result => some (s.resume limit c call charge result)
      | _ => none
  | .prune n => some (s.setEntry n none)
  | .expire => some { s with bucket := none }

end HotEventState

def hotEventSystem (limit : HotEventLimit) :
    TransitionSystem (HotEventState ν ι) (HotEventAction ν ι) where
  init s := s = {}
  step s a s' := s.step limit a = some s'

namespace HotEventState

def Allowed (s : HotEventState ν ι) (c : ι) : Prop :=
  ∃ call result, s.calls c = some call ∧ call.phase = .finished result ∧ result.allowed = true

/-- An EVAL of the call failed. -/
def Failed (s : HotEventState ν ι) (c : ι) : Prop :=
  ∃ call, s.calls c = some call ∧ ∃ delivery ∈ call.evals, delivery ≠ .answered

/-- The last EVAL of the call failed. -/
def LastFailed (s : HotEventState ν ι) (c : ι) : Prop :=
  ∃ call, s.calls c = some call ∧ ∃ delivery ∈ call.evals.getLast?, delivery ≠ .answered

end HotEventState

/-- The allowed events that a call stands for: those charged for it, then its own. -/
def HotEventPhase.tokens (limit : HotEventLimit) : HotEventPhase → ℤ
  | .charging _ => 0
  | .replied charge result => if result.allowed then limit.cost charge else 0
  | .finished result => if result.allowed then 1 else 0

namespace HotEventState

def prepaid (s : HotEventState ν ι) (n : ν) : ℤ :=
  (s.entries n).elim 0 fun entry => entry.remainingLocal

def held (limit : HotEventLimit) (s : HotEventState ν ι) (c : ι) : ℤ :=
  (s.calls c).elim 0 fun call => call.phase.tokens limit

def balance (limit : HotEventLimit) (s : HotEventState ν ι) : ν ⊕ ι → ℤ :=
  Sum.elim s.prepaid (s.held limit)

end HotEventState

section Balance

variable {limit : HotEventLimit} {s : HotEventState ν ι}

theorem tokens_nonneg (phase : HotEventPhase) : 0 ≤ phase.tokens limit := by
  cases phase with
  | charging charge => exact le_rfl
  | replied charge result =>
    rw [HotEventPhase.tokens]
    split
    · exact Int.natCast_nonneg _
    · exact le_rfl
  | finished result =>
    rw [HotEventPhase.tokens]
    split <;> omega

omit [DecidableEq ν] [DecidableEq ι] in
theorem prepaid_nonneg (n : ν) : 0 ≤ s.prepaid n := by
  rw [HotEventState.prepaid]
  cases s.entries n with
  | none => exact le_rfl
  | some entry => exact Int.natCast_nonneg _

theorem balance_setCall (c : ι) (call : HotEventCall ν) :
    (s.setCall c call).balance limit =
      Function.update (s.balance limit) (.inr c) (call.phase.tokens limit) := by
  funext account
  rcases account with n | d
  · rfl
  · by_cases hd : d = c
    · subst hd
      simp [HotEventState.balance,HotEventState.held,HotEventState.setCall]
    · simp [HotEventState.balance,HotEventState.held,HotEventState.setCall,hd]

theorem balance_setEntry (n : ν) (entry : Option HotWsCoalesceEntry) :
    (s.setEntry n entry).balance limit = Function.update (s.balance limit) (.inl n)
      (entry.elim 0 fun entry => (entry.remainingLocal : ℤ)) := by
  funext account
  rcases account with m | d
  · by_cases hm : m = n
    · subst hm
      simp [HotEventState.balance,HotEventState.prepaid,HotEventState.setEntry]
    · simp [HotEventState.balance,HotEventState.prepaid,HotEventState.setEntry,hm]
  · rfl

theorem covered_setCall {total total' : ℤ} (h : Covered (s.balance limit) total) {c : ι}
    {call : HotEventCall ν}
    (hsum : call.phase.tokens limit+total ≤ s.held limit c+total') :
    Covered ((s.setCall c call).balance limit) total' := by
  rw [balance_setCall]
  exact h.update (.inr c) (tokens_nonneg _) hsum

theorem covered_setEntry {total total' : ℤ} (h : Covered (s.balance limit) total) {n : ν}
    {entry : Option HotWsCoalesceEntry}
    (hsum : (entry.elim 0 fun entry => (entry.remainingLocal : ℤ))+total ≤
      s.prepaid n+total') :
    Covered ((s.setEntry n entry).balance limit) total' := by
  rw [balance_setEntry]
  refine h.update (.inl n) ?_ hsum
  cases entry with
  | none => exact le_rfl
  | some entry => exact Int.natCast_nonneg _

end Balance

/-- What holds in every reachable state. -/
structure HotEventInvariant (limit : HotEventLimit) (s : HotEventState ν ι) : Prop where
  covered : Covered (s.balance limit) s.charged
  granted : ∀ c call charge result, s.calls c = some call → call.phase = .replied charge result →
    result.allowed = true → call.evals.getLast? = some .answered
  allowed : ∀ c call result, s.calls c = some call → call.phase = .finished result →
    result.allowed = true → ∀ delivery ∈ call.evals.getLast?, delivery = .answered

section Invariant

variable {limit : HotEventLimit} {s s' : HotEventState ν ι}

omit [DecidableEq ν] [DecidableEq ι] in
theorem hotEventInvariant_start :
    HotEventInvariant limit ({} : HotEventState ν ι) where
  covered := by
    have hzero : HotEventState.balance limit ({} : HotEventState ν ι) = fun _ => 0 := by
      funext account
      rcases account with n | c <;> rfl
    rw [hzero]
    exact covered_zero
  granted _ _ _ _ hcall := by cases hcall
  allowed _ _ _ hcall := by cases hcall

omit [DecidableEq ν] in
theorem HotEventInvariant.of_call (h : HotEventInvariant limit s) {c : ι} {call : HotEventCall ν}
    (hcalls : s'.calls = Function.update s.calls c (some call))
    (hcovered : Covered (s'.balance limit) s'.charged)
    (hgranted : ∀ charge result, call.phase = .replied charge result → result.allowed = true →
      call.evals.getLast? = some .answered)
    (hallowed : ∀ result, call.phase = .finished result → result.allowed = true →
      ∀ delivery ∈ call.evals.getLast?, delivery = .answered) :
    HotEventInvariant limit s' where
  covered := hcovered
  granted d other charge result hd := by
    rw [hcalls] at hd
    by_cases hdc : d = c
    · subst hdc
      obtain rfl : call = other := by simpa using hd
      exact hgranted charge result
    · exact h.granted d other charge result (by simpa [hdc] using hd)
  allowed d other result hd := by
    rw [hcalls] at hd
    by_cases hdc : d = c
    · subst hdc
      obtain rfl : call = other := by simpa using hd
      exact hallowed result
    · exact h.allowed d other result (by simpa [hdc] using hd)

theorem HotEventInvariant.setEntry (h : HotEventInvariant limit s) {n : ν}
    {entry : Option HotWsCoalesceEntry}
    (hle : (entry.elim 0 fun entry => (entry.remainingLocal : ℤ)) ≤ s.prepaid n) :
    HotEventInvariant limit (s.setEntry n entry) where
  covered := covered_setEntry h.covered (add_le_add hle le_rfl)
  granted := h.granted
  allowed := h.allowed

theorem HotEventInvariant.pruneStale (h : HotEventInvariant limit s) (n : ν) (nowMs : ℚ) :
    HotEventInvariant limit (s.pruneStale n nowMs) := by
  refine h.setEntry ?_
  rw [HotEventState.prepaid]
  cases s.entries n with
  | none => exact le_rfl
  | some entry =>
    rw [Option.filter_some]
    split
    · exact le_rfl
    · exact Int.natCast_nonneg _

theorem HotEventInvariant.enter (h : HotEventInvariant limit s) {c : ι} (hnone : s.calls c = none)
    (n : ν) (nowMs : ℚ) : HotEventInvariant limit (s.enter c n nowMs) := by
  have hheld : s.held limit c = 0 := by rw [HotEventState.held,hnone]; rfl
  have hcharging : HotEventInvariant limit
      (s.setCall c ⟨n,nowMs,.charging .batch,[]⟩) := by
    refine h.of_call rfl (covered_setCall h.covered ?_) nofun nofun
    rw [hheld]
    exact le_rfl
  rw [HotEventState.enter]
  cases hentry : s.entries n with
  | none => exact hcharging
  | some entry =>
    dsimp only
    by_cases hdenied : entry.deniedUntilMs > nowMs
    · rw [if_pos hdenied]
      refine h.of_call rfl (covered_setCall h.covered ?_) nofun nofun
      rw [hheld]
      exact le_rfl
    rw [if_neg hdenied]
    by_cases hremaining : 0 < entry.remainingLocal
    · rw [if_pos hremaining]
      -- The node gives up one of the events that it has paid for.
      have hprepaid : s.prepaid n = entry.remainingLocal := by
        rw [HotEventState.prepaid,hentry]
        rfl
      have hgiven : Covered ((s.setEntry n (some { entry with
          remainingLocal := entry.remainingLocal-1 })).balance limit) (s.charged-1) := by
        refine covered_setEntry h.covered ?_
        rw [hprepaid]
        simp only [Option.elim_some]
        omega
      refine h.of_call rfl (covered_setCall hgiven ?_) nofun ?_
      · have hheld' : (s.setEntry n (some { entry with
          remainingLocal := entry.remainingLocal-1 })).held limit c = 0 := hheld
        rw [hheld']
        simp [HotEventPhase.tokens,HotEventState.setCall,HotEventState.setEntry]
      · intro result _ _ delivery hdelivery
        cases hdelivery
    · rw [if_neg hremaining]
      exact hcharging

theorem HotEventInvariant.eval (h : HotEventInvariant limit s) {c : ι} {call : HotEventCall ν}
    {charge : HotCharge} (hcall : s.calls c = some call) (hphase : call.phase = .charging charge)
    (delivery : Delivery) : HotEventInvariant limit (s.eval limit c call charge delivery) := by
  have hheld : s.held limit c = 0 := by
    simp only [HotEventState.held,hcall,Option.elim_some,hphase,HotEventPhase.tokens]
  have hcharged : (s.charged : ℤ)+(if (s.answer limit call.nowMs charge).1.allowed then
      (limit.cost charge : ℤ) else 0) = (s.charge limit call.nowMs charge).charged := by
    rw [HotEventState.charge]
    dsimp only
    split
    · rw [Nat.cast_add]
    · rw [add_zero]
  have hscript : Covered ((s.charge limit call.nowMs charge).balance limit) s.charged := h.covered
  have hdenied : ∀ (evals : List Delivery) charge' result, HotEventPhase.replied charge ⟨false,0⟩ =
      .replied charge' result → result.allowed = true → evals.getLast? = some .answered := by
    intro evals charge' result hreplied hallowed
    obtain ⟨-,rfl⟩ := HotEventPhase.replied.inj hreplied
    cases hallowed
  cases delivery with
  | refused =>
    refine h.of_call rfl (covered_setCall h.covered ?_) (hdenied _) nofun
    rw [hheld]
    exact le_rfl
  | lost =>
    refine h.of_call rfl (covered_setCall hscript ?_) (hdenied _) nofun
    change 0+(s.charged : ℤ) ≤ s.held limit c+((s.charge limit call.nowMs charge).charged : ℤ)
    rw [hheld,← hcharged]
    split <;> omega
  | answered =>
    refine h.of_call rfl (covered_setCall hscript ?_) ?_ nofun
    · change HotEventPhase.tokens limit (.replied charge (s.answer limit call.nowMs charge).1)+
        (s.charged : ℤ) ≤ s.held limit c+((s.charge limit call.nowMs charge).charged : ℤ)
      rw [hheld,← hcharged,HotEventPhase.tokens]
      omega
    · intro _ _ _ _
      exact List.getLast?_concat

theorem HotEventInvariant.resume (h : HotEventInvariant limit s) (hbatch : 1 ≤ limit.batch) {c : ι}
    {call : HotEventCall ν} {charge : HotCharge} {result : RateLimitResult}
    (hcall : s.calls c = some call) (hphase : call.phase = .replied charge result) :
    HotEventInvariant limit (s.resume limit c call charge result) := by
  have hheld : s.held limit c = if result.allowed then (limit.cost charge : ℤ) else 0 := by
    simp only [HotEventState.held,hcall,Option.elim_some,hphase,HotEventPhase.tokens]
  have hprepaid : 0 ≤ s.prepaid call.node := prepaid_nonneg call.node
  have hlast : result.allowed = true → call.evals.getLast? = some .answered :=
    h.granted c call charge result hcall hphase
  cases charge with
  | batch =>
    rw [HotEventState.resume]
    by_cases hallowed : result.allowed = true
    · rw [if_pos hallowed]
      rw [if_pos hallowed] at hheld
      -- The call keeps one of the tokens of the batch, the node gets the others.
      have hgot : Covered ((s.setEntry call.node (some ⟨limit.batch-1,0⟩)).balance limit)
          (s.charged+(limit.batch-1 : ℕ)) := by
        refine covered_setEntry h.covered ?_
        simp only [Option.elim_some]
        omega
      refine h.of_call rfl (covered_setCall hgot ?_) nofun ?_
      · change 1+(_ : ℤ) ≤ s.held limit c+(s.charged : ℤ)
        rw [hheld,HotEventLimit.cost]
        omega
      · intro result' _ _ delivery hdelivery
        dsimp only at hdelivery
        rw [hlast hallowed] at hdelivery
        exact (Option.mem_some_iff.mp hdelivery).symm
    · rw [if_neg hallowed]
      refine h.of_call rfl (covered_setCall h.covered ?_) nofun nofun
      rw [hheld,if_neg hallowed]
      exact le_rfl
  | one =>
    rw [HotEventState.resume]
    have hspent : Covered ((s.setEntry call.node (some
        (if result.allowed then ⟨0,0⟩ else ⟨0,call.nowMs+hotWsCoalesceDenyBackoffMs⟩))).balance
          limit) s.charged := by
      refine covered_setEntry h.covered ?_
      rw [Option.elim_some]
      split <;> simpa using hprepaid
    refine h.of_call rfl (covered_setCall hspent ?_) nofun ?_
    · change HotEventPhase.tokens limit (.finished result)+(s.charged : ℤ) ≤
        s.held limit c+(s.charged : ℤ)
      rw [hheld,HotEventPhase.tokens]
      exact le_rfl
    · intro result' hfinished hallowed delivery hdelivery
      injection hfinished with hsame
      subst hsame
      dsimp only at hdelivery
      rw [hlast hallowed] at hdelivery
      exact (Option.mem_some_iff.mp hdelivery).symm

theorem HotEventInvariant.step (h : HotEventInvariant limit s) (hbatch : 1 ≤ limit.batch)
    {a : HotEventAction ν ι} (hs : s.step limit a = some s') : HotEventInvariant limit s' := by
  cases a with
  | begin c n nowMs full =>
    rw [HotEventState.step] at hs
    split at hs
    · rename_i hnone
      have hnone := Option.isNone_iff_eq_none.mp hnone
      obtain rfl := Option.some.inj hs
      cases full with
      | false => exact h.enter hnone n nowMs
      | true => exact (h.pruneStale n nowMs).enter hnone n nowMs
    · cases hs
  | eval c delivery =>
    obtain ⟨call,hcall,hs⟩ := Option.bind_eq_some_iff.mp hs
    cases hphase : call.phase with
    | charging charge =>
      rw [hphase] at hs
      obtain rfl := Option.some.inj hs
      exact h.eval hcall hphase delivery
    | replied charge result =>
      rw [hphase] at hs
      cases hs
    | finished result =>
      rw [hphase] at hs
      cases hs
  | resume c =>
    obtain ⟨call,hcall,hs⟩ := Option.bind_eq_some_iff.mp hs
    cases hphase : call.phase with
    | charging charge =>
      rw [hphase] at hs
      cases hs
    | replied charge result =>
      rw [hphase] at hs
      obtain rfl := Option.some.inj hs
      exact h.resume hbatch hcall hphase
    | finished result =>
      rw [hphase] at hs
      cases hs
  | prune n =>
    obtain rfl := Option.some.inj hs
    exact h.setEntry (prepaid_nonneg n)
  | expire =>
    obtain rfl := Option.some.inj hs
    exact ⟨h.covered,h.granted,h.allowed⟩

theorem hotEventInvariant_of_reachable (hbatch : 1 ≤ limit.batch)
    (h : (hotEventSystem limit).Reachable s) : HotEventInvariant limit s := by
  refine h.invariant _ ?_ fun _ _ _ _ hs hstep => hs.step hbatch hstep
  rintro _ rfl
  exact hotEventInvariant_start

omit [DecidableEq ν] [DecidableEq ι] in
theorem HotEventInvariant.card_le (h : HotEventInvariant limit s) {cs : Finset ι}
    (hcs : ∀ c ∈ cs, s.Allowed c) : cs.card ≤ s.charged := by
  have hone : ∀ account ∈ cs.map .inr, s.balance limit account = 1 := by
    intro account haccount
    obtain ⟨c,hc,rfl⟩ := Finset.mem_map.mp haccount
    obtain ⟨call,result,hcall,hphase,hallowed⟩ := hcs c hc
    simp [HotEventState.balance,HotEventState.held,hcall,hphase,HotEventPhase.tokens,hallowed]
  have hcard := h.covered.card_le _ hone
  rw [Finset.card_map,nsmul_one] at hcard
  exact_mod_cast hcard

end Invariant

/-- Whatever overlaps, fails or is pruned, no more events are allowed than tokens have been
charged, and none whose last charge failed. -/
theorem hot_events_charged {ν ι : Type*} [DecidableEq ν] [DecidableEq ι] (event : CoalescedEvent)
    {s : HotEventState ν ι} (h : (hotEventSystem event.limit).Reachable s) :
    (∀ cs : Finset ι, (∀ c ∈ cs, s.Allowed c) → cs.card ≤ s.charged) ∧
      ∀ c, s.LastFailed c → ¬s.Allowed c := by
  have hbatch : 1 ≤ event.limit.batch := by cases event <;> decide
  have hinv := hotEventInvariant_of_reachable hbatch h
  refine ⟨fun cs => hinv.card_le,?_⟩
  rintro c ⟨call,hcall,delivery,hdelivery,hfailed⟩ ⟨call',result,hcall',hphase,hallowed⟩
  obtain rfl := Option.some.inj (hcall.symm.trans hcall')
  exact hfailed (hinv.allowed c call result hcall hphase hallowed delivery hdelivery)

section Scenarios

/-- One batch serves two events of a node. -/
theorem hot_events_charged_batch : ∃ s : HotEventState ℕ ℕ,
    s.Allowed 0 ∧ s.Allowed 1 ∧ s.charged = 4 ∧
      ∀ cs : Finset ℕ, (∀ c ∈ cs, s.Allowed c) → cs.card ≤ s.charged := by
  have hrun : ((TransitionSystem.runSteps (HotEventState.step CoalescedEvent.seekPreview.limit)
      ({} : HotEventState ℕ ℕ) [.begin 0 0 1000 false,.eval 0 .answered,.resume 0,
        .begin 1 0 1010 false]).map fun s =>
          (s.charged,(s.calls 0).map (·.phase),(s.calls 1).map (·.phase))) =
      some (4,some (.finished ⟨true,47⟩),some (.finished ⟨true,2⟩)) := by decide +kernel
  obtain ⟨s,hs,hfacts⟩ := Option.map_eq_some_iff.mp hrun
  obtain ⟨hcharged,hphases⟩ := Prod.mk.inj hfacts
  obtain ⟨hfirst,hsecond⟩ := Prod.mk.inj hphases
  obtain ⟨first,hfirst,hphase⟩ := Option.map_eq_some_iff.mp hfirst
  obtain ⟨second,hsecond,hphase'⟩ := Option.map_eq_some_iff.mp hsecond
  have hr : (hotEventSystem CoalescedEvent.seekPreview.limit).Reachable s :=
    .of_runSteps (fun _ _ _ h => h) _ (.init rfl) hs
  exact ⟨s,⟨first,_,hfirst,hphase,rfl⟩,⟨second,_,hsecond,hphase',rfl⟩,hcharged,
    (hot_events_charged .seekPreview hr).1⟩

/-- The charge of a batch fails, the charge of one token that follows is granted. -/
theorem failed_batch_falls_back : ¬∀ (event : CoalescedEvent) (s : HotEventState ℕ ℕ),
    (hotEventSystem event.limit).Reachable s → ∀ c, s.Failed c → ¬s.Allowed c := by
  intro h
  have hrun : ((TransitionSystem.runSteps (HotEventState.step CoalescedEvent.seekPreview.limit)
      ({} : HotEventState ℕ ℕ) [.begin 0 0 1000 false,.eval 0 .refused,.resume 0,
        .eval 0 .answered,.resume 0]).map fun s =>
          (s.calls 0).map fun call => (call.phase,call.evals)) =
      some (some (.finished ⟨true,47⟩,[.refused,.answered])) := by decide +kernel
  obtain ⟨s,hs,hfacts⟩ := Option.map_eq_some_iff.mp hrun
  obtain ⟨call,hcall,hfacts⟩ := Option.map_eq_some_iff.mp hfacts
  obtain ⟨hphase,hevals⟩ := Prod.mk.inj hfacts
  have hr : (hotEventSystem CoalescedEvent.seekPreview.limit).Reachable s :=
    .of_runSteps (fun _ _ _ h => h) _ (.init rfl) hs
  refine h .seekPreview s hr 0 ⟨call,hcall,.refused,?_,by decide⟩ ⟨call,_,hcall,hphase,rfl⟩
  rw [hevals]
  exact List.mem_cons_self

end Scenarios

end WebSyncPlay
