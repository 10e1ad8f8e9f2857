import Mathlib.Data.Rat.Floor
import Mathlib.Tactic.Linarith
import Mathlib.Tactic.Positivity
import Mathlib.Algebra.Order.Field.Rat

/-! Token buckets (`security/rate-limit.ts`): the script that all replicas run over one Redis
hash, and its twin in the process. Numbers are rationals. -/
namespace WebSyncPlay

structure RateLimitResult where
  allowed : Bool
  remaining : ℤ
  deriving DecidableEq

structure TokenBucket where
  tokens : ℚ
  updatedAtMs : ℚ
  deriving DecidableEq

structure TokenBucketCall where
  nowMs : ℚ
  cost : ℚ := 1
  deriving DecidableEq

/-- The arguments of the script, on the hash that it finds. -/
def tokenBucketScript (capacity refillPerSecond : ℚ) (call : TokenBucketCall)
    (data : Option TokenBucket) : RateLimitResult × TokenBucket :=
  let tokens :=
    match data with
    | none => capacity
    | some bucket =>
      let elapsedSec := max 0 ((call.nowMs-bucket.updatedAtMs)/1000)
      min capacity (bucket.tokens+elapsedSec*refillPerSecond)
  if tokens ≥ call.cost then
    (⟨true,⌊tokens-call.cost⌋⟩,⟨tokens-call.cost,call.nowMs⟩)
  else (⟨false,⌊tokens⌋⟩,⟨tokens,call.nowMs⟩)

def consumeRedisTokenBucket (capacity refillPerSecond : ℚ) (call : TokenBucketCall)
    (data : Option TokenBucket) : RateLimitResult × TokenBucket :=
  let result := tokenBucketScript (max 1 capacity) (max 0 refillPerSecond)
    { call with cost := max 0 call.cost } data
  (⟨result.1.allowed,max 0 result.1.remaining⟩,result.2)

def consumeTokenBucket (capacity refillPerSecond : ℚ) (call : TokenBucketCall)
    (bucket : Option TokenBucket) : RateLimitResult × TokenBucket :=
  let capacity := max 1 capacity
  let refillPerSecond := max 0 refillPerSecond
  let cost := max 0 call.cost
  let refilled : TokenBucket :=
    match bucket with
    | none => ⟨capacity,call.nowMs⟩
    | some bucket =>
      let elapsedSec := max 0 ((call.nowMs-bucket.updatedAtMs)/1000)
      ⟨min capacity (bucket.tokens+elapsedSec*refillPerSecond),call.nowMs⟩
  if refilled.tokens < cost then (⟨false,⌊refilled.tokens⌋⟩,refilled)
  else (⟨true,⌊refilled.tokens-cost⌋⟩,{ refilled with tokens := refilled.tokens-cost })

inductive TokenBucketStore
  | redis | process
  deriving DecidableEq

def TokenBucketStore.consume : TokenBucketStore → ℚ → ℚ → TokenBucketCall → Option TokenBucket →
    RateLimitResult × TokenBucket
  | .redis => consumeRedisTokenBucket
  | .process => consumeTokenBucket

def totalGranted (store : TokenBucketStore) (capacity refillPerSecond : ℚ) :
    Option TokenBucket → List TokenBucketCall → ℚ
  | _,[] => 0
  | data,call :: calls =>
    let result := store.consume capacity refillPerSecond call data
    (if result.1.allowed then max 0 call.cost else 0) +
      totalGranted store capacity refillPerSecond (some result.2) calls

section Bucket

variable (store : TokenBucketStore) (capacity refillPerSecond : ℚ)

def refilledTokens (data : Option TokenBucket) (nowMs : ℚ) : ℚ :=
  match data with
  | none => max 1 capacity
  | some bucket =>
    min (max 1 capacity)
      (bucket.tokens+max 0 ((nowMs-bucket.updatedAtMs)/1000)*max 0 refillPerSecond)

theorem consume_spec (call : TokenBucketCall) (data : Option TokenBucket) :
    (store.consume capacity refillPerSecond call data).1.allowed =
        decide (max 0 call.cost ≤ refilledTokens capacity refillPerSecond data call.nowMs) ∧
      (store.consume capacity refillPerSecond call data).2 =
        ⟨if max 0 call.cost ≤ refilledTokens capacity refillPerSecond data call.nowMs then
            refilledTokens capacity refillPerSecond data call.nowMs-max 0 call.cost
          else refilledTokens capacity refillPerSecond data call.nowMs,call.nowMs⟩ := by
  generalize hnow : refilledTokens capacity refillPerSecond data call.nowMs = tokens
  cases store with
  | redis =>
    have hscript : tokenBucketScript (max 1 capacity) (max 0 refillPerSecond)
        { call with cost := max 0 call.cost } data =
          if max 0 call.cost ≤ tokens then
            (⟨true,⌊tokens-max 0 call.cost⌋⟩,⟨tokens-max 0 call.cost,call.nowMs⟩)
          else (⟨false,⌊tokens⌋⟩,⟨tokens,call.nowMs⟩) := by
      rw [← hnow]
      cases data <;> rfl
    rw [TokenBucketStore.consume,consumeRedisTokenBucket,hscript]
    by_cases h : max 0 call.cost ≤ tokens
    · simp [h]
    · simp [h]
  | process =>
    have hprocess : consumeTokenBucket capacity refillPerSecond call data =
        if tokens < max 0 call.cost then (⟨false,⌊tokens⌋⟩,⟨tokens,call.nowMs⟩)
        else (⟨true,⌊tokens-max 0 call.cost⌋⟩,⟨tokens-max 0 call.cost,call.nowMs⟩) := by
      rw [← hnow]
      cases data <;> rfl
    rw [TokenBucketStore.consume,hprocess]
    by_cases h : max 0 call.cost ≤ tokens
    · simp [h,not_lt.mpr h]
    · simp [h,not_le.mp h]

theorem totalGranted_cons (data : Option TokenBucket) (call : TokenBucketCall)
    (calls : List TokenBucketCall) :
    totalGranted store capacity refillPerSecond data (call :: calls) =
      if max 0 call.cost ≤ refilledTokens capacity refillPerSecond data call.nowMs then
        max 0 call.cost + totalGranted store capacity refillPerSecond
          (some ⟨refilledTokens capacity refillPerSecond data call.nowMs-max 0 call.cost,
            call.nowMs⟩) calls
      else totalGranted store capacity refillPerSecond
        (some ⟨refilledTokens capacity refillPerSecond data call.nowMs,call.nowMs⟩) calls := by
  obtain ⟨hallowed,hbucket⟩ := consume_spec store capacity refillPerSecond call data
  simp only [totalGranted,hallowed,hbucket]
  by_cases h : max 0 call.cost ≤ refilledTokens capacity refillPerSecond data call.nowMs
  · simp [h]
  · simp [h]

/-- What a bucket that is empty at a moment may take in by the next one. -/
def refillBetween (fromMs toMs : ℚ) : ℚ :=
  min (max 1 capacity) (max 0 ((toMs-fromMs)/1000)*max 0 refillPerSecond)

/-- The refills between the calls of a run. A step back of the clock takes nothing away. -/
def totalRefill : List ℚ → ℚ
  | fromMs :: toMs :: rest =>
    refillBetween capacity refillPerSecond fromMs toMs + totalRefill (toMs :: rest)
  | _ => 0

theorem refillBetween_nonneg (fromMs toMs : ℚ) :
    0 ≤ refillBetween capacity refillPerSecond fromMs toMs :=
  le_min (le_trans zero_le_one (le_max_left 1 capacity))
    (mul_nonneg (le_max_left 0 _) (le_max_left 0 _))

theorem refilledTokens_le (bucket : TokenBucket) (h : 0 ≤ bucket.tokens) (nowMs : ℚ) :
    refilledTokens capacity refillPerSecond (some bucket) nowMs ≤
      bucket.tokens+refillBetween capacity refillPerSecond bucket.updatedAtMs nowMs := by
  simp only [refilledTokens,refillBetween]
  rw [← min_add_add_left]
  exact min_le_min (by linarith) le_rfl

theorem refilledTokens_nonneg (data : Option TokenBucket)
    (h : ∀ bucket, data = some bucket → 0 ≤ bucket.tokens) (nowMs : ℚ) :
    0 ≤ refilledTokens capacity refillPerSecond data nowMs := by
  have hcapacity : (0 : ℚ) ≤ max 1 capacity := le_trans zero_le_one (le_max_left 1 capacity)
  cases data with
  | none => exact hcapacity
  | some bucket =>
    have hgain : 0 ≤ max 0 ((nowMs-bucket.updatedAtMs)/1000)*max 0 refillPerSecond :=
      mul_nonneg (le_max_left 0 _) (le_max_left 0 _)
    exact le_min hcapacity (add_nonneg (h bucket rfl) hgain)

theorem totalGranted_le_some (calls : List TokenBucketCall) (bucket : TokenBucket)
    (h : 0 ≤ bucket.tokens) :
    totalGranted store capacity refillPerSecond (some bucket) calls ≤
      bucket.tokens+totalRefill capacity refillPerSecond
        (bucket.updatedAtMs :: calls.map (·.nowMs)) := by
  induction calls generalizing bucket with
  | nil =>
    simp only [totalGranted,totalRefill,List.map_nil]
    linarith
  | cons call calls ih =>
    have hrefilled := refilledTokens_le capacity refillPerSecond bucket h call.nowMs
    have hnonneg : 0 ≤ refilledTokens capacity refillPerSecond (some bucket) call.nowMs := by
      refine refilledTokens_nonneg capacity refillPerSecond (some bucket) ?_ call.nowMs
      rintro _ ⟨⟩
      exact h
    rw [totalGranted_cons,List.map_cons,totalRefill]
    split
    · rename_i hcost
      have hrest := ih ⟨refilledTokens capacity refillPerSecond (some bucket) call.nowMs-
        max 0 call.cost,call.nowMs⟩ (sub_nonneg.mpr hcost)
      dsimp only at hrest
      linarith
    · have hrest := ih ⟨refilledTokens capacity refillPerSecond (some bucket) call.nowMs,
        call.nowMs⟩ hnonneg
      dsimp only at hrest
      linarith

theorem totalGranted_le (calls : List TokenBucketCall) :
    totalGranted store capacity refillPerSecond none calls ≤
      max 1 capacity+totalRefill capacity refillPerSecond (calls.map (·.nowMs)) := by
  have hcapacity : (0 : ℚ) ≤ max 1 capacity := le_trans zero_le_one (le_max_left 1 capacity)
  cases calls with
  | nil => simp [totalGranted,totalRefill]
  | cons call calls =>
    have hnone : refilledTokens capacity refillPerSecond none call.nowMs = max 1 capacity := rfl
    rw [totalGranted_cons,hnone]
    split
    · rename_i hcost
      have hrest := totalGranted_le_some store capacity refillPerSecond calls
        ⟨max 1 capacity-max 0 call.cost,call.nowMs⟩ (sub_nonneg.mpr hcost)
      dsimp only at hrest
      rw [List.map_cons]
      linarith
    · exact totalGranted_le_some store capacity refillPerSecond calls
        ⟨max 1 capacity,call.nowMs⟩ hcapacity

/-- Calls that take whatever is there, from an empty bucket on. -/
def greedyCalls : ℚ → List ℚ → List TokenBucketCall
  | _,[] => []
  | fromMs,toMs :: rest =>
    ⟨toMs,refillBetween capacity refillPerSecond fromMs toMs⟩ :: greedyCalls toMs rest

theorem greedyCalls_nowMs (fromMs : ℚ) (times : List ℚ) :
    (greedyCalls capacity refillPerSecond fromMs times).map (·.nowMs) = times := by
  induction times generalizing fromMs with
  | nil => rfl
  | cons toMs rest ih =>
    rw [greedyCalls,List.map_cons,ih]

theorem totalGranted_greedy (fromMs : ℚ) (times : List ℚ) :
    totalGranted store capacity refillPerSecond (some ⟨0,fromMs⟩)
      (greedyCalls capacity refillPerSecond fromMs times) =
        totalRefill capacity refillPerSecond (fromMs :: times) := by
  induction times generalizing fromMs with
  | nil => rfl
  | cons toMs rest ih =>
    have hcost := max_eq_right (refillBetween_nonneg capacity refillPerSecond fromMs toMs)
    have hall : refilledTokens capacity refillPerSecond (some ⟨0,fromMs⟩) toMs =
        refillBetween capacity refillPerSecond fromMs toMs := by
      simp [refilledTokens,refillBetween]
    rw [greedyCalls,totalGranted_cons,totalRefill]
    simp only [hall,hcost,le_refl,if_true,sub_self,ih]

theorem exists_greedy (nowMs : ℚ) (times : List ℚ) : ∃ calls : List TokenBucketCall,
    calls.map (·.nowMs) = nowMs :: times ∧
      totalGranted store capacity refillPerSecond none calls =
        max 1 capacity+totalRefill capacity refillPerSecond (nowMs :: times) := by
  have hcost : max 0 (max 1 capacity) = max 1 capacity :=
    max_eq_right (le_trans zero_le_one (le_max_left 1 capacity))
  refine ⟨⟨nowMs,max 1 capacity⟩ :: greedyCalls capacity refillPerSecond nowMs times,?_,?_⟩
  · rw [List.map_cons,greedyCalls_nowMs]
  · have hnone : refilledTokens capacity refillPerSecond none nowMs = max 1 capacity := rfl
    rw [totalGranted_cons]
    simp only [hnone,hcost,le_refl,if_true,sub_self]
    rw [totalGranted_greedy]

theorem totalRefill_le_of_sorted (nowMs endMs : ℚ) (times : List ℚ)
    (hsorted : (nowMs :: times).Pairwise (· ≤ ·)) (hend : ∀ t ∈ nowMs :: times, t ≤ endMs) :
    totalRefill capacity refillPerSecond (nowMs :: times) ≤
      max 0 refillPerSecond*(endMs-nowMs)/1000 := by
  induction times generalizing nowMs with
  | nil =>
    have hle : 0 ≤ endMs-nowMs := sub_nonneg.mpr (hend nowMs List.mem_cons_self)
    have hrefill : (0 : ℚ) ≤ max 0 refillPerSecond := le_max_left 0 _
    have hprod : 0 ≤ max 0 refillPerSecond*(endMs-nowMs) := mul_nonneg hrefill hle
    rw [totalRefill]
    · linarith
    · nofun
  | cons toMs rest ih =>
    obtain ⟨hfirst,hrest⟩ := List.pairwise_cons.mp hsorted
    have hstep : nowMs ≤ toMs := hfirst toMs List.mem_cons_self
    have hbetween : refillBetween capacity refillPerSecond nowMs toMs ≤
        max 0 refillPerSecond*(toMs-nowMs)/1000 := by
      have helapsed : max 0 ((toMs-nowMs)/1000) = (toMs-nowMs)/1000 :=
        max_eq_right (div_nonneg (sub_nonneg.mpr hstep) (by norm_num))
      refine le_trans (min_le_right _ _) (le_of_eq ?_)
      rw [helapsed]
      ring
    have hlast := ih toMs hrest fun t ht => hend t (List.mem_cons_of_mem nowMs ht)
    have hsplit : max 0 refillPerSecond*(endMs-nowMs)/1000 =
        max 0 refillPerSecond*(toMs-nowMs)/1000+max 0 refillPerSecond*(endMs-toMs)/1000 := by
      ring
    rw [totalRefill,hsplit]
    linarith

end Bucket

/-- Calls at given moments stay, whatever they cost, within the capacity and the refill of a
time `W` exactly when the refills between them do; and they do when the moments lie within
`W` and no clock steps back. -/
theorem token_bucket_bound (store : TokenBucketStore) (capacity refillPerSecond W : ℚ)
    (hW : 0 ≤ W) (times : List ℚ) :
    ((∀ calls : List TokenBucketCall, calls.map (·.nowMs) = times →
      totalGranted store capacity refillPerSecond none calls ≤
        max 1 capacity+max 0 refillPerSecond*W/1000) ↔
      totalRefill capacity refillPerSecond times ≤ max 0 refillPerSecond*W/1000) ∧
    (∀ t0, (∀ t ∈ times, t0 ≤ t ∧ t ≤ t0+W) → times.Pairwise (· ≤ ·) →
      totalRefill capacity refillPerSecond times ≤ max 0 refillPerSecond*W/1000) := by
  have hrefill : (0 : ℚ) ≤ max 0 refillPerSecond := le_max_left 0 _
  have hnonneg : 0 ≤ max 0 refillPerSecond*W/1000 :=
    div_nonneg (mul_nonneg hrefill hW) (by norm_num)
  refine ⟨⟨fun hall => ?_,fun hle calls hcalls => ?_⟩,fun t0 hwithin hsorted => ?_⟩
  · cases times with
    | nil => exact hnonneg
    | cons nowMs times =>
      obtain ⟨calls,hcalls,hgranted⟩ := exists_greedy store capacity refillPerSecond nowMs times
      have hbound := hall calls hcalls
      rw [hgranted] at hbound
      linarith
  · have hbound := totalGranted_le store capacity refillPerSecond calls
    rw [hcalls] at hbound
    linarith
  · cases times with
    | nil => exact hnonneg
    | cons nowMs times =>
      have hsum := totalRefill_le_of_sorted capacity refillPerSecond nowMs (t0+W) times hsorted
        fun t ht => (hwithin t ht).2
      have hstart := (hwithin nowMs List.mem_cons_self).1
      have hshrink : max 0 refillPerSecond*(t0+W-nowMs)/1000 ≤ max 0 refillPerSecond*W/1000 := by
        have hmul := mul_le_mul_of_nonneg_left (show t0+W-nowMs ≤ W by linarith) hrefill
        linarith
      linarith

theorem token_bucket_bound_steady :
    totalGranted .redis 1 1 none [⟨0,1⟩,⟨1000,2⟩,⟨2000,1⟩] ≤ max 1 1+max 0 1*2000/1000 := by
  have h := token_bucket_bound .redis 1 1 2000 (by norm_num) [0,1000,2000]
  exact h.1.mpr (h.2 0 (by norm_num) (by norm_num)) _ rfl

/-- A replica whose clock is behind sets the bucket back, and its second is refilled twice. -/
theorem clock_behind_refills_twice : ¬∀ (store : TokenBucketStore) (capacity refillPerSecond t0 W : ℚ)
    (calls : List TokenBucketCall), 1 ≤ capacity → 0 ≤ refillPerSecond →
      (∀ call ∈ calls, t0 ≤ call.nowMs ∧ call.nowMs ≤ t0+W) →
        totalGranted store capacity refillPerSecond none calls ≤
          capacity+refillPerSecond*W/1000 := by
  intro h
  have hbound := h .redis 1 1 0 1000 [⟨0,1⟩,⟨1000,1⟩,⟨0,1⟩,⟨1000,1⟩] le_rfl zero_le_one
    (by norm_num)
  have hgranted : totalGranted .redis 1 1 none [⟨0,1⟩,⟨1000,1⟩,⟨0,1⟩,⟨1000,1⟩] = 3 := by
    decide +kernel
  rw [hgranted] at hbound
  norm_num at hbound

end WebSyncPlay
