import WebSyncPlay.Library.GatedAverage
import Mathlib.Algebra.Order.Field.Rat
import Mathlib.Tactic.NormNum

/-! The client's estimate of the server clock (`shared/server-clock.ts`). Numbers are rationals, an
absent one is not finite or was not passed. -/
namespace WebSyncPlay

open Library

structure ServerClock where
  serverOffsetMs : ℚ := 0
  hasSample : Bool := false
  lastRttMs : ℚ := 0
  deriving DecidableEq

def SERVER_CLOCK_OFFSET_OUTLIER_MS : ℚ := 10000

/-- What one call of `observeServerNowMs` gets. -/
structure ServerStamp where
  serverNowMs : Option ℚ
  clientNowMs : ℚ
  rttMs : Option ℚ := none
  deriving DecidableEq

def estimateServerClockOffsetMs (serverNowMs clientNowMs rttMs : ℚ) : ℚ :=
  let halfRtt := if 0 < rttMs then rttMs/2 else 0
  serverNowMs+halfRtt-clientNowMs

namespace ServerClock

def observeRttMs (clock : ServerClock) (rttMs : ℚ) : ServerClock :=
  if rttMs < 0 then clock
  else if clock.lastRttMs ≤ 0 then { clock with lastRttMs := rttMs }
  else { clock with lastRttMs := clock.lastRttMs*(7/10)+rttMs*(3/10) }

def ownRtt (stamp : ServerStamp) : Option ℚ := stamp.rttMs.filter fun rttMs => decide (0 < rttMs)

def sampleOf (clock : ServerClock) (stamp : ServerStamp) : Option ℚ :=
  stamp.serverNowMs.map fun serverNowMs =>
    estimateServerClockOffsetMs serverNowMs stamp.clientNowMs
      ((ownRtt stamp).getD clock.lastRttMs)

def observeServerNowMs (clock : ServerClock) (stamp : ServerStamp) : ServerClock :=
  match clock.sampleOf stamp with
  | none => clock
  | some sample =>
    let clock := match ownRtt stamp with
      | some rttMs => clock.observeRttMs rttMs
      | none => clock
    if !clock.hasSample then { clock with serverOffsetMs := sample, hasSample := true }
    else if SERVER_CLOCK_OFFSET_OUTLIER_MS < |sample-clock.serverOffsetMs| then clock
    else { clock with serverOffsetMs := clock.serverOffsetMs*(4/5)+sample*(1/5) }

def observeAll (clock : ServerClock) (stamps : List ServerStamp) : ServerClock :=
  stamps.foldl observeServerNowMs clock

/-- The samples of some stamps, each taken by the clock that the stamps before it leave. -/
def samplesOf : ServerClock → List ServerStamp → List ℚ
  | _,[] => []
  | clock,stamp :: stamps =>
    (clock.sampleOf stamp).toList ++ samplesOf (clock.observeServerNowMs stamp) stamps

section Observe

variable (clock : ServerClock) (rttMs : ℚ)

@[simp] theorem observeRttMs_serverOffsetMs :
    (clock.observeRttMs rttMs).serverOffsetMs = clock.serverOffsetMs := by
  unfold observeRttMs
  split
  · rfl
  · split <;> rfl

@[simp] theorem observeRttMs_hasSample :
    (clock.observeRttMs rttMs).hasSample = clock.hasSample := by
  unfold observeRttMs
  split
  · rfl
  · split <;> rfl

variable {clock} {stamp : ServerStamp} {sample : ℚ}

theorem observe_of_none (h : clock.sampleOf stamp = none) :
    clock.observeServerNowMs stamp = clock := by
  rw [observeServerNowMs,h]

theorem observe_of_some (h : clock.sampleOf stamp = some sample) :
    (clock.observeServerNowMs stamp).hasSample = true ∧
      (clock.observeServerNowMs stamp).serverOffsetMs =
        if clock.hasSample then
          gatedBlend SERVER_CLOCK_OFFSET_OUTLIER_MS (4/5) clock.serverOffsetMs sample
        else sample := by
  have hrest : (1 : ℚ)-4/5 = 1/5 := by norm_num
  rw [observeServerNowMs,h,gatedBlend,hrest]
  dsimp only
  cases ownRtt stamp <;> cases hseen : clock.hasSample <;> simp [hseen] <;> split <;> simp_all

theorem observeAll_of_hasSample (stamps : List ServerStamp) {clock : ServerClock}
    (h : clock.hasSample = true) :
    (clock.observeAll stamps).serverOffsetMs =
      (samplesOf clock stamps).foldl (gatedBlend SERVER_CLOCK_OFFSET_OUTLIER_MS (4/5))
        clock.serverOffsetMs := by
  induction stamps generalizing clock with
  | nil => rfl
  | cons stamp stamps ih =>
    rw [observeAll,List.foldl_cons,samplesOf]
    cases hsample : clock.sampleOf stamp with
    | none =>
      rw [observe_of_none hsample]
      exact ih h
    | some sample =>
      obtain ⟨hseen,hoffset⟩ := observe_of_some hsample
      rw [h,if_pos rfl] at hoffset
      have hrest := ih hseen
      rw [hoffset] at hrest
      exact hrest

theorem observeAll_of_not_hasSample (stamps : List ServerStamp) {clock : ServerClock}
    (h : clock.hasSample = false) :
    (clock.observeAll stamps).serverOffsetMs =
      match samplesOf clock stamps with
      | [] => clock.serverOffsetMs
      | sample :: rest =>
        rest.foldl (gatedBlend SERVER_CLOCK_OFFSET_OUTLIER_MS (4/5)) sample := by
  induction stamps with
  | nil => rfl
  | cons stamp stamps ih =>
    rw [observeAll,List.foldl_cons,samplesOf]
    cases hsample : clock.sampleOf stamp with
    | none =>
      rw [observe_of_none hsample]
      exact ih
    | some sample =>
      obtain ⟨hseen,hoffset⟩ := observe_of_some hsample
      rw [h] at hoffset
      have hrest := observeAll_of_hasSample stamps hseen
      rw [hoffset] at hrest
      exact hrest

/-- Stamps that a clock turns into a given sample, over and over. -/
def stampFor (clock : ServerClock) (sample : ℚ) : ServerStamp where
  serverNowMs := some (sample-if 0 < clock.lastRttMs then clock.lastRttMs/2 else 0)
  clientNowMs := 0

theorem sampleOf_stampFor (clock : ServerClock) (sample : ℚ) :
    clock.sampleOf (clock.stampFor sample) = some sample := by
  by_cases hrtt : 0 < clock.lastRttMs
  · simp [sampleOf,stampFor,ownRtt,estimateServerClockOffsetMs,hrtt]
  · simp [sampleOf,stampFor,ownRtt,estimateServerClockOffsetMs,hrtt]

theorem samplesOf_stampFor {clock : ServerClock} {sample : ℚ} (h : clock.hasSample = true)
    (hgate : SERVER_CLOCK_OFFSET_OUTLIER_MS < |sample-clock.serverOffsetMs|) (n : ℕ) :
    samplesOf clock (List.replicate n (clock.stampFor sample)) = List.replicate n sample := by
  have hstay : clock.observeServerNowMs (clock.stampFor sample) = clock := by
    have hown : ownRtt (clock.stampFor sample) = none := rfl
    rw [observeServerNowMs,sampleOf_stampFor,hown]
    simp [h,hgate]
  induction n with
  | zero => rfl
  | succ n ih =>
    rw [List.replicate_succ,samplesOf,sampleOf_stampFor,hstay,ih]
    rfl

end Observe

end ServerClock

/-- What the estimate of a clock is to do: once all samples lie close to the real offset it closes
in on it, sample by sample. -/
def ServerClock.Recovers (clock : ServerClock) (theta delta : ℚ) : Prop :=
  ∀ later : List ServerStamp,
    (∀ sample ∈ clock.samplesOf later, |sample-theta| ≤ delta) →
      |(clock.observeAll later).serverOffsetMs-theta| ≤
        (4/5)^(clock.samplesOf later).length*|clock.serverOffsetMs-theta|+delta

/-- Whatever came before, the estimate closes in on the real offset exactly when nothing was
sampled yet, or the gate lets in all samples there may be, or the estimate is among them. -/
theorem server_clock_recovers_iff (history : List ServerStamp) (theta : ℚ) {delta : ℚ}
    (hdelta : 0 ≤ delta) :
    (ServerClock.observeAll {} history).Recovers theta delta ↔
      (ServerClock.observeAll {} history).hasSample = false ∨
        |(ServerClock.observeAll {} history).serverOffsetMs-theta| ≤ delta ∨
        |(ServerClock.observeAll {} history).serverOffsetMs-theta|+delta ≤
          SERVER_CLOCK_OFFSET_OUTLIER_MS := by
  generalize ServerClock.observeAll {} history = clock
  constructor
  · intro h
    by_contra hno
    obtain ⟨hseen,hno⟩ := not_or.mp hno
    obtain ⟨hfar,hgate⟩ := not_or.mp hno
    have hseen : clock.hasSample = true := by simpa using hseen
    -- The same far sample, as often as the bound needs to fall below the distance.
    have hout : SERVER_CLOCK_OFFSET_OUTLIER_MS <
        |farSample clock.serverOffsetMs theta delta-clock.serverOffsetMs| := by
      rw [farSample_far hdelta]
      exact not_le.mp hgate
    have hshrinks : (4/5 : ℚ) < 1 := by norm_num
    obtain ⟨n,hn⟩ := exists_lt_of_not_near hshrinks hdelta (not_le.mp hfar)
    have hsamples := ServerClock.samplesOf_stampFor hseen hout n
    have hbound := h (List.replicate n (clock.stampFor _)) (by
      intro sample hsample
      rw [hsamples] at hsample
      rw [(List.mem_replicate.mp hsample).2]
      exact farSample_near hdelta _)
    rw [ServerClock.observeAll_of_hasSample _ hseen,hsamples,foldl_replicate_of_lt hout,
      List.length_replicate] at hbound
    exact absurd hbound (not_le.mpr hn)
  · intro h later hlater
    have hkeep : (0 : ℚ) ≤ 4/5 := by norm_num
    have hkeep' : (4/5 : ℚ) ≤ 1 := by norm_num
    by_cases hseen : clock.hasSample = true
    · rw [ServerClock.observeAll_of_hasSample _ hseen]
      refine gated_run_le hkeep hkeep' hdelta _ hlater ?_
      rcases h with hno | hclose | hroom
      · rw [hseen] at hno
        cases hno
      · exact Or.inl hclose
      · exact Or.inr hroom
    · rw [ServerClock.observeAll_of_not_hasSample _ (by simpa using hseen)]
      cases hsamples : clock.samplesOf later with
      | nil => simpa using hdelta
      | cons sample rest =>
        rw [hsamples] at hlater
        have hsample := hlater sample List.mem_cons_self
        have hwithin : WithinGate SERVER_CLOCK_OFFSET_OUTLIER_MS sample theta delta := Or.inl hsample
        have hrun := gated_run_near hkeep hkeep' rest
          (fun s hs => hlater s (List.mem_cons_of_mem _ hs)) hwithin
        have hpow : (0 : ℚ) ≤ (4/5)^rest.length := pow_nonneg hkeep _
        have hseed := mul_le_mul_of_nonneg_left hsample hpow
        have hprior : 0 ≤ (4/5 : ℚ)^(sample :: rest).length*|clock.serverOffsetMs-theta| :=
          mul_nonneg (pow_nonneg hkeep _) (abs_nonneg _)
        dsimp only
        linarith

theorem server_clock_recovers_close :
    (ServerClock.observeAll {} [⟨some 1000,0,none⟩]).Recovers 2000 5 ↔
      (ServerClock.observeAll {} [⟨some 1000,0,none⟩]).hasSample = false ∨
        |(ServerClock.observeAll {} [⟨some 1000,0,none⟩]).serverOffsetMs-2000| ≤ 5 ∨
        |(ServerClock.observeAll {} [⟨some 1000,0,none⟩]).serverOffsetMs-2000|+5 ≤
          SERVER_CLOCK_OFFSET_OUTLIER_MS :=
  server_clock_recovers_iff [⟨some 1000,0,none⟩] 2000 (by norm_num)

/-- A first stamp that is 20 seconds off is never corrected. -/
theorem bad_first_stamp_stays :
    ¬∀ (history : List ServerStamp) (theta delta : ℚ), 0 ≤ delta →
      (ServerClock.observeAll {} history).Recovers theta delta := by
  intro h
  have hbound := h [⟨some 20000,0,none⟩] 0 0 le_rfl [⟨some 0,0,none⟩] (by decide +kernel)
  exact absurd hbound (by decide +kernel)

end WebSyncPlay
