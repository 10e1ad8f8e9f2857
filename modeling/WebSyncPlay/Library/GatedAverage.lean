import Mathlib.Algebra.Order.Archimedean.Basic
import Mathlib.Algebra.Order.Group.Abs
import Mathlib.Algebra.Order.Field.Basic
import Mathlib.Tactic.Linarith
import Mathlib.Tactic.Ring

/-! Exponential averages with an outlier gate: a sample too far from the estimate is ignored.
Samples that lie close to a value draw the estimate there, if the gate lets them in. -/
namespace Library

variable {K : Type*} [Field K] [LinearOrder K]

def gatedBlend (gate keep : K) (estimate sample : K) : K :=
  if gate < |sample-estimate| then estimate else estimate*keep+sample*(1-keep)

section Step

variable {gate keep estimate sample target spread : K}

theorem gatedBlend_of_le (h : |sample-estimate| ≤ gate) :
    gatedBlend gate keep estimate sample = estimate*keep+sample*(1-keep) :=
  if_neg (not_lt.mpr h)

theorem gatedBlend_of_lt (h : gate < |sample-estimate|) :
    gatedBlend gate keep estimate sample = estimate :=
  if_pos h

theorem foldl_replicate_of_lt (h : gate < |sample-estimate|) (n : ℕ) :
    (List.replicate n sample).foldl (gatedBlend gate keep) estimate = estimate := by
  induction n with
  | zero => rfl
  | succ n ih => rw [List.replicate_succ,List.foldl_cons,gatedBlend_of_lt h,ih]

variable [IsStrictOrderedRing K]

theorem blend_near (hkeep : 0 ≤ keep) (hkeep' : keep ≤ 1) (hsample : |sample-target| ≤ spread) :
    |estimate*keep+sample*(1-keep)-target| ≤ keep*|estimate-target|+(1-keep)*spread := by
  have hsplit : estimate*keep+sample*(1-keep)-target =
      keep*(estimate-target)+(1-keep)*(sample-target) := by
    ring
  have hrest : 0 ≤ 1-keep := by linarith
  calc |estimate*keep+sample*(1-keep)-target|
      = |keep*(estimate-target)+(1-keep)*(sample-target)| := by rw [hsplit]
    _ ≤ |keep*(estimate-target)|+|(1-keep)*(sample-target)| := abs_add_le _ _
    _ = keep*|estimate-target|+(1-keep)*|sample-target| := by
      rw [abs_mul,abs_mul,abs_of_nonneg hkeep,abs_of_nonneg hrest]
    _ ≤ keep*|estimate-target|+(1-keep)*spread := by
      linarith [mul_le_mul_of_nonneg_left hsample hrest]

/-- No sample that is close to the target is an outlier for an estimate that is close to it,
unless the estimate is where the samples are. -/
def WithinGate (gate estimate target spread : K) : Prop :=
  |estimate-target| ≤ spread ∨ |estimate-target|+spread ≤ gate

theorem gatedBlend_near (hkeep : 0 ≤ keep) (hkeep' : keep ≤ 1) (hsample : |sample-target| ≤ spread)
    (h : WithinGate gate estimate target spread) :
    |gatedBlend gate keep estimate sample-target| ≤
        keep*|estimate-target|+(1-keep)*spread ∨
      |estimate-target| ≤ spread ∧ gatedBlend gate keep estimate sample = estimate := by
  by_cases hgate : gate < |sample-estimate|
  · rcases h with hclose | hroom
    · exact Or.inr ⟨hclose,gatedBlend_of_lt hgate⟩
    · have htriangle : |sample-estimate| ≤ |sample-target|+|estimate-target| := by
        have hsplit : sample-estimate = sample-target-(estimate-target) := by ring
        rw [hsplit]
        exact abs_sub _ _
      linarith
  · refine Or.inl ?_
    rw [gatedBlend_of_le (not_lt.mp hgate)]
    exact blend_near hkeep hkeep' hsample

theorem WithinGate.gatedBlend (hkeep : 0 ≤ keep) (hkeep' : keep ≤ 1)
    (hsample : |sample-target| ≤ spread) (h : WithinGate gate estimate target spread) :
    WithinGate gate (gatedBlend gate keep estimate sample) target spread := by
  rcases gatedBlend_near hkeep hkeep' hsample h with hnear | ⟨-,hsame⟩
  · rcases h with hclose | hroom
    · have hkept := mul_le_mul_of_nonneg_left hclose hkeep
      exact Or.inl (by linarith)
    · by_cases hclose : |estimate-target| ≤ spread
      · have hkept := mul_le_mul_of_nonneg_left hclose hkeep
        exact Or.inl (by linarith)
      · have hrest : 0 ≤ 1-keep := by linarith
        have hdrawn := mul_le_mul_of_nonneg_left (not_le.mp hclose).le hrest
        exact Or.inr (by linarith)
  · rwa [hsame]

end Step

section Run

variable {gate keep target spread : K} [IsStrictOrderedRing K]

/-- After some samples the estimate is as near as the average of as many without a gate. -/
theorem gated_run_near (hkeep : 0 ≤ keep) (hkeep' : keep ≤ 1) (samples : List K)
    (hsamples : ∀ sample ∈ samples, |sample-target| ≤ spread) {estimate : K}
    (h : WithinGate gate estimate target spread) :
    |samples.foldl (gatedBlend gate keep) estimate-target| ≤
      keep^samples.length*|estimate-target|+(1-keep^samples.length)*spread := by
  induction samples generalizing estimate with
  | nil => simp
  | cons sample rest ih =>
    have hsample := hsamples sample List.mem_cons_self
    have hrest := ih (fun s hs => hsamples s (List.mem_cons_of_mem _ hs))
      (h.gatedBlend hkeep hkeep' hsample)
    have hpow : 0 ≤ keep^rest.length := pow_nonneg hkeep _
    rw [List.foldl_cons,List.length_cons,pow_succ]
    refine hrest.trans ?_
    rcases gatedBlend_near hkeep hkeep' hsample h with hnear | ⟨hclose,hsame⟩
    · have hscaled := mul_le_mul_of_nonneg_left hnear hpow
      linarith
    · -- An ignored sample costs nothing where the estimate already is within the spread.
      rw [hsame]
      have hgap : 0 ≤ spread-|estimate-target| := by linarith
      have hshrunk : keep^rest.length*keep*(spread-|estimate-target|) ≤
          keep^rest.length*(spread-|estimate-target|) := by
        refine mul_le_mul_of_nonneg_right ?_ hgap
        exact mul_le_of_le_one_right hpow hkeep'
      linarith

theorem gated_run_le (hkeep : 0 ≤ keep) (hkeep' : keep ≤ 1) (hspread : 0 ≤ spread)
    (samples : List K) (hsamples : ∀ sample ∈ samples, |sample-target| ≤ spread) {estimate : K}
    (h : WithinGate gate estimate target spread) :
    |samples.foldl (gatedBlend gate keep) estimate-target| ≤
      keep^samples.length*|estimate-target|+spread := by
  have hrun := gated_run_near hkeep hkeep' samples hsamples h
  have hpow : 0 ≤ keep^samples.length*spread := mul_nonneg (pow_nonneg hkeep _) hspread
  linarith

def farSample (estimate target spread : K) : K :=
  if estimate ≤ target then target+spread else target-spread

theorem farSample_near (hspread : 0 ≤ spread) (estimate : K) :
    |farSample estimate target spread-target| ≤ spread := by
  rw [farSample]
  split
  · rw [add_sub_cancel_left,abs_of_nonneg hspread]
  · rw [sub_sub_cancel_left,abs_neg,abs_of_nonneg hspread]

theorem farSample_far (hspread : 0 ≤ spread) (estimate : K) :
    |farSample estimate target spread-estimate| = |estimate-target|+spread := by
  rw [farSample]
  split
  · rename_i hle
    rw [abs_of_nonneg (by linarith),abs_of_nonpos (by linarith)]
    ring
  · rename_i hlt
    have hlt := not_le.mp hlt
    rw [abs_of_nonpos (by linarith),abs_of_pos (by linarith)]
    ring

theorem exists_lt_of_not_near [Archimedean K] (hkeep' : keep < 1) (hspread : 0 ≤ spread)
    {distance : K} (h : spread < distance) : ∃ n : ℕ, keep^n*distance+spread < distance := by
  have hpos : 0 < distance := lt_of_le_of_lt hspread h
  obtain ⟨n,hn⟩ := exists_pow_lt_of_lt_one (div_pos (sub_pos.mpr h) hpos) hkeep'
  refine ⟨n,?_⟩
  have hscaled := (lt_div_iff₀ hpos).mp hn
  linarith

end Run

end Library
