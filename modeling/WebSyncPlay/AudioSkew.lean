import WebSyncPlay.Library.TransitionSystem

/-! Negative audio delays (`shared/audio-delay-skew.ts`, `player/local-audio-delay-graph.ts`): input
frames are dropped and silence is inserted while a delay changes. -/
namespace WebSyncPlay

open Library

def AUDIO_DELAY_MIN_MS : ℚ := -2000
def AUDIO_DELAY_MAX_MS : ℚ := 2000
def PENDING_CAPACITY_FRAMES : ℕ := 48000*3

def clampAudioDelayMs (value : ℚ) : ℚ := min AUDIO_DELAY_MAX_MS (max AUDIO_DELAY_MIN_MS value)

/-- Rounded half up. -/
def msToSamples (sampleRate ms : ℚ) : ℕ := ⌊ms/1000*sampleRate+1/2⌋.toNat

structure AudioSkewPlan where
  appliedEarlyMs : ℚ
  samplesToDrop : ℕ
  samplesToInsert : ℕ
  deriving DecidableEq

/-- Opposite work that is still pending is cancelled first. -/
def planEarlySkewChange (toSamples : ℚ → ℕ) (current : AudioSkewPlan) (targetEarlyMs : ℚ) :
    AudioSkewPlan :=
  let safeTarget := max 0 targetEarlyMs
  let deltaMs := safeTarget-current.appliedEarlyMs
  if 0 < deltaMs then
    let samples := toSamples deltaMs
    if samples ≤ current.samplesToInsert then
      ⟨safeTarget,current.samplesToDrop,current.samplesToInsert-samples⟩
    else ⟨safeTarget,current.samplesToDrop+(samples-current.samplesToInsert),0⟩
  else if deltaMs < 0 then
    let samples := toSamples (-deltaMs)
    if samples ≤ current.samplesToDrop then
      ⟨safeTarget,current.samplesToDrop-samples,current.samplesToInsert⟩
    else ⟨safeTarget,0,current.samplesToInsert+(samples-current.samplesToDrop)⟩
  else ⟨safeTarget,current.samplesToDrop,current.samplesToInsert⟩

section Quantum

variable {F : Type*} (silence : F)

def dropLoop : ℕ → List F → ℕ × List F
  | 0,pending => (0,pending)
  | n+1,[] => (n+1,[])
  | n+1,_ :: pending => dropLoop n pending

/-- The output, what is left to insert, and what is left. -/
def fillLoop : ℕ → ℕ → List F → List F × ℕ × List F
  | 0,toInsert,pending => ([],toInsert,pending)
  | n+1,toInsert+1,pending =>
    let rest := fillLoop n toInsert pending
    (silence :: rest.1,rest.2)
  | n+1,0,[] =>
    let rest := fillLoop n 0 []
    (silence :: rest.1,rest.2)
  | n+1,0,next :: pending =>
    let rest := fillLoop n 0 pending
    (next :: rest.1,rest.2)

structure SkewQuantum (F : Type*) where
  pending : List F
  output : List F
  samplesToDrop : ℕ
  samplesToInsert : ℕ

def processSkewQuantum (frames pending : List F) (samplesToDrop samplesToInsert : ℕ)
    (outputFrameCount : ℕ) : SkewQuantum F :=
  let dropped := dropLoop samplesToDrop (pending ++ frames)
  let filled := fillLoop silence outputFrameCount samplesToInsert dropped.2
  ⟨filled.2.2,filled.1,dropped.1,filled.2.1⟩

end Quantum

/-- The graph of an element, with the frames dropped, inserted, put out as silence because none was
pending, and cut off at the capacity so far, and the sum of the rounded changes. -/
structure AudioGraph (F : Type*) where
  delayMs : ℚ
  skew : AudioSkewPlan
  negativePathActive : Bool
  pending : List F
  dropped : ℕ
  inserted : ℕ
  padded : ℕ
  trimmed : ℕ
  planned : ℤ
  deriving DecidableEq

inductive AudioEvent (F : Type*)
  | setDelayMs (nextDelayMs : ℚ)
  | process (frames : List F)

namespace AudioGraph

variable {F : Type*} (toSamples : ℚ → ℕ) (silence : F)

def shouldLeaveNegativePath (g : AudioGraph F) : Bool :=
  g.negativePathActive && decide (0 ≤ g.delayMs) && decide (g.skew.appliedEarlyMs = 0) &&
    decide (g.skew.samplesToDrop = 0) && decide (g.skew.samplesToInsert = 0) && g.pending.isEmpty

def maybeLeaveNegativePath (g : AudioGraph F) : AudioGraph F :=
  if g.shouldLeaveNegativePath then { g with negativePathActive := false } else g

/-- A change of the early skew in frames, more frames early being positive. -/
def earlySamples (currentMs targetMs : ℚ) : ℤ :=
  if currentMs < targetMs then toSamples (targetMs-currentMs)
  else if targetMs < currentMs then -toSamples (currentMs-targetMs)
  else 0

def syncEarlySkew (g : AudioGraph F) (targetEarlyMs : ℚ) : AudioGraph F :=
  { g with
    skew := planEarlySkewChange toSamples g.skew targetEarlyMs
    planned := g.planned+earlySamples toSamples g.skew.appliedEarlyMs (max 0 targetEarlyMs) }

def attach (initialDelayMs : ℚ) : AudioGraph F :=
  let delayMs := clampAudioDelayMs initialDelayMs
  let g : AudioGraph F := ⟨delayMs,⟨0,0,0⟩,decide (delayMs < 0),[],0,0,0,0,0⟩
  if delayMs < 0 then g.syncEarlySkew toSamples (max 0 (-delayMs)) else g

def setDelayMs (g : AudioGraph F) (nextDelayMs : ℚ) : AudioGraph F :=
  let next := clampAudioDelayMs nextDelayMs
  if next = g.delayMs then g
  else
    let earlyMs := max 0 (-next)
    let connected := { g with
      delayMs := next
      negativePathActive := g.negativePathActive || decide (0 < earlyMs) }
    (connected.syncEarlySkew toSamples earlyMs).maybeLeaveNegativePath

/-- The frames of a quantum for which none is pending. -/
def missing (held samplesToDrop samplesToInsert count : ℕ) : ℕ :=
  (count-samplesToInsert)-(held+count-samplesToDrop)

def onaudioprocess (g : AudioGraph F) (frames : List F) : AudioGraph F :=
  let held := if PENDING_CAPACITY_FRAMES < g.pending.length then
    g.pending.drop (g.pending.length-PENDING_CAPACITY_FRAMES) else g.pending
  let processed := processSkewQuantum silence frames held g.skew.samplesToDrop
    g.skew.samplesToInsert frames.length
  let done := { g with
    pending := processed.pending
    skew := { g.skew with
      samplesToDrop := processed.samplesToDrop
      samplesToInsert := processed.samplesToInsert }
    dropped := g.dropped+(g.skew.samplesToDrop-processed.samplesToDrop)
    inserted := g.inserted+(g.skew.samplesToInsert-processed.samplesToInsert)
    padded := g.padded+
      missing held.length g.skew.samplesToDrop g.skew.samplesToInsert frames.length
    trimmed := g.trimmed+(g.pending.length-held.length) }
  done.maybeLeaveNegativePath

def step (g : AudioGraph F) : AudioEvent F → Option (AudioGraph F)
  | .setDelayMs nextDelayMs => some (g.setDelayMs toSamples nextDelayMs)
  | .process frames => if g.negativePathActive then some (g.onaudioprocess silence frames) else none

end AudioGraph

/-- The graphs of a context, by how it counts milliseconds in frames. -/
def audioSystem {F : Type*} (toSamples : ℚ → ℕ) (silence : F) :
    TransitionSystem (AudioGraph F) (AudioEvent F) where
  init g := ∃ initialDelayMs, g = .attach toSamples initialDelayMs
  step g e g' := g.step toSamples silence e = some g'

namespace AudioGraph

variable {F : Type*} {toSamples : ℚ → ℕ} {silence : F}

/-- No early skew is asked for and no work is left. -/
structure Settled (g : AudioGraph F) : Prop where
  applied : g.skew.appliedEarlyMs = 0
  drop : g.skew.samplesToDrop = 0
  insert : g.skew.samplesToInsert = 0

/-- As many frames were dropped as inserted, none is pending, the next output is its input and the
negative path has been left. -/
def Aligned (silence : F) (g : AudioGraph F) : Prop :=
  g.dropped = g.inserted ∧ g.pending = [] ∧
    (∀ frames, (processSkewQuantum silence frames g.pending g.skew.samplesToDrop
      g.skew.samplesToInsert frames.length).output = frames) ∧ g.negativePathActive = false

/-- A quantum that has a frame for each output and a pending buffer within the capacity; a change of
the delay whose rounded frames are those between the two delays. -/
def Exact (toSamples : ℚ → ℕ) (g : AudioGraph F) : AudioEvent F → Prop
  | .setDelayMs nextDelayMs =>
    earlySamples toSamples g.skew.appliedEarlyMs (max 0 (-clampAudioDelayMs nextDelayMs)) =
      earlySamples toSamples 0 (max 0 (-clampAudioDelayMs nextDelayMs))-
        earlySamples toSamples 0 g.skew.appliedEarlyMs
  | .process frames => g.pending.length ≤ PENDING_CAPACITY_FRAMES ∧
      missing g.pending.length g.skew.samplesToDrop g.skew.samplesToInsert frames.length = 0

instance (g : AudioGraph F) : (e : AudioEvent F) → Decidable (Exact toSamples g e)
  | .setDelayMs _ => inferInstanceAs (Decidable (_ = _))
  | .process _ => inferInstanceAs (Decidable (_ ∧ _))

section Loops

theorem dropLoop_eq (n : ℕ) (pending : List F) :
    dropLoop n pending = (n-pending.length,pending.drop n) := by
  induction n generalizing pending with
  | zero => simp [dropLoop]
  | succ n ih =>
    cases pending with
    | nil => simp [dropLoop]
    | cons next pending =>
      rw [dropLoop,ih]
      simp

theorem fillLoop_rest (n toInsert : ℕ) (pending : List F) :
    (fillLoop silence n toInsert pending).2 = (toInsert-n,pending.drop (n-toInsert)) := by
  induction n generalizing toInsert pending with
  | zero => simp [fillLoop]
  | succ n ih =>
    cases toInsert with
    | succ toInsert =>
      change (fillLoop silence n toInsert pending).2 = _
      rw [ih,Nat.add_sub_add_right,Nat.add_sub_add_right]
    | zero =>
      cases pending with
      | nil =>
        change (fillLoop silence n 0 []).2 = _
        rw [ih]
        simp
      | cons next pending =>
        change (fillLoop silence n 0 pending).2 = _
        rw [ih]
        simp

theorem fillLoop_output (pending : List F) :
    (fillLoop silence pending.length 0 pending).1 = pending := by
  induction pending with
  | nil => rfl
  | cons next pending ih =>
    change next :: (fillLoop silence pending.length 0 pending).1 = _
    rw [ih]

theorem processSkewQuantum_output (frames : List F) :
    (processSkewQuantum silence frames [] 0 0 frames.length).output = frames :=
  fillLoop_output frames

theorem processSkewQuantum_rest (silence : F) (frames pending : List F) (toDrop toInsert n : ℕ) :
    (processSkewQuantum silence frames pending toDrop toInsert n).samplesToDrop =
        toDrop-(pending.length+frames.length) ∧
      (processSkewQuantum silence frames pending toDrop toInsert n).samplesToInsert =
        toInsert-n ∧
      (processSkewQuantum silence frames pending toDrop toInsert n).pending.length =
        pending.length+frames.length-toDrop-(n-toInsert) := by
  rw [processSkewQuantum]
  dsimp only
  rw [fillLoop_rest,dropLoop_eq]
  refine ⟨?_,rfl,?_⟩
  · rw [List.length_append]
  · rw [List.length_drop,List.length_drop,List.length_append]

end Loops

section Plan

@[simp] theorem planEarlySkewChange_applied {current : AudioSkewPlan} {targetEarlyMs : ℚ} :
    (planEarlySkewChange toSamples current targetEarlyMs).appliedEarlyMs = max 0 targetEarlyMs := by
  rw [planEarlySkewChange]
  dsimp only
  split_ifs <;> rfl

theorem planEarlySkewChange_work (toSamples : ℚ → ℕ) (current : AudioSkewPlan)
    (targetEarlyMs : ℚ) :
    ((planEarlySkewChange toSamples current targetEarlyMs).samplesToDrop : ℤ)-
        (planEarlySkewChange toSamples current targetEarlyMs).samplesToInsert =
      (current.samplesToDrop : ℤ)-current.samplesToInsert+
        earlySamples toSamples current.appliedEarlyMs (max 0 targetEarlyMs) := by
  rw [planEarlySkewChange,earlySamples]
  dsimp only
  by_cases hup : 0 < max 0 targetEarlyMs-current.appliedEarlyMs
  · rw [if_pos hup,if_pos (sub_pos.mp hup)]
    split
    · dsimp only
      omega
    · dsimp only
      omega
  · rw [if_neg hup,if_neg fun hlt => hup (sub_pos.mpr hlt)]
    by_cases hdown : max 0 targetEarlyMs-current.appliedEarlyMs < 0
    · have hsamples : -(max 0 targetEarlyMs-current.appliedEarlyMs) =
          current.appliedEarlyMs-max 0 targetEarlyMs := by ring
      rw [if_pos hdown,if_pos (sub_neg.mp hdown),hsamples]
      split
      · dsimp only
        omega
      · dsimp only
        omega
    · rw [if_neg hdown,if_neg fun hlt => hdown (sub_neg.mpr hlt)]
      dsimp only
      omega

end Plan

section Runs

variable {g : AudioGraph F}

/-- What is dropped and still to drop, less what is inserted and still to insert, are the changes;
what is pending came from inserted and padded silence. -/
structure Invariant (g : AudioGraph F) : Prop where
  work : (g.dropped : ℤ)+g.skew.samplesToDrop-(g.inserted+g.skew.samplesToInsert) = g.planned
  frames : g.pending.length+g.dropped+g.trimmed = g.inserted+g.padded
  applied : g.skew.appliedEarlyMs = max 0 (-g.delayMs)
  left : g.shouldLeaveNegativePath = false

theorem shouldLeave_maybeLeave (g : AudioGraph F) :
    g.maybeLeaveNegativePath.shouldLeaveNegativePath = false := by
  rw [maybeLeaveNegativePath]
  split
  · rfl
  · rename_i hstay
    exact Bool.eq_false_iff.mpr hstay

theorem maybeLeave_eq (g : AudioGraph F) : ∃ active,
    g.maybeLeaveNegativePath = { g with negativePathActive := active } := by
  rw [maybeLeaveNegativePath]
  split
  · exact ⟨false,rfl⟩
  · exact ⟨g.negativePathActive,rfl⟩

theorem Invariant.maybeLeave
    (hwork : (g.dropped : ℤ)+g.skew.samplesToDrop-(g.inserted+g.skew.samplesToInsert) = g.planned)
    (hframes : g.pending.length+g.dropped+g.trimmed = g.inserted+g.padded)
    (happlied : g.skew.appliedEarlyMs = max 0 (-g.delayMs)) :
    Invariant g.maybeLeaveNegativePath := by
  have hleft := shouldLeave_maybeLeave g
  obtain ⟨active,hsame⟩ := maybeLeave_eq g
  rw [hsame] at hleft ⊢
  exact ⟨hwork,hframes,happlied,hleft⟩

theorem invariant_attach (initialDelayMs : ℚ) :
    Invariant (attach (F := F) toSamples initialDelayMs) := by
  rw [attach]
  split
  · rename_i hneg
    have hpos : 0 < -clampAudioDelayMs initialDelayMs := neg_pos.mpr hneg
    refine ⟨?_,rfl,?_,?_⟩
    · have hwork := planEarlySkewChange_work toSamples ⟨0,0,0⟩
        (max 0 (-clampAudioDelayMs initialDelayMs))
      simp only [syncEarlySkew]
      push_cast at hwork ⊢
      linarith
    · simp [syncEarlySkew]
    · simp [syncEarlySkew,shouldLeaveNegativePath,hneg]
  · rename_i hneg
    refine ⟨rfl,rfl,?_,?_⟩
    · have hle : -clampAudioDelayMs initialDelayMs ≤ 0 := neg_nonpos.mpr (not_lt.mp hneg)
      exact (max_eq_left hle).symm
    · simp [shouldLeaveNegativePath,hneg]

theorem Invariant.setDelayMs (h : Invariant g) (nextDelayMs : ℚ) :
    Invariant (g.setDelayMs toSamples nextDelayMs) := by
  rw [AudioGraph.setDelayMs]
  dsimp only
  split
  · exact h
  · refine Invariant.maybeLeave ?_ h.frames ?_
    · have hwork := planEarlySkewChange_work toSamples g.skew
        (max 0 (-clampAudioDelayMs nextDelayMs))
      have hold := h.work
      simp only [syncEarlySkew]
      linarith
    · simp [syncEarlySkew]

theorem length_held (pending : List F) :
    (if PENDING_CAPACITY_FRAMES < pending.length then
      pending.drop (pending.length-PENDING_CAPACITY_FRAMES) else pending).length =
        min pending.length PENDING_CAPACITY_FRAMES := by
  split
  · rw [List.length_drop]
    omega
  · omega

/-- A quantum keeps what it is given: what it leaves and drops is what was held, what it
inserts and what it pads. -/
theorem quantum_balance (held samplesToDrop samplesToInsert count : ℕ) :
    held+count-samplesToDrop-(count-samplesToInsert)+
        (samplesToDrop-(samplesToDrop-(held+count))) =
      held+(samplesToInsert-(samplesToInsert-count))+
        missing held samplesToDrop samplesToInsert count := by
  rw [missing]
  omega

theorem Invariant.onaudioprocess (h : Invariant g) (frames : List F) :
    Invariant (g.onaudioprocess silence frames) := by
  rw [AudioGraph.onaudioprocess]
  dsimp only
  set held := if PENDING_CAPACITY_FRAMES < g.pending.length then
    g.pending.drop (g.pending.length-PENDING_CAPACITY_FRAMES) else g.pending with hheld
  have hlength : held.length ≤ g.pending.length := by
    rw [length_held]
    exact min_le_left _ _
  obtain ⟨hdrop,hinsert,hpending⟩ := processSkewQuantum_rest silence frames held
    g.skew.samplesToDrop g.skew.samplesToInsert frames.length
  have hwork := h.work
  have hframes := h.frames
  refine Invariant.maybeLeave ?_ ?_ h.applied
  · dsimp only
    rw [hdrop,hinsert]
    omega
  · have hbalance := quantum_balance held.length g.skew.samplesToDrop g.skew.samplesToInsert
      frames.length
    dsimp only
    rw [hdrop,hinsert,hpending]
    omega

theorem Invariant.step {g' : AudioGraph F} (h : Invariant g) {e : AudioEvent F}
    (hstep : g.step toSamples silence e = some g') : Invariant g' := by
  cases e with
  | setDelayMs nextDelayMs =>
    obtain rfl := Option.some.inj hstep
    exact h.setDelayMs nextDelayMs
  | process frames =>
    rw [AudioGraph.step] at hstep
    split at hstep
    · obtain rfl := Option.some.inj hstep
      exact h.onaudioprocess frames
    · cases hstep

theorem invariant_of_reachable (h : (audioSystem toSamples silence).Reachable g) : Invariant g := by
  refine h.invariant Invariant ?_ ?_
  · rintro g ⟨initialDelayMs,rfl⟩
    exact invariant_attach initialDelayMs
  · intro g e g' _ hg hstep
    exact hg.step hstep

/-- The changes are the frames of the early skew that is applied; no frame was missing or cut. -/
structure ExactInvariant (toSamples : ℚ → ℕ) (g : AudioGraph F) : Prop where
  planned : g.planned = earlySamples toSamples 0 g.skew.appliedEarlyMs
  padded : g.padded = 0
  trimmed : g.trimmed = 0

theorem ExactInvariant.maybeLeave (h : ExactInvariant toSamples g) :
    ExactInvariant toSamples g.maybeLeaveNegativePath := by
  obtain ⟨active,hsame⟩ := maybeLeave_eq g
  rw [hsame]
  exact ⟨h.planned,h.padded,h.trimmed⟩

theorem exactInvariant_attach (initialDelayMs : ℚ) :
    ExactInvariant toSamples (attach (F := F) toSamples initialDelayMs) := by
  rw [attach]
  split
  · refine ⟨?_,rfl,rfl⟩
    simp [syncEarlySkew]
  · exact ⟨by simp [earlySamples],rfl,rfl⟩

theorem ExactInvariant.step {g' : AudioGraph F} (h : ExactInvariant toSamples g)
    {e : AudioEvent F} (hexact : Exact toSamples g e)
    (hstep : g.step toSamples silence e = some g') : ExactInvariant toSamples g' := by
  cases e with
  | setDelayMs nextDelayMs =>
    obtain rfl := Option.some.inj hstep
    rw [AudioGraph.setDelayMs]
    dsimp only
    split
    · exact h
    · refine ExactInvariant.maybeLeave ⟨?_,h.padded,h.trimmed⟩
      have hplanned := h.planned
      have hround : earlySamples toSamples g.skew.appliedEarlyMs
          (max 0 (-clampAudioDelayMs nextDelayMs)) = earlySamples toSamples 0
            (max 0 (-clampAudioDelayMs nextDelayMs))-
              earlySamples toSamples 0 g.skew.appliedEarlyMs := hexact
      simp only [syncEarlySkew,planEarlySkewChange_applied,max_eq_right (le_max_left (0 : ℚ) _)]
      omega
  | process frames =>
    obtain ⟨hcapacity,hmissing⟩ := hexact
    rw [AudioGraph.step] at hstep
    split at hstep
    · obtain rfl := Option.some.inj hstep
      refine ExactInvariant.maybeLeave ⟨h.planned,?_,?_⟩
      · dsimp only
        rw [if_neg (not_lt.mpr hcapacity),hmissing,h.padded]
      · dsimp only
        rw [if_neg (not_lt.mpr hcapacity),h.trimmed,Nat.sub_self]
    · cases hstep

theorem exactInvariant_of_reachable
    (h : ((audioSystem toSamples silence).restrict (Exact toSamples)).Reachable g) :
    ExactInvariant toSamples g := by
  refine h.invariant (ExactInvariant toSamples) ?_ ?_
  · rintro g ⟨initialDelayMs,rfl⟩
    exact exactInvariant_attach initialDelayMs
  · rintro g e g' _ hg ⟨hexact,hstep⟩
    exact hg.step hexact hstep

theorem Invariant.aligned_iff (h : Invariant g) (hsettled : g.Settled) :
    g.Aligned silence ↔ g.planned = 0 ∧ g.padded = g.trimmed := by
  have hwork := h.work
  have hframes := h.frames
  rw [hsettled.drop,hsettled.insert] at hwork
  constructor
  · rintro ⟨hdropped,hpending,-⟩
    rw [hpending,List.length_nil] at hframes
    omega
  · rintro ⟨hplanned,hpadded⟩
    have hpending : g.pending = [] := by
      rw [← List.length_eq_zero_iff]
      omega
    refine ⟨by omega,hpending,?_,?_⟩
    · intro frames
      rw [hpending,hsettled.drop,hsettled.insert]
      exact processSkewQuantum_output frames
    · have hdelay : 0 ≤ g.delayMs := by
        have happlied := h.applied
        rw [hsettled.applied] at happlied
        have hle : -g.delayMs ≤ 0 := (le_max_right 0 _).trans_eq happlied.symm
        linarith
      have hleft := h.left
      simpa [shouldLeaveNegativePath,hdelay,hsettled.applied,hsettled.drop,hsettled.insert,
        hpending] using hleft

end Runs

/-- A settled graph is aligned if and only if the rounded changes of its run sum to zero and as much
silence was put out for missing frames as was cut off; and every run whose changes are exact and
whose quanta miss no frame leads to aligned graphs. -/
theorem audio_skew_realigns {F : Type*} (toSamples : ℚ → ℕ) (silence : F) {g : AudioGraph F}
    (h : (audioSystem toSamples silence).Reachable g) (hsettled : g.Settled) :
    (g.Aligned silence ↔ g.planned = 0 ∧ g.padded = g.trimmed) ∧
      (((audioSystem toSamples silence).restrict (Exact toSamples)).Reachable g →
        g.Aligned silence) := by
  have hiff : g.Aligned silence ↔ g.planned = 0 ∧ g.padded = g.trimmed :=
    (invariant_of_reachable h).aligned_iff hsettled
  refine ⟨hiff,fun hexact => hiff.mpr ?_⟩
  obtain ⟨hplanned,hpadded,htrimmed⟩ := exactInvariant_of_reachable hexact
  refine ⟨?_,hpadded.trans htrimmed.symm⟩
  rw [hplanned,hsettled.applied]
  simp [earlySamples]

/-- A change by less than a frame, a quantum, and a toggle before the next quantum. -/
theorem audio_skew_realigns_toggle : ∃ g : AudioGraph ℕ,
    ((audioSystem (msToSamples 8000) 0).restrict (Exact (msToSamples 8000))).Reachable g ∧
      g.Aligned 0 := by
  have hrun : (TransitionSystem.runSteps
      (TransitionSystem.guardStep (step (msToSamples 8000) 0) (Exact (msToSamples 8000)))
      (attach (msToSamples 8000) 0 : AudioGraph ℕ)
        [.setDelayMs (-1/100),.process [1,2,3,4,5,6,7,8],.setDelayMs (-1),.setDelayMs 0]) =
        some ⟨0,⟨0,0,0⟩,false,[],0,0,0,0,0⟩ := by decide +kernel
  have hexact : ((audioSystem (msToSamples 8000) 0).restrict (Exact (msToSamples 8000))).Reachable
      (⟨0,⟨0,0,0⟩,false,[],0,0,0,0,0⟩ : AudioGraph ℕ) :=
    .of_guardSteps (fun _ _ _ h => h) _ (.init ⟨0,rfl⟩) hrun
  have hreach : (audioSystem (msToSamples 8000) 0).Reachable
      (⟨0,⟨0,0,0⟩,false,[],0,0,0,0,0⟩ : AudioGraph ℕ) := hexact.of_restrict
  exact ⟨_,hexact,(audio_skew_realigns (msToSamples 8000) 0 hreach ⟨rfl,rfl,rfl⟩).2 hexact⟩

/-- One millisecond early at 8000 frames a second, a quantum, back to zero and a quantum: eight
frames stay pending. -/
theorem dropped_frames_return_late : ∃ g : AudioGraph ℕ,
    (audioSystem (msToSamples 8000) 0).Reachable g ∧ g.Settled ∧ g.pending.length = 8 ∧
      ¬g.Aligned 0 := by
  have hrun : (TransitionSystem.runSteps (step (msToSamples 8000) 0)
      (attach (msToSamples 8000) 0 : AudioGraph ℕ)
        [.setDelayMs (-1),.process [1,2,3,4,5,6,7,8],.setDelayMs 0,.process [1,2,3,4,5,6,7,8]]) =
        some ⟨0,⟨0,0,0⟩,true,[1,2,3,4,5,6,7,8],8,8,8,0,0⟩ := by decide +kernel
  have hreach : (audioSystem (msToSamples 8000) 0).Reachable
      (⟨0,⟨0,0,0⟩,true,[1,2,3,4,5,6,7,8],8,8,8,0,0⟩ : AudioGraph ℕ) :=
    .of_runSteps (fun _ _ _ h => h) _ (.init ⟨0,rfl⟩) hrun
  exact ⟨_,hreach,⟨rfl,rfl,rfl⟩,rfl,fun haligned => absurd haligned.2.1 (List.cons_ne_nil _ _)⟩

end AudioGraph

end WebSyncPlay
