import Mathlib.Algebra.Order.Field.Rat
import Mathlib.Algebra.Order.Group.Abs
import Mathlib.Tactic.Linarith
import Mathlib.Tactic.NormNum
import Mathlib.Tactic.Ring

/-! Local rate catch-up of a player that drifts from the room clock
(`player/playback-sync.ts`, `player/playback-sync-engine.ts`). Times are seconds unless
their name says otherwise, an absent number is one that is not finite. -/
namespace WebSyncPlay

structure PlaybackSyncState where
  paused : Bool
  playbackRate : ℚ
  timelineAnchorMs : ℚ
  serverNowMs : ℚ
  deriving DecidableEq

def DEFAULT_PLAYBACK_DRIFT_THRESHOLD_SEC : ℚ := 4/5

/-- The soft threshold grows with half the round trip. -/
def resolvePlaybackDriftThresholdSec (rttMs : Option ℚ) : ℚ :=
  let halfRttSec :=
    match rttMs with
    | some rttMs => if 0 < rttMs then rttMs/2000 else 0
    | none => 0
  max DEFAULT_PLAYBACK_DRIFT_THRESHOLD_SEC (halfRttSec+1/4)

def CATCH_UP_DRIFT_MAX_SEC : ℚ := 3

def CATCH_UP_RATE_BOOST : ℚ := 7/5

def CATCH_UP_RATE_MIN_FACTOR : ℚ := 21/20

def CATCH_UP_RATE_MAX_FACTOR : ℚ := 3/2

def PLAYBACK_RATE_SCHEMA_MAX : ℚ := 3

def isCatchUpDriftBand (driftSec minSec : ℚ) : Bool :=
  decide (minSec < driftSec) && decide (driftSec ≤ CATCH_UP_DRIFT_MAX_SEC)

def resolveCatchUpPlaybackRate (roomRate driftSec minSec : ℚ) : Option ℚ :=
  if !isCatchUpDriftBand driftSec minSec then none
  else if roomRate ≤ 0 then none
  else
    let boosted := roomRate*CATCH_UP_RATE_BOOST
    let lo := roomRate*CATCH_UP_RATE_MIN_FACTOR
    let hi := min (roomRate*CATCH_UP_RATE_MAX_FACTOR) PLAYBACK_RATE_SCHEMA_MAX
    some (min hi (max lo boosted))

def computeExpectedPlaybackTimeSec (syncState : PlaybackSyncState) (nowMs : ℚ) : ℚ :=
  let anchorSec := max 0 (syncState.timelineAnchorMs/1000)
  let elapsedSec := if syncState.paused then 0 else max 0 ((nowMs-syncState.serverNowMs)/1000)
  anchorSec+elapsedSec*syncState.playbackRate

def BUFFER_ONLY_PROXIMITY_SEC : ℚ := 1

def BUFFER_ONLY_MAX_ABS_SEC : ℚ := 45

def SEEK_CEILING_EPS_SEC : ℚ := 1/20

/-- A duration that is no more than what has been buffered. -/
def looksLikeBufferOnlyBound : Option ℚ → Option ℚ → Bool
  | some boundSec,some seekableEndSec =>
    if BUFFER_ONLY_PROXIMITY_SEC ≤ |boundSec-seekableEndSec| then false
    else decide (min boundSec seekableEndSec < BUFFER_ONLY_MAX_ABS_SEC)
  | _,_ => false

structure MediaBounds where
  durationSec : Option ℚ := none
  seekableEndSec : Option ℚ := none
  durationHintSec : Option ℚ := none
  isLive : Bool := false
  deriving DecidableEq

def finitePositive (value : Option ℚ) : Option ℚ := value.filter fun x => decide (0 < x)

def resolveSeekCeilingSec (input : MediaBounds) : Option ℚ :=
  let finiteSeekable := finitePositive input.seekableEndSec
  let finiteDuration := finitePositive input.durationSec
  let finiteHint := finitePositive input.durationHintSec
  let trustedDuration :=
    if looksLikeBufferOnlyBound finiteDuration finiteSeekable then none else finiteDuration
  let trustedHint :=
    if looksLikeBufferOnlyBound finiteHint finiteSeekable then none else finiteHint
  let vodBound := max (trustedDuration.getD 0) (trustedHint.getD 0)
  if 0 < vodBound then
    let withSeekable :=
      match finiteSeekable with
      | some seekable => max vodBound seekable
      | none => vodBound
    some (max 0 (withSeekable-SEEK_CEILING_EPS_SEC))
  else
    match input.isLive,finiteSeekable with
    | true,some seekable => some (max 0 (seekable-SEEK_CEILING_EPS_SEC))
    | _,_ => none

/-- The absolute drift between a playhead and the room clock. A playhead at the end of the
media counts as converged once the room clock is past it. -/
def measurePlaybackDriftSec (playerCurrentTimeSec : Option ℚ) (syncState : PlaybackSyncState)
    (nowMs : ℚ) (bounds : MediaBounds) (allowAheadSec : ℚ) : Option ℚ :=
  match playerCurrentTimeSec with
  | none => none
  | some playhead =>
    let expectedSec := computeExpectedPlaybackTimeSec syncState nowMs
    match (resolveSeekCeilingSec bounds).filter fun ceiling =>
        decide (ceiling < expectedSec) &&
          decide (|playhead-ceiling| ≤ DEFAULT_PLAYBACK_DRIFT_THRESHOLD_SEC) with
    | some ceiling => some |playhead-ceiling|
    | none =>
      let ahead := playhead-expectedSec
      if 0 < allowAheadSec ∧ 0 ≤ ahead ∧ ahead ≤ allowAheadSec then some 0
      else some |playhead-expectedSec|

/-- The lead of a playing seek, always 0. -/
def FORCE_SEEK_LEAD_SEC : ℚ := 0

inductive DriftThreshold
  | unset
  | infinite
  | finite (sec : ℚ)
  deriving DecidableEq

structure EngineSample where
  nativeMode : Bool
  nowMs : ℚ
  playhead : Option ℚ
  bounds : MediaBounds
  rttMs : Option ℚ
  deriving DecidableEq

namespace EngineSample

def softDriftThresholdSec (sample : EngineSample) : ℚ :=
  resolvePlaybackDriftThresholdSec sample.rttMs

def measureDrift (sample : EngineSample) (syncState : PlaybackSyncState) : Option ℚ :=
  measurePlaybackDriftSec sample.playhead syncState sample.nowMs sample.bounds
    FORCE_SEEK_LEAD_SEC

/-- `activateCatchUpRate`: the rate that is written into the player. -/
def activateCatchUpRate (sample : EngineSample) (syncState : PlaybackSyncState) (driftSec : ℚ) :
    Option ℚ :=
  resolveCatchUpPlaybackRate syncState.playbackRate driftSec sample.softDriftThresholdSec

/-- A caller's own threshold, a snap, or one below the soft threshold forces the seek. -/
def forcing (sample : EngineSample) (driftThresholdSec : Option ℚ)
    (effectiveThresholdSec : DriftThreshold) : Bool :=
  driftThresholdSec.isSome ||
    match effectiveThresholdSec with
    | .finite sec => decide (sec = 0) || decide (sec < sample.softDriftThresholdSec)
    | _ => false

def applyRoomClockCatchUp (sample : EngineSample) (syncState : PlaybackSyncState) (gated : Bool)
    (driftThresholdSec : Option ℚ) (effectiveThresholdSec : DriftThreshold) : Option ℚ :=
  match sample.measureDrift syncState with
  | none => none
  | some driftSec =>
    if !sample.nativeMode && !syncState.paused && !gated &&
        !sample.forcing driftThresholdSec effectiveThresholdSec &&
        isCatchUpDriftBand driftSec sample.softDriftThresholdSec then
      sample.activateCatchUpRate syncState driftSec
    else none

/-- In `tryCatchUpOrForceSeek`, on a tick: the rate that is selected instead of a seek. -/
def tickCatchUp (sample : EngineSample) (syncState : PlaybackSyncState)
    (stallEscalates hlsEchoUnconfirmed : Bool) : Option ℚ :=
  match sample.measureDrift syncState with
  | none => none
  | some driftSec =>
    if !sample.nativeMode && stallEscalates then none
    else if !sample.nativeMode && !syncState.paused &&
        isCatchUpDriftBand driftSec sample.softDriftThresholdSec && !hlsEchoUnconfirmed then
      sample.activateCatchUpRate syncState driftSec
    else none

/-- The engine selects a rate, on one of its two paths. -/
inductive Selects (sample : EngineSample) (syncState : PlaybackSyncState) (rate : ℚ) : Prop
  | applyRoomClock (gated : Bool) (driftThresholdSec : Option ℚ)
      (effectiveThresholdSec : DriftThreshold)
      (h : sample.applyRoomClockCatchUp syncState gated driftThresholdSec effectiveThresholdSec =
        some rate)
  | tick (stallEscalates hlsEchoUnconfirmed : Bool)
      (h : sample.tickCatchUp syncState stallEscalates hlsEchoUnconfirmed = some rate)

end EngineSample

section Rate

theorem drift_threshold_le (rttMs : Option ℚ) :
    DEFAULT_PLAYBACK_DRIFT_THRESHOLD_SEC ≤ resolvePlaybackDriftThresholdSec rttMs :=
  le_max_left _ _

theorem isCatchUpDriftBand_iff {driftSec minSec : ℚ} :
    isCatchUpDriftBand driftSec minSec = true ↔
      minSec < driftSec ∧ driftSec ≤ CATCH_UP_DRIFT_MAX_SEC := by
  simp [isCatchUpDriftBand]

theorem resolveCatchUpPlaybackRate_eq_some {roomRate driftSec minSec rate : ℚ}
    (h : resolveCatchUpPlaybackRate roomRate driftSec minSec = some rate) :
    0 < roomRate ∧ minSec < driftSec ∧ rate = min (roomRate*(7/5)) 3 := by
  unfold resolveCatchUpPlaybackRate at h
  split at h
  · cases h
  · rename_i hband
    split at h
    · cases h
    · rename_i hroom
      have hpos : 0 < roomRate := not_le.mp hroom
      have hin : minSec < driftSec := (isCatchUpDriftBand_iff.mp (by simpa using hband)).1
      have hlo : roomRate*CATCH_UP_RATE_MIN_FACTOR ≤ roomRate*CATCH_UP_RATE_BOOST :=
        mul_le_mul_of_nonneg_left (by norm_num [CATCH_UP_RATE_MIN_FACTOR,CATCH_UP_RATE_BOOST])
          hpos.le
      have hhi : roomRate*CATCH_UP_RATE_BOOST ≤ roomRate*CATCH_UP_RATE_MAX_FACTOR :=
        mul_le_mul_of_nonneg_left (by norm_num [CATCH_UP_RATE_MAX_FACTOR,CATCH_UP_RATE_BOOST])
          hpos.le
      refine ⟨hpos,hin,?_⟩
      have hrate := (Option.some.inj h).symm
      rw [max_eq_right hlo,min_right_comm,min_eq_right hhi] at hrate
      exact hrate

theorem measure_eq_of_band {playhead : Option ℚ} {syncState : PlaybackSyncState} {nowMs : ℚ}
    {bounds : MediaBounds} {rttMs : Option ℚ} {driftSec : ℚ}
    (h : measurePlaybackDriftSec playhead syncState nowMs bounds FORCE_SEEK_LEAD_SEC =
      some driftSec) (hband : resolvePlaybackDriftThresholdSec rttMs < driftSec) :
    ∃ position, playhead = some position ∧
      driftSec = |position-computeExpectedPlaybackTimeSec syncState nowMs| := by
  cases playhead with
  | none => cases h
  | some position =>
    refine ⟨position,rfl,?_⟩
    simp only [measurePlaybackDriftSec] at h
    split at h
    · rename_i ceiling hceiling
      have hnear := (Option.filter_eq_some_iff.mp hceiling).2
      have hle : |position-ceiling| ≤ DEFAULT_PLAYBACK_DRIFT_THRESHOLD_SEC := by
        simpa using (Bool.and_eq_true_iff.mp hnear).2
      obtain rfl := Option.some.inj h
      exact absurd hband (not_lt.mpr (hle.trans (drift_threshold_le rttMs)))
    · rw [if_neg] at h
      · exact (Option.some.inj h).symm
      · rintro ⟨hlead,-⟩
        exact lt_irrefl 0 hlead

theorem activate_spec {sample : EngineSample} {syncState : PlaybackSyncState} {rate driftSec : ℚ}
    (hmeasure : sample.measureDrift syncState = some driftSec)
    (h : sample.activateCatchUpRate syncState driftSec = some rate) :
    ∃ position, sample.playhead = some position ∧
      DEFAULT_PLAYBACK_DRIFT_THRESHOLD_SEC <
        |position-computeExpectedPlaybackTimeSec syncState sample.nowMs| ∧
      0 < syncState.playbackRate ∧ rate = min (syncState.playbackRate*(7/5)) 3 := by
  obtain ⟨hroom,hband,hrate⟩ := resolveCatchUpPlaybackRate_eq_some h
  obtain ⟨position,hposition,rfl⟩ := measure_eq_of_band hmeasure hband
  exact ⟨position,hposition,lt_of_le_of_lt (drift_threshold_le sample.rttMs) hband,hroom,hrate⟩

/-- What is selected, on either path: the room's rate, boosted, for a playhead off the clock. -/
theorem EngineSample.Selects.spec {sample : EngineSample} {syncState : PlaybackSyncState} {rate : ℚ}
    (h : sample.Selects syncState rate) :
    ∃ position, sample.playhead = some position ∧
      DEFAULT_PLAYBACK_DRIFT_THRESHOLD_SEC <
        |position-computeExpectedPlaybackTimeSec syncState sample.nowMs| ∧
      0 < syncState.playbackRate ∧ rate = min (syncState.playbackRate*(7/5)) 3 := by
  cases h with
  | applyRoomClock gated driftThresholdSec effectiveThresholdSec h =>
    rw [applyRoomClockCatchUp] at h
    split at h
    · cases h
    · rename_i driftSec hmeasure
      split at h
      · exact activate_spec hmeasure h
      · cases h
  | tick stallEscalates hlsEchoUnconfirmed h =>
    rw [tickCatchUp] at h
    split at h
    · cases h
    · rename_i driftSec hmeasure
      split at h
      · cases h
      · split at h
        · exact activate_spec hmeasure h
        · cases h

def driftAfter (playhead expected rate roomRate elapsed : ℚ) : ℚ :=
  |playhead+rate*elapsed-(expected+roomRate*elapsed)|

/-- As long as the playhead has not met the clock the drift is no larger than at first. -/
def NeverWorse (playhead expected rate roomRate : ℚ) : Prop :=
  ∀ elapsed, 0 ≤ elapsed →
    (∀ earlier, 0 ≤ earlier → earlier < elapsed →
      driftAfter playhead expected rate roomRate earlier ≠ 0) →
    driftAfter playhead expected rate roomRate elapsed ≤
      driftAfter playhead expected rate roomRate 0

/-- A rate above the room's brings a playhead nearer only from behind. -/
theorem neverWorse_iff {playhead expected rate roomRate : ℚ} (hrate : roomRate ≤ rate)
    (hoff : playhead ≠ expected) :
    NeverWorse playhead expected rate roomRate ↔ playhead < expected ∨ rate = roomRate := by
  constructor
  · intro h
    by_contra hno
    obtain ⟨hahead,hne⟩ := not_or.mp hno
    have hfaster : roomRate < rate := lt_of_le_of_ne hrate (Ne.symm hne)
    have hfar : expected < playhead := lt_of_le_of_ne (not_lt.mp hahead) (Ne.symm hoff)
    have hpositive : ∀ elapsed, 0 ≤ elapsed → driftAfter playhead expected rate roomRate elapsed =
        playhead-expected+(rate-roomRate)*elapsed := by
      intro elapsed helapsed
      have hgain : 0 ≤ (rate-roomRate)*elapsed := mul_nonneg (by linarith) helapsed
      rw [driftAfter,abs_of_nonneg (by linarith)]
      ring
    have hworse := h 1 zero_le_one fun earlier hearlier _ => by
      rw [hpositive earlier hearlier]
      have hgain : 0 ≤ (rate-roomRate)*earlier := mul_nonneg (by linarith) hearlier
      linarith
    rw [hpositive 1 zero_le_one,hpositive 0 le_rfl] at hworse
    linarith
  · rintro (hbehind | rfl) elapsed helapsed huntil
    · rcases eq_or_lt_of_le hrate with rfl | hfaster
      · simp [driftAfter]
      · -- The playhead meets the clock at a moment that is not before `elapsed`.
        have hgap : 0 < rate-roomRate := by linarith
        have hmeet : elapsed ≤ (expected-playhead)/(rate-roomRate) := by
          by_contra hlate
          have hnonneg : 0 ≤ (expected-playhead)/(rate-roomRate) :=
            div_nonneg (by linarith) hgap.le
          refine huntil _ hnonneg (not_le.mp hlate) ?_
          have hcancel : (rate-roomRate)*((expected-playhead)/(rate-roomRate)) =
              expected-playhead := mul_div_cancel₀ _ hgap.ne'
          rw [driftAfter,abs_eq_zero]
          linarith
        have hleft : (rate-roomRate)*elapsed ≤ expected-playhead := by
          have hmul := mul_le_mul_of_nonneg_left hmeet hgap.le
          rwa [mul_div_cancel₀ _ hgap.ne'] at hmul
        have hgain : 0 ≤ (rate-roomRate)*elapsed := mul_nonneg hgap.le helapsed
        rw [driftAfter,driftAfter,abs_of_nonpos (by linarith),abs_of_nonpos (by linarith)]
        linarith
    · simp [driftAfter]

end Rate

/-- A rate that the engine selects for a drift of a playing room never makes the drift larger
exactly when the playhead is behind the room clock, or the room plays at the maximal rate. -/
theorem catch_up_never_worse {sample : EngineSample} {syncState : PlaybackSyncState} {rate : ℚ}
    (hroom : 1/4 ≤ syncState.playbackRate ∧ syncState.playbackRate ≤ 3)
    (h : sample.Selects syncState rate) :
    ∃ playhead, sample.playhead = some playhead ∧
      (NeverWorse playhead (computeExpectedPlaybackTimeSec syncState sample.nowMs) rate
          syncState.playbackRate ↔
        playhead < computeExpectedPlaybackTimeSec syncState sample.nowMs ∨
          syncState.playbackRate = 3) := by
  obtain ⟨playhead,hplayhead,hdrift,hpos,hrate⟩ := h.spec
  have hoff : playhead ≠ computeExpectedPlaybackTimeSec syncState sample.nowMs := by
    rintro rfl
    rw [sub_self,abs_zero] at hdrift
    exact absurd hdrift (by norm_num [DEFAULT_PLAYBACK_DRIFT_THRESHOLD_SEC])
  have hfaster : syncState.playbackRate ≤ rate := by
    rw [hrate]
    exact le_min (by linarith) hroom.2
  have hclamped : rate = syncState.playbackRate ↔ syncState.playbackRate = 3 := by
    constructor
    · intro hsame
      rcases le_total (syncState.playbackRate*(7/5)) 3 with hle | hle
      · rw [min_eq_left hle] at hrate
        linarith
      · rw [min_eq_right hle] at hrate
        exact hsame.symm.trans hrate
    · intro hmax
      rw [hrate,hmax]
      norm_num
  refine ⟨playhead,hplayhead,?_⟩
  rw [neverWorse_iff hfaster hoff,hclamped]

section Scenarios

def tenSecondsIn (playbackRate : ℚ) : PlaybackSyncState where
  paused := false
  playbackRate := playbackRate
  timelineAnchorMs := 0
  serverNowMs := 0

def playerAt (playhead : ℚ) : EngineSample where
  nativeMode := false
  nowMs := 10000
  playhead := some playhead
  bounds := { durationSec := some 600 }
  rttMs := some 40

theorem playerAt_selects : (playerAt 9).Selects (tenSecondsIn 1) (7/5) :=
  .tick false false (by decide +kernel)

theorem playerAhead_selects : (playerAt 11).Selects (tenSecondsIn 1) (7/5) :=
  .tick false false (by decide +kernel)

theorem catch_up_never_worse_behind : ∃ playhead, (playerAt 9).playhead = some playhead ∧
    (NeverWorse playhead (computeExpectedPlaybackTimeSec (tenSecondsIn 1) 10000) (7/5) 1 ↔
      playhead < computeExpectedPlaybackTimeSec (tenSecondsIn 1) 10000 ∨ (1 : ℚ) = 3) :=
  @catch_up_never_worse (playerAt 9) (tenSecondsIn 1) _
    ⟨by norm_num [tenSecondsIn],by norm_num [tenSecondsIn]⟩ playerAt_selects

theorem catch_up_ahead_runs_away :
    ¬∀ (sample : EngineSample) (syncState : PlaybackSyncState) (rate playhead : ℚ),
      1/4 ≤ syncState.playbackRate → syncState.playbackRate ≤ 3 →
        sample.Selects syncState rate → sample.playhead = some playhead →
          NeverWorse playhead (computeExpectedPlaybackTimeSec syncState sample.nowMs) rate
            syncState.playbackRate := by
  intro h
  have hnever := h (playerAt 11) (tenSecondsIn 1) (7/5) 11 (by norm_num [tenSecondsIn])
    (by norm_num [tenSecondsIn]) playerAhead_selects rfl
  have hexpected : computeExpectedPlaybackTimeSec (tenSecondsIn 1) 10000 = 10 := by
    decide +kernel
  rw [show (playerAt 11).nowMs = 10000 from rfl,hexpected] at hnever
  have hiff := (neverWorse_iff (by norm_num [tenSecondsIn]) (by norm_num)).mp hnever
  norm_num [tenSecondsIn] at hiff

end Scenarios

end WebSyncPlay
