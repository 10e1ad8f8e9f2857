import WebSyncPlay.CatchUp
import WebSyncPlay.NativeProviderSync
import WebSyncPlay.Library.TransitionSystem

/-! `player/playback-sync-engine.ts`: verify bursts, the watchdog, and the budget of forced seeks
that a timeline anchor has. What the player and the host answer is an input of each event, and may be
anything; timers may fire at any time. -/
namespace WebSyncPlay
namespace PlaybackSync

open Library TransitionSystem

def CATCH_UP_STALL_MIN_ADVANCE_SEC : ℚ := 3/20

def CATCH_UP_STALL_WINDOW_MS : ℚ := 800

def CATCH_UP_STALL_POST_SEEK_GRACE_MS : ℚ := 2500

def CATCH_UP_CLEAR_DRIFT_SEC : ℚ := 7/20

def ANCHOR_RETRY_DELAYS_MS : List ℚ := [200,600,1200,2400,4000,6000]

def MAX_FORCE_SEEKS_PER_ANCHOR : ℕ := 6

section Budget

structure AnchorBudget where
  anchorMs : ℚ
  count : ℕ
  deriving DecidableEq

def resetAnchorBudget (budget : AnchorBudget) (anchorMs : ℚ) : AnchorBudget :=
  if budget.anchorMs = anchorMs then budget else ⟨anchorMs,0⟩

def tryConsumeAnchorBudget (budget : AnchorBudget) (anchorMs : ℚ) (max : ℕ) : AnchorBudget × Bool :=
  let next := resetAnchorBudget budget anchorMs
  if max ≤ next.count then (next,false) else ({ next with count := next.count+1 },true)

end Budget

section Player

def finite? : Reading → Option ℚ
  | .finite sec => some sec
  | _ => none

structure MediaElement where
  currentTime : Reading
  paused : Bool
  deriving DecidableEq

structure SyncablePlayer where
  currentTime : Reading
  duration : Reading
  seekableEnd : Reading
  mediaEl : Option MediaElement
  paused : Option Bool
  deriving DecidableEq

structure Moment where
  player : SyncablePlayer
  nowMs : ℚ
  deriving DecidableEq

def readPlayerPlayheadSec (player : SyncablePlayer) : Reading :=
  match player.mediaEl with
  | some el =>
    match el.currentTime with
    | .finite sec => .finite sec
    | _ => player.currentTime
  | none => player.currentTime

def isSyncablePlayerPlaying (player : SyncablePlayer) : Bool :=
  match player.mediaEl with
  | some el => !el.paused
  | none => player.paused ≠ some true

/-- The wrapper is near the reference, the media element is far from it. -/
def isHlsWrapperMediaEcho (player : SyncablePlayer) (referenceSec : ℚ) : Bool :=
  match player.mediaEl.bind fun el => finite? el.currentTime,finite? player.currentTime with
  | some mediaSec,some wrapperSec =>
    decide (DEFAULT_PLAYBACK_DRIFT_THRESHOLD_SEC < |mediaSec-referenceSec|) &&
      decide (|wrapperSec-referenceSec| ≤ DEFAULT_PLAYBACK_DRIFT_THRESHOLD_SEC)
  | _,_ => false

def readStallMediaSec (player : SyncablePlayer) : Option ℚ :=
  match player.mediaEl with
  | some el => finite? el.currentTime
  | none => finite? (readPlayerPlayheadSec player)

end Player

section Host

structure ProviderSyncTuning where
  retryDelaysMs : Option (List ℚ)
  pauseRetryDelaysMs : Option (List ℚ)
  maxForceSeeksPerAnchor : Option ℕ
  nativeProvider : Bool
  deriving DecidableEq

structure HostReading where
  hasPlayer : Bool
  mediaReady : Bool
  playback : PlaybackSyncState
  authorityPaused : Bool
  tuning : Option ProviderSyncTuning
  durationHintSec : Option Reading
  rttMs : Option ℚ
  deriving DecidableEq

variable (host : HostReading)

def HostReading.isNativeSync : Bool := host.tuning.any ProviderSyncTuning.nativeProvider

def HostReading.isCatalogLive : Bool := host.durationHintSec = some (.infinite false)

def positiveDuration : Reading → Bool
  | .finite sec => decide (0 < sec)
  | .infinite negative => !negative
  | .nan => false

def HostReading.nativeDurationReady (player : SyncablePlayer) : Bool :=
  positiveDuration player.duration || host.durationHintSec.any positiveDuration

def HostReading.bounds (player : SyncablePlayer) : MediaBounds where
  durationSec := finite? player.duration
  seekableEndSec := finite? player.seekableEnd
  durationHintSec := host.durationHintSec.bind finite?
  isLive := host.isCatalogLive

def HostReading.softDriftThresholdSec : ℚ := resolvePlaybackDriftThresholdSec host.rttMs

def HostReading.sample (moment : Moment) : EngineSample where
  nativeMode := host.isNativeSync
  nowMs := moment.nowMs
  playhead := finite? (readPlayerPlayheadSec moment.player)
  bounds := host.bounds moment.player
  rttMs := host.rttMs

def HostReading.measureDrift (moment : Moment) (syncState : PlaybackSyncState) : Option ℚ :=
  (host.sample moment).measureDrift syncState

def HostReading.retryDelaysMs : List ℚ :=
  (host.tuning.bind ProviderSyncTuning.retryDelaysMs).getD ANCHOR_RETRY_DELAYS_MS

def HostReading.pauseRetryDelaysMs : List ℚ :=
  ((host.tuning.bind ProviderSyncTuning.pauseRetryDelaysMs).or
    (host.tuning.bind ProviderSyncTuning.retryDelaysMs)).getD ANCHOR_RETRY_DELAYS_MS

end Host

def maxForceSeeks (tuning : Option ProviderSyncTuning) : ℕ :=
  (tuning.bind ProviderSyncTuning.maxForceSeeksPerAnchor).getD MAX_FORCE_SEEKS_PER_ANCHOR

inductive EnginePhase
  | idle | applying | verifying
  deriving DecidableEq

/-- The variables of the engine and what it keeps at the host. A timer of a verify burst is known by
its anchor, one of a transport burst by the transport it wants. `snaps` counts how often a tick
applied the room clock with threshold 0 through `tryForceSeek`. -/
structure SyncEngine where
  disposed : Bool
  holdLocalSeek : Bool
  started : Bool
  phase : EnginePhase
  retryTimers : List ℚ
  pauseTimers : List Bool
  initialSnapPending : Bool
  forceSeeksForAnchor : AnchorBudget
  escalationsForAnchor : AnchorBudget
  catchUpStallSample : Option (ℚ × ℚ)
  lastSeekMs : Option ℚ
  native : NativeSyncTracker
  durationGated : Bool
  pendingSync : Option PlaybackSyncState
  lastAppliedAnchorMs : Option ℚ
  catchUpRate : Option ℚ
  snaps : ℕ
  deriving DecidableEq

def createPlaybackSyncEngine : SyncEngine where
  disposed := false
  holdLocalSeek := false
  started := false
  phase := .idle
  retryTimers := []
  pauseTimers := []
  initialSnapPending := true
  forceSeeksForAnchor := ⟨0,0⟩
  escalationsForAnchor := ⟨0,0⟩
  catchUpStallSample := none
  lastSeekMs := none
  native := {}
  durationGated := false
  pendingSync := none
  lastAppliedAnchorMs := none
  catchUpRate := none
  snaps := 0

section Steps

variable (host : HostReading) (e : SyncEngine)

def clearCatchUpRate : SyncEngine := { e with catchUpRate := none }

def resetCatchUpStallSample : SyncEngine := { e with catchUpStallSample := none }

def noteSeekAttempt (nowMs : ℚ) : SyncEngine :=
  { e with lastSeekMs := some nowMs, catchUpStallSample := none }

/-- Whether the playhead has stood still for the window, and the engine with its new sample. -/
def shouldEscalateCatchUpStall (moment : Moment) (syncState : PlaybackSyncState)
    (driftSec : ℚ) : Bool × SyncEngine :=
  if syncState.paused || decide (driftSec ≤ host.softDriftThresholdSec) then
    (false,resetCatchUpStallSample e)
  else
    match readStallMediaSec moment.player with
    | none => (false,e)
    | some mediaSec =>
      if e.lastSeekMs.any fun last => moment.nowMs-last < CATCH_UP_STALL_POST_SEEK_GRACE_MS then
        (false,resetCatchUpStallSample e)
      else
        match e.catchUpStallSample with
        | none => (false,{ e with catchUpStallSample := some (moment.nowMs,mediaSec) })
        | some (atMs,sampleSec) =>
          if moment.nowMs-atMs < CATCH_UP_STALL_WINDOW_MS then (false,e)
          else if CATCH_UP_STALL_MIN_ADVANCE_SEC ≤ mediaSec-sampleSec then
            (false,{ e with catchUpStallSample := some (moment.nowMs,mediaSec) })
          else (true,resetCatchUpStallSample e)

/-- Nothing where the drift is outside the band. -/
def activateCatchUpRate (moment : Moment) (syncState : PlaybackSyncState) (driftSec : ℚ) :
    Option SyncEngine :=
  ((host.sample moment).activateCatchUpRate syncState driftSec).map fun rate =>
    { e with catchUpRate := some rate }

def scheduleTransportBurst (paused : Bool) : SyncEngine :=
  if !paused && host.authorityPaused then e
  else { e with pauseTimers := host.pauseRetryDelaysMs.map fun _ => paused }

def settleNativePause (moment : Moment) : Bool × SyncEngine :=
  let settled := e.native.samplePauseQuiescence (readPlayerPlayheadSec moment.player)
    (moment.player.paused = some false) moment.nowMs
  (settled.1,{ e with native := settled.2 })

def scheduleAnchorVerifyBurst (anchorMs : ℚ) : SyncEngine :=
  let e := { e with
    retryTimers := []
    forceSeeksForAnchor := resetAnchorBudget e.forceSeeksForAnchor anchorMs
    escalationsForAnchor := resetAnchorBudget e.escalationsForAnchor anchorMs }
  if e.holdLocalSeek then e
  else { e with
    phase := if e.phase = .applying then .applying else .verifying
    retryTimers := host.retryDelaysMs.map fun _ => anchorMs }

end Steps

section Apply

/-- The looks at the player during one `applyRoomClock`: before, after the clock was written, at the
measurement, after the escalation of a paused seek (with the time it was noted at), at the transport
and after its nudge; and whether a read of the player throws. -/
structure ApplyReading where
  before : Moment
  seeked : SyncablePlayer
  settled : Moment
  escalatedMs : ℚ
  escalated : Moment
  transport : SyncablePlayer
  nudged : Moment
  throws : Bool
  deriving DecidableEq

variable (host : HostReading) (e : SyncEngine)

/-- What the gate and the late-join snap make of a call. -/
structure ApplyStart where
  engine : SyncEngine
  gated : Bool
  reapplyAfterGate : Bool
  isInitialSnap : Bool
  thresholdSec : DriftThreshold

/-- The threshold that the caller names, else 0 for a snap. -/
def callThreshold (driftThresholdSec : Option ℚ) (snap : Bool) : DriftThreshold :=
  match driftThresholdSec with
  | some sec => .finite sec
  | none => if snap then .finite 0 else .unset

def startApply (before : Moment) (syncState : PlaybackSyncState) (driftThresholdSec : Option ℚ) :
    ApplyStart :=
  let nativeMode := host.isNativeSync
  let gated := nativeMode && !host.nativeDurationReady before.player
  let durationGated := gated || e.durationGated
  let reapplyAfterGate := nativeMode && !gated && durationGated
  let e := { e with durationGated := durationGated && !reapplyAfterGate }
  let isInitialSnap := !gated && e.initialSnapPending && host.mediaReady
  let thresholdSec := callThreshold driftThresholdSec (isInitialSnap || reapplyAfterGate)
  if gated then ⟨e,gated,reapplyAfterGate,isInitialSnap,.infinite⟩
  else if nativeMode && syncState.paused && thresholdSec = .unset then
    let claim := e.native.claimPauseSeek (syncState.timelineAnchorMs,syncState.serverNowMs)
    ⟨{ e with native := claim.2 },gated,reapplyAfterGate,isInitialSnap,
      if claim.1 then .finite 0 else .unset⟩
  else ⟨e,gated,reapplyAfterGate,isInitialSnap,thresholdSec⟩

def shouldSeekConfirm (syncState : PlaybackSyncState) : Bool :=
  host.isNativeSync || !syncState.paused

def authoritySec (moment : Moment) (syncState : PlaybackSyncState) : ℚ :=
  let expectedSec := computeExpectedPlaybackTimeSec syncState moment.nowMs
  match resolveSeekCeilingSec (host.bounds moment.player) with
  | some ceiling => min expectedSec ceiling
  | none => expectedSec

/-- Whether `applyPlaybackClockToPlayer` writes the position. -/
def clockSeeks (before : Moment) (syncState : PlaybackSyncState) (thresholdSec : DriftThreshold) :
    Bool :=
  match finite? (readPlayerPlayheadSec before.player) with
  | none => false
  | some playheadSec =>
    match thresholdSec with
    | .unset => decide (DEFAULT_PLAYBACK_DRIFT_THRESHOLD_SEC <
        |playheadSec-authoritySec host before syncState|)
    | .infinite => false
    | .finite sec => decide (sec < |playheadSec-authoritySec host before syncState|)

/-- An outstanding probe near the clock is not forced again. -/
def awaitsProbe (start : ApplyStart) (before : Moment) (syncState : PlaybackSyncState)
    (driftThresholdSec : Option ℚ) : Bool :=
  shouldSeekConfirm host syncState && start.engine.native.probe.isSome &&
    driftThresholdSec.isNone && decide (start.thresholdSec = .finite 0) &&
    (host.measureDrift before syncState).any fun drift => drift ≤ host.softDriftThresholdSec

def catchesUpInstead (start : ApplyStart) (before : Moment) (syncState : PlaybackSyncState)
    (driftThresholdSec : Option ℚ) (thresholdSec : DriftThreshold) : Bool :=
  !host.isNativeSync && !syncState.paused && !start.gated &&
    !(host.sample before).forcing driftThresholdSec thresholdSec &&
    (host.measureDrift before syncState).any fun drift =>
      isCatchUpDriftBand drift host.softDriftThresholdSec

/-- The probe of a written seek, or the verdict on the outstanding one. -/
def confirmSeek (gated seekAttempted : Bool) (r : ApplyReading) (syncState : PlaybackSyncState) :
    Bool × SyncEngine :=
  if shouldSeekConfirm host syncState && !gated then
    if seekAttempted then
      (true,{ e with native := e.native.noteSeek {
        anchorMs := syncState.timelineAnchorMs
        fromSec := readPlayerPlayheadSec r.before.player
        targetSec := .finite (authoritySec host r.before syncState)
        nowMs := r.before.nowMs } })
    else if e.native.probe.isSome then
      let verdict := e.native.evaluateSeek {
        anchorMs := syncState.timelineAnchorMs
        currentSec := readPlayerPlayheadSec r.seeked
        driftSec := host.measureDrift ⟨r.seeked,r.before.nowMs⟩ syncState
        thresholdSec := host.softDriftThresholdSec
        roomPaused := syncState.paused
        nowMs := r.before.nowMs }
      (verdict.1 = .pending,{ e with native := verdict.2 })
    else (false,e)
  else (false,e)

/-- Whether a paused player ignored the written position. -/
def ignoredSeek (seekAttempted : Bool) (r : ApplyReading) (syncState : PlaybackSyncState) : Bool :=
  !host.isNativeSync && syncState.paused && seekAttempted &&
    ((r.seeked.mediaEl.bind fun el => finite? el.currentTime).any fun mediaSec =>
      decide (host.softDriftThresholdSec < |mediaSec-authoritySec host r.before syncState|)) &&
    (host.measureDrift r.settled syncState).any fun drift =>
      decide (host.softDriftThresholdSec < drift)

/-- The muted play and seek of a paused player; also the player and the drift as they are then. -/
def escalatePausedSeek (seekAttempted : Bool) (r : ApplyReading) (syncState : PlaybackSyncState) :
    SyncEngine × SyncablePlayer × Option ℚ :=
  if ignoredSeek host seekAttempted r syncState then
    let consumed := tryConsumeAnchorBudget e.escalationsForAnchor syncState.timelineAnchorMs
      (maxForceSeeks host.tuning)
    let e := { e with escalationsForAnchor := consumed.1 }
    if consumed.2 then
      (noteSeekAttempt e r.escalatedMs,r.escalated.player,host.measureDrift r.escalated syncState)
    else (e,r.seeked,host.measureDrift r.settled syncState)
  else (e,r.seeked,host.measureDrift r.settled syncState)

def applyTransport (transport : SyncablePlayer) (syncState : PlaybackSyncState) : SyncEngine :=
  if !syncState.paused && !isSyncablePlayerPlaying transport then
    scheduleTransportBurst host { e with native := e.native.resetPauseSamples } false
  else if syncState.paused then scheduleTransportBurst host e true
  else { e with pauseTimers := [], native := e.native.resetPauseSamples }

def applyCatchUp (catchUpInstead : Bool) (moment : Moment) (syncState : PlaybackSyncState)
    (driftSec : Option ℚ) : SyncEngine :=
  if host.isNativeSync || syncState.paused || e.holdLocalSeek then
    resetCatchUpStallSample (clearCatchUpRate e)
  else
    match driftSec with
    | none =>
      if e.catchUpRate.isSome then resetCatchUpStallSample (clearCatchUpRate e) else e
    | some drift =>
      if drift ≤ CATCH_UP_CLEAR_DRIFT_SEC then resetCatchUpStallSample (clearCatchUpRate e)
      else if catchUpInstead && isCatchUpDriftBand drift host.softDriftThresholdSec then
        (activateCatchUpRate host e moment syncState drift).getD e
      else if e.catchUpRate.isSome && decide (CATCH_UP_DRIFT_MAX_SEC < drift) then
        resetCatchUpStallSample (clearCatchUpRate e)
      else e

/-- What is left unconverged, and the pause sample of a native provider. -/
def stillDrifting (gated unconfirmed : Bool) (r : ApplyReading) (syncState : PlaybackSyncState)
    (driftSec : Option ℚ) : Bool × SyncEngine :=
  let settled :=
    if host.isNativeSync && !gated && syncState.paused then settleNativePause e r.nudged
    else (true,e)
  let playing := isSyncablePlayerPlaying r.nudged.player
  (gated || unconfirmed || (driftSec.all fun drift => decide (host.softDriftThresholdSec < drift)) ||
    (syncState.paused && playing) || !settled.1 || (!syncState.paused && !playing),settled.2)

/-- A written position counts as a seek attempt for the stall probe. -/
def noteApplied (gated seekAttempted : Bool) (r : ApplyReading) (syncState : PlaybackSyncState) :
    SyncEngine :=
  let e := if gated then e else { e with lastAppliedAnchorMs := some syncState.timelineAnchorMs }
  if seekAttempted then noteSeekAttempt e r.before.nowMs else e

/-- The late-join snap is over once the player is ready and nothing drifts. -/
def holdPending (gated drifting : Bool) (syncState : PlaybackSyncState) : SyncEngine :=
  { e with
    initialSnapPending := e.initialSnapPending && (drifting || gated || !host.mediaReady)
    pendingSync := if drifting then some syncState else none
    phase := if drifting then .verifying else .idle }

/-- `applyRoomClock`. The rate it writes into the player is not read back. -/
def applyRoomClock (r : ApplyReading) (syncState : PlaybackSyncState)
    (driftThresholdSec : Option ℚ) : SyncEngine :=
  if e.disposed then e
  else
    let start := startApply host e r.before syncState driftThresholdSec
    let e := { start.engine with phase := .applying }
    if r.throws then { e with pendingSync := some syncState, phase := .verifying }
    else
      let thresholdSec :=
        if awaitsProbe host start r.before syncState driftThresholdSec then .infinite
        else start.thresholdSec
      let catchUpInstead :=
        catchesUpInstead host start r.before syncState driftThresholdSec thresholdSec
      let thresholdSec := if catchUpInstead then .infinite else thresholdSec
      let seekAttempted := clockSeeks host r.before syncState thresholdSec
      let e := noteApplied e start.gated seekAttempted r syncState
      let confirm := confirmSeek host e start.gated seekAttempted r syncState
      let escalation := escalatePausedSeek host confirm.2 seekAttempted r syncState
      let driftSec := escalation.2.2
      let hlsSeekEchoUnconfirmed := !host.isNativeSync && seekAttempted &&
        isHlsWrapperMediaEcho escalation.2.1 (authoritySec host r.before syncState)
      let e := applyTransport host escalation.1 r.transport syncState
      let drifting :=
        stillDrifting host e start.gated (confirm.1 || hlsSeekEchoUnconfirmed) r syncState driftSec
      let e := holdPending host drifting.2 start.gated drifting.1 syncState
      let e := applyCatchUp host e catchUpInstead r.settled syncState driftSec
      if drifting.1 && !e.holdLocalSeek && e.retryTimers.isEmpty &&
          (start.isInitialSnap || start.reapplyAfterGate || hlsSeekEchoUnconfirmed ||
            seekAttempted || driftSec.any fun drift =>
              decide (host.softDriftThresholdSec < drift)) then
        scheduleAnchorVerifyBurst host e host.playback.timelineAnchorMs
      else e

end Apply

section Ticks

/-- The looks at the player during one tick: at the drift, at its transport after a pause, at the
seek probe, at the stall, at the echo, and those of the apply. -/
structure TickReading where
  sampled : Moment
  transport : SyncablePlayer
  held : Moment
  stall : Moment
  echo : Moment
  apply : ApplyReading
  deriving DecidableEq

variable (host : HostReading) (e : SyncEngine)

/-- A forced seek of another anchor starts with fresh budgets. -/
def enterAnchor (anchorMs : ℚ) : SyncEngine :=
  if e.forceSeeksForAnchor.anchorMs = anchorMs then e
  else { e with forceSeeksForAnchor := ⟨anchorMs,0⟩, escalationsForAnchor := ⟨anchorMs,0⟩ }

/-- The budgets and the threshold of a forced seek, and whether that is a snap. -/
def tryForceSeek (r : ApplyReading) (syncState : PlaybackSyncState) (anchorMs : ℚ)
    (thresholdSec : Option ℚ) : SyncEngine :=
  let e := enterAnchor e anchorMs
  let consumed := tryConsumeAnchorBudget e.forceSeeksForAnchor anchorMs (maxForceSeeks host.tuning)
  let e := { e with forceSeeksForAnchor := consumed.1 }
  let threshold :=
    thresholdSec.getD
      (if consumed.2 && (decide (consumed.1.count = 1) || host.isNativeSync) then 0
      else host.softDriftThresholdSec)
  applyRoomClock host { e with snaps := if threshold = 0 then e.snaps+1 else e.snaps } r syncState
    (some threshold)

/-- The native duration gate of a tick; nothing where the tick goes on. -/
def gateNativeTick (r : TickReading) (syncState : PlaybackSyncState) : Option SyncEngine :=
  if !host.nativeDurationReady r.sampled.player then
    some { e with durationGated := true, pendingSync := some syncState, phase := .verifying }
  else if e.durationGated then some (applyRoomClock host e r.apply syncState none)
  else none

def seekConfirmShouldHold (moment : Moment) (syncState : PlaybackSyncState)
    (driftSec : Option ℚ) : Bool × SyncEngine :=
  let verdict := e.native.evaluateSeek {
    anchorMs := syncState.timelineAnchorMs
    currentSec := readPlayerPlayheadSec moment.player
    driftSec
    thresholdSec := host.softDriftThresholdSec
    roomPaused := syncState.paused
    nowMs := moment.nowMs }
  let e := { e with native := verdict.2 }
  if verdict.1 = .pending then (true,e)
  else if syncState.paused then
    let settled := settleNativePause e moment
    (!settled.1,settled.2)
  else (false,e)

def hlsEchoUnconfirmed (moment : Moment) (syncState : PlaybackSyncState) : Bool :=
  !host.isNativeSync && isHlsWrapperMediaEcho moment.player
    (computeExpectedPlaybackTimeSec syncState moment.nowMs)

def tryCatchUpOrForceSeek (r : TickReading) (syncState : PlaybackSyncState) (driftSec anchorMs : ℚ) :
    SyncEngine :=
  let stall :=
    if host.isNativeSync then (false,e)
    else shouldEscalateCatchUpStall host e r.stall syncState driftSec
  let e := stall.2
  if stall.1 then tryForceSeek host (clearCatchUpRate e) r.apply syncState anchorMs (some 0)
  else if !host.isNativeSync && !syncState.paused &&
      isCatchUpDriftBand driftSec host.softDriftThresholdSec &&
      !hlsEchoUnconfirmed host r.echo syncState then
    match activateCatchUpRate host e r.echo syncState driftSec with
    | some e => { e with pendingSync := some syncState, phase := .verifying }
    | none => tryForceSeek host e r.apply syncState anchorMs none
  else tryForceSeek host e r.apply syncState anchorMs none

/-- What a tick samples: drift, whether the transport is unconverged, and the seek hold. -/
structure TickSample where
  engine : SyncEngine
  driftSec : Option ℚ
  transportUnconverged : Bool
  seekConfirmHold : Bool

def sampleTickConvergence (r : TickReading) (syncState : PlaybackSyncState) : TickSample :=
  let driftSec := host.measureDrift r.sampled syncState
  let pauseUnconverged := host.authorityPaused && isSyncablePlayerPlaying r.sampled.player
  let playUnconverged := !host.authorityPaused && !isSyncablePlayerPlaying r.transport
  let hold :=
    if shouldSeekConfirm host syncState then seekConfirmShouldHold host e r.held syncState driftSec
    else (false,e)
  ⟨hold.2,driftSec,pauseUnconverged || playUnconverged,hold.1⟩

def clearPendingWhenConverged (driftSec : Option ℚ) : SyncEngine :=
  let e := { e with initialSnapPending := false, pendingSync := none }
  if driftSec.all fun drift => drift ≤ CATCH_UP_CLEAR_DRIFT_SEC then
    resetCatchUpStallSample (clearCatchUpRate e)
  else e

inductive TickPlan
  | done (e : SyncEngine)
  | correct (e : SyncEngine) (syncState : PlaybackSyncState) (driftSec : ℚ)

/-- `runVerifyTick` up to the correction. -/
def planVerifyTick (r : TickReading) (anchorAtSchedule : ℚ) : TickPlan :=
  if e.disposed || e.holdLocalSeek || !host.mediaReady || !host.hasPlayer then .done e
  else if host.playback.timelineAnchorMs ≠ anchorAtSchedule then .done e
  else
    let syncState := host.playback
    match if host.isNativeSync then gateNativeTick host e r syncState else none with
    | some e => .done e
    | none =>
      let sample := sampleTickConvergence host e r syncState
      match sample.driftSec.filter fun drift => host.softDriftThresholdSec < drift with
      | some drift => .correct { sample.engine with phase := .verifying } syncState drift
      | none =>
        if sample.transportUnconverged || sample.seekConfirmHold then
          .done { sample.engine with phase := .verifying, pendingSync := some syncState }
        else .done { clearPendingWhenConverged sample.engine sample.driftSec with phase := .idle }

/-- `runWatchdogTick` up to the correction; its plan is null, clear or apply by the drift. -/
def planWatchdogTick (r : TickReading) : TickPlan :=
  if e.disposed || e.holdLocalSeek || !host.mediaReady || !host.hasPlayer then .done e
  else
    let syncState := e.pendingSync.getD host.playback
    match if host.isNativeSync then gateNativeTick host e r syncState else none with
    | some e => .done e
    | none =>
      let sample := sampleTickConvergence host e r syncState
      match sample.driftSec with
      | none => .done sample.engine
      | some drift =>
        if host.softDriftThresholdSec < drift then
          .correct { sample.engine with phase := .verifying } syncState drift
        else if sample.transportUnconverged || sample.seekConfirmHold then
          .done { sample.engine with pendingSync := some syncState }
        else
          let e := clearPendingWhenConverged sample.engine (some drift)
          .done { e with phase := if e.phase = .verifying then .idle else e.phase }

def runTick (r : TickReading) (anchorMs : ℚ) : TickPlan → SyncEngine
  | .done e => e
  | .correct e syncState driftSec => tryCatchUpOrForceSeek host e r syncState driftSec anchorMs

def runVerifyTick (r : TickReading) (anchorAtSchedule : ℚ) : SyncEngine :=
  runTick host r anchorAtSchedule (planVerifyTick host e r anchorAtSchedule)

def runWatchdogTick (r : TickReading) : SyncEngine :=
  runTick host r host.playback.timelineAnchorMs (planWatchdogTick host e r)

def runTransportTimer (moment : Moment) (paused : Bool) : SyncEngine :=
  if e.disposed then e
  else if paused && host.authorityPaused && host.hasPlayer && host.isNativeSync then
    (settleNativePause e moment).2
  else e

def setHoldLocalSeek (hold : Bool) : SyncEngine :=
  let e := { e with holdLocalSeek := hold }
  if hold then clearCatchUpRate { e with retryTimers := [] }
  else
    scheduleAnchorVerifyBurst host
      { e with phase := if e.pendingSync.isSome then .verifying else .idle }
      host.playback.timelineAnchorMs

def onDurationAvailable (r : ApplyReading) : SyncEngine :=
  if e.disposed || e.holdLocalSeek || !host.isNativeSync || !host.mediaReady || !host.hasPlayer ||
      !host.nativeDurationReady r.before.player || !e.durationGated then e
  else
    scheduleAnchorVerifyBurst host (applyRoomClock host e r host.playback none)
      host.playback.timelineAnchorMs

def start : SyncEngine := { e with disposed := false, started := true }

def dispose : SyncEngine :=
  { e with
    disposed := true
    retryTimers := []
    pauseTimers := []
    catchUpRate := none
    catchUpStallSample := none
    lastSeekMs := none
    initialSnapPending := true
    durationGated := false
    native := {}
    started := false
    phase := .idle }

end Ticks

section Runs

/-- What happens to an engine: a timer fires, or the player's hook or the host calls. -/
inductive SyncEvent
  | verify (host : HostReading) (r : TickReading) (anchorAtSchedule : ℚ)
  | watchdog (host : HostReading) (r : TickReading)
  | transport (host : HostReading) (moment : Moment) (paused : Bool)
  | onAuthorityAnchor (host : HostReading) (anchorMs : ℚ)
  | setHoldLocalSeek (host : HostReading) (hold : Bool)
  | applyRoomClock (host : HostReading) (r : ApplyReading) (syncState : PlaybackSyncState)
      (driftThresholdSec : Option ℚ)
  | onDurationAvailable (host : HostReading) (r : ApplyReading)
  | setPendingSync (next : Option PlaybackSyncState)
  | setCatchUpRate (next : Option ℚ)
  | clearTransportNudge
  | start
  | dispose
  deriving DecidableEq

def step (e : SyncEngine) : SyncEvent → Option SyncEngine
  | .verify host r anchorAtSchedule =>
    if anchorAtSchedule ∈ e.retryTimers then
      some (runVerifyTick host { e with retryTimers := e.retryTimers.erase anchorAtSchedule } r
        anchorAtSchedule)
    else none
  | .watchdog host r => if e.started then some (runWatchdogTick host e r) else none
  | .transport host moment paused =>
    if paused ∈ e.pauseTimers then
      some (runTransportTimer host { e with pauseTimers := e.pauseTimers.erase paused } moment paused)
    else none
  | .onAuthorityAnchor host anchorMs => some (scheduleAnchorVerifyBurst host e anchorMs)
  | .setHoldLocalSeek host hold => some (PlaybackSync.setHoldLocalSeek host e hold)
  | .applyRoomClock host r syncState driftThresholdSec =>
    some (PlaybackSync.applyRoomClock host e r syncState driftThresholdSec)
  | .onDurationAvailable host r => some (PlaybackSync.onDurationAvailable host e r)
  | .setPendingSync next => some { e with pendingSync := next }
  | .setCatchUpRate next => some { e with catchUpRate := next }
  | .clearTransportNudge => some { e with pauseTimers := [] }
  | .start => some (PlaybackSync.start e)
  | .dispose => some (PlaybackSync.dispose e)

/-- The host of an event has this anchor and tuning, and no other anchor is announced. -/
def KeepsAnchor (anchorMs : ℚ) (tuning : Option ProviderSyncTuning) : SyncEvent → Prop
  | .verify host _ _ => host.playback.timelineAnchorMs = anchorMs ∧ host.tuning = tuning
  | .watchdog host _ => host.playback.timelineAnchorMs = anchorMs ∧ host.tuning = tuning
  | .transport host _ _ => host.playback.timelineAnchorMs = anchorMs ∧ host.tuning = tuning
  | .onAuthorityAnchor host announced =>
    (host.playback.timelineAnchorMs = anchorMs ∧ host.tuning = tuning) ∧ announced = anchorMs
  | .setHoldLocalSeek host _ => host.playback.timelineAnchorMs = anchorMs ∧ host.tuning = tuning
  | .applyRoomClock host _ _ _ => host.playback.timelineAnchorMs = anchorMs ∧ host.tuning = tuning
  | .onDurationAvailable host _ => host.playback.timelineAnchorMs = anchorMs ∧ host.tuning = tuning
  | .setPendingSync _ => True
  | .setCatchUpRate _ => True
  | .clearTransportNudge => True
  | .start => True
  | .dispose => True

/-- The engine from some moment on, the anchor and the tuning staying the same; snaps are counted
from that moment. -/
def syncSystem (anchorMs : ℚ) (tuning : Option ProviderSyncTuning) :
    TransitionSystem SyncEngine SyncEvent where
  init e := e.snaps = 0
  step e event e' := KeepsAnchor anchorMs tuning event ∧ step e event = some e'

/-- The force seeks that the budget of an anchor has counted. -/
def spent (e : SyncEngine) (anchorMs : ℚ) : ℕ :=
  if e.forceSeeksForAnchor.anchorMs = anchorMs then e.forceSeeksForAnchor.count else 0

/-- The correction of a planned tick escalates a stall although the budget is spent. -/
def escalatesSpent (host : HostReading) (r : TickReading) (anchorMs : ℚ) : TickPlan → Bool
  | .done _ => false
  | .correct e syncState driftSec =>
    !host.isNativeSync && (shouldEscalateCatchUpStall host e r.stall syncState driftSec).1 &&
      decide (maxForceSeeks host.tuning ≤ spent e anchorMs)

/-- No tick escalates a stall once the budget of the anchor is spent. -/
def WithinBudget (e : SyncEngine) : SyncEvent → Prop
  | .verify host r anchorAtSchedule =>
    escalatesSpent host r anchorAtSchedule
      (planVerifyTick host { e with retryTimers := e.retryTimers.erase anchorAtSchedule } r
        anchorAtSchedule) = false
  | .watchdog host r =>
    escalatesSpent host r host.playback.timelineAnchorMs (planWatchdogTick host e r) = false
  | _ => True

end Runs

section Budgets

/-- Neither the budget of forced seeks nor the count of snaps changes. -/
structure Kept (e e' : SyncEngine) : Prop where
  snaps : e'.snaps = e.snaps
  budget : e'.forceSeeksForAnchor = e.forceSeeksForAnchor

/-- The same up to a reset of the budget to the anchor. -/
structure SameBudget (anchorMs : ℚ) (e e' : SyncEngine) : Prop where
  snaps : e'.snaps = e.snaps
  spent : spent e' anchorMs = PlaybackSync.spent e anchorMs

variable {host : HostReading} {e e' e'' : SyncEngine} {anchorMs : ℚ} {syncState : PlaybackSyncState}

theorem Kept.trans (h : Kept e e') (h' : Kept e' e'') : Kept e e'' :=
  ⟨h'.snaps.trans h.snaps,h'.budget.trans h.budget⟩

theorem Kept.sameBudget (h : Kept e e') : SameBudget anchorMs e e' :=
  ⟨h.snaps,by rw [spent,spent,h.budget]⟩

theorem Kept.sameBudget_of (h : Kept e e') (hsnaps : e''.snaps = e'.snaps)
    (hbudget : e''.forceSeeksForAnchor = e'.forceSeeksForAnchor) : SameBudget anchorMs e e'' :=
  (h.trans ⟨hsnaps,hbudget⟩).sameBudget

theorem SameBudget.trans (h : SameBudget anchorMs e e') (h' : SameBudget anchorMs e' e'') :
    SameBudget anchorMs e e'' :=
  ⟨h'.snaps.trans h.snaps,h'.spent.trans h.spent⟩

theorem count_resetAnchorBudget (budget : AnchorBudget) (anchorMs : ℚ) :
    (resetAnchorBudget budget anchorMs).count =
      if budget.anchorMs = anchorMs then budget.count else 0 := by
  rw [resetAnchorBudget]
  split
  · rfl
  · rfl

theorem anchorMs_resetAnchorBudget (budget : AnchorBudget) (anchorMs : ℚ) :
    (resetAnchorBudget budget anchorMs).anchorMs = anchorMs := by
  rw [resetAnchorBudget]
  split
  · assumption
  · rfl

theorem sameBudget_burst (host : HostReading) (e : SyncEngine) (anchorMs : ℚ) :
    SameBudget anchorMs e (scheduleAnchorVerifyBurst host e anchorMs) := by
  have hspent : ∀ e' : SyncEngine, e'.forceSeeksForAnchor =
      resetAnchorBudget e.forceSeeksForAnchor anchorMs → spent e' anchorMs = spent e anchorMs := by
    intro e' he'
    rw [spent,he',if_pos (anchorMs_resetAnchorBudget _ _),count_resetAnchorBudget,spent]
  rw [scheduleAnchorVerifyBurst]
  dsimp only
  split
  · exact ⟨rfl,hspent _ rfl⟩
  · exact ⟨rfl,hspent _ rfl⟩

theorem kept_startApply (before : Moment) (driftThresholdSec : Option ℚ) :
    Kept e (startApply host e before syncState driftThresholdSec).engine := by
  unfold startApply
  dsimp only
  split
  · exact ⟨rfl,rfl⟩
  · split
    · exact ⟨rfl,rfl⟩
    · exact ⟨rfl,rfl⟩

theorem kept_confirmSeek (gated seekAttempted : Bool) (r : ApplyReading) :
    Kept e (confirmSeek host e gated seekAttempted r syncState).2 := by
  rw [confirmSeek]
  split_ifs
  · exact ⟨rfl,rfl⟩
  · exact ⟨rfl,rfl⟩
  · exact ⟨rfl,rfl⟩
  · exact ⟨rfl,rfl⟩

theorem kept_escalatePausedSeek (seekAttempted : Bool) (r : ApplyReading) :
    Kept e (escalatePausedSeek host e seekAttempted r syncState).1 := by
  rw [escalatePausedSeek]
  split
  · dsimp only
    split
    · exact ⟨rfl,rfl⟩
    · exact ⟨rfl,rfl⟩
  · exact ⟨rfl,rfl⟩

theorem kept_scheduleTransportBurst (paused : Bool) :
    Kept e (scheduleTransportBurst host e paused) := by
  rw [scheduleTransportBurst]
  split
  · exact ⟨rfl,rfl⟩
  · exact ⟨rfl,rfl⟩

theorem kept_applyTransport (transport : SyncablePlayer) :
    Kept e (applyTransport host e transport syncState) := by
  rw [applyTransport]
  split
  · have hburst : Kept { e with native := e.native.resetPauseSamples }
        (scheduleTransportBurst host { e with native := e.native.resetPauseSamples } false) :=
      kept_scheduleTransportBurst false
    exact ⟨hburst.snaps,hburst.budget⟩
  · split
    · exact kept_scheduleTransportBurst true
    · exact ⟨rfl,rfl⟩

theorem kept_stillDrifting (gated unconfirmed : Bool) (r : ApplyReading) (driftSec : Option ℚ) :
    Kept e (stillDrifting host e gated unconfirmed r syncState driftSec).2 := by
  rw [stillDrifting]
  dsimp only
  split
  · exact ⟨rfl,rfl⟩
  · exact ⟨rfl,rfl⟩

theorem kept_activateCatchUpRate {moment : Moment} {driftSec : ℚ}
    (h : activateCatchUpRate host e moment syncState driftSec = some e') : Kept e e' := by
  obtain ⟨rate,-,rfl⟩ := Option.map_eq_some_iff.mp h
  exact ⟨rfl,rfl⟩

theorem kept_applyCatchUp (catchUpInstead : Bool) (moment : Moment) (driftSec : Option ℚ) :
    Kept e (applyCatchUp host e catchUpInstead moment syncState driftSec) := by
  unfold applyCatchUp
  split
  · exact ⟨rfl,rfl⟩
  · split
    · split
      · exact ⟨rfl,rfl⟩
      · exact ⟨rfl,rfl⟩
    · rename_i drift
      split
      · exact ⟨rfl,rfl⟩
      · split
        · cases hrate : activateCatchUpRate host e moment syncState drift with
          | none => exact ⟨rfl,rfl⟩
          | some e' => exact kept_activateCatchUpRate hrate
        · split
          · exact ⟨rfl,rfl⟩
          · exact ⟨rfl,rfl⟩

theorem kept_noteApplied (gated seekAttempted : Bool) (r : ApplyReading) :
    Kept e (noteApplied e gated seekAttempted r syncState) := by
  unfold noteApplied
  dsimp only
  split_ifs
  · exact ⟨rfl,rfl⟩
  · exact ⟨rfl,rfl⟩
  · exact ⟨rfl,rfl⟩
  · exact ⟨rfl,rfl⟩

theorem sameBudget_applyRoomClock (host : HostReading) (e : SyncEngine) (r : ApplyReading)
    (syncState : PlaybackSyncState) (driftThresholdSec : Option ℚ) :
    SameBudget host.playback.timelineAnchorMs e
      (applyRoomClock host e r syncState driftThresholdSec) := by
  have hstart : Kept e (startApply host e r.before syncState driftThresholdSec).engine :=
    kept_startApply r.before driftThresholdSec
  unfold applyRoomClock
  split
  · exact ⟨rfl,rfl⟩
  dsimp only
  split
  · exact SameBudget.trans hstart.sameBudget ⟨rfl,rfl⟩
  · generalize clockSeeks host r.before syncState _ = seekAttempted
    generalize catchesUpInstead host _ r.before syncState driftThresholdSec _ = catchUpInstead
    set began : SyncEngine :=
      { (startApply host e r.before syncState driftThresholdSec).engine with phase := .applying }
    have hbegan : Kept e began := ⟨hstart.snaps,hstart.budget⟩
    set gated := (startApply host e r.before syncState driftThresholdSec).gated
    set noted := noteApplied began gated seekAttempted r syncState
    have hnoted : Kept began noted := kept_noteApplied gated seekAttempted r
    set confirm := confirmSeek host noted gated seekAttempted r syncState
    have hconfirm : Kept noted confirm.2 := kept_confirmSeek gated seekAttempted r
    set escalation := escalatePausedSeek host confirm.2 seekAttempted r syncState
    have hescalated : Kept confirm.2 escalation.1 := kept_escalatePausedSeek seekAttempted r
    set transported := applyTransport host escalation.1 r.transport syncState
    have htransported : Kept escalation.1 transported := kept_applyTransport r.transport
    set drifting := stillDrifting host transported gated _ r syncState escalation.2.2
    have hdrifting : Kept transported drifting.2 := kept_stillDrifting gated _ r _
    set held := holdPending host drifting.2 gated drifting.1 syncState
    have hheld : Kept drifting.2 held := ⟨rfl,rfl⟩
    set rated := applyCatchUp host held catchUpInstead r.settled syncState escalation.2.2
    have hrated : Kept held rated := kept_applyCatchUp catchUpInstead r.settled _
    have hall : Kept e rated :=
      ((((((hbegan.trans hnoted).trans hconfirm).trans hescalated).trans htransported).trans
        hdrifting).trans hheld).trans hrated
    split
    · exact hall.sameBudget.trans (sameBudget_burst host rated _)
    · exact hall.sameBudget

end Budgets

section Ticks

variable {host : HostReading} {e e' : SyncEngine} {anchorMs : ℚ} {syncState : PlaybackSyncState}

def PlanKeeps (anchorMs : ℚ) (e : SyncEngine) : TickPlan → Prop
  | .done e' => SameBudget anchorMs e e'
  | .correct e' _ _ => Kept e e'

theorem kept_stall (moment : Moment) (driftSec : ℚ) :
    Kept e (shouldEscalateCatchUpStall host e moment syncState driftSec).2 := by
  rw [shouldEscalateCatchUpStall]
  split
  · exact ⟨rfl,rfl⟩
  · split
    · exact ⟨rfl,rfl⟩
    · split
      · exact ⟨rfl,rfl⟩
      · split
        · exact ⟨rfl,rfl⟩
        · split_ifs
          · exact ⟨rfl,rfl⟩
          · exact ⟨rfl,rfl⟩
          · exact ⟨rfl,rfl⟩

theorem kept_seekConfirm (moment : Moment) (driftSec : Option ℚ) :
    Kept e (seekConfirmShouldHold host e moment syncState driftSec).2 := by
  rw [seekConfirmShouldHold]
  dsimp only
  split_ifs
  · exact ⟨rfl,rfl⟩
  · exact ⟨rfl,rfl⟩
  · exact ⟨rfl,rfl⟩

theorem kept_sample (r : TickReading) :
    Kept e (sampleTickConvergence host e r syncState).engine := by
  rw [sampleTickConvergence]
  dsimp only
  split
  · exact kept_seekConfirm r.held _
  · exact ⟨rfl,rfl⟩

theorem kept_clearPending (driftSec : Option ℚ) : Kept e (clearPendingWhenConverged e driftSec) := by
  rw [clearPendingWhenConverged]
  split
  · exact ⟨rfl,rfl⟩
  · exact ⟨rfl,rfl⟩

theorem sameBudget_gate {r : TickReading}
    (h : gateNativeTick host e r syncState = some e') :
    SameBudget host.playback.timelineAnchorMs e e' := by
  rw [gateNativeTick] at h
  split at h
  · cases h
    exact ⟨rfl,rfl⟩
  · split at h
    · cases h
      exact sameBudget_applyRoomClock host e r.apply syncState none
    · cases h

theorem sameBudget_gated {r : TickReading}
    (h : (if host.isNativeSync then gateNativeTick host e r syncState else none) = some e') :
    SameBudget host.playback.timelineAnchorMs e e' := by
  split at h
  · exact sameBudget_gate h
  · cases h

theorem planVerifyTick_keeps (r : TickReading) (anchorAtSchedule : ℚ) :
    PlanKeeps host.playback.timelineAnchorMs e (planVerifyTick host e r anchorAtSchedule) := by
  have hsample : Kept e (sampleTickConvergence host e r host.playback).engine := kept_sample r
  rw [planVerifyTick]
  split
  · exact ⟨rfl,rfl⟩
  split
  · exact ⟨rfl,rfl⟩
  dsimp only
  split
  · rename_i hgate
    exact sameBudget_gated hgate
  · split
    · exact ⟨hsample.snaps,hsample.budget⟩
    · split
      · exact hsample.sameBudget_of rfl rfl
      · exact (hsample.trans (kept_clearPending _)).sameBudget_of rfl rfl

theorem anchor_of_verify_correct {r : TickReading} {anchorAtSchedule driftSec : ℚ}
    (h : planVerifyTick host e r anchorAtSchedule = .correct e' syncState driftSec) :
    anchorAtSchedule = host.playback.timelineAnchorMs := by
  by_contra hne
  rw [planVerifyTick,if_pos (Ne.symm hne)] at h
  split at h
  · cases h
  · cases h

theorem planWatchdogTick_keeps (r : TickReading) :
    PlanKeeps host.playback.timelineAnchorMs e (planWatchdogTick host e r) := by
  rw [planWatchdogTick]
  split
  · exact ⟨rfl,rfl⟩
  dsimp only
  have hsample : Kept e
      (sampleTickConvergence host e r (e.pendingSync.getD host.playback)).engine := kept_sample r
  split
  · rename_i hgate
    exact sameBudget_gated hgate
  · split
    · exact hsample.sameBudget
    · split
      · exact ⟨hsample.snaps,hsample.budget⟩
      · split
        · exact hsample.sameBudget_of rfl rfl
        · exact (hsample.trans (kept_clearPending _)).sameBudget_of rfl rfl

end Ticks

section ForceSeeks

variable {host : HostReading} {e e' : SyncEngine} {anchorMs : ℚ} {max : ℕ}

/-- Each snap has been paid from the budget. -/
structure PaidSnaps (anchorMs : ℚ) (max : ℕ) (e : SyncEngine) : Prop where
  paid : e.snaps ≤ spent e anchorMs
  capped : e.snaps = 0 ∨ spent e anchorMs ≤ max

theorem PaidSnaps.le (h : PaidSnaps anchorMs max e) : e.snaps ≤ max := by
  cases h.capped with
  | inl hzero => rw [hzero]; exact Nat.zero_le _
  | inr hcap => exact h.paid.trans hcap

theorem PaidSnaps.of_same (h : PaidSnaps anchorMs max e) (hsame : SameBudget anchorMs e e') :
    PaidSnaps anchorMs max e' := by
  constructor
  · rw [hsame.snaps,hsame.spent]
    exact h.paid
  · rw [hsame.snaps,hsame.spent]
    exact h.capped

/-- A seek is paid for as long as the budget is not spent. -/
theorem tryConsume_spent (e : SyncEngine) (anchorMs : ℚ) (max : ℕ) :
    tryConsumeAnchorBudget e.forceSeeksForAnchor anchorMs max =
      if max ≤ spent e anchorMs then (⟨anchorMs,spent e anchorMs⟩,false)
      else (⟨anchorMs,spent e anchorMs+1⟩,true) := by
  have hnext : resetAnchorBudget e.forceSeeksForAnchor anchorMs = ⟨anchorMs,spent e anchorMs⟩ := by
    rw [resetAnchorBudget,spent]
    split
    · rename_i heq
      rw [← heq]
    · rfl
  rw [tryConsumeAnchorBudget,hnext]

theorem sameBudget_enterAnchor (e : SyncEngine) (anchorMs : ℚ) :
    SameBudget anchorMs e (enterAnchor e anchorMs) := by
  unfold enterAnchor
  split
  · exact ⟨rfl,rfl⟩
  · rename_i hne
    constructor
    · rfl
    · rw [spent,if_pos rfl,spent,if_neg hne]

theorem spent_paid {e : SyncEngine} {count : ℕ} (h : e.forceSeeksForAnchor = ⟨anchorMs,count⟩) :
    spent e anchorMs = count := by
  rw [spent,h,if_pos rfl]

/-- A forced seek snaps only where it is paid for, unless its caller asks for a snap. -/
theorem paidSnaps_tryForceSeek {r : ApplyReading} {syncState : PlaybackSyncState}
    {thresholdSec : Option ℚ} (hanchor : host.playback.timelineAnchorMs = anchorMs)
    (hcall : thresholdSec = none ∨ spent e anchorMs < maxForceSeeks host.tuning)
    (h : PaidSnaps anchorMs (maxForceSeeks host.tuning) e) :
    PaidSnaps anchorMs (maxForceSeeks host.tuning)
      (tryForceSeek host e r syncState anchorMs thresholdSec) := by
  have hsoft : host.softDriftThresholdSec ≠ 0 := by
    have hle : DEFAULT_PLAYBACK_DRIFT_THRESHOLD_SEC ≤ host.softDriftThresholdSec :=
      drift_threshold_le host.rttMs
    have hpos : (0 : ℚ) < DEFAULT_PLAYBACK_DRIFT_THRESHOLD_SEC := by
      rw [DEFAULT_PLAYBACK_DRIFT_THRESHOLD_SEC]
      norm_num
    exact (hpos.trans_le hle).ne'
  have hentered : SameBudget anchorMs e (enterAnchor e anchorMs) := sameBudget_enterAnchor e anchorMs
  rw [← hentered.spent] at hcall
  replace h := h.of_same hentered
  rw [tryForceSeek]
  dsimp only
  generalize enterAnchor e anchorMs = entered at h hcall ⊢
  rw [tryConsume_spent]
  subst hanchor
  apply PaidSnaps.of_same _ (sameBudget_applyRoomClock host _ r syncState _)
  by_cases hmax : maxForceSeeks host.tuning ≤ spent entered host.playback.timelineAnchorMs
  · have hnone : thresholdSec = none := hcall.resolve_right (not_lt.mpr hmax)
    rw [if_pos hmax,hnone]
    constructor
    · rw [spent_paid rfl]
      simpa [hsoft] using h.paid
    · rw [spent_paid rfl]
      simpa [hsoft] using h.capped
  · rw [if_neg hmax]
    constructor
    · rw [spent_paid rfl]
      have hpaid := h.paid
      generalize thresholdSec.getD _ = threshold
      dsimp only
      split
      · exact Nat.succ_le_succ hpaid
      · exact hpaid.trans (Nat.le_succ _)
    · right
      rw [spent_paid rfl]
      exact Nat.succ_le_of_lt (not_le.mp hmax)

end ForceSeeks

section Steps

variable {host : HostReading} {e e' : SyncEngine} {anchorMs : ℚ} {tuning : Option ProviderSyncTuning}
variable {syncState : PlaybackSyncState}

theorem paidSnaps_correct {r : TickReading} {driftSec : ℚ}
    (hanchor : host.playback.timelineAnchorMs = anchorMs)
    (hguard : escalatesSpent host r anchorMs (.correct e syncState driftSec) = false)
    (h : PaidSnaps anchorMs (maxForceSeeks host.tuning) e) :
    PaidSnaps anchorMs (maxForceSeeks host.tuning)
      (tryCatchUpOrForceSeek host e r syncState driftSec anchorMs) := by
  rw [tryCatchUpOrForceSeek]
  by_cases hnative : host.isNativeSync = true
  · simp only [hnative,if_true,Bool.not_true,Bool.false_and,Bool.false_eq_true,if_false]
    exact paidSnaps_tryForceSeek hanchor (.inl rfl) h
  · rw [if_neg hnative]
    have hstall : Kept e (shouldEscalateCatchUpStall host e r.stall syncState driftSec).2 :=
      kept_stall r.stall driftSec
    rw [escalatesSpent] at hguard
    generalize shouldEscalateCatchUpStall host e r.stall syncState driftSec = stall at hstall hguard ⊢
    have hstalled : PaidSnaps anchorMs (maxForceSeeks host.tuning) stall.2 :=
      h.of_same hstall.sameBudget
    split
    · rename_i hescalates
      have hleft : spent e anchorMs < maxForceSeeks host.tuning := by
        simpa [hnative,hescalates] using hguard
      have hclear : SameBudget anchorMs e (clearCatchUpRate stall.2) := hstall.sameBudget_of rfl rfl
      refine paidSnaps_tryForceSeek hanchor (.inr ?_) (h.of_same hclear)
      rw [hclear.spent]
      exact hleft
    · split
      · split
        · rename_i rated hrate
          exact hstalled.of_same ((kept_activateCatchUpRate hrate).sameBudget_of rfl rfl)
        · exact paidSnaps_tryForceSeek hanchor (.inl rfl) hstalled
      · exact paidSnaps_tryForceSeek hanchor (.inl rfl) hstalled

theorem paidSnaps_verify {r : TickReading} {anchorAtSchedule : ℚ}
    (hguard : escalatesSpent host r anchorAtSchedule
      (planVerifyTick host e r anchorAtSchedule) = false)
    (h : PaidSnaps host.playback.timelineAnchorMs (maxForceSeeks host.tuning) e) :
    PaidSnaps host.playback.timelineAnchorMs (maxForceSeeks host.tuning)
      (runVerifyTick host e r anchorAtSchedule) := by
  have hkeeps : PlanKeeps host.playback.timelineAnchorMs e
      (planVerifyTick host e r anchorAtSchedule) := planVerifyTick_keeps r anchorAtSchedule
  rw [runVerifyTick]
  cases hplan : planVerifyTick host e r anchorAtSchedule with
  | done e' =>
    rw [hplan] at hkeeps
    exact h.of_same hkeeps
  | correct e' syncState driftSec =>
    rw [hplan] at hkeeps hguard
    obtain rfl := anchor_of_verify_correct hplan
    exact paidSnaps_correct rfl hguard (h.of_same (Kept.sameBudget hkeeps))

theorem paidSnaps_watchdog {r : TickReading}
    (hguard : escalatesSpent host r host.playback.timelineAnchorMs
      (planWatchdogTick host e r) = false)
    (h : PaidSnaps host.playback.timelineAnchorMs (maxForceSeeks host.tuning) e) :
    PaidSnaps host.playback.timelineAnchorMs (maxForceSeeks host.tuning)
      (runWatchdogTick host e r) := by
  have hkeeps : PlanKeeps host.playback.timelineAnchorMs e (planWatchdogTick host e r) :=
    planWatchdogTick_keeps r
  rw [runWatchdogTick]
  cases hplan : planWatchdogTick host e r with
  | done e' =>
    rw [hplan] at hkeeps
    exact h.of_same hkeeps
  | correct e' syncState driftSec =>
    rw [hplan] at hkeeps hguard
    exact paidSnaps_correct rfl hguard (h.of_same (Kept.sameBudget hkeeps))

theorem kept_transportTimer (moment : Moment) (paused : Bool) :
    Kept e (runTransportTimer host e moment paused) := by
  rw [runTransportTimer]
  split_ifs
  · exact ⟨rfl,rfl⟩
  · exact ⟨rfl,rfl⟩
  · exact ⟨rfl,rfl⟩

theorem sameBudget_setHoldLocalSeek (hold : Bool) :
    SameBudget host.playback.timelineAnchorMs e (PlaybackSync.setHoldLocalSeek host e hold) := by
  rw [PlaybackSync.setHoldLocalSeek]
  dsimp only
  split
  · exact ⟨rfl,rfl⟩
  · have hburst := sameBudget_burst host
      { e with
        holdLocalSeek := hold
        phase := if e.pendingSync.isSome then EnginePhase.verifying else EnginePhase.idle }
      host.playback.timelineAnchorMs
    exact ⟨hburst.snaps,hburst.spent⟩

theorem sameBudget_onDurationAvailable (r : ApplyReading) :
    SameBudget host.playback.timelineAnchorMs e (PlaybackSync.onDurationAvailable host e r) := by
  rw [PlaybackSync.onDurationAvailable]
  split
  · exact ⟨rfl,rfl⟩
  · exact (sameBudget_applyRoomClock host e r _ _).trans (sameBudget_burst host _ _)

theorem step_paidSnaps {event : SyncEvent} (hkeeps : KeepsAnchor anchorMs tuning event)
    (hguard : WithinBudget e event) (hstep : step e event = some e')
    (h : PaidSnaps anchorMs (maxForceSeeks tuning) e) :
    PaidSnaps anchorMs (maxForceSeeks tuning) e' := by
  cases event with
  | verify host r anchorAtSchedule =>
    obtain ⟨rfl,rfl⟩ := hkeeps
    rw [step] at hstep
    split at hstep
    · cases hstep
      exact paidSnaps_verify hguard (h.of_same ⟨rfl,rfl⟩)
    · cases hstep
  | watchdog host r =>
    obtain ⟨rfl,rfl⟩ := hkeeps
    rw [step] at hstep
    split at hstep
    · cases hstep
      exact paidSnaps_watchdog hguard h
    · cases hstep
  | transport host moment paused =>
    rw [step] at hstep
    split at hstep
    · cases hstep
      have hkept : Kept { e with pauseTimers := e.pauseTimers.erase paused }
          (runTransportTimer host { e with pauseTimers := e.pauseTimers.erase paused } moment
            paused) := kept_transportTimer moment paused
      exact h.of_same ⟨hkept.snaps,hkept.sameBudget.spent⟩
    · cases hstep
  | onAuthorityAnchor host announced =>
    obtain ⟨-,rfl⟩ := hkeeps
    cases hstep
    exact h.of_same (sameBudget_burst host e announced)
  | setHoldLocalSeek host hold =>
    obtain ⟨rfl,-⟩ := hkeeps
    cases hstep
    exact h.of_same (sameBudget_setHoldLocalSeek hold)
  | applyRoomClock host r syncState driftThresholdSec =>
    obtain ⟨rfl,-⟩ := hkeeps
    cases hstep
    exact h.of_same (sameBudget_applyRoomClock host e r syncState driftThresholdSec)
  | onDurationAvailable host r =>
    obtain ⟨rfl,-⟩ := hkeeps
    cases hstep
    exact h.of_same (sameBudget_onDurationAvailable r)
  | setPendingSync next =>
    cases hstep
    exact h.of_same ⟨rfl,rfl⟩
  | setCatchUpRate next =>
    cases hstep
    exact h.of_same ⟨rfl,rfl⟩
  | clearTransportNudge =>
    cases hstep
    exact h.of_same ⟨rfl,rfl⟩
  | start =>
    cases hstep
    exact h.of_same ⟨rfl,rfl⟩
  | dispose =>
    cases hstep
    exact h.of_same ⟨rfl,rfl⟩

end Steps

section Bound

/-- While no tick escalates a stall on a spent budget, the ticks of one anchor snap at most
`maxForceSeeks` times. -/
theorem snaps_within_budget (anchorMs : ℚ) (tuning : Option ProviderSyncTuning) (e : SyncEngine)
    (h : ((syncSystem anchorMs tuning).restrict WithinBudget).Reachable e) :
    e.snaps ≤ maxForceSeeks tuning := by
  have hpaid : PaidSnaps anchorMs (maxForceSeeks tuning) e := by
    refine h.invariant (PaidSnaps anchorMs (maxForceSeeks tuning)) ?_ ?_
    · intro e hinit
      have hzero : e.snaps = 0 := hinit
      exact ⟨hzero ▸ Nat.zero_le _,.inl hzero⟩
    · intro e event e' _ hpaid hstep
      exact step_paidSnaps hstep.2.1 hstep.1 hstep.2.2 hpaid
  exact hpaid.le

end Bound

section StuckElement

instance (anchorMs : ℚ) (tuning : Option ProviderSyncTuning) :
    DecidablePred (KeepsAnchor anchorMs tuning) := fun event =>
  match event with
  | .verify host _ _ => inferInstanceAs (Decidable (_ = anchorMs ∧ host.tuning = tuning))
  | .watchdog host _ => inferInstanceAs (Decidable (_ = anchorMs ∧ host.tuning = tuning))
  | .transport host _ _ => inferInstanceAs (Decidable (_ = anchorMs ∧ host.tuning = tuning))
  | .onAuthorityAnchor host announced =>
    inferInstanceAs (Decidable ((_ = anchorMs ∧ host.tuning = tuning) ∧ announced = anchorMs))
  | .setHoldLocalSeek host _ => inferInstanceAs (Decidable (_ = anchorMs ∧ host.tuning = tuning))
  | .applyRoomClock host _ _ _ => inferInstanceAs (Decidable (_ = anchorMs ∧ host.tuning = tuning))
  | .onDurationAvailable host _ => inferInstanceAs (Decidable (_ = anchorMs ∧ host.tuning = tuning))
  | .setPendingSync _ => inferInstanceAs (Decidable True)
  | .setCatchUpRate _ => inferInstanceAs (Decidable True)
  | .clearTransportNudge => inferInstanceAs (Decidable True)
  | .start => inferInstanceAs (Decidable True)
  | .dispose => inferInstanceAs (Decidable True)

/-- A room that plays from 0, and a direct file of two hours. -/
def stuckHost : HostReading where
  hasPlayer := true
  mediaReady := true
  playback := ⟨false,1,0,0⟩
  authorityPaused := false
  tuning := none
  durationHintSec := none
  rttMs := none

def stuckPlayer (sec : ℚ) : SyncablePlayer := ⟨.finite sec,.finite 7200,.finite 7200,none,some false⟩

/-- The watchdog at a second of the room: the playhead stands at the last written position, and a
write lands. -/
def stuckReading (atSec lastSec : ℚ) : TickReading :=
  let before : Moment := ⟨stuckPlayer lastSec,atSec*1000⟩
  let after : Moment := ⟨stuckPlayer atSec,atSec*1000⟩
  { sampled := before
    transport := stuckPlayer lastSec
    held := before
    stall := before
    echo := before
    apply := ⟨before,stuckPlayer atSec,after,atSec*1000,after,stuckPlayer atSec,after,false⟩ }

def stuckTick (atSec lastSec : ℚ) : SyncEvent := .watchdog stuckHost (stuckReading atSec lastSec)

/-- The engine of a late joiner after its first snap. -/
def joined : SyncEngine :=
  runWatchdogTick stuckHost (start createPlaybackSyncEngine) (stuckReading 20 0)

theorem joined_reachable : ((syncSystem 0 none).restrict WithinBudget).Reachable joined := by
  have hinit : ((syncSystem 0 none).restrict WithinBudget).Reachable createPlaybackSyncEngine :=
    .init (show createPlaybackSyncEngine.snaps = 0 from rfl)
  have hstarted : ((syncSystem 0 none).restrict WithinBudget).Reachable
      (start createPlaybackSyncEngine) :=
    .step (a := .start) hinit ⟨trivial,trivial,rfl⟩
  have hguard : WithinBudget (start createPlaybackSyncEngine) (stuckTick 20 0) := by
    rw [stuckTick,WithinBudget]
    decide +kernel
  exact .step hstarted ⟨hguard,⟨rfl,rfl⟩,rfl⟩

/-- A late joiner has snapped once. -/
theorem snaps_within_budget_joined : joined.snaps = 1 ∧ joined.snaps ≤ maxForceSeeks none :=
  ⟨by decide +kernel,snaps_within_budget 0 none joined joined_reachable⟩

def stuckSeconds (lastSec : ℚ) : List SyncEvent :=
  [stuckTick (lastSec+1) lastSec,stuckTick (lastSec+2) lastSec,stuckTick (lastSec+3) lastSec,
    stuckTick (lastSec+4) lastSec]

def stuckRun : List SyncEvent :=
  .start :: stuckTick 20 0 :: ([20,24,28,32,36,40] : List ℚ).flatMap stuckSeconds

/-- The seventh snap of one anchor, whose budget is six. -/
theorem stalls_snap_beyond_budget :
    ¬∀ (anchorMs : ℚ) (tuning : Option ProviderSyncTuning) (e : SyncEngine),
      (syncSystem anchorMs tuning).Reachable e → e.snaps ≤ maxForceSeeks tuning := by
  intro h
  have hsnaps : ((runSteps (guardStep step fun _ => KeepsAnchor 0 none) createPlaybackSyncEngine
      stuckRun).any fun e => decide (maxForceSeeks none < e.snaps)) = true := by
    decide +kernel
  obtain ⟨e,hrun,hmore⟩ := (Option.any_eq_true _ _).mp hsnaps
  have hstep : ∀ s event s', guardStep step (fun _ => KeepsAnchor 0 none) s event = some s' →
      (syncSystem 0 none).step s event s' := by
    intro s event s' hs
    rw [guardStep] at hs
    split at hs
    · rename_i hkeeps
      exact ⟨hkeeps,hs⟩
    · cases hs
  have hreach : (syncSystem 0 none).Reachable e :=
    .of_runSteps hstep stuckRun
      (.init (show createPlaybackSyncEngine.snaps = 0 from rfl)) hrun
  exact absurd (h 0 none e hreach) (not_le.mpr (of_decide_eq_true hmore))

end StuckElement

end PlaybackSync
end WebSyncPlay
