import WebSyncPlay.RoomState

/-! The playback timeline (`services/timeline.ts`): an anchor, the server time at
which it was taken, and the playhead projected from both. -/
namespace WebSyncPlay

open Library

/-- Playback server clocks never move backwards under concurrent writes. -/
def nextMonotonicMs (previous next : ℚ) : ℚ := max (previous+1) next

theorem le_nextMonotonicMs (previous next : ℚ) : previous ≤ nextMonotonicMs previous next :=
  (by linarith : previous ≤ previous+1).trans (le_max_left _ _)

theorem next_le_nextMonotonicMs (previous next : ℚ) : next ≤ nextMonotonicMs previous next :=
  le_max_right _ _

def PlaybackState.positionAt (p : PlaybackState) (nowMs : ℕ) : ℚ :=
  if p.paused then p.timelineAnchorMs
  else p.timelineAnchorMs+max 0 ((nowMs : ℚ)-p.serverNowMs)*p.playbackRate

def resolveCurrentTimelineMs (state : RoomState) (nowMs : ℕ) : ℚ :=
  state.playback.positionAt nowMs

theorem PlaybackState.positionAt_of_le {p : PlaybackState} {nowMs : ℕ}
    (h : (nowMs : ℚ) ≤ p.serverNowMs) : p.positionAt nowMs = p.timelineAnchorMs := by
  have hz : max 0 ((nowMs : ℚ)-p.serverNowMs) = 0 := max_eq_left (by linarith)
  simp [PlaybackState.positionAt,hz]

/-- Authoritative seek: snap the timeline and clear the ephemeral scrub state. -/
@[simps] def commitPlaybackSeek (state : RoomState) (targetMs : ℚ) (nowMs : ℕ) : RoomState :=
  { state with
    playback := { state.playback with
      timelineAnchorMs := max 0 targetMs
      serverNowMs := nextMonotonicMs state.playback.serverNowMs nowMs
      seekPreview := none } }

/-- Freeze the projected playhead as a new anchor. -/
@[simps] def reanchorPlaybackAtNow (state : RoomState) (nowMs : ℕ) : RoomState :=
  { state with
    playback := { state.playback with
      timelineAnchorMs := resolveCurrentTimelineMs state nowMs
      serverNowMs := nextMonotonicMs state.playback.serverNowMs nowMs } }

/-- Snap the playhead to zero; `pause` also stops it. -/
@[simps] def resetPlaybackTimeline (state : RoomState) (nowMs : ℕ) (pause : Bool) : RoomState :=
  { state with
    playback := { state.playback with
      timelineAnchorMs := 0
      serverNowMs := nextMonotonicMs state.playback.serverNowMs nowMs
      paused := pause || state.playback.paused } }

/-- The timeline starts over, on a clock that has reached `nowMs`. -/
structure ResetAt (nowMs : ℕ) (p p' : PlaybackState) : Prop where
  anchor : p'.timelineAnchorMs = 0
  clock : p'.serverNowMs = nextMonotonicMs p.serverNowMs nowMs

theorem resetPlaybackTimeline_resetAt (state : RoomState) (nowMs : ℕ) (pause : Bool) :
    ResetAt nowMs state.playback (resetPlaybackTimeline state nowMs pause).playback :=
  ⟨rfl,rfl⟩

theorem ResetAt.position {nowMs : ℕ} {p p' : PlaybackState} (h : ResetAt nowMs p p') :
    p'.positionAt nowMs = 0 :=
  (PlaybackState.positionAt_of_le (h.clock ▸ next_le_nextMonotonicMs _ _)).trans h.anchor

def getCurrentMediaId (state : RoomState) : Option ItemId :=
  (indexGet? state.playlist state.currentIndex).map (·.id)

@[simps] def markCurrentMedia (state : RoomState) : RoomState :=
  { state with playback := { state.playback with mediaId := getCurrentMediaId state } }

@[simps] def bumpRoomRevisions (state : RoomState) : RoomState :=
  { state with
    generation := state.generation+1
    structuralRevision := state.structuralRevision+1 }

end WebSyncPlay
