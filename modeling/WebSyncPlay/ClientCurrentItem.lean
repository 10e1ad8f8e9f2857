import WebSyncPlay.ClientConvergence

/-! The current item of the client's copy, and the copy after the room was destroyed and
created afresh. Controls are led by the media id, snapshots by the generation only. -/
namespace WebSyncPlay

open Library

/-- What the server sends about a room: a control or a snapshot of some stored state. A
control may carry a scrub preview that was never stored. -/
def Emitted (env : Env) : ServerMessage → Prop
  | .control payload => ∃ state preview updatedAt, Stored env state ∧
      payload = { controlPayloadFromState state with
        playback := { state.playback with seekPreview := preview }
        updatedAt := updatedAt }
  | .snapshot payload => ∃ state overlay presenceRevision, Stored env state ∧
      payload = buildSanitizedSnapshot state overlay presenceRevision
  | .presence _ => True

/-- The index is in range, and shows the item that the playback is about, if the playlist
has it. -/
structure ShowsCurrent (playlist : List PlaylistItem) (currentIndex : ℤ)
    (mediaId : Option ItemId) : Prop where
  index : ValidIndex playlist.length currentIndex
  current : ∀ id, mediaId = some id → id ∈ playlist.map (·.id) →
    (indexGet? playlist currentIndex).map (·.id) = some id

def CurrentItemOk (s : ClientRoomState) : Prop :=
  ShowsCurrent s.playlist s.currentIndex s.playback.mediaId

/-- A snapshot of an older generation has the copy's current item where the copy has it. -/
def keepsPlace : Option ClientRoomState → ServerMessage → Prop
  | some prev,.snapshot payload => prev.generation ≤ payload.generation ∨
      ShowsCurrent payload.playlist prev.currentIndex prev.playback.mediaId
  | _,_ => True

/-- A copy under messages in any order. It is absent at first, or one left over. -/
def itemSystem (env : Env) : TransitionSystem (Option ClientRoomState) ServerMessage where
  init copy := ∀ s, copy = some s → CurrentItemOk s
  step copy message copy' := Emitted env message ∧ copy' = applyMessage copy message

section Item

variable {env : Env} {state : RoomState}

theorem Stored.showsCurrent (h : Stored env state) :
    ShowsCurrent state.playlist state.currentIndex state.playback.mediaId where
  index := h.playlistOk.inv.index
  current id hid _ := by
    rw [h.playlistOk.media,getCurrentMediaId] at hid
    exact hid

theorem Stored.mediaId_cases (h : Stored env state) :
    (state.playback.mediaId = none ∧ state.currentIndex = 0) ∨
    ∃ id, state.playback.mediaId = some id ∧ id ≠ "" := by
  have hok := h.playlistOk
  by_cases hempty : state.playlist = []
  · have hindex := hok.inv.index
    rw [hempty] at hindex
    have hlow := hindex.1
    have hhigh : state.currentIndex < 1 := hindex.2
    refine Or.inl ⟨?_,by omega⟩
    rw [hok.media,getCurrentMediaId,hempty,indexGet?_nil,Option.map_none]
  · obtain ⟨item,hitem⟩ := hok.inv.index.isSome hempty
    refine Or.inr ⟨item.id,?_,?_⟩
    · rw [hok.media,getCurrentMediaId,hitem,Option.map_some]
    · intro hid
      have hmem : item.id ∈ itemIds state := List.mem_map_of_mem (indexGet?_mem hitem)
      rw [hid] at hmem
      exact hok.inv.ids_ne hmem

theorem reconcileControlCurrentIndex_shows {prev : ClientRoomState} (hprev : CurrentItemOk prev)
    {payload : RoomControlPayload} (h : Stored env state)
    (hmedia : payload.playback.mediaId = state.playback.mediaId)
    (hindex : payload.currentIndex = state.currentIndex) :
    ShowsCurrent prev.playlist (reconcileControlCurrentIndex prev payload)
      payload.playback.mediaId := by
  unfold reconcileControlCurrentIndex
  rw [hmedia]
  rcases h.mediaId_cases with ⟨hnone,hzero⟩ | ⟨id,hid,hne⟩
  · rw [hnone]
    dsimp only
    rw [hindex,hzero]
    exact ⟨⟨le_rfl,lt_max_of_lt_left Int.one_pos⟩,fun id hid => by cases hid⟩
  · rw [hid]
    simp only [hne,if_false]
    split
    · rename_i hhere
      refine ⟨?_,fun other hother _ => ?_⟩
      · obtain ⟨item,hitem,-⟩ := Option.map_eq_some_iff.mp hhere
        obtain ⟨hlow,hget⟩ := (indexGet?_eq_some_iff _ _ _).mp hitem
        have hlt := (List.getElem?_eq_some_iff.mp hget).1
        exact ⟨hlow,lt_max_of_lt_right (by omega)⟩
      · cases hother
        exact hhere
    · split
      · rename_i index hfind
        obtain ⟨hlt,hhere,-⟩ := List.findIdx?_eq_some_iff_getElem.mp hfind
        refine ⟨⟨Int.natCast_nonneg _,lt_max_of_lt_right (by omega)⟩,fun other hother _ => ?_⟩
        cases hother
        rw [indexGet?_natCast,List.getElem?_eq_getElem hlt,Option.map_some,beq_iff_eq.mp hhere]
      · rename_i hfind
        refine ⟨hprev.index,fun other hother hmem => ?_⟩
        cases hother
        obtain ⟨item,hitem,hsame⟩ := List.mem_map.mp hmem
        have hnot := List.findIdx?_eq_none_iff.mp hfind item hitem
        rw [hsame,beq_self_eq_true] at hnot
        cases hnot

theorem applyMessage_showsCurrent {prev : Option ClientRoomState} {message : ServerMessage}
    {next : ClientRoomState} (hprev : ∀ s, prev = some s → CurrentItemOk s)
    (hm : Emitted env message) (hnext : applyMessage prev message = some next) :
    CurrentItemOk next ↔ keepsPlace prev message := by
  cases message with
  | control payload =>
    obtain ⟨state,preview,updatedAt,hstored,rfl⟩ := hm
    refine iff_of_true ?_ (by cases prev <;> trivial)
    obtain ⟨s,rfl,hs⟩ := Option.map_eq_some_iff.mp hnext
    split at hs
    · subst hs
      exact hprev s rfl
    · subst hs
      exact reconcileControlCurrentIndex_shows (hprev s rfl) hstored rfl rfl
  | presence payload =>
    refine iff_of_true ?_ (by cases prev <;> trivial)
    obtain ⟨s,rfl,hs⟩ := Option.map_eq_some_iff.mp hnext
    split at hs
    · subst hs
      exact hprev s rfl
    · subst hs
      exact hprev s rfl
  | snapshot payload =>
    obtain ⟨state,overlay,revision,hstored,rfl⟩ := hm
    cases prev with
    | none =>
      cases hnext
      exact iff_of_true hstored.showsCurrent trivial
    | some s =>
      cases hnext
      by_cases hle : s.generation ≤ state.generation
      · refine iff_of_true ?_ (Or.inl hle)
        have hshows := hstored.showsCurrent
        unfold CurrentItemOk applyRoomSnapshot
        simp only [buildSanitizedSnapshot,hle,decide_true,if_true]
        split
        · exact hshows
        · exact hshows
      · unfold CurrentItemOk applyRoomSnapshot keepsPlace
        simp only [buildSanitizedSnapshot,hle,decide_false,Bool.false_and,Bool.false_eq_true,
          if_false,false_or]

/-- In every run in which each late snapshot has the copy's current item in its place, the
index is valid and shows the item that the playback is about; and a message leaves it so
only if it is no other late snapshot. -/
theorem client_current_item {env : Env} {s : ClientRoomState}
    (h : ((itemSystem env).restrict keepsPlace).Reachable (some s)) :
    CurrentItemOk s ∧ ∀ message next, Emitted env message →
      applyMessage (some s) message = some next →
      (CurrentItemOk next ↔ keepsPlace (some s) message) := by
  have hinv : ∀ copy, ((itemSystem env).restrict keepsPlace).Reachable copy →
      ∀ s, copy = some s → CurrentItemOk s := by
    intro copy hr
    apply hr.invariant fun copy => ∀ s, copy = some s → CurrentItemOk s
    · exact fun copy hinit => hinit
    · rintro copy message copy' - hi ⟨hplace,hm,rfl⟩ s hs
      exact (applyMessage_showsCurrent hi hm hs).mpr hplace
  refine ⟨hinv _ h s rfl,fun message next hm hnext => ?_⟩
  exact applyMessage_showsCurrent (hinv _ h) hm hnext

end Item

section Reconnect

/-- What `connect` does to a copy that is left over: only the presence revision starts over. -/
def resetOnConnect (copy : ClientRoomState) : ClientRoomState :=
  { copy with presenceRevision := some 0 }

structure CachedControlProjection where
  generation : ℕ
  currentIndex : ℤ
  playback : PlaybackState

def rememberControlProjection (payload : RoomControlPayload) : CachedControlProjection where
  generation := payload.generation
  currentIndex := payload.currentIndex
  playback := { payload.playback with seekPreview := none }

/-- The control that a scrubbing socket sends out (`handlers/seek-preview.ts`). A write that only
marks the snapshot dirty leaves the projection behind the room. -/
def handleSeekPreview (cached : CachedControlProjection) (userId : UserId) (targetMs : ℚ)
    (nowMs : ℕ) : RoomControlPayload where
  generation := cached.generation
  currentIndex := cached.currentIndex
  updatedAt := nowMs
  playback := { cached.playback with
    seekPreview := some
      { userId := userId, targetMs := max 0 targetMs, active := true, updatedAt := nowMs } }

/-- No control is of an older generation than the copy or a message before it. -/
def ControlsInOrder (newest : ℕ) : List ServerMessage → Prop
  | [] => True
  | .control payload::rest => newest ≤ payload.generation ∧
      ControlsInOrder payload.generation rest
  | .snapshot payload::rest => ControlsInOrder (max newest payload.generation) rest
  | .presence _::rest => ControlsInOrder newest rest

def ControlsApplied (s : ClientRoomState) : List ServerMessage → Prop
  | [] => True
  | message::rest => ∃ next, applyMessage (some s) message = some next ∧
      (∀ payload, message = .control payload →
        next.playback = payload.playback ∧ next.generation = payload.generation) ∧
      ControlsApplied next rest

theorem controlsApplied_cons {s next : ClientRoomState} {message : ServerMessage}
    (h : applyMessage (some s) message = some next) (rest : List ServerMessage) :
    ControlsApplied s (message::rest) ↔ (∀ payload, message = .control payload →
      next.playback = payload.playback ∧ next.generation = payload.generation) ∧
      ControlsApplied next rest := by
  constructor
  · rintro ⟨other,hother,htaken,hrest⟩
    obtain rfl : next = other := Option.some.inj (h.symm.trans hother)
    exact ⟨htaken,hrest⟩
  · exact fun ⟨htaken,hrest⟩ => ⟨next,h,htaken,hrest⟩

theorem controlsApplied_iff (s : ClientRoomState) (messages : List ServerMessage) :
    ControlsApplied s messages ↔ ControlsInOrder s.generation messages := by
  induction messages generalizing s with
  | nil => exact Iff.rfl
  | cons message rest ih =>
    cases message with
    | control payload =>
      obtain ⟨next,happly,-,-,-,-,hoffer⟩ := applyRoomControl_playback s payload
      change applyMessage (some s) (.control payload) = some next at happly
      rw [controlsApplied_cons happly,ih]
      by_cases hle : s.generation ≤ payload.generation
      · rw [Versioned.offer,if_pos hle] at hoffer
        have hgeneration : next.generation = payload.generation :=
          congrArg Versioned.version hoffer
        have hplayback : next.playback = payload.playback := congrArg Versioned.content hoffer
        rw [hgeneration]
        refine and_congr_left fun _ => iff_of_true ?_ hle
        rintro other hother
        cases hother
        exact ⟨hplayback,rfl⟩
      · rw [Versioned.offer,if_neg hle] at hoffer
        have hgeneration : next.generation = s.generation := congrArg Versioned.version hoffer
        refine iff_of_false (fun h => hle ?_) fun h => hle h.1
        rw [← hgeneration,(h.1 payload rfl).2]
    | snapshot payload =>
      rw [controlsApplied_cons rfl,ih]
      exact and_iff_right fun other hother => (by cases hother)
    | presence payload =>
      obtain ⟨next,happly,-,-,hgeneration,-⟩ := applyPresenceBatch_frame s payload
      change applyMessage (some s) (.presence payload) = some next at happly
      rw [controlsApplied_cons happly,ih,hgeneration]
      exact and_iff_right fun other hother => (by cases hother)

/-- The copy is older than the snapshot, or as old without a scrub preview, or shows the same. -/
def GivesWay (prev : ClientRoomState) (payload : RoomSnapshotPayload) : Prop :=
  prev.generation < payload.generation ∨
  prev.generation = payload.generation ∧ previewActive prev.playback = false ∨
  payload.generation < prev.generation ∧ prev.playback = payload.playback ∧
    prev.currentIndex = payload.currentIndex

theorem applyRoomSnapshot_takes_iff (prev : ClientRoomState) {payload : RoomSnapshotPayload}
    (h : payload.playback.seekPreview = none) :
    (applyRoomSnapshot (some (resetOnConnect prev)) payload).playback = payload.playback ∧
      (applyRoomSnapshot (some (resetOnConnect prev)) payload).currentIndex =
        payload.currentIndex ↔ GivesWay prev payload := by
  have hpayload : previewActive payload.playback = false := by rw [previewActive,h]; rfl
  rcases Nat.lt_trichotomy prev.generation payload.generation with hlt | heq | hgt
  · refine iff_of_true ?_ (Or.inl hlt)
    simp only [applyRoomSnapshot,resetOnConnect,hlt.le,not_le.mpr hlt,decide_true,decide_false,
      if_true,Bool.and_false,Bool.false_eq_true,if_false,and_self]
  · by_cases hactive : previewActive prev.playback = true
    · refine iff_of_false (fun htaken => ?_) ?_
      · have hkept := congrArg PlaybackState.seekPreview htaken.1
        simp only [applyRoomSnapshot,resetOnConnect,heq,le_refl,decide_true,if_true,hactive,
          hpayload,Bool.not_false,Bool.and_true,h] at hkept
        rw [previewActive,hkept] at hactive
        cases hactive
      · rintro (hlt | ⟨-,hinactive⟩ | ⟨hgt,-⟩)
        · exact absurd heq hlt.ne
        · exact absurd hactive (by rw [hinactive]; decide)
        · exact absurd heq.symm hgt.ne
    · have hinactive := Bool.eq_false_of_not_eq_true hactive
      refine iff_of_true ?_ (Or.inr (Or.inl ⟨heq,hinactive⟩))
      simp only [applyRoomSnapshot,resetOnConnect,heq,le_refl,decide_true,if_true,hinactive,
        Bool.and_false,Bool.false_and,Bool.false_eq_true,if_false,and_self]
  · simp only [applyRoomSnapshot,resetOnConnect,not_le.mpr hgt,decide_false,Bool.false_and,
      Bool.false_eq_true,if_false,GivesWay,hgt,hgt.not_gt,hgt.ne',false_and,false_or,true_and]

/-- The first snapshot of a new connection is taken over, and every control after it. -/
theorem reconnect_takes_snapshot (prev : ClientRoomState) (state : RoomState)
    (overlay : Record UserId PresencePatch) (presenceRevision : ℕ)
    (messages : List ServerMessage) :
    let payload := buildSanitizedSnapshot state overlay presenceRevision
    let copy := applyRoomSnapshot (some (resetOnConnect prev)) payload
    (copy.playback = payload.playback ∧ copy.currentIndex = payload.currentIndex ∧
      ControlsApplied copy messages) ↔
      GivesWay prev payload ∧
        ControlsInOrder (max prev.generation payload.generation) messages := by
  intro payload copy
  have htaken := applyRoomSnapshot_takes_iff prev (show payload.playback.seekPreview = none from rfl)
  rw [← and_assoc,htaken,controlsApplied_iff]
  rfl

end Reconnect

section Scenario

theorem exists_longer_playlist : ∃ short long, Stored scenarioEnv short ∧ Stored scenarioEnv long ∧
    short.generation < long.generation ∧ short.playlist.length = 1 ∧ long.currentIndex = 1 := by
  let ops : List RoomOp :=
    [messageFrom "ann" 3000 {"ann"} "second" (.playlistAddLocal (videoFile "second" (some 60))),
      messageFrom "ann" 4000 {"ann"} "unused" (.playlistSelect 1)]
  obtain ⟨short,hshort,hlength,hlong⟩ := exists_stored_of_runRoom scenarioEnv
    [joinAs "ann" 1000 {},
      messageFrom "ann" 2000 {"ann"} "first" (.playlistAddLocal (videoFile "first" (some 60)))]
    (fun short => short.playlist.length = 1 ∧
      ((runRoom scenarioEnv (fun _ _ => true) ops (some short)).any fun long =>
        decide (short.generation < long.generation) && long.currentIndex == 1) = true)
    (by decide +kernel)
  obtain ⟨long,hrun,hfacts⟩ := (Option.any_eq_true _ _).mp hlong
  rw [Bool.and_eq_true,decide_eq_true_eq,beq_iff_eq] at hfacts
  have hguarded : (guardedRoomSystem scenarioEnv fun _ _ => true).Reachable (some short) :=
    hshort.to_restrict fun room action => by cases room <;> cases action <;> trivial
  have hr : (guardedRoomSystem scenarioEnv fun _ _ => true).Reachable (some long) :=
    reachable_of_runRoom ops hguarded hrun
  exact ⟨short,long,hshort,.of_guarded hr,hfacts.1,hlength,hfacts.2⟩

theorem client_current_item_of_two_snapshots : ∃ s,
    ((itemSystem scenarioEnv).restrict keepsPlace).Reachable (some s) ∧ s.currentIndex = 1 ∧
    ValidIndex s.playlist.length 1 := by
  obtain ⟨short,long,hshort,hlong,hgeneration,-,hindex⟩ := exists_longer_playlist
  let first := buildSanitizedSnapshot short Record.empty 0
  let second := buildSanitizedSnapshot long Record.empty 0
  have hstart : ((itemSystem scenarioEnv).restrict keepsPlace).Reachable none :=
    .init fun s hs => by cases hs
  have hfirst : ((itemSystem scenarioEnv).restrict keepsPlace).Reachable (some first) :=
    .step (a := .snapshot first) hstart ⟨trivial,⟨short,_,_,hshort,rfl⟩,rfl⟩
  have hsecond : ((itemSystem scenarioEnv).restrict keepsPlace).Reachable
      (some (applyRoomSnapshot (some first) second)) :=
    .step (a := .snapshot second) hfirst ⟨Or.inl hgeneration.le,⟨long,_,_,hlong,rfl⟩,rfl⟩
  have htaken : (applyRoomSnapshot (some first) second).currentIndex = 1 := by
    have hle : first.generation ≤ second.generation := hgeneration.le
    simp only [applyRoomSnapshot,hle,decide_true,if_true]
    exact hindex
  refine ⟨_,hsecond,htaken,?_⟩
  have hvalid := (client_current_item hsecond).1.index
  rw [htaken] at hvalid
  exact hvalid

/-- A late snapshot brings a playlist that is too short for the index that is kept. -/
theorem late_snapshot_leaves_index : ¬∀ (env : Env) (s : ClientRoomState),
    (itemSystem env).Reachable (some s) → ValidIndex s.playlist.length s.currentIndex := by
  intro h
  obtain ⟨short,long,hshort,hlong,hgeneration,hlength,hindex⟩ := exists_longer_playlist
  let first := buildSanitizedSnapshot long Record.empty 0
  let late := buildSanitizedSnapshot short Record.empty 0
  have hstart : (itemSystem scenarioEnv).Reachable none := .init fun s hs => by cases hs
  have hfirst : (itemSystem scenarioEnv).Reachable (some first) :=
    .step (a := .snapshot first) hstart ⟨⟨long,_,_,hlong,rfl⟩,rfl⟩
  have hlate : (itemSystem scenarioEnv).Reachable (some (applyRoomSnapshot (some first) late)) :=
    .step (a := .snapshot late) hfirst ⟨⟨short,_,_,hshort,rfl⟩,rfl⟩
  have hkept : (applyRoomSnapshot (some first) late).currentIndex = 1 := by
    have hnot : ¬first.generation ≤ late.generation := not_le.mpr hgeneration
    simp only [applyRoomSnapshot,hnot,decide_false,Bool.false_eq_true,if_false]
    exact hindex
  have hshows := (h scenarioEnv _ hlate).2
  rw [hkept] at hshows
  have hone : (applyRoomSnapshot (some first) late).playlist.length = 1 := hlength
  rw [hone] at hshows
  exact absurd hshows (by decide)

def blankCopy (generation : ℕ) (playback : PlaybackState) : ClientRoomState where
  roomId := "room"
  ownerId := "ann"
  roomSecurity := publicRoomSecurity createDefaultRoomSecurity
  playback := playback
  playlist := []
  currentIndex := 0
  participants := Record.empty
  actionLog := []
  updatedAt := 0
  generation := generation
  structuralRevision := 0
  presenceRevision := none

theorem reconnect_takes_snapshot_of_fresh_copy : ∃ state, Stored scenarioEnv state ∧
    ∀ playback, let control := controlPayloadFromState state
      let copy := applyRoomSnapshot (some (resetOnConnect (blankCopy 0 playback)))
        (buildSanitizedSnapshot state Record.empty 0)
      copy.playback = (buildSanitizedSnapshot state Record.empty 0).playback ∧
        ControlsApplied copy [.control control,
          .control (handleSeekPreview (rememberControlProjection control) "ann" 5000 5)] := by
  obtain ⟨state,hs,hgeneration⟩ := exists_stored_of_runRoom scenarioEnv [joinAs "ann" 1000 {}]
    (fun state => 0 < state.generation) (by decide +kernel)
  refine ⟨state,hs,fun playback => ?_⟩
  have htaken := (reconnect_takes_snapshot (blankCopy 0 playback) state Record.empty 0
    [.control (controlPayloadFromState state),.control (handleSeekPreview
      (rememberControlProjection (controlPayloadFromState state)) "ann" 5000 5)]).mpr
    ⟨Or.inl hgeneration,(max_eq_right hgeneration.le).le,le_rfl,trivial⟩
  exact ⟨htaken.1,htaken.2.2⟩

/-- A copy of generation 12 keeps its playback when the room starts over; a fresh one drops a scrub
preview that a node sends out with the generation of an older control. -/
theorem reconnect_keeps_old_playback :
    (¬∀ (env : Env) (state : RoomState) (prev : ClientRoomState), Stored env state →
      (applyRoomSnapshot (some (resetOnConnect prev))
        (buildSanitizedSnapshot state Record.empty 0)).playback =
          (buildSanitizedSnapshot state Record.empty 0).playback) ∧
    ∃ short long prev, Stored scenarioEnv short ∧ Stored scenarioEnv long ∧
      GivesWay prev (buildSanitizedSnapshot short Record.empty 0) ∧
      ¬ControlsApplied (applyRoomSnapshot (some (resetOnConnect prev))
          (buildSanitizedSnapshot short Record.empty 0))
        [.snapshot (buildSanitizedSnapshot long Record.empty 0),.control (handleSeekPreview
          (rememberControlProjection (controlPayloadFromState short)) "ann" 5000 5)] := by
  constructor
  · intro h
    obtain ⟨state,hs,hgeneration,hpaused⟩ := exists_stored_of_runRoom scenarioEnv
      [joinAs "ann" 1000 {}] (fun state => state.generation < 12 ∧ state.playback.paused = true)
      (by decide +kernel)
    let playing : PlaybackState := { state.playback with paused := false }
    have hsame := h scenarioEnv state (blankCopy 12 playing) hs
    have hnot : ¬12 ≤ state.generation := not_le.mpr hgeneration
    simp only [applyRoomSnapshot,resetOnConnect,blankCopy,buildSanitizedSnapshot,hnot,decide_false,
      Bool.false_and,Bool.false_eq_true,if_false] at hsame
    have hflag : false = state.playback.paused := congrArg PlaybackState.paused hsame
    rw [hpaused] at hflag
    cases hflag
  · obtain ⟨short,long,hshort,hlong,hgeneration,-⟩ := exists_longer_playlist
    refine ⟨short,long,blankCopy 0 short.playback,hshort,hlong,?_,?_⟩
    · rcases Nat.eq_zero_or_pos short.generation with hzero | hpos
      · refine Or.inr (Or.inl ⟨hzero.symm,?_⟩)
        change previewActive short.playback = false
        rw [previewActive,hshort.no_preview]
        rfl
      · exact Or.inl hpos
    · rw [controlsApplied_iff]
      rintro ⟨hle,-⟩
      exact absurd ((le_max_right _ _).trans hle) (not_le.mpr hgeneration)

end Scenario

end WebSyncPlay
