import WebSyncPlay.PlaylistInvariant

/-! The projected playhead of a stored room: what each operation does to it, when it
runs on through an operation and when a new current item starts at zero. -/
namespace WebSyncPlay

open Library

/-- The ranges in which repair leaves the numbers of a playback. -/
structure PlaybackInv (p : PlaybackState) : Prop where
  rate_ge : 1/4 ≤ p.playbackRate
  rate_le : p.playbackRate ≤ 3
  anchor : 0 ≤ p.timelineAnchorMs
  clock : 0 ≤ p.serverNowMs

theorem sanitizePlayback_inv (p : PlaybackState) : PlaybackInv (sanitizePlayback p) where
  rate_ge := le_min (by norm_num) (le_max_left _ _)
  rate_le := min_le_left _ _
  anchor := le_max_left _ _
  clock := le_max_left _ _

theorem sanitizePlayback_eq {p : PlaybackState} (h : PlaybackInv p) : sanitizePlayback p = p := by
  simp only [sanitizePlayback,max_eq_right h.rate_ge,min_eq_right h.rate_le,max_eq_right h.anchor,
    max_eq_right h.clock]

theorem PlaybackInv.position_nonneg {p : PlaybackState} (h : PlaybackInv p) (nowMs : ℕ) :
    0 ≤ p.positionAt nowMs := by
  have hrate : 0 ≤ p.playbackRate := le_trans (by norm_num) h.rate_ge
  unfold PlaybackState.positionAt
  split
  · exact h.anchor
  · exact add_nonneg h.anchor (mul_nonneg (le_max_left _ _) hrate)

structure SameTimeline (p p' : PlaybackState) : Prop where
  paused : p'.paused = p.paused
  rate : p'.playbackRate = p.playbackRate
  anchor : p'.timelineAnchorMs = p.timelineAnchorMs
  clock : p'.serverNowMs = p.serverNowMs

theorem SameTimeline.refl (p : PlaybackState) : SameTimeline p p := ⟨rfl,rfl,rfl,rfl⟩

theorem SameTimeline.position {p p' : PlaybackState} (h : SameTimeline p p') (nowMs : ℕ) :
    p'.positionAt nowMs = p.positionAt nowMs := by
  simp only [PlaybackState.positionAt,h.paused,h.rate,h.anchor,h.clock]

theorem SameTimeline.inv {p p' : PlaybackState} (h : SameTimeline p p') (hp : PlaybackInv p) :
    PlaybackInv p' :=
  ⟨h.rate ▸ hp.rate_ge,h.rate ▸ hp.rate_le,h.anchor ▸ hp.anchor,h.clock ▸ hp.clock⟩

/-- The projected playhead has become the anchor, on a clock that has reached `nowMs`. -/
structure HeldAt (nowMs : ℕ) (p p' : PlaybackState) : Prop where
  anchor : p'.timelineAnchorMs = p.positionAt nowMs
  clock : p'.serverNowMs = nextMonotonicMs p.serverNowMs nowMs

theorem HeldAt.position {nowMs : ℕ} {p p' : PlaybackState} (h : HeldAt nowMs p p') :
    p'.positionAt nowMs = p.positionAt nowMs :=
  (PlaybackState.positionAt_of_le (h.clock ▸ next_le_nextMonotonicMs _ _)).trans h.anchor

/-- A pause that leaves the anchor behind and yet moves the clock. -/
def PlaybackState.stopAt (p : PlaybackState) (nowMs : ℕ) : PlaybackState :=
  { p with
    paused := true
    serverNowMs := nextMonotonicMs p.serverNowMs nowMs }

theorem PlaybackState.stopAt_position {p : PlaybackState} (h : PlaybackInv p)
    (hplaying : p.paused = false) (nowMs : ℕ) :
    (p.stopAt nowMs).positionAt nowMs = p.positionAt nowMs ↔ (nowMs : ℚ) ≤ p.serverNowMs := by
  have hrate : 0 < p.playbackRate := lt_of_lt_of_le (by norm_num) h.rate_ge
  have hstopped : (p.stopAt nowMs).positionAt nowMs = p.timelineAnchorMs := rfl
  rw [hstopped]
  constructor
  · intro heq
    have helapsed : max 0 ((nowMs : ℚ)-p.serverNowMs)*p.playbackRate = 0 := by
      simp only [PlaybackState.positionAt,hplaying,Bool.false_eq_true,if_false] at heq
      linarith
    have hzero := (mul_eq_zero.mp helapsed).resolve_right hrate.ne'
    have hle := max_eq_left_iff.mp hzero
    linarith
  · intro hle
    exact (PlaybackState.positionAt_of_le hle).symm

/-- The playback with which an operation starts the first item of an empty playlist:
the old timeline, and a local file plays at once. -/
def RoomOp.firstPlayback : RoomOp → RoomState → Option PlaybackState
  | .message _ _ (.playlistAddUrl _), state =>
    if state.playlist = [] then some state.playback else none
  | .message _ _ (.playlistAddLocal _), state =>
    if state.playlist = [] then some { state.playback with paused := false } else none
  | _, _ => none

def RoomOp.isSeek : RoomOp → Bool
  | .message _ _ (.playbackSeek _) => true
  | _ => false

/-- Selecting the item that is current already starts it over. -/
def RoomOp.restarts : RoomOp → RoomState → Bool
  | .message _ _ (.playlistSelect index), state => decide (state.currentIndex = index)
  | _, _ => false

/-- Going offline while playing a file of one's own stops the room. -/
def RoomOp.stopsPlayback : RoomOp → RoomState → Bool
  | .disconnect _ userId _ _, state => invalidatesCurrent state userId && !state.playback.paused
  | .abortJoin _ userId _, state => invalidatesCurrent state userId && !state.playback.paused
  | _, _ => false

/-- What an operation does to the timeline and to the current item. -/
inductive TimelineEffect (op : RoomOp) (state next : RoomState) : Prop
  | same (h : SameTimeline state.playback next.playback)
      (hcur : getCurrentMediaId next = getCurrentMediaId state)
      (hfirst : op.firstPlayback state = none) (hrestarts : op.restarts state = false)
      (hstops : op.stopsPlayback state = false)
  | held (h : HeldAt op.now state.playback next.playback)
      (hcur : getCurrentMediaId next = getCurrentMediaId state)
      (hfirst : op.firstPlayback state = none) (hrestarts : op.restarts state = false)
      (hstops : op.stopsPlayback state = false)
  | seek (hop : op.isSeek = true) (hcur : getCurrentMediaId next = getCurrentMediaId state)
  | restart (h : ResetAt op.now state.playback next.playback)
      (hcur : getCurrentMediaId next = getCurrentMediaId state)
      (hop : op.restarts state = true) (hstops : op.stopsPlayback state = false)
  | moved (h : ResetAt op.now state.playback next.playback)
      (hcur : getCurrentMediaId next ≠ getCurrentMediaId state)
      (hfirst : op.firstPlayback state = none)
  | first (p : PlaybackState) (hfirst : op.firstPlayback state = some p)
      (h : SameTimeline p next.playback)
      (hcur : getCurrentMediaId next ≠ getCurrentMediaId state)
  | stop (h : SameTimeline (state.playback.stopAt op.now) next.playback)
      (hcur : getCurrentMediaId next = getCurrentMediaId state)
      (hop : op.stopsPlayback state = true) (hplaying : state.playback.paused = false)
      (hrestarts : op.restarts state = false)

section CurrentItem

variable {env : Env} {state next : RoomState}

theorem PlaylistInv.index_zero (h : PlaylistInv env state) (hempty : state.playlist = []) :
    state.currentIndex = 0 := by
  obtain ⟨h0,hi⟩ := h.index
  rw [hempty,List.length_nil] at hi
  omega

theorem append_first_current {item : PlaylistItem} (hempty : state.playlist = [])
    (hp : next.playlist = state.playlist ++ [item]) (hindex : next.currentIndex = 0) : getCurrentMediaId next ≠ getCurrentMediaId state := by
  have hnone : getCurrentMediaId state = none := by
    rw [getCurrentMediaId,hempty,indexGet?_nil,Option.map_none]
  have hsome : getCurrentMediaId next = some item.id := by
    rw [getCurrentMediaId,hp,hempty,hindex]
    rfl
  rw [hnone,hsome]
  exact Option.some_ne_none _

theorem PlaylistInv.append_further (h : PlaylistInv env state) {item : PlaylistItem}
    (hne : state.playlist ≠ []) (hp : next.playlist = state.playlist ++ [item])
    (hindex : next.currentIndex = state.currentIndex) :
    getCurrentMediaId next = getCurrentMediaId state := by
  obtain ⟨h0,hi⟩ := h.index
  have hpos : 0 < state.playlist.length := List.length_pos_of_ne_nil hne
  obtain ⟨k,hk⟩ : ∃ k : ℕ, state.currentIndex = k := ⟨state.currentIndex.toNat,by omega⟩
  have hlt : k < state.playlist.length := by omega
  rw [getCurrentMediaId,getCurrentMediaId,hp,hindex,hk,indexGet?_natCast,indexGet?_natCast,
    List.getElem?_append_left hlt]

theorem PlaylistInv.current_ne (h : PlaylistInv env state) {index : ℕ}
    (hids : itemIds next = itemIds state) (hindex : next.currentIndex = index)
    (hlt : index < state.playlist.length) (hne : state.currentIndex ≠ index) :
    getCurrentMediaId next ≠ getCurrentMediaId state := by
  obtain ⟨h0,-⟩ := h.index
  obtain ⟨k,hk⟩ : ∃ k : ℕ, state.currentIndex = k := ⟨state.currentIndex.toNat,by omega⟩
  rw [getCurrentMediaId_eq,getCurrentMediaId_eq,hids,hindex,hk,indexGet?_natCast,indexGet?_natCast]
  intro hsame
  rw [← itemIds_length] at hlt
  have heq := (List.getElem?_inj hlt h.nodup).mp hsame
  omega

theorem PlaylistInv.remove_timeline (h : PlaylistInv env state) {itemId : ItemId} {now : ℕ}
    (hr : applyPlaylistRemove state itemId now = some next) :
    next.playback = state.playback ∧ getCurrentMediaId next = getCurrentMediaId state ∨
      ResetAt now state.playback next.playback ∧
        getCurrentMediaId next ≠ getCurrentMediaId state := by
  have hgone : getCurrentMediaId next ≠ some itemId := by
    intro hcur
    obtain ⟨item,hitem,hid⟩ := Option.map_eq_some_iff.mp hcur
    have hmem := indexGet?_mem hitem
    rw [(h.remove hr).2,List.mem_filter] at hmem
    simp [hid] at hmem
  have hcurrent := h.remove_current hr
  obtain ⟨index,item,adjusted,hitem,rfl,rfl,hp,-,-,-,hcases⟩ := applyPlaylistRemove_cases hr
  have hat : (index : ℤ) = state.currentIndex → getCurrentMediaId state = some item.id := by
    intro hat
    rw [getCurrentMediaId,← hat,indexGet?_natCast,hitem,Option.map_some]
  have hother : (index : ℤ) ≠ state.currentIndex → getCurrentMediaId state ≠ some item.id := by
    intro hnot hcur
    rw [getCurrentMediaId] at hcur
    obtain ⟨found,hfound,hid⟩ := Option.map_eq_some_iff.mp hcur
    obtain ⟨h0,hget⟩ := (indexGet?_eq_some_iff _ _ _).mp hfound
    have hlt := (List.getElem?_eq_some_iff.mp hitem).1
    have hsame : state.playlist[index]?.map (·.id) =
        state.playlist[state.currentIndex.toNat]?.map (·.id) := by rw [hitem,hget]; simp [hid]
    rw [← List.getElem?_map,← List.getElem?_map] at hsame
    have heq := (List.getElem?_inj ((itemIds_length state).symm ▸ hlt) h.nodup).mp hsame
    omega
  have hsame : ∀ hnot : (index : ℤ) ≠ state.currentIndex,
      getCurrentMediaId (pruneViewerMediaItemId adjusted item.id) = getCurrentMediaId state := by
    intro hnot
    rw [getCurrentMediaId,hcurrent (hother hnot),getCurrentMediaId]
  rcases hcases with ⟨hone,-,hreset⟩ | ⟨-,hbefore,-,hkept⟩ | ⟨-,heq,-,hreset⟩ | ⟨-,hafter,-,hkept⟩
  · have hzero : (index : ℤ) = state.currentIndex := by
      obtain ⟨h0,hi⟩ := h.index
      have hlt := (List.getElem?_eq_some_iff.mp hitem).1
      omega
    exact Or.inr ⟨hreset,hat hzero ▸ hgone⟩
  · exact Or.inl ⟨hkept,hsame (by omega)⟩
  · exact Or.inr ⟨hreset,hat heq ▸ hgone⟩
  · exact Or.inl ⟨hkept,hsame (by omega)⟩

end CurrentItem

section Messages

variable {env : Env} {ctx : RoomMessageContext} {inp : MessageInputs} {state next : RoomState}
    {participant : ParticipantState} {msg : RoomMessage}

theorem PlaylistInv.itemError_timeline (h : PlaylistInv env state) {itemId : ItemId}
    {error : Option String} {cleared : Bool} {now : ℕ}
    (he : applyPlaylistItemError state itemId error now = some (next,cleared)) :
    next.playback = state.playback ∧ getCurrentMediaId next = getCurrentMediaId state ∨
      ResetAt now state.playback next.playback ∧
        getCurrentMediaId next ≠ getCurrentMediaId state := by
  have hids := (h.itemError he).2
  obtain ⟨index,item,-,-,⟨-,-,rfl⟩ | rfl | ⟨message,failed,hf,hnext⟩⟩ :=
    applyPlaylistItemError_cases he
  · exact Or.inl ⟨rfl,getCurrentMediaId_of_ids hids rfl⟩
  · exact Or.inl ⟨rfl,rfl⟩
  · rcases hnext with rfl | ⟨hat,hlt,rfl⟩
    · rw [hf] at hids ⊢
      exact Or.inl ⟨rfl,getCurrentMediaId_of_ids hids rfl⟩
    · have hreset : ResetAt now state.playback (resetPlaybackTimeline
          { failed with currentIndex := (index+1 : ℕ) } now false).playback := by
        rw [hf]
        exact ⟨rfl,rfl⟩
      exact Or.inr ⟨hreset,h.current_ne hids rfl hlt (by omega)⟩

theorem MessageEffect.timeline (he : MessageEffect env ctx inp state participant msg next)
    (h : PlaylistInv env state) (hpb : PlaybackInv state.playback) :
    TimelineEffect (.message ctx inp msg) state next := by
  cases he with
  | seek => exact .seek rfl rfl
  | setPaused _ _ _ _ hmsg =>
    have hheld : max 0 (resolveCurrentTimelineMs state inp.now) = state.playback.positionAt inp.now :=
      max_eq_right (hpb.position_nonneg inp.now)
    rcases hmsg with rfl | rfl <;> exact .held ⟨hheld,rfl⟩ rfl rfl rfl rfl
  | rate => exact .held ⟨rfl,rfl⟩ rfl rfl rfl rfl
  | loop _ _ mode scope _ hmsg =>
    have hsame : SameTimeline state.playback (state.playback.setLoopMode mode scope) := by
      cases scope <;> exact ⟨rfl,rfl,rfl,rfl⟩
    rcases hmsg with rfl | rfl <;> exact .same hsame rfl rfl rfl rfl
  | select _ index _ _ hs =>
    obtain ⟨hlt,rfl⟩ := applyPlaylistSelect_eq_some hs
    have hreset : ResetAt inp.now state.playback (resetPlaybackTimeline
        { state with currentIndex := index } inp.now false).playback := ⟨rfl,rfl⟩
    by_cases hat : state.currentIndex = index
    · refine .restart hreset ?_ (decide_eq_true hat) rfl
      exact getCurrentMediaId_of_ids rfl hat.symm
    · exact .moved hreset (h.current_ne rfl rfl hlt hat) rfl
  | addUrl _ url _ _ =>
    by_cases hempty : state.playlist = []
    · exact .first state.playback (if_pos hempty) (.refl _)
        (append_first_current hempty rfl (h.index_zero hempty))
    · exact .same (.refl _) (h.append_further hempty rfl rfl) (if_neg hempty) rfl rfl
  | addLocal _ parsed _ _ =>
    by_cases hempty : state.playlist = []
    · have hzero : state.playlist.length = 0 := by rw [hempty,List.length_nil]
      refine .first { state.playback with paused := false } (if_pos hempty) ?_
        (append_first_current hempty rfl (if_pos hzero))
      simp only [RoomState.withLog_playback,hzero,if_true]
      exact .refl _
    · have hpos : state.playlist.length ≠ 0 := fun hz => hempty (List.length_eq_zero_iff.mp hz)
      refine .same ?_ (h.append_further hempty rfl (if_neg hpos)) (if_neg hempty) rfl rfl
      simp only [RoomState.withLog_playback,hpos,if_false]
      exact .refl _
  | itemError _ itemId error _ _ _ he =>
    rcases h.itemError_timeline he with ⟨hkept,hcur⟩ | ⟨hreset,hcur⟩
    · exact .same (by rw [RoomState.withLog_playback,hkept]; exact .refl _) hcur rfl rfl rfl
    · exact .moved hreset hcur rfl
  | reorder _ _ _ _ _ hr =>
    have hcur := congrArg (Option.map (·.id)) (h.reorder_current hr)
    obtain ⟨entry,-,-,rfl⟩ := applyPlaylistReorder_eq_some hr
    exact .same (.refl _) hcur rfl rfl rfl
  | rename _ _ _ _ _ hr =>
    have hkept := (h.relabel (applyPlaylistRename_eq_some hr) fun _ => ⟨rfl,rfl,rfl,rfl⟩).2
    rw [applyPlaylistRename_eq_some hr] at hkept ⊢
    exact .same (.refl _) (getCurrentMediaId_of_ids hkept rfl) rfl rfl rfl
  | remove _ _ _ _ hr =>
    rcases h.remove_timeline hr with ⟨hkept,hcur⟩ | ⟨hreset,hcur⟩
    · exact .same (by rw [RoomState.withLog_playback,hkept]; exact .refl _) hcur rfl rfl rfl
    · exact .moved hreset hcur rfl
  | itemDuration _ _ _ hd =>
    have hnext := (applyPlaylistItemDuration_eq_some hd).2
    have hkept := (h.relabel hnext fun _ => ⟨rfl,rfl,rfl,rfl⟩).2
    rw [hnext] at hkept ⊢
    exact .same (.refl _) (getCurrentMediaId_of_ids hkept rfl) rfl rfl rfl
  | itemTitle _ _ _ ht =>
    have hnext := (applyPlaylistItemTitle_eq_some ht).2
    have hkept := (h.relabel hnext fun _ => ⟨rfl,rfl,rfl,rfl⟩).2
    rw [hnext] at hkept ⊢
    exact .same (.refl _) (getCurrentMediaId_of_ids hkept rfl) rfl rfl rfl
  | localReady localMediaId =>
    obtain ⟨-,hkept⟩ : PlaylistInv env { state with
        playlist := state.playlist.map (readyLocalItem ctx.userId localMediaId) } ∧ _ :=
      h.map rfl rfl (readyLocalItem_id ctx.userId localMediaId)
        fun _ hi => hi.ready ctx.userId localMediaId
    exact .same (.refl _) (getCurrentMediaId_of_ids hkept rfl) rfl rfl rfl
  | abrPublish _ _ _ _ _ _ _ ha =>
    have hkept := (h.publishAbr ha).2
    obtain ⟨-,rfl⟩ := publishAbr_eq_some ha
    exact .same (.refl _) (getCurrentMediaId_of_ids hkept rfl) rfl rfl rfl
  | viewerMedia => exact .same (.refl _) rfl rfl rfl rfl
  | profile => exact .same (.refl _) rfl rfl rfl rfl
  | sameRole => exact .same (.refl _) rfl rfl rfl rfl
  | role => exact .same (.refl _) rfl rfl rfl rfl
  | security _ _ _ _ hmsg =>
    rcases hmsg with ⟨_,rfl⟩ | rfl | ⟨_,rfl⟩ <;> exact .same (.refl _) rfl rfl rfl rfl

end Messages

/-- What the timeline of a stored room rests on. -/
structure TimelineInv (env : Env) (state : RoomState) : Prop where
  playlist : PlaylistInv env state
  playback : PlaybackInv state.playback

section Operations

variable {env : Env} {state next : RoomState} {op : RoomOp}

theorem RoomOp.firstPlayback_inv {p : PlaybackState} (hpb : PlaybackInv state.playback)
    (hfirst : op.firstPlayback state = some p) : PlaybackInv p := by
  unfold RoomOp.firstPlayback at hfirst
  split at hfirst
  · split at hfirst
    · cases hfirst
      exact hpb
    · cases hfirst
  · split at hfirst
    · cases hfirst
      exact ⟨hpb.rate_ge,hpb.rate_le,hpb.anchor,hpb.clock⟩
    · cases hfirst
  · cases hfirst

theorem sanitizePlayback_sameTimeline {p : PlaybackState} (h : PlaybackInv p) :
    SameTimeline p (sanitizePlayback p) := by
  rw [sanitizePlayback_eq h]
  exact .refl p

theorem SameTimeline.trans {p q r : PlaybackState} (h : SameTimeline p q)
    (h' : SameTimeline q r) : SameTimeline p r :=
  ⟨h'.paused.trans h.paused,h'.rate.trans h.rate,h'.anchor.trans h.anchor,h'.clock.trans h.clock⟩

theorem sanitizePlayback_timeline {p p' : PlaybackState} (hp : 0 ≤ p.timelineAnchorMs)
    (hc : 0 ≤ p.serverNowMs) (h : SameTimeline (sanitizePlayback p) p') :
    p'.timelineAnchorMs = p.timelineAnchorMs ∧ p'.serverNowMs = p.serverNowMs :=
  ⟨h.anchor.trans (max_eq_right hp),h.clock.trans (max_eq_right hc)⟩

theorem nextMonotonicMs_nonneg (previous : ℚ) (nowMs : ℕ) :
    0 ≤ nextMonotonicMs previous nowMs :=
  (Nat.cast_nonneg nowMs).trans (next_le_nextMonotonicMs _ _)

theorem TimelineEffect.repaired {mutated : RoomState} (he : TimelineEffect op state mutated)
    (hpb : PlaybackInv state.playback) (hmessage : op.stopsPlayback state = false)
    (hnext : SameTimeline (sanitizePlayback mutated.playback) next.playback)
    (hcurrent : getCurrentMediaId next = getCurrentMediaId mutated) :
    TimelineEffect op state next := by
  have hkeep : ∀ {p}, PlaybackInv p → SameTimeline p mutated.playback →
      SameTimeline p next.playback := by
    intro p hp hsame
    exact (hsame.trans (sanitizePlayback_sameTimeline (hsame.inv hp))).trans hnext
  cases he with
  | same h hcur hfirst hrestarts hstops =>
    exact .same (hkeep hpb h) (hcurrent.trans hcur) hfirst hrestarts hstops
  | held h hcur hfirst hrestarts hstops =>
    have hanchor : 0 ≤ mutated.playback.timelineAnchorMs := h.anchor ▸ hpb.position_nonneg op.now
    have hclock : 0 ≤ mutated.playback.serverNowMs := h.clock ▸ nextMonotonicMs_nonneg _ op.now
    obtain ⟨ha,hc⟩ := sanitizePlayback_timeline hanchor hclock hnext
    exact .held ⟨ha.trans h.anchor,hc.trans h.clock⟩ (hcurrent.trans hcur) hfirst hrestarts hstops
  | seek hop hcur => exact .seek hop (hcurrent.trans hcur)
  | restart h hcur hop hstops =>
    have hclock : 0 ≤ mutated.playback.serverNowMs := h.clock ▸ nextMonotonicMs_nonneg _ op.now
    obtain ⟨ha,hc⟩ := sanitizePlayback_timeline h.anchor.ge hclock hnext
    exact .restart ⟨ha.trans h.anchor,hc.trans h.clock⟩ (hcurrent.trans hcur) hop hstops
  | moved h hcur hfirst =>
    have hclock : 0 ≤ mutated.playback.serverNowMs := h.clock ▸ nextMonotonicMs_nonneg _ op.now
    obtain ⟨ha,hc⟩ := sanitizePlayback_timeline h.anchor.ge hclock hnext
    exact .moved ⟨ha.trans h.anchor,hc.trans h.clock⟩ (hcurrent ▸ hcur) hfirst
  | first p hfirst h hcur =>
    exact .first p hfirst (hkeep (op.firstPlayback_inv hpb hfirst) h) (hcurrent ▸ hcur)
  | stop _ _ hop _ _ =>
    rw [hmessage] at hop
    cases hop

theorem TimelineEffect.of_reconciled {active : Finset UserId} {now : ℕ}
    (he : TimelineEffect op (reconcileParticipantsConnectivity active now state) next) :
    TimelineEffect op state next := by
  have hfirst : op.firstPlayback (reconcileParticipantsConnectivity active now state) =
      op.firstPlayback state := by
    unfold RoomOp.firstPlayback
    split <;> rfl
  have hrestarts : op.restarts (reconcileParticipantsConnectivity active now state) =
      op.restarts state := by
    unfold RoomOp.restarts
    split <;> rfl
  have hstops : op.stopsPlayback (reconcileParticipantsConnectivity active now state) =
      op.stopsPlayback state := by
    unfold RoomOp.stopsPlayback
    split <;> rfl
  cases he with
  | same h hcur hf hr hs => exact .same h hcur (hfirst ▸ hf) (hrestarts ▸ hr) (hstops ▸ hs)
  | held h hcur hf hr hs => exact .held h hcur (hfirst ▸ hf) (hrestarts ▸ hr) (hstops ▸ hs)
  | seek hop hcur => exact .seek hop hcur
  | restart h hcur hop hs => exact .restart h hcur (hrestarts ▸ hop) (hstops ▸ hs)
  | moved h hcur hf => exact .moved h hcur (hfirst ▸ hf)
  | first p hf h hcur => exact .first p (hfirst ▸ hf) h hcur
  | stop h hcur hop hplaying hr => exact .stop h hcur (hstops ▸ hop) hplaying (hrestarts ▸ hr)

theorem reresolve_ids {itemId : ItemId} {now : ℕ}
    (hr : reresolveRemotePlaylistItem itemId now state = some next) :
    itemIds next = itemIds state := by
  rw [(reresolveRemotePlaylistItem_eq_some hr).2]
  exact updateItem_ids state itemId fun _ => rfl

theorem message_timeline (h : TimelineInv env state) {ctx : RoomMessageContext}
    {inp : MessageInputs} {msg : RoomMessage}
    (hf : (RoomOp.message ctx inp msg).Fresh (some state))
    (hc : processRoomMessage env ctx inp msg state = some next) :
    TimelineEffect (.message ctx inp msg) state next ∧ PlaybackInv next.playback := by
  rcases processRoomMessage_cases hc with ⟨itemId,rfl,hr⟩ | ⟨p,mutated,hint,hp,he,rfl⟩
  · have hids := reresolve_ids hr
    rw [(reresolveRemotePlaylistItem_eq_some hr).2] at hids ⊢
    exact ⟨.same (.refl _) (getCurrentMediaId_of_ids hids rfl) rfl rfl rfl,h.playback⟩
  · have hinv : PlaylistInv env
        (reconcileParticipantsConnectivity inp.activeConnections inp.now state) :=
      h.playlist.congr rfl rfl
    have hmutated := (he.playlistInv hinv hf.1 hf.2).1
    obtain ⟨hplaylist,hindex⟩ := finishRoomMessage_playlist hmutated ctx.userId inp.newOwnerId
      inp.now hint
    have heffect : TimelineEffect (.message ctx inp msg) state mutated :=
      .of_reconciled (he.timeline hinv h.playback)
    have hsanitized : SameTimeline (sanitizePlayback mutated.playback)
        (finishRoomMessage env ctx.userId inp.newOwnerId inp.now hint mutated).playback :=
      ⟨rfl,rfl,rfl,rfl⟩
    exact ⟨heffect.repaired h.playback rfl hsanitized (getCurrentMediaId_congr hplaylist hindex),
      hsanitized.inv (sanitizePlayback_inv _)⟩

theorem wentOffline_timeline (h : TimelineInv env state) {roomId : String} {userId : UserId}
    (hstops : op.stopsPlayback state = (invalidatesCurrent state userId && !state.playback.paused))
    (hfirst : op.firstPlayback state = none) (hrestarts : op.restarts state = false) :
    TimelineEffect op state
        (bumpRoomRevisions (applyUserWentOffline env state roomId userId op.now).1) ∧
      PlaybackInv (bumpRoomRevisions
        (applyUserWentOffline env state roomId userId op.now).1).playback := by
  obtain ⟨-,hids⟩ : PlaylistInv env (applyUserWentOffline env state roomId userId op.now).1 ∧ _ :=
    h.playlist.map (applyUserWentOffline_playlist env state roomId userId op.now)
      (applyUserWentOffline_currentIndex env state roomId userId op.now)
      (blockLocalItem_id userId) fun _ hi => hi.block userId
  have hcur : getCurrentMediaId
      (bumpRoomRevisions (applyUserWentOffline env state roomId userId op.now).1) =
        getCurrentMediaId state :=
    getCurrentMediaId_of_ids hids
      (applyUserWentOffline_currentIndex env state roomId userId op.now)
  have hplayback := applyUserWentOffline_playback env state roomId userId op.now
  cases hblocks : invalidatesCurrent state userId && !state.playback.paused with
  | true =>
    rw [hblocks,if_pos rfl] at hplayback
    have hstop : SameTimeline (state.playback.stopAt op.now)
        (bumpRoomRevisions (applyUserWentOffline env state roomId userId op.now).1).playback := by
      rw [bumpRoomRevisions_playback,hplayback]
      exact .refl _
    have hplaying : state.playback.paused = false := by
      simp only [Bool.and_eq_true,Bool.not_eq_true'] at hblocks
      exact hblocks.2
    exact ⟨.stop hstop hcur (hstops.trans hblocks) hplaying hrestarts,hstop.inv
      ⟨h.playback.rate_ge,h.playback.rate_le,h.playback.anchor,nextMonotonicMs_nonneg _ op.now⟩⟩
  | false =>
    rw [hblocks,if_neg Bool.false_ne_true] at hplayback
    have hsame : SameTimeline state.playback
        (bumpRoomRevisions (applyUserWentOffline env state roomId userId op.now).1).playback := by
      rw [bumpRoomRevisions_playback,hplayback]
      exact .refl _
    exact ⟨.same hsame hcur hfirst hrestarts (hstops.trans hblocks),hsame.inv h.playback⟩

/-- A join leaves the playback as the repair of the room it found has it, up to the
media mark. -/
theorem join_playback {input : JoinInput} {existing : Option RoomState}
    (hc : commitJoinMembership env input existing = some next) :
    next.playback =
      { sanitizePlayback (existing.getD (createInitialRoomState env input)).playback with
        mediaId := next.playback.mediaId } := by
  obtain ⟨log,generation,structuralRevision,rfl⟩ := commitJoinMembership_eq_some hc
  have hplayback := enterParticipant_frame env input (·.playback)
    (fun _ _ _ _ _ => rfl) (joinBase env input existing)
  have hbase : (joinBase env input existing).playback =
      sanitizePlayback (existing.getD (createInitialRoomState env input)).playback := by
    unfold joinBase
    rw [reconcileParticipantsConnectivity_playback,applyRoomStateRepair_playback]
  generalize (enterParticipant env input (joinBase env input existing)).1 = entered
    at hplayback ⊢
  rw [← hbase,← hplayback]
  rfl

theorem join_timeline {input : JoinInput} {existing : Option RoomState}
    (hc : commitJoinMembership env input existing = some next) :
    SameTimeline (sanitizePlayback (existing.getD (createInitialRoomState env input)).playback)
      next.playback := by
  rw [join_playback hc]
  exact ⟨rfl,rfl,rfl,rfl⟩

theorem join_playlist {input : JoinInput} {existing : Option RoomState}
    (hc : commitJoinMembership env input existing = some next) :
    next.playlist = (joinBase env input existing).playlist ∧
      next.currentIndex = (joinBase env input existing).currentIndex := by
  obtain ⟨log,generation,structuralRevision,rfl⟩ := commitJoinMembership_eq_some hc
  have hplaylist := enterParticipant_frame env input (·.playlist)
    (fun _ _ _ _ _ => rfl) (joinBase env input existing)
  have hindex := enterParticipant_frame env input (·.currentIndex)
    (fun _ _ _ _ _ => rfl) (joinBase env input existing)
  generalize (enterParticipant env input (joinBase env input existing)).1 = entered
    at hplaylist hindex ⊢
  exact ⟨hplaylist,hindex⟩

theorem commit_timeline (h : TimelineInv env state) (hf : op.Fresh (some state))
    (hc : op.commit env (some state) = some next) :
    TimelineEffect op state next ∧ PlaybackInv next.playback := by
  have hrepaired : ∀ {s : RoomState}, op.firstPlayback state = none → op.restarts state = false →
      op.stopsPlayback state = false → SameTimeline (sanitizePlayback state.playback) s.playback →
      s.playlist = state.playlist → s.currentIndex = state.currentIndex →
      TimelineEffect op state s ∧ PlaybackInv s.playback := by
    intro s hfirst hrestarts hstops hsame hp hi
    exact ⟨.same ((sanitizePlayback_sameTimeline h.playback).trans hsame)
      (getCurrentMediaId_congr hp hi) hfirst hrestarts hstops,hsame.inv (sanitizePlayback_inv _)⟩
  have hsame : ∀ {s : RoomState}, op.firstPlayback state = none → op.restarts state = false →
      op.stopsPlayback state = false → s.playback = state.playback →
      getCurrentMediaId s = getCurrentMediaId state →
      TimelineEffect op state s ∧ PlaybackInv s.playback := by
    intro s hfirst hrestarts hstops hplayback hcur
    exact ⟨.same (hplayback ▸ .refl _) hcur hfirst hrestarts hstops,hplayback ▸ h.playback⟩
  cases op with
  | message ctx inp msg => exact message_timeline h hf hc
  | join input =>
    have htimeline := join_timeline hc
    obtain ⟨hp,hi⟩ := join_playlist hc
    obtain ⟨hplaylist,hindex⟩ := applyRoomStateRepair_playlist h.playlist input.now input.newOwnerId
    exact hrepaired rfl rfl rfl htimeline (hp.trans hplaylist) (hi.trans hindex)
  | disconnect roomId userId activeUsers now =>
    rw [(handleSocketDisconnect_eq_some hc).2]
    exact wentOffline_timeline h rfl rfl rfl
  | abortJoin roomId userId now =>
    rw [abortJoinAfterCommit_eq_some hc]
    exact wentOffline_timeline h rfl rfl rfl
  | cleanup activeConnections newOwnerId now =>
    have hframe := transferOwnershipIfNeeded_frame env now
      (sweepBase env activeConnections newOwnerId now state) .cleanup
      (fun s => (s.playback,s.playlist,s.currentIndex)) fun _ _ _ _ => rfl
    obtain ⟨hplaylist,hindex⟩ := applyRoomStateRepair_playlist h.playlist now newOwnerId
    rw [cleanupInactiveRoom_eq_some hc]
    generalize transferOwnershipIfNeeded env now
      (sweepBase env activeConnections newOwnerId now state) .cleanup = swept at hframe ⊢
    obtain ⟨hplayback,hframe⟩ := Prod.mk.inj hframe
    obtain ⟨hp,hi⟩ := Prod.mk.inj hframe
    refine hrepaired rfl rfl rfl ?_ (hp.trans hplaylist) (hi.trans hindex)
    exact ⟨congrArg _ hplayback,congrArg _ hplayback,congrArg _ hplayback,congrArg _ hplayback⟩
  | prune userId now =>
    have hframe := transferOwnershipIfNeeded_frame env now
      { state with participants := state.participants.erase userId } .prune
      (fun s => (s.playback,getCurrentMediaId s)) fun _ _ _ _ => rfl
    rw [(removeDisconnectedParticipant_eq_some hc).2]
    generalize transferOwnershipIfNeeded env now
      { state with participants := state.participants.erase userId } .prune = moved at hframe ⊢
    exact hsame rfl rfl rfl (Prod.mk.inj hframe).1 (Prod.mk.inj hframe).2
  | pruneFallback now =>
    have hframe := transferOwnershipIfNeeded_frame env now (pruneOfflineParticipants state now)
      .prune (fun s => (s.playback,getCurrentMediaId s)) fun _ _ _ _ => rfl
    rw [pruneByDisconnectedAtFallback_eq_some hc]
    generalize transferOwnershipIfNeeded env now (pruneOfflineParticipants state now) .prune =
      moved at hframe ⊢
    exact hsame rfl rfl rfl (Prod.mk.inj hframe).1 (Prod.mk.inj hframe).2
  | reresolve itemId now =>
    have hids := reresolve_ids hc
    rw [(reresolveRemotePlaylistItem_eq_some hc).2] at hids ⊢
    exact hsame rfl rfl rfl rfl (getCurrentMediaId_of_ids hids rfl)
  | settleResolve itemId outcome retryUntilPresent now =>
    rcases commitResolvingItem_eq_some hc with rfl | ⟨⟨item,hitem,hwaits⟩,rfl⟩
    · exact hsame rfl rfl rfl rfl rfl
    · have hids : itemIds (touchRoomStructural (updateItem state itemId (outcome.mutateItem env))
          now) = itemIds state :=
        updateItem_ids state itemId fun item => (outcome.mutateItem_frame env item).1
      exact hsame rfl rfl rfl rfl (getCurrentMediaId_of_ids hids rfl)

end Operations

theorem Stored.timelineInv {env : Env} {state : RoomState} (h : Stored env state) :
    TimelineInv env state := by
  refine ⟨h.playlistOk.inv,?_⟩
  apply h.invariant fun state => PlaybackInv state.playback
  · intro input next _ hc
    exact (join_timeline hc).inv (sanitizePlayback_inv _)
  · intro state op next hs hpb hf hc
    exact (commit_timeline ⟨hs.playlistOk.inv,hpb⟩ hf hc).2

/-- Nothing starts over that was under way, and nobody's leaving stops a running
timeline behind the clock. -/
def RoomOp.keepsPlayhead (op : RoomOp) (state : RoomState) : Prop :=
  (op.restarts state = true → resolveCurrentTimelineMs state op.now = 0) ∧
    (op.stopsPlayback state = true → (op.now : ℚ) ≤ state.playback.serverNowMs)

instance (op : RoomOp) (state : RoomState) : Decidable (op.keepsPlayhead state) := by
  unfold RoomOp.keepsPlayhead
  infer_instance

theorem TimelineEffect.continuity {op : RoomOp} {state next : RoomState}
    (he : TimelineEffect op state next) (hpb : PlaybackInv state.playback)
    (hseek : op.isSeek = false) (hcur : getCurrentMediaId next = getCurrentMediaId state) :
    (resolveCurrentTimelineMs next op.now = resolveCurrentTimelineMs state op.now ∧
      state.playback.serverNowMs ≤ next.playback.serverNowMs) ↔ op.keepsPlayhead state := by
  unfold RoomOp.keepsPlayhead
  cases he with
  | same h _ _ hrestarts hstops =>
    simp only [hrestarts,hstops,Bool.false_eq_true,false_implies,and_self,iff_true]
    exact ⟨h.position op.now,h.clock.ge⟩
  | held h _ _ hrestarts hstops =>
    simp only [hrestarts,hstops,Bool.false_eq_true,false_implies,and_self,iff_true]
    exact ⟨h.position,h.clock ▸ le_nextMonotonicMs _ _⟩
  | seek hop =>
    rw [hseek] at hop
    cases hop
  | restart h _ hop hstops =>
    have hclock : state.playback.serverNowMs ≤ next.playback.serverNowMs :=
      h.clock ▸ le_nextMonotonicMs _ _
    have hzero : resolveCurrentTimelineMs next op.now = 0 := h.position
    simp only [hop,hstops,hclock,hzero,forall_const,Bool.false_eq_true,false_implies,and_true]
    exact eq_comm
  | moved _ hne => exact absurd hcur hne
  | first _ _ _ hne => exact absurd hcur hne
  | stop h _ hop hplaying hrestarts =>
    have hclock : state.playback.serverNowMs ≤ next.playback.serverNowMs :=
      h.clock ▸ le_nextMonotonicMs _ _
    have hposition : resolveCurrentTimelineMs next op.now =
        (state.playback.stopAt op.now).positionAt op.now := h.position op.now
    simp only [hop,hrestarts,hclock,hposition,forall_const,Bool.false_eq_true,false_implies,
      true_and,and_true]
    exact PlaybackState.stopAt_position hpb hplaying op.now

/-- In every room whose timeline is in range, as that of every stored one is, an
operation that neither seeks nor changes the current item carries the projected
playhead through and never turns the clock back, just when it restarts nothing under
way and stops no running timeline behind the clock. -/
theorem playhead_continuity {env : Env} :
    (∀ state, Stored env state → TimelineInv env state) ∧
      ∀ (state next : RoomState) (op : RoomOp), TimelineInv env state → op.Fresh (some state) →
        op.commit env (some state) = some next → op.isSeek = false →
        getCurrentMediaId next = getCurrentMediaId state →
        ((resolveCurrentTimelineMs next op.now = resolveCurrentTimelineMs state op.now ∧
          state.playback.serverNowMs ≤ next.playback.serverNowMs) ↔ op.keepsPlayhead state) :=
  ⟨fun _ h => h.timelineInv,fun _ _ _ h hf hc hseek hcur =>
    (commit_timeline h hf hc).1.continuity h.playback hseek hcur⟩

theorem playhead_continuity_of_rate : ∃ state next : RoomState,
    resolveCurrentTimelineMs state 5000 = 4000 ∧
      resolveCurrentTimelineMs next 5000 = resolveCurrentTimelineMs state 5000 ∧
      state.playback.serverNowMs ≤ next.playback.serverNowMs := by
  let rate := messageFrom "ann" 5000 {"ann"} "new" (.playbackRate 2)
  obtain ⟨state,hstored,hposition,hf,hrate⟩ := exists_stored_of_runRoom scenarioEnv
    [joinAs "ann" 1000 {},
      messageFrom "ann" 2000 {"ann"} "file" (.playlistAddLocal (videoFile "film" none))]
    (fun state => resolveCurrentTimelineMs state 5000 = 4000 ∧ rate.Fresh (some state) ∧
      ((rate.commit scenarioEnv (some state)).any fun next =>
        getCurrentMediaId next == getCurrentMediaId state) = true)
    (by decide +kernel)
  obtain ⟨next,hc,hcur⟩ := (Option.any_eq_true _ _).mp hrate
  exact ⟨state,next,hposition,(playhead_continuity.2 state next rate hstored.timelineInv hf hc rfl
    (beq_iff_eq.mp hcur)).mpr ⟨nofun,nofun⟩⟩

/-- Ann's film runs from 1000; she leaves at 12000, and the playhead is back at zero. -/
theorem playhead_rewound_by_leaving : ¬∀ (env : Env) (state next : RoomState) (op : RoomOp),
    Stored env state → op.Fresh (some state) → op.commit env (some state) = some next →
      op.isSeek = false → op.restarts state = false →
      getCurrentMediaId next = getCurrentMediaId state →
      resolveCurrentTimelineMs next op.now = resolveCurrentTimelineMs state op.now := by
  intro h
  let leave := RoomOp.disconnect "room" "ann" {"bob"} 12000
  obtain ⟨state,hstored,hposition,hleave⟩ := exists_stored_of_runRoom scenarioEnv
    [joinAs "ann" 1000 {},joinAs "bob" 1500 {"ann"},
      messageFrom "ann" 2000 {"ann","bob"} "file" (.playlistAddLocal (videoFile "film" none))]
    (fun state => resolveCurrentTimelineMs state 12000 = 11000 ∧
      ((leave.commit scenarioEnv (some state)).any fun next =>
        getCurrentMediaId next == getCurrentMediaId state &&
          decide (resolveCurrentTimelineMs next 12000 = 0)) = true)
    (by decide +kernel)
  obtain ⟨next,hc,hnext⟩ := (Option.any_eq_true _ _).mp hleave
  simp only [Bool.and_eq_true,beq_iff_eq,decide_eq_true_eq] at hnext
  have hsame := h scenarioEnv state next leave hstored trivial hc rfl rfl hnext.1
  have heq : (0 : ℚ) = 11000 := hnext.2.symm.trans (hsame.trans hposition)
  norm_num at heq

theorem createInitialRoomState_position (env : Env) (input : JoinInput) :
    (sanitizePlayback (createInitialRoomState env input).playback).positionAt input.now = 0 := by
  have hpb : PlaybackInv (createInitialRoomState env input).playback :=
    ⟨by norm_num [createInitialRoomState],by norm_num [createInitialRoomState],
      le_refl (0 : ℚ),Nat.cast_nonneg input.now⟩
  rw [sanitizePlayback_eq hpb]
  exact PlaybackState.positionAt_of_le (le_refl (input.now : ℚ))

/-- A change of the current item starts it at zero, unless it is the first one of an
empty playlist and the timeline it is put on does not project to zero. -/
theorem new_item_starts_at_zero {env : Env} {room : Option RoomState} {next : RoomState}
    {op : RoomOp} (hr : (roomSystem env).Reachable room) (hf : op.Fresh room)
    (hc : op.commit env room = some next)
    (hnew : getCurrentMediaId next ≠ room.bind getCurrentMediaId) :
    resolveCurrentTimelineMs next op.now = 0 ↔
      ∀ state p, room = some state → op.firstPlayback state = some p →
        p.positionAt op.now = 0 := by
  cases room with
  | none =>
    cases op with
    | join input =>
      have hc : commitJoinMembership env input none = some next := hc
      have hzero : resolveCurrentTimelineMs next input.now = 0 :=
        ((join_timeline hc).position input.now).trans
          (createInitialRoomState_position env input)
      refine ⟨fun _ state p hs => ?_,fun _ => hzero⟩
      cases hs
    | _ => cases hc
  | some state =>
    have hnew : getCurrentMediaId next ≠ getCurrentMediaId state := hnew
    have hstored : Stored env state := hr
    cases (commit_timeline hstored.timelineInv hf hc).1 with
    | same _ hcur => exact absurd hcur hnew
    | held _ hcur => exact absurd hcur hnew
    | seek _ hcur => exact absurd hcur hnew
    | restart _ hcur => exact absurd hcur hnew
    | stop _ hcur => exact absurd hcur hnew
    | moved h _ hfirst =>
      refine ⟨fun _ s p hs hp => ?_,fun _ => h.position⟩
      cases hs
      rw [hfirst] at hp
      cases hp
    | first p hfirst h =>
      have hposition : resolveCurrentTimelineMs next op.now = p.positionAt op.now :=
        h.position op.now
      rw [hposition]
      constructor
      · intro hzero s q hs hq
        cases hs
        rw [hfirst] at hq
        cases hq
        exact hzero
      · intro hall
        exact hall state p rfl hfirst

theorem selected_item_starts_at_zero : ∃ next : RoomState,
    getCurrentMediaId next = some "two" ∧ resolveCurrentTimelineMs next 9000 = 0 := by
  let select := messageFrom "ann" 9000 {"ann"} "new" (.playlistSelect 1)
  obtain ⟨state,hstored,hf,hcurrent,hselect⟩ := exists_stored_of_runRoom scenarioEnv
    [joinAs "ann" 1000 {},
      messageFrom "ann" 2000 {"ann"} "one" (.playlistAddLocal (videoFile "film" none)),
      messageFrom "ann" 3000 {"ann"} "two" (.playlistAddLocal (videoFile "sequel" none))]
    (fun state => select.Fresh (some state) ∧ getCurrentMediaId state = some "one" ∧
      ((select.commit scenarioEnv (some state)).any fun next =>
        getCurrentMediaId next == some "two") = true)
    (by decide +kernel)
  obtain ⟨next,hc,htwo⟩ := (Option.any_eq_true _ _).mp hselect
  have htwo : getCurrentMediaId next = some "two" := beq_iff_eq.mp htwo
  have hnew : getCurrentMediaId next ≠ (some state).bind getCurrentMediaId := by
    rw [htwo,Option.bind_some,hcurrent]
    decide
  have hnone : ∀ s, select.firstPlayback s = none := fun _ => rfl
  refine ⟨next,htwo,(new_item_starts_at_zero hstored hf hc hnew).mpr fun s p _ hp => ?_⟩
  rw [hnone] at hp
  cases hp

/-- Ann's room is empty from 1000 on; the film that she adds at 61000 starts a minute in. -/
theorem first_item_starts_late : ¬∀ (env : Env) (room : Option RoomState) (next : RoomState)
    (op : RoomOp), (roomSystem env).Reachable room → op.Fresh room →
      op.commit env room = some next → getCurrentMediaId next ≠ room.bind getCurrentMediaId →
      resolveCurrentTimelineMs next op.now = 0 := by
  intro h
  let add := messageFrom "ann" 61000 {"ann"} "file" (.playlistAddLocal (videoFile "film" none))
  obtain ⟨state,hstored,hf,hcurrent,hadd⟩ := exists_stored_of_runRoom scenarioEnv
    [joinAs "ann" 1000 {}]
    (fun state => add.Fresh (some state) ∧ getCurrentMediaId state = none ∧
      ((add.commit scenarioEnv (some state)).any fun next =>
        getCurrentMediaId next == some "file" &&
          decide (resolveCurrentTimelineMs next 61000 = 60000)) = true)
    (by decide +kernel)
  obtain ⟨next,hc,hnext⟩ := (Option.any_eq_true _ _).mp hadd
  simp only [Bool.and_eq_true,beq_iff_eq,decide_eq_true_eq] at hnext
  have hnew : getCurrentMediaId next ≠ (some state).bind getCurrentMediaId := by
    rw [hnext.1,Option.bind_some,hcurrent]
    decide
  have hzero : resolveCurrentTimelineMs next 61000 = 0 :=
    h scenarioEnv (some state) next add hstored hf hc hnew
  rw [hnext.2] at hzero
  norm_num at hzero

end WebSyncPlay
