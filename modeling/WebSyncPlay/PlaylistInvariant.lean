import WebSyncPlay.RoomFrames

/-! The playlist of a stored room: distinct ids, a current index within it, the
limit, and preferences for its items only. -/
namespace WebSyncPlay

open Library

structure ItemInv (item : PlaylistItem) : Prop where
  status : item.ingestStatus ≠ none
  local_direct : item.sourceKind = .localFile → item.playbackMode = .direct
  local_settled : item.sourceKind = .localFile → item.ingestStatus ≠ some .resolving

structure PlaylistInv (env : Env) (state : RoomState) : Prop where
  nodup : (itemIds state).Nodup
  ids_ne : "" ∉ itemIds state
  index : ValidIndex state.playlist.length state.currentIndex
  length_le : state.playlist.length ≤ env.roomPlaylistLimit
  items : ∀ item ∈ state.playlist, ItemInv item

theorem itemIds_length (state : RoomState) : (itemIds state).length = state.playlist.length :=
  List.length_map _

theorem PlaylistInv.of_ids {env : Env} {state next : RoomState} (h : PlaylistInv env state)
    (hids : itemIds next = itemIds state) (hindex : next.currentIndex = state.currentIndex)
    (hitems : ∀ item ∈ next.playlist, ItemInv item) : PlaylistInv env next := by
  have hlen : next.playlist.length = state.playlist.length := by
    rw [← itemIds_length,hids,itemIds_length]
  exact {
    nodup := hids ▸ h.nodup
    ids_ne := hids ▸ h.ids_ne
    index := by rw [hlen,hindex]; exact h.index
    length_le := by rw [hlen]; exact h.length_le
    items := hitems }

theorem PlaylistInv.congr {env : Env} {state next : RoomState} (h : PlaylistInv env state)
    (hp : next.playlist = state.playlist) (hindex : next.currentIndex = state.currentIndex) :
    PlaylistInv env next :=
  h.of_ids (by rw [itemIds,hp,itemIds]) hindex (hp ▸ h.items)

/-- The current item exists unless the playlist is empty. -/
theorem PlaylistInv.current {env : Env} {state : RoomState} (h : PlaylistInv env state)
    (hne : state.playlist ≠ []) : ∃ item, indexGet? state.playlist state.currentIndex = some item :=
  h.index.isSome hne

section Repair

variable {env : Env} {state : RoomState}

theorem repairPlaylistItemFields_eq {item : PlaylistItem} (h : ItemInv item) :
    (repairPlaylistItemFields item).1 = item := by
  obtain ⟨hs,hd,-⟩ := h
  have hrelay : (item.sourceKind == .localFile && item.playbackMode == .relay) = false := by
    by_cases hl : item.sourceKind = .localFile
    · simp [hd hl]
    · simp [hl]
  have hstatus : (item.ingestStatus == none) = false := by simpa [Option.ne_none_iff_isSome] using hs
  simp [repairPlaylistItemFields,hrelay,hstatus]

theorem repairPlaylistState_eq (h : PlaylistInv env state) :
    (repairPlaylistState env state).1.playlist = state.playlist ∧
      (repairPlaylistState env state).1.currentIndex = state.currentIndex := by
  have hmap : state.playlist.map (fun item => (repairPlaylistItemFields item).1) =
      state.playlist := by
    rw [List.map_congr_left fun item hi => repairPlaylistItemFields_eq (h.items item hi)]
    exact List.map_id' _
  have hle : ¬env.roomPlaylistLimit < state.playlist.length := not_lt.mpr h.length_le
  obtain ⟨h0,hlt⟩ := h.index
  simp only [repairPlaylistState,hmap,hle,if_false,true_and]
  split <;> split <;> omega

theorem applyRoomStateRepair_playlist (h : PlaylistInv env state) (now : ℕ) (newOwnerId : UserId) :
    (applyRoomStateRepair env now newOwnerId state).playlist = state.playlist ∧
      (applyRoomStateRepair env now newOwnerId state).currentIndex = state.currentIndex :=
  repairPlaylistState_eq h

theorem finishRoomMessage_playlist (h : PlaylistInv env state) (userId newOwnerId : UserId)
    (now : ℕ) (hint : RoomPublishHint) :
    (finishRoomMessage env userId newOwnerId now hint state).playlist = state.playlist ∧
      (finishRoomMessage env userId newOwnerId now hint state).currentIndex = state.currentIndex :=
  repairPlaylistState_eq h

end Repair

section Operations

variable {env : Env} {state next : RoomState}

theorem PlaylistInv.modifyFirst (h : PlaylistInv env state) {p : PlaylistItem → Bool}
    {f : PlaylistItem → PlaylistItem} (hp : next.playlist = Library.modifyFirst p f state.playlist)
    (hindex : next.currentIndex = state.currentIndex) (hid : ∀ item, (f item).id = item.id)
    (hf : ∀ item ∈ state.playlist, p item = true → ItemInv item → ItemInv (f item)) :
    PlaylistInv env next ∧ itemIds next = itemIds state := by
  have hids : itemIds next = itemIds state := by
    rw [itemIds,hp]
    exact modifyFirst_map p f (·.id) state.playlist fun item _ _ => hid item
  refine ⟨h.of_ids hids hindex fun item hi => ?_,hids⟩
  rw [hp] at hi
  rcases mem_modifyFirst hi with hi | ⟨a,ha,rfl⟩
  · exact h.items item hi
  · have hmem := List.mem_of_find?_eq_some ha
    exact hf a hmem (List.find?_some ha) (h.items a hmem)

theorem PlaylistInv.map (h : PlaylistInv env state) {f : PlaylistItem → PlaylistItem}
    (hp : next.playlist = state.playlist.map f) (hindex : next.currentIndex = state.currentIndex)
    (hid : ∀ item, (f item).id = item.id) (hf : ∀ item, ItemInv item → ItemInv (f item)) :
    PlaylistInv env next ∧ itemIds next = itemIds state := by
  have hids : itemIds next = itemIds state := by
    rw [itemIds,hp,List.map_map]
    exact List.map_congr_left fun item _ => hid item
  refine ⟨h.of_ids hids hindex fun item hi => ?_,hids⟩
  rw [hp] at hi
  obtain ⟨a,ha,rfl⟩ := List.mem_map.mp hi
  exact hf a (h.items a ha)

theorem PlaylistInv.select (h : PlaylistInv env state) {index now : ℕ}
    (hs : applyPlaylistSelect state index now = some next) :
    PlaylistInv env next ∧ itemIds next = itemIds state := by
  obtain ⟨hlt,rfl⟩ := applyPlaylistSelect_eq_some hs
  refine ⟨{ h with index := ?_ },rfl⟩
  constructor <;> simp only [resetPlaybackTimeline_currentIndex,
    resetPlaybackTimeline_playlist] <;> omega

/-- A new item is appended under a new id; the index stays, or is zero in a playlist
that was empty. -/
theorem PlaylistInv.append (h : PlaylistInv env state) {item : PlaylistItem} (hitem : ItemInv item)
    (hne : item.id ≠ "") (hnew : item.id ∉ itemIds state)
    (hlimit : isPlaylistAtLimit state env.roomPlaylistLimit = false)
    (hp : next.playlist = state.playlist ++ [item])
    (hindex : next.currentIndex = state.currentIndex ∨
      state.playlist.length = 0 ∧ next.currentIndex = 0) :
    PlaylistInv env next ∧ itemIds next = itemIds state ++ [item.id] := by
  have hids : itemIds next = itemIds state ++ [item.id] := by simp [itemIds,hp]
  have hlt : state.playlist.length < env.roomPlaylistLimit := by
    simpa [isPlaylistAtLimit] using hlimit
  have hlen : next.playlist.length = state.playlist.length+1 := by simp [hp]
  refine ⟨?_,hids⟩
  exact {
    nodup := by
      rw [hids,List.nodup_append]
      exact ⟨h.nodup,by simp,by
        intro a ha b hb
        rw [List.mem_singleton.mp hb]
        rintro rfl
        exact hnew ha⟩
    ids_ne := by
      rw [hids,List.mem_append,not_or]
      exact ⟨h.ids_ne,by simpa using hne.symm⟩
    index := by
      obtain ⟨h0,hi⟩ := h.index
      constructor <;> omega
    length_le := by omega
    items := by
      intro a ha
      rw [hp,List.mem_append,List.mem_singleton] at ha
      rcases ha with ha | rfl
      · exact h.items a ha
      · exact hitem }

theorem followCurrentMedia_cases (state : RoomState) (playlist : List PlaylistItem) :
    (followCurrentMedia state playlist = state.currentIndex) ∨
      ∃ (k : ℕ) (item : PlaylistItem), playlist[k]? = some item ∧
        getCurrentMediaId state = some item.id ∧ followCurrentMedia state playlist = k := by
  unfold followCurrentMedia
  split
  · exact Or.inl rfl
  · rename_i id hid
    split
    · exact Or.inl rfl
    · split
      · exact Or.inl rfl
      · rename_i k hk
        obtain ⟨hlt,hpos,-⟩ := List.findIdx?_eq_some_iff_getElem.mp hk
        have hkid : playlist[k].id = id := by simpa using hpos
        exact Or.inr ⟨k,playlist[k],by simp [hlt],by rw [hid,hkid],rfl⟩

theorem PlaylistInv.reorder (h : PlaylistInv env state) {from_ to_ : ℕ}
    (hr : applyPlaylistReorder state from_ to_ = some next) :
    PlaylistInv env next ∧ (itemIds next).Perm (itemIds state) := by
  obtain ⟨entry,hentry,hto,rfl⟩ := applyPlaylistReorder_eq_some hr
  have hperm := move_perm hentry hto
  have hids := hperm.map (·.id)
  have hlen := hperm.length_eq
  refine ⟨?_,hids⟩
  exact {
    nodup := hids.nodup_iff.mpr h.nodup
    ids_ne := fun hm => h.ids_ne (hids.mem_iff.mp hm)
    index := by
      simp only [hlen]
      rcases followCurrentMedia_cases state
        ((state.playlist.eraseIdx from_).insertIdx to_ entry) with he | ⟨k,item,hk,-,he⟩
      · rw [he]
        exact h.index
      · have hlt := (List.getElem?_eq_some_iff.mp hk).1
        rw [he]
        constructor <;> omega
    length_le := hlen.trans_le h.length_le
    items := fun item hi => h.items item (hperm.mem_iff.mp hi) }

theorem applyPlaylistRemove_cases {itemId : ItemId} {now : ℕ}
    (hr : applyPlaylistRemove state itemId now = some next) :
    ∃ (index : ℕ) (item : PlaylistItem) (adjusted : RoomState),
      state.playlist[index]? = some item ∧ item.id = itemId ∧
      next = pruneViewerMediaItemId adjusted itemId ∧
      adjusted.playlist = state.playlist.eraseIdx index ∧
      adjusted.participants = state.participants ∧
      adjusted.ownerId = state.ownerId ∧ adjusted.roomSecurity = state.roomSecurity ∧
      ((state.playlist.length = 1 ∧ adjusted.currentIndex = 0 ∧
          ResetAt now state.playback adjusted.playback) ∨
        (1 < state.playlist.length ∧ (index : ℤ) < state.currentIndex ∧
          adjusted.currentIndex = state.currentIndex-1 ∧ adjusted.playback = state.playback) ∨
        (1 < state.playlist.length ∧ (index : ℤ) = state.currentIndex ∧
          adjusted.currentIndex = min (index : ℤ) (state.playlist.length-2) ∧
          ResetAt now state.playback adjusted.playback) ∨
        (1 < state.playlist.length ∧ state.currentIndex < (index : ℤ) ∧
          adjusted.currentIndex = state.currentIndex ∧ adjusted.playback = state.playback)) := by
  unfold applyPlaylistRemove at hr
  split at hr
  · cases hr
  · rename_i index hindex
    obtain ⟨hlt,hpos,-⟩ := List.findIdx?_eq_some_iff_getElem.mp hindex
    have hlen := List.length_eraseIdx_of_lt hlt
    cases hr
    refine ⟨index,state.playlist[index],_,by simp [hlt],by simpa using hpos,rfl,?_⟩
    dsimp only
    split
    · rename_i hzero
      exact ⟨rfl,rfl,rfl,rfl,Or.inl ⟨by omega,rfl,resetPlaybackTimeline_resetAt _ _ _⟩⟩
    · split
      · rename_i hzero hbefore
        exact ⟨rfl,rfl,rfl,rfl,Or.inr (Or.inl ⟨by omega,hbefore,rfl,rfl⟩)⟩
      · split
        · rename_i hzero hbefore hat
          refine ⟨rfl,rfl,rfl,rfl,Or.inr (Or.inr (Or.inl
            ⟨by omega,hat,?_,resetPlaybackTimeline_resetAt _ _ _⟩))⟩
          simp only [resetPlaybackTimeline_currentIndex,hlen]
          omega
        · rename_i hzero hbefore hat
          exact ⟨rfl,rfl,rfl,rfl,Or.inr (Or.inr (Or.inr ⟨by omega,by omega,rfl,rfl⟩))⟩

theorem PlaylistInv.remove (h : PlaylistInv env state) {itemId : ItemId} {now : ℕ}
    (hr : applyPlaylistRemove state itemId now = some next) :
    PlaylistInv env next ∧
      next.playlist = state.playlist.filter fun item => decide (item.id ≠ itemId) := by
  obtain ⟨index,item,adjusted,hitem,rfl,rfl,hp,-,-,-,hcases⟩ := applyPlaylistRemove_cases hr
  have hlt := (List.getElem?_eq_some_iff.mp hitem).1
  have hlen := List.length_eraseIdx_of_lt hlt
  have hsub := List.eraseIdx_sublist state.playlist index
  have hfilter := eraseIdx_eq_filter (fun item : PlaylistItem => item.id) h.nodup hitem
  refine ⟨?_,hp.trans hfilter⟩
  exact {
    nodup := by
      simp only [itemIds,pruneViewerMediaItemId_playlist,hp]
      exact h.nodup.sublist (hsub.map _)
    ids_ne := by
      simp only [itemIds,pruneViewerMediaItemId_playlist,hp]
      exact fun hm => h.ids_ne ((hsub.map _).mem hm)
    index := by
      obtain ⟨h0,hi⟩ := h.index
      simp only [pruneViewerMediaItemId_playlist,pruneViewerMediaItemId_currentIndex,hp,hlen]
      rcases hcases with ⟨_,hc,-⟩ | ⟨_,_,hc,-⟩ | ⟨_,_,hc,-⟩ | ⟨_,_,hc,-⟩ <;> rw [hc] <;>
        constructor <;> omega
    length_le := by
      have := h.length_le
      simp only [pruneViewerMediaItemId_playlist,hp,hlen]
      omega
    items := by
      intro item hi
      simp only [pruneViewerMediaItemId_playlist,hp] at hi
      exact h.items item (hsub.mem hi) }

theorem updateItem_ids (state : RoomState) (itemId : ItemId) {f : PlaylistItem → PlaylistItem}
    (hid : ∀ item, (f item).id = item.id) :
    itemIds (updateItem state itemId f) = itemIds state :=
  modifyFirst_map _ f (·.id) state.playlist fun item _ _ => hid item

theorem PlaylistInv.updateItem (h : PlaylistInv env state) (itemId : ItemId)
    (f : PlaylistItem → PlaylistItem) (hid : ∀ item, (f item).id = item.id)
    (hf : ∀ item, findItem state itemId = some item → ItemInv item → ItemInv (f item)) :
    PlaylistInv env (updateItem state itemId f) ∧
      itemIds (WebSyncPlay.updateItem state itemId f) = itemIds state := by
  have hids := updateItem_ids state itemId hid
  refine ⟨h.of_ids hids rfl fun item hi => ?_,hids⟩
  rcases mem_modifyFirst hi with hi | ⟨a,ha,rfl⟩
  · exact h.items item hi
  · exact hf a ha (h.items a (List.mem_of_find?_eq_some ha))

/-- Nothing that the invariant asks of an item has changed. -/
structure SameKind (item item' : PlaylistItem) : Prop where
  id : item'.id = item.id
  status : item'.ingestStatus = item.ingestStatus
  kind : item'.sourceKind = item.sourceKind
  mode : item'.playbackMode = item.playbackMode

theorem ItemInv.sameKind {item item' : PlaylistItem} (h : ItemInv item) (hs : SameKind item item') :
    ItemInv item' :=
  ⟨hs.status ▸ h.status,hs.kind ▸ hs.mode ▸ h.local_direct,hs.kind ▸ hs.status ▸ h.local_settled⟩

theorem PlaylistInv.relabel (h : PlaylistInv env state) {itemId : ItemId}
    {f : PlaylistItem → PlaylistItem} (hn : next = WebSyncPlay.updateItem state itemId f)
    (hf : ∀ item, SameKind item (f item)) : PlaylistInv env next ∧ itemIds next = itemIds state := by
  subst hn
  exact h.updateItem itemId f (fun item => (hf item).id) fun item _ hi => hi.sameKind (hf item)

theorem PlaylistInv.itemError (h : PlaylistInv env state) {itemId : ItemId}
    {error : Option String} {cleared : Bool} {now : ℕ}
    (he : applyPlaylistItemError state itemId error now = some (next,cleared)) :
    PlaylistInv env next ∧ itemIds next = itemIds state := by
  obtain ⟨index,item,-,-,⟨-,-,rfl⟩ | rfl | ⟨message,failed,hf,hnext⟩⟩ :=
    applyPlaylistItemError_cases he
  · exact h.updateItem itemId _ (fun _ => rfl) fun _ _ hi => ⟨by simp,hi.local_direct,by simp⟩
  · exact ⟨h,rfl⟩
  · have hfailed : PlaylistInv env failed ∧ itemIds failed = itemIds state := by
      rw [hf]
      exact h.updateItem itemId _ (fun _ => rfl) fun _ _ hi => ⟨by simp,hi.local_direct,by simp⟩
    rcases hnext with rfl | ⟨-,hlt,rfl⟩
    · exact hfailed
    · have hlen : failed.playlist.length = state.playlist.length := by
        rw [← itemIds_length,hfailed.2,itemIds_length]
      refine ⟨{ hfailed.1 with index := ?_ },hfailed.2⟩
      simp only [resetPlaybackTimeline_playlist,resetPlaybackTimeline_currentIndex,hlen]
      constructor <;> omega

theorem PlaylistInv.publishAbr (h : PlaylistInv env state) {userId : UserId} {parentId : String}
    {durationSec : ℚ} {streams : List PlaylistMediaStream} {default : PlaylistMediaStream}
    (ha : publishAbr userId parentId durationSec streams default state = some next) :
    PlaylistInv env next ∧ itemIds next = itemIds state := by
  obtain ⟨-,rfl⟩ := publishAbr_eq_some ha
  exact h.modifyFirst rfl rfl (fun _ => rfl) fun a _ _ ha => ⟨by simp,ha.local_direct,by simp⟩

theorem readyLocalItem_id (userId : UserId) (localMediaId : String) (item : PlaylistItem) :
    (readyLocalItem userId localMediaId item).id = item.id := by
  unfold readyLocalItem
  split <;> rfl

theorem ItemInv.ready {item : PlaylistItem} (h : ItemInv item) (userId : UserId)
    (localMediaId : String) : ItemInv (readyLocalItem userId localMediaId item) := by
  unfold readyLocalItem
  split
  · exact ⟨by simp,h.local_direct,by simp⟩
  · exact h

theorem ItemInv.block {item : PlaylistItem} (h : ItemInv item) (userId : UserId) :
    ItemInv (blockLocalItem userId item) := by
  unfold blockLocalItem
  split
  · exact ⟨by simp,h.local_direct,by simp⟩
  · exact h

theorem ItemInv.settle {item : PlaylistItem} (h : ItemInv item) (env : Env)
    (outcome : ResolveOutcome) (hwaits : item.ingestStatus = some .resolving) :
    ItemInv (outcome.mutateItem env item) := by
  have hremote : (outcome.mutateItem env item).sourceKind ≠ .localFile := by
    rw [(outcome.mutateItem_frame env item).2.1]
    exact fun hl => h.local_settled hl hwaits
  exact ⟨outcome.mutateItem_status env item,fun hl => absurd hl hremote,fun hl => absurd hl hremote⟩

end Operations

section Preferences

/-- The participant prefers streams of these items only. -/
def PrefersOnly (ids : List ItemId) (p : ParticipantState) : Prop :=
  ∀ prefs, p.viewerMedia = some prefs → ∀ id ∈ prefs.byItemId.keys, id ∈ ids

abbrev SameViewer (p p' : ParticipantState) : Prop := p'.viewerMedia = p.viewerMedia

theorem SameViewer.refl (p : ParticipantState) : SameViewer p p := rfl

theorem SameViewer.trans (a b c : ParticipantState) (h : SameViewer a b) (h' : SameViewer b c) :
    SameViewer a c :=
  Eq.trans h' h

def ViewerInv (state : RoomState) : Prop :=
  ∀ userId p, state.participants.get? userId = some p → PrefersOnly (itemIds state) p

variable {env : Env} {state next : RoomState}

theorem ViewerInv.of_derives (h : ViewerInv state)
    (hderives : state.participants.Derives SameViewer next.participants)
    (hids : ∀ id ∈ itemIds state, id ∈ itemIds next) : ViewerInv next := by
  intro userId p' hp' prefs hprefs id hid
  obtain ⟨p,hp,hviewer⟩ := hderives userId p' hp'
  exact hids id (h userId p hp prefs (hviewer ▸ hprefs) id hid)

theorem ViewerInv.of_seats (h : ViewerInv state)
    (hseats : Seats state.participants next.participants)
    (hids : ∀ id ∈ itemIds state, id ∈ itemIds next) : ViewerInv next :=
  h.of_derives (hseats.mono fun _ _ => SameSeat.viewerMedia) hids

theorem ViewerInv.congr (h : ViewerInv state) (hp : next.participants = state.participants)
    (hids : ∀ id ∈ itemIds state, id ∈ itemIds next) : ViewerInv next :=
  h.of_seats (hp ▸ .refl SameSeat.refl _) hids

theorem pruneViewerMedia_prefersOnly {ids : List ItemId} {p : ParticipantState}
    (h : PrefersOnly ids p) (itemId : ItemId) :
    PrefersOnly (ids.filter fun id => decide (id ≠ itemId)) (pruneViewerMedia itemId p) := by
  intro prefs hprefs id hid
  rw [List.mem_filter,decide_eq_true_iff]
  unfold pruneViewerMedia at hprefs
  split at hprefs
  · rename_i hnone
    rw [hnone] at hprefs
    cases hprefs
  · rename_i old hold
    split at hprefs
    · rename_i hget
      have he : prefs = old := Option.some.inj (hprefs.symm.trans hold)
      subst he
      refine ⟨h prefs hold id hid,?_⟩
      rintro rfl
      exact (Record.get?_eq_none_iff _ _).mp hget hid
    · dsimp only at hprefs
      split at hprefs
      · cases hprefs
      · cases hprefs
        obtain ⟨v,hv⟩ := (Record.mem_keys_iff _ _).mp hid
        rw [Record.get?_erase] at hv
        split at hv
        · cases hv
        · rename_i hne
          exact ⟨h old hold id ((Record.mem_keys_iff _ _).mpr ⟨v,hv⟩),hne⟩

theorem applyViewerMediaPreferences_prefersOnly {ids : List ItemId} {p p' : ParticipantState}
    {item : PlaylistItem} {parsed : ViewerMediaPreferencesInput} (h : PrefersOnly ids p)
    (hmem : parsed.itemId ∈ ids) (ha : applyViewerMediaPreferences p item parsed = some p') :
    PrefersOnly ids p' := by
  simp only [applyViewerMediaPreferences] at ha
  obtain ⟨pref,-,rfl⟩ := Option.map_eq_some_iff.mp ha
  intro prefs hprefs id hid
  cases hprefs
  obtain ⟨v,hv⟩ := (Record.mem_keys_iff _ _).mp hid
  have hset : ∃ v, (((p.viewerMedia.map (·.byItemId)).getD Record.empty).set parsed.itemId
      pref).get? id = some v := by
    unfold capViewerMediaByItemId at hv
    split at hv
    · exact ⟨v,hv⟩
    · exact ⟨v,Record.get?_drop_some _ _ _ _ hv⟩
  obtain ⟨v,hv⟩ := hset
  rw [Record.get?_set] at hv
  split at hv
  · rename_i he
    exact he ▸ hmem
  · cases hvm : p.viewerMedia with
    | none => simp [hvm] at hv
    | some old =>
      simp only [hvm,Option.map_some,Option.getD_some] at hv
      exact h old hvm id ((Record.mem_keys_iff _ _).mpr ⟨v,hv⟩)

end Preferences

section Messages

variable {env : Env} {ctx : RoomMessageContext} {inp : MessageInputs} {state next : RoomState}
    {participant : ParticipantState} {msg : RoomMessage}

theorem buildRemoteUrlPlaylistItem_inv (id : ItemId) (url : String) (createdBy : UserId)
    (createdAt : ℕ) : ItemInv (buildRemoteUrlPlaylistItem id url createdBy createdAt) :=
  ⟨by simp [buildRemoteUrlPlaylistItem],by simp [buildRemoteUrlPlaylistItem],
    by simp [buildRemoteUrlPlaylistItem]⟩

theorem buildLocalFilePlaylistItem_inv (id : ItemId) (name localMediaId mimeType : String)
    (sizeBytes : ℕ) (createdBy : UserId) (createdAt : ℕ) (durationSeconds : Option ℚ) :
    ItemInv (buildLocalFilePlaylistItem id name localMediaId mimeType sizeBytes createdBy createdAt
      durationSeconds) :=
  ⟨by simp [buildLocalFilePlaylistItem],fun _ => rfl,by simp [buildLocalFilePlaylistItem]⟩

theorem MessageEffect.playlistInv
    (he : MessageEffect env ctx inp state participant msg next) (h : PlaylistInv env state)
    (hne : inp.newId ≠ "") (hnew : inp.newId ∉ itemIds state) :
    PlaylistInv env next ∧ ((∃ itemId, msg = .playlistRemove itemId) ∨
      ∀ id ∈ itemIds state, id ∈ itemIds next) := by
  have hsame : ∀ {s : RoomState}, PlaylistInv env s ∧ itemIds s = itemIds state →
      PlaylistInv env s ∧ ((∃ itemId, msg = .playlistRemove itemId) ∨
        ∀ id ∈ itemIds state, id ∈ itemIds s) :=
    fun hs => ⟨hs.1,Or.inr fun id hid => hs.2 ▸ hid⟩
  have hlog : ∀ {s : RoomState} (log), PlaylistInv env s ∧ itemIds s = itemIds state →
      PlaylistInv env (s.withLog log) ∧ ((∃ itemId, msg = .playlistRemove itemId) ∨
        ∀ id ∈ itemIds state, id ∈ itemIds (s.withLog log)) :=
    fun log hs => hsame ⟨hs.1.congr rfl rfl,hs.2⟩
  cases he with
  | seek => exact hsame ⟨h.congr rfl rfl,rfl⟩
  | setPaused => exact hsame ⟨h.congr rfl rfl,rfl⟩
  | rate => exact hsame ⟨h.congr rfl rfl,rfl⟩
  | loop => exact hsame ⟨h.congr rfl rfl,rfl⟩
  | select _ _ _ log hs => exact hlog log (h.select hs)
  | addUrl _ _ _ hlimit =>
    refine ⟨(h.append (buildRemoteUrlPlaylistItem_inv _ _ _ _) hne hnew hlimit rfl ?_).1,
      Or.inr fun id hid => ?_⟩
    · exact Or.inl rfl
    · simp only [itemIds,RoomState.withLog_playlist,List.map_append]
      exact List.mem_append_left _ hid
  | addLocal _ parsed _ hlimit =>
    refine ⟨(h.append (buildLocalFilePlaylistItem_inv _ _ _ _ _ _ _ _) hne hnew hlimit rfl ?_).1,
      Or.inr fun id hid => ?_⟩
    · by_cases hzero : state.playlist.length = 0
      · exact Or.inr ⟨hzero,if_pos hzero⟩
      · exact Or.inl (if_neg hzero)
    · simp only [itemIds,RoomState.withLog_playlist,List.map_append]
      exact List.mem_append_left _ hid
  | itemError _ _ _ _ _ log he => exact hlog log (h.itemError he)
  | reorder _ _ _ next log hr =>
    exact ⟨(h.reorder hr).1.congr rfl rfl,Or.inr fun id hid => (h.reorder hr).2.mem_iff.mpr hid⟩
  | rename _ _ _ _ log hr =>
    exact hlog log (h.relabel (applyPlaylistRename_eq_some hr) fun _ => ⟨rfl,rfl,rfl,rfl⟩)
  | remove _ itemId _ _ hr => exact ⟨(h.remove hr).1.congr rfl rfl,Or.inl ⟨itemId,rfl⟩⟩
  | itemDuration _ _ _ hd =>
    exact hsame (h.relabel (applyPlaylistItemDuration_eq_some hd).2 fun _ => ⟨rfl,rfl,rfl,rfl⟩)
  | itemTitle _ _ _ ht =>
    exact hsame (h.relabel (applyPlaylistItemTitle_eq_some ht).2 fun _ => ⟨rfl,rfl,rfl,rfl⟩)
  | localReady localMediaId =>
    have hmap : PlaylistInv env { state with
        playlist := state.playlist.map (readyLocalItem ctx.userId localMediaId) } ∧ _ :=
      h.map rfl rfl (readyLocalItem_id ctx.userId localMediaId)
        fun _ hi => hi.ready ctx.userId localMediaId
    exact hsame hmap
  | abrPublish _ _ _ _ _ _ _ ha => exact hsame (h.publishAbr ha)
  | viewerMedia => exact hsame ⟨h.congr rfl rfl,rfl⟩
  | profile => exact hsame ⟨h.congr rfl rfl,rfl⟩
  | sameRole => exact hsame ⟨h,rfl⟩
  | role => exact hsame ⟨h.congr rfl rfl,rfl⟩
  | security => exact hsame ⟨h.congr rfl rfl,rfl⟩

theorem ViewerInv.remove (h : PlaylistInv env state) (hv : ViewerInv state) {itemId : ItemId}
    {now : ℕ} (hr : applyPlaylistRemove state itemId now = some next) : ViewerInv next := by
  have hids : itemIds next = (itemIds state).filter fun id => decide (id ≠ itemId) := by
    rw [itemIds,(h.remove hr).2,itemIds,List.filter_map]
    rfl
  intro userId p' hp'
  rw [(applyPlaylistRemove_roster hr).1,Record.get?_mapValues,Option.map_eq_some_iff] at hp'
  obtain ⟨p,hp,rfl⟩ := hp'
  rw [hids]
  exact pruneViewerMedia_prefersOnly (hv userId p hp) itemId

/-- Preferences stay within the playlist: a removal prunes them, a preference is
taken for an item that is there, and every other message keeps the items. -/
theorem MessageEffect.viewerInv
    (he : MessageEffect env ctx inp state participant msg next) (h : PlaylistInv env state)
    (hne : inp.newId ≠ "") (hnew : inp.newId ∉ itemIds state)
    (hp : state.participants.get? ctx.userId = some participant) (hv : ViewerInv state) :
    ViewerInv next := by
  by_cases hmsg : ∃ itemId, msg = .playlistRemove itemId
  · obtain ⟨itemId,rfl⟩ := hmsg
    cases he with
    | remove _ _ result log hr =>
      have hresult := hv.remove h hr
      exact hresult.congr rfl fun id hid => hid
    | setPaused _ _ _ _ hmsg => rcases hmsg with hmsg | hmsg <;> cases hmsg
    | loop _ _ _ _ _ hmsg => rcases hmsg with hmsg | hmsg <;> cases hmsg
    | security _ _ _ _ hmsg => rcases hmsg with ⟨_,hmsg⟩ | hmsg | ⟨_,hmsg⟩ <;> cases hmsg
  · have hids := ((he.playlistInv h hne hnew).2).resolve_left hmsg
    cases he.roster with
    | same hsame => exact hv.congr hsame.participants hids
    | prune itemId hremove => exact absurd ⟨itemId,hremove⟩ hmsg
    | prefer parsed item p' hitem hp' hps =>
      have hmem : parsed.itemId ∈ itemIds next := by
        have hfound := List.find?_some hitem
        have hin := List.mem_map_of_mem (f := PlaylistItem.id) (List.mem_of_find?_eq_some hitem)
        exact hids _ (by simpa using (beq_iff_eq.mp hfound) ▸ hin)
      intro userId q hq
      rw [hps,Record.get?_modify] at hq
      split at hq
      · rename_i huser
        subst huser
        rw [hp] at hq
        cases hq
        refine applyViewerMediaPreferences_prefersOnly ?_ hmem hp'
        exact fun prefs hprefs id hid => hids id (hv ctx.userId participant hp prefs hprefs id hid)
      · exact fun prefs hprefs id hid => hids id (hv userId q hq prefs hprefs id hid)
    | profile p' hseat hps =>
      refine hv.of_seats ?_ hids
      rw [hps]
      exact .modify _ _ SameSeat.refl fun p hget => by
        rw [hp] at hget
        cases hget
        exact hseat
    | role _ targetUserId role _ _ _ hps =>
      refine hv.of_derives ?_ hids
      rw [hps]
      exact .modify _ _ (fun _ => rfl) fun _ _ => rfl
    | security _ hps => exact hv.congr hps hids

end Messages

/-- The playlist of a stored room: in order, preferred within, and marked. -/
structure PlaylistOk (env : Env) (state : RoomState) : Prop where
  inv : PlaylistInv env state
  viewer : ViewerInv state
  media : state.playback.mediaId = getCurrentMediaId state

section Steps

variable {env : Env} {state next : RoomState}

theorem getCurrentMediaId_congr (hp : next.playlist = state.playlist)
    (hi : next.currentIndex = state.currentIndex) :
    getCurrentMediaId next = getCurrentMediaId state := by
  rw [getCurrentMediaId,hp,hi,getCurrentMediaId]

theorem getCurrentMediaId_eq (state : RoomState) :
    getCurrentMediaId state = indexGet? (itemIds state) state.currentIndex :=
  (indexGet?_map _ _ _).symm

theorem getCurrentMediaId_of_ids (hids : itemIds next = itemIds state)
    (hi : next.currentIndex = state.currentIndex) :
    getCurrentMediaId next = getCurrentMediaId state := by
  rw [getCurrentMediaId_eq,hids,hi,getCurrentMediaId_eq]

theorem PlaylistOk.of_derives (h : PlaylistOk env state)
    (hderives : state.participants.Derives SameViewer next.participants)
    (hp : next.playlist = state.playlist) (hi : next.currentIndex = state.currentIndex)
    (hm : next.playback.mediaId = state.playback.mediaId) : PlaylistOk env next where
  inv := h.inv.congr hp hi
  viewer := h.viewer.of_derives hderives fun id hid => by rwa [itemIds,hp]
  media := by rw [hm,h.media,getCurrentMediaId_congr hp hi]

theorem PlaylistOk.congr (h : PlaylistOk env state) (hps : next.participants = state.participants)
    (hp : next.playlist = state.playlist) (hi : next.currentIndex = state.currentIndex)
    (hm : next.playback.mediaId = state.playback.mediaId) : PlaylistOk env next :=
  h.of_derives (hps ▸ .refl SameViewer.refl _) hp hi hm

theorem PlaylistOk.finish (h : PlaylistInv env state) (hv : ViewerInv state)
    (userId newOwnerId : UserId) (now : ℕ) (hint : RoomPublishHint) :
    PlaylistOk env (finishRoomMessage env userId newOwnerId now hint state) := by
  obtain ⟨hp,hi⟩ := finishRoomMessage_playlist h userId newOwnerId now hint
  refine ⟨h.congr hp hi,hv.of_seats ?_ fun id hid => by rwa [itemIds,hp],rfl⟩
  exact (repairParticipants_seats env now state.participants).trans SameSeat.trans
    (modify_seats _ userId (markSeen now) fun _ => ⟨rfl,rfl,rfl⟩)

theorem PlaylistOk.reresolve (h : PlaylistOk env state) {itemId : ItemId} {now : ℕ}
    (hr : reresolveRemotePlaylistItem itemId now state = some next) : PlaylistOk env next := by
  obtain ⟨⟨item,hitem,hremote,-⟩,rfl⟩ := reresolveRemotePlaylistItem_eq_some hr
  obtain ⟨hinv,hids⟩ := h.inv.updateItem itemId (fun item =>
    { item with ingestStatus := some .resolving, ingestError := none }) (fun _ => rfl)
    fun a ha hi => by
      have hsame : a = item := Option.some.inj (ha.symm.trans hitem)
      subst hsame
      exact ⟨by simp,hi.local_direct,fun hl => absurd hl (by simp [hremote])⟩
  exact ⟨hinv.congr rfl rfl,h.viewer.congr rfl fun id hid => hids ▸ hid,
    h.media.trans (getCurrentMediaId_of_ids hids rfl).symm⟩

theorem PlaylistOk.message (h : PlaylistOk env state) {ctx : RoomMessageContext}
    {inp : MessageInputs} {msg : RoomMessage}
    (hf : (RoomOp.message ctx inp msg).Fresh (some state))
    (hc : processRoomMessage env ctx inp msg state = some next) : PlaylistOk env next := by
  obtain ⟨hne,hnew⟩ := hf
  rcases processRoomMessage_cases hc with ⟨itemId,-,hr⟩ | ⟨p,mutated,hint,hp,he,rfl⟩
  · exact h.reresolve hr
  · have hinv : PlaylistInv env
        (reconcileParticipantsConnectivity inp.activeConnections inp.now state) :=
      h.inv.congr rfl rfl
    have hviewer : ViewerInv
        (reconcileParticipantsConnectivity inp.activeConnections inp.now state) :=
      h.viewer.of_seats (reconcile_seats inp.activeConnections inp.now state) fun _ hid => hid
    exact .finish (he.playlistInv hinv hne hnew).1 (he.viewerInv hinv hne hnew hp hviewer) _ _ _ _

theorem PlaylistOk.offline (h : PlaylistOk env state) (roomId : String) (userId : UserId)
    (now : ℕ) :
    PlaylistOk env (bumpRoomRevisions (applyUserWentOffline env state roomId userId now).1) := by
  obtain ⟨hinv,hids⟩ : PlaylistInv env (applyUserWentOffline env state roomId userId now).1 ∧ _ :=
    h.inv.map (applyUserWentOffline_playlist env state roomId userId now)
      (applyUserWentOffline_currentIndex env state roomId userId now)
      (blockLocalItem_id userId) fun _ hi => hi.block userId
  have hmedia : (applyUserWentOffline env state roomId userId now).1.playback.mediaId =
      state.playback.mediaId := by
    rw [applyUserWentOffline_playback]
    split <;> rfl
  refine ⟨hinv.congr rfl rfl,h.viewer.of_seats ?_ fun id hid => ?_,?_⟩
  · simp only [bumpRoomRevisions_participants,applyUserWentOffline_participants]
    exact modify_seats _ userId (markOffline now) fun _ => ⟨rfl,rfl,rfl⟩
  · exact hids ▸ hid
  · exact hmedia.trans (h.media.trans (getCurrentMediaId_of_ids hids
      (applyUserWentOffline_currentIndex env state roomId userId now)).symm)

theorem PlaylistOk.transfer (h : PlaylistOk env state) (now : ℕ) (reason : TransferReason) :
    PlaylistOk env (transferOwnershipIfNeeded env now state reason).1 :=
  h.of_derives (transferOwnershipIfNeeded_derives env now state reason SameViewer.refl
    SameViewer.trans fun _ _ => rfl)
    (transferOwnershipIfNeeded_playlist env now state reason)
    (transferOwnershipIfNeeded_currentIndex env now state reason)
    (by rw [transferOwnershipIfNeeded_playback])

theorem PlaylistOk.repair (h : PlaylistOk env state) (now : ℕ) (newOwnerId : UserId) :
    PlaylistOk env (applyRoomStateRepair env now newOwnerId state) :=
  h.of_derives ((repairParticipants_seats env now state.participants).mono
    fun _ _ => SameSeat.viewerMedia) (applyRoomStateRepair_playlist h.inv now newOwnerId).1
    (applyRoomStateRepair_playlist h.inv now newOwnerId).2 rfl

theorem PlaylistOk.reconcile (h : PlaylistOk env state) (active : Finset UserId) (now : ℕ) :
    PlaylistOk env (reconcileParticipantsConnectivity active now state) :=
  h.of_derives ((reconcile_seats active now state).mono fun _ _ => SameSeat.viewerMedia) rfl rfl rfl

theorem PlaylistOk.settle (h : PlaylistOk env state) {itemId : ItemId} {outcome : ResolveOutcome}
    {retryUntilPresent : Bool} {now : ℕ}
    (hc : commitResolvingItem env itemId outcome retryUntilPresent now state = some next) :
    PlaylistOk env next := by
  rcases commitResolvingItem_eq_some hc with rfl | ⟨⟨item,hitem,hwaits⟩,rfl⟩
  · exact h
  · obtain ⟨hinv,hids⟩ := h.inv.updateItem itemId (outcome.mutateItem env)
      (fun item => (outcome.mutateItem_frame env item).1) fun a ha hi => by
        have hsame : a = item := Option.some.inj (ha.symm.trans hitem)
        subst hsame
        exact hi.settle env outcome hwaits
    exact ⟨hinv.congr rfl rfl,h.viewer.congr rfl fun id hid => hids ▸ hid,
      h.media.trans (getCurrentMediaId_of_ids hids rfl).symm⟩

end Steps

section Creation

variable {env : Env} {input : JoinInput}

theorem playlistItemFromUrl_inv (id : ItemId) (url name : String) (ownerId : UserId) (now : ℕ) :
    ItemInv (playlistItemFromUrl id url name ownerId now) :=
  ⟨by simp [playlistItemFromUrl],by simp [playlistItemFromUrl],by simp [playlistItemFromUrl]⟩

theorem initialPlaylist_ids (env : Env) (input : JoinInput) :
    ((initialPlaylist env input).map (·.id)).Sublist input.newIds := by
  unfold initialPlaylist
  dsimp only
  split
  · rw [List.map_map]
    simpa [Function.comp_def,playlistItemFromUrl] using List.take_sublist 1 input.newIds
  · split
    · exact List.nil_sublist _
    · rw [List.map_zipWith]
      exact zipWith_left_sublist _ _

theorem initialPlaylist_inv (env : Env) (input : JoinInput) :
    ∀ item ∈ initialPlaylist env input, ItemInv item := by
  intro item hitem
  obtain ⟨id,url,name,rfl⟩ := mem_initialPlaylist hitem
  exact playlistItemFromUrl_inv id url name input.userId input.now

theorem PlaylistInv.of_repair {state : RoomState} (hnodup : (itemIds state).Nodup)
    (hne : "" ∉ itemIds state) (hitems : ∀ item ∈ state.playlist, ItemInv item) (now : ℕ)
    (newOwnerId : UserId) : PlaylistInv env (applyRoomStateRepair env now newOwnerId state) := by
  have hmap : state.playlist.map (fun item => (repairPlaylistItemFields item).1) =
      state.playlist := by
    rw [List.map_congr_left fun item hi => repairPlaylistItemFields_eq (hitems item hi)]
    exact List.map_id' _
  have hsub : (applyRoomStateRepair env now newOwnerId state).playlist.Sublist state.playlist := by
    simp only [applyRoomStateRepair,repairCleanupAndCheckRoomState,repairPlaylistState,hmap]
    split
    · exact List.drop_sublist _ _
    · exact List.Sublist.refl _
  have hpos := env.playlist_pos
  exact {
    nodup := hnodup.sublist (hsub.map _)
    ids_ne := fun hm => hne ((hsub.map _).mem hm)
    index := by
      simp only [applyRoomStateRepair,repairCleanupAndCheckRoomState,repairPlaylistState,hmap]
      split
      · rename_i htrim
        rw [List.length_drop]
        constructor <;> split <;> split <;> omega
      · constructor <;> split <;> split <;> omega
    length_le := by
      simp only [applyRoomStateRepair,repairCleanupAndCheckRoomState,repairPlaylistState,hmap]
      split
      · rw [List.length_drop]
        omega
      · omega
    items := fun item hi => hitems item (hsub.mem hi) }

theorem createInitialRoomState_repaired (hf : (RoomOp.join input).Fresh none) (now : ℕ)
    (newOwnerId : UserId) :
    PlaylistInv env (applyRoomStateRepair env now newOwnerId (createInitialRoomState env input)) ∧
      ViewerInv (applyRoomStateRepair env now newOwnerId (createInitialRoomState env input)) := by
  obtain ⟨-,hnodup,hne,-,-⟩ := hf
  have hids : (itemIds (createInitialRoomState env input)).Sublist input.newIds := by
    rw [itemIds,createInitialRoomState_playlist]
    exact initialPlaylist_ids env input
  have hitems : ∀ item ∈ (createInitialRoomState env input).playlist, ItemInv item := by
    rw [createInitialRoomState_playlist]
    exact initialPlaylist_inv env input
  constructor
  · exact .of_repair (hnodup.sublist hids) (fun hm => hne (hids.mem hm)) hitems now newOwnerId
  · intro userId p hp
    rw [applyRoomStateRepair_participants,createInitialRoomState_participants] at hp
    obtain ⟨q,hq,-⟩ := repairParticipants_seats env now Record.empty userId p hp
    cases hq

theorem joinBase_playlist {existing : Option RoomState}
    (hf : (RoomOp.join input).Fresh existing) (h : ∀ state, existing = some state →
      PlaylistOk env state) :
    PlaylistInv env (joinBase env input existing) ∧ ViewerInv (joinBase env input existing) := by
  have hrepaired : PlaylistInv env (applyRoomStateRepair env input.now input.newOwnerId
        (existing.getD (createInitialRoomState env input))) ∧
      ViewerInv (applyRoomStateRepair env input.now input.newOwnerId
        (existing.getD (createInitialRoomState env input))) := by
    cases existing with
    | none => exact createInitialRoomState_repaired hf input.now input.newOwnerId
    | some state =>
      have hok := (h state rfl).repair input.now input.newOwnerId
      exact ⟨hok.inv,hok.viewer⟩
  unfold joinBase
  exact ⟨hrepaired.1.congr (reconcileParticipantsConnectivity_playlist _ _ _)
    (reconcileParticipantsConnectivity_currentIndex _ _ _),
    hrepaired.2.of_seats (reconcile_seats _ _ _) fun id hid => by
      rwa [itemIds,reconcileParticipantsConnectivity_playlist]⟩

theorem enterParticipant_viewer (env : Env) (input : JoinInput) {base : RoomState}
    (hv : ViewerInv base) :
    ViewerInv (enterParticipant env input base).1 := by
  have hseated : ViewerInv (seatJoiner input base) := by
    intro userId p hp
    simp only [seatJoiner,ensureRoomSecurity_participants,Record.get?_set] at hp
    split at hp
    · rename_i huser
      cases hp
      intro prefs hprefs
      cases hget : base.participants.get? input.userId with
      | none => simp [joinParticipant,hget] at hprefs
      | some known =>
        rw [hget] at hprefs
        exact hv input.userId known hget prefs hprefs
    · exact hv userId p hp
  exact hseated.of_derives (transferOwnershipIfNeeded_derives env input.now _ .join SameViewer.refl
    SameViewer.trans fun _ _ => rfl) fun id hid => by
      rw [itemIds,enterParticipant,transferOwnershipIfNeeded_playlist]
      exact hid

theorem PlaylistOk.join {existing : Option RoomState} {next : RoomState}
    (hf : (RoomOp.join input).Fresh existing)
    (h : ∀ state, existing = some state → PlaylistOk env state)
    (hc : commitJoinMembership env input existing = some next) : PlaylistOk env next := by
  obtain ⟨hinv,hviewer⟩ := joinBase_playlist hf h
  obtain ⟨log,generation,structuralRevision,rfl⟩ := commitJoinMembership_eq_some hc
  have hp := enterParticipant_frame env input (·.playlist)
    (fun _ _ _ _ _ => rfl) (joinBase env input existing)
  have hi := enterParticipant_frame env input (·.currentIndex)
    (fun _ _ _ _ _ => rfl) (joinBase env input existing)
  have hinv' := hinv.congr hp hi
  have hviewer' := enterParticipant_viewer env input hviewer
  generalize (enterParticipant env input (joinBase env input existing)).1 = entered
    at hinv' hviewer' ⊢
  exact ⟨hinv'.congr rfl rfl,hviewer'.congr rfl fun _ hid => hid,rfl⟩

end Creation

section Sweeps

variable {env : Env} {state next : RoomState}

theorem PlaylistOk.sweep (h : PlaylistOk env state) {activeConnections : Finset UserId}
    {newOwnerId : UserId} {now : ℕ}
    (hc : cleanupInactiveRoom env activeConnections newOwnerId now state = some next) :
    PlaylistOk env next := by
  rw [cleanupInactiveRoom_eq_some hc]
  have hbase : PlaylistOk env (sweepBase env activeConnections newOwnerId now state) :=
    (h.repair now newOwnerId).reconcile activeConnections now
  have htransfer := hbase.transfer now .cleanup
  generalize transferOwnershipIfNeeded env now
    (sweepBase env activeConnections newOwnerId now state) .cleanup = swept at htransfer ⊢
  exact htransfer.congr rfl rfl rfl rfl

theorem PlaylistOk.prune (h : PlaylistOk env state) {removed : RoomState} (now : ℕ)
    (hr : ∃ ps, state.participants.Derives SameViewer ps ∧
      removed = { state with participants := ps }) :
    PlaylistOk env { bumpRoomRevisions (transferOwnershipIfNeeded env now removed .prune).1 with
      updatedAt := now } := by
  obtain ⟨ps,hps,rfl⟩ := hr
  have hbase : PlaylistOk env { state with participants := ps } := h.of_derives hps rfl rfl rfl
  have htransfer := hbase.transfer now .prune
  generalize transferOwnershipIfNeeded env now { state with participants := ps } .prune = moved
    at htransfer ⊢
  exact htransfer.congr rfl rfl rfl rfl

/-- Every operation keeps the playlist of a stored room in order. -/
theorem PlaylistOk.step {op : RoomOp} (h : PlaylistOk env state) (hf : op.Fresh (some state))
    (hc : op.commit env (some state) = some next) : PlaylistOk env next := by
  cases op with
  | message ctx inp msg => exact h.message hf hc
  | join input => exact .join hf (fun s hs => by cases hs; exact h) hc
  | disconnect roomId userId activeUsers now =>
    rw [(handleSocketDisconnect_eq_some hc).2]
    exact h.offline roomId userId now
  | abortJoin roomId userId now =>
    rw [abortJoinAfterCommit_eq_some hc]
    exact h.offline roomId userId now
  | cleanup activeConnections newOwnerId now => exact h.sweep hc
  | prune userId now =>
    rw [(removeDisconnectedParticipant_eq_some hc).2]
    exact h.prune now ⟨_,.erase _ userId SameViewer.refl,rfl⟩
  | pruneFallback now =>
    rw [pruneByDisconnectedAtFallback_eq_some hc]
    exact h.prune now ⟨_,.foldl_erase _ SameViewer.refl SameViewer.trans _,rfl⟩
  | reresolve itemId now => exact h.reresolve hc
  | settleResolve itemId outcome retryUntilPresent now => exact h.settle hc

end Sweeps

theorem Stored.playlistOk {env : Env} {state : RoomState} (h : Stored env state) :
    PlaylistOk env state := by
  apply h.invariant (PlaylistOk env)
  · intro input next hf hc
    exact PlaylistOk.join hf (fun s hs => by cases hs) hc
  · intro state op next _ hi hf hc
    exact hi.step hf hc

section CurrentItem

variable {env : Env} {state next : RoomState}

theorem followCurrentMedia_eq {id : ItemId} {playlist : List PlaylistItem}
    (hcur : getCurrentMediaId state = some id) (hne : id ≠ "")
    (hmem : ∃ item ∈ playlist, item.id = id) :
    ∃ (k : ℕ) (item : PlaylistItem), playlist[k]? = some item ∧ item.id = id ∧
      followCurrentMedia state playlist = k := by
  cases hfind : playlist.findIdx? (fun item => item.id == id) with
  | none =>
    obtain ⟨item,hitem,hid⟩ := hmem
    have hnone := List.findIdx?_eq_none_iff.mp hfind item hitem
    simp [hid] at hnone
  | some k =>
    obtain ⟨hlt,hpos,-⟩ := List.findIdx?_eq_some_iff_getElem.mp hfind
    exact ⟨k,playlist[k],by simp [hlt],by simpa using hpos,by
      simp [followCurrentMedia,hcur,hne,hfind]⟩

theorem PlaylistInv.reorder_current (h : PlaylistInv env state) {from_ to_ : ℕ}
    (hr : applyPlaylistReorder state from_ to_ = some next) :
    indexGet? next.playlist next.currentIndex = indexGet? state.playlist state.currentIndex := by
  obtain ⟨entry,hentry,hto,rfl⟩ := applyPlaylistReorder_eq_some hr
  have hperm := move_perm hentry hto
  have hne : state.playlist ≠ [] := List.ne_nil_of_mem (List.mem_of_getElem? hentry)
  obtain ⟨current,hcurrent⟩ := h.current hne
  have hmem := indexGet?_mem hcurrent
  have hcur : getCurrentMediaId state = some current.id := by
    rw [getCurrentMediaId,hcurrent,Option.map_some]
  have hid : current.id ≠ "" := fun he => h.ids_ne (he ▸ List.mem_map_of_mem hmem)
  obtain ⟨k,item,hk,hitem,hfollow⟩ := followCurrentMedia_eq hcur hid
    ⟨current,hperm.mem_iff.mpr hmem,rfl⟩
  have hsame : item = current := List.inj_on_of_nodup_map h.nodup
    (hperm.mem_iff.mp (List.mem_of_getElem? hk)) hmem hitem
  rw [hfollow,indexGet?_natCast,hk,hcurrent,hsame]

theorem PlaylistInv.remove_current (h : PlaylistInv env state) {itemId : ItemId} {now : ℕ}
    (hr : applyPlaylistRemove state itemId now = some next)
    (hother : getCurrentMediaId state ≠ some itemId) :
    indexGet? next.playlist next.currentIndex = indexGet? state.playlist state.currentIndex := by
  obtain ⟨index,item,adjusted,hitem,rfl,rfl,hp,-,-,-,hcases⟩ := applyPlaylistRemove_cases hr
  have hlt := (List.getElem?_eq_some_iff.mp hitem).1
  obtain ⟨h0,hi⟩ := h.index
  have hnotat : (index : ℤ) ≠ state.currentIndex := by
    intro hat
    apply hother
    rw [getCurrentMediaId,← hat,indexGet?_natCast,hitem,Option.map_some]
  simp only [pruneViewerMediaItemId_playlist,pruneViewerMediaItemId_currentIndex,hp]
  rcases hcases with ⟨hone,-,-⟩ | ⟨_,hbefore,hc,-⟩ | ⟨_,hat,-,-⟩ | ⟨_,hafter,hc,-⟩
  · omega
  · obtain ⟨k,hk⟩ : ∃ k : ℕ, state.currentIndex = k+1 :=
      ⟨(state.currentIndex-1).toNat,by omega⟩
    have hkc : adjusted.currentIndex = (k : ℤ) := by omega
    have hks : state.currentIndex = ((k+1 : ℕ) : ℤ) := by omega
    rw [hkc,hks,indexGet?_natCast,indexGet?_natCast,List.getElem?_eraseIdx,if_neg (by omega)]
  · exact absurd hat hnotat
  · obtain ⟨k,hk⟩ : ∃ k : ℕ, state.currentIndex = k := ⟨state.currentIndex.toNat,by omega⟩
    rw [hc,hk,indexGet?_natCast,indexGet?_natCast,List.getElem?_eraseIdx,if_pos (by omega)]

theorem MessageEffect.of_reorder {ctx : RoomMessageContext} {inp : MessageInputs}
    {participant : ParticipantState} {from_ to_ : ℕ}
    (he : MessageEffect env ctx inp state participant (.playlistReorder from_ to_) next) :
    ∃ result log, applyPlaylistReorder state from_ to_ = some result ∧
      next = result.withLog log := by
  cases he with
  | reorder _ _ _ result log hr => exact ⟨result,log,hr,rfl⟩
  | setPaused _ _ _ _ hmsg => rcases hmsg with hmsg | hmsg <;> cases hmsg
  | loop _ _ _ _ _ hmsg => rcases hmsg with hmsg | hmsg <;> cases hmsg
  | security _ _ _ _ hmsg => rcases hmsg with ⟨_,hmsg⟩ | hmsg | ⟨_,hmsg⟩ <;> cases hmsg

theorem MessageEffect.of_remove {ctx : RoomMessageContext} {inp : MessageInputs}
    {participant : ParticipantState} {itemId : ItemId}
    (he : MessageEffect env ctx inp state participant (.playlistRemove itemId) next) :
    ∃ result log, applyPlaylistRemove state itemId inp.now = some result ∧
      next = result.withLog log := by
  cases he with
  | remove _ _ result log hr => exact ⟨result,log,hr,rfl⟩
  | setPaused _ _ _ _ hmsg => rcases hmsg with hmsg | hmsg <;> cases hmsg
  | loop _ _ _ _ _ hmsg => rcases hmsg with hmsg | hmsg <;> cases hmsg
  | security _ _ _ _ hmsg => rcases hmsg with ⟨_,hmsg⟩ | hmsg | ⟨_,hmsg⟩ <;> cases hmsg

/-- A committed reorder: the same item stays current, and all but the moved entry
stay in their order. -/
theorem PlaylistOk.reorder_message (h : PlaylistOk env state) {ctx : RoomMessageContext}
    {inp : MessageInputs} {from_ to_ : ℕ}
    (hc : processRoomMessage env ctx inp (.playlistReorder from_ to_) state = some next) :
    indexGet? next.playlist next.currentIndex = indexGet? state.playlist state.currentIndex ∧
      ∀ moved, state.playlist[from_]? = some moved →
        (next.playlist.filter fun item => decide (item.id ≠ moved.id)) =
          state.playlist.filter fun item => decide (item.id ≠ moved.id) := by
  rcases processRoomMessage_cases hc with ⟨_,hmsg,-⟩ | ⟨p,mutated,hint,hp,he,rfl⟩
  · cases hmsg
  · obtain ⟨result,log,hr,rfl⟩ := he.of_reorder
    have hinv : PlaylistInv env
        (reconcileParticipantsConnectivity inp.activeConnections inp.now state) :=
      h.inv.congr rfl rfl
    have hresult : PlaylistInv env (result.withLog log) := (hinv.reorder hr).1.congr rfl rfl
    obtain ⟨hplaylist,hindex⟩ := finishRoomMessage_playlist hresult ctx.userId inp.newOwnerId
      inp.now hint
    rw [hplaylist,hindex]
    have hcurrent := hinv.reorder_current hr
    refine ⟨hcurrent,fun moved hmoved => ?_⟩
    obtain ⟨entry,hentry,-,rfl⟩ := applyPlaylistReorder_eq_some hr
    have hsame : entry = moved := Option.some.inj (hentry.symm.trans hmoved)
    subst hsame
    exact filter_move (fun item : PlaylistItem => item.id) to_ h.inv.nodup hmoved

/-- A committed removal drops that item and nothing else; the current item stays
current when it is another one. -/
theorem PlaylistOk.remove_message (h : PlaylistOk env state) {ctx : RoomMessageContext}
    {inp : MessageInputs} {itemId : ItemId}
    (hc : processRoomMessage env ctx inp (.playlistRemove itemId) state = some next) :
    (next.playlist = state.playlist.filter fun item => decide (item.id ≠ itemId)) ∧
      (getCurrentMediaId state ≠ some itemId →
        indexGet? next.playlist next.currentIndex =
          indexGet? state.playlist state.currentIndex) := by
  rcases processRoomMessage_cases hc with ⟨_,hmsg,-⟩ | ⟨p,mutated,hint,hp,he,rfl⟩
  · cases hmsg
  · obtain ⟨result,log,hr,rfl⟩ := he.of_remove
    have hinv : PlaylistInv env
        (reconcileParticipantsConnectivity inp.activeConnections inp.now state) :=
      h.inv.congr rfl rfl
    have hresult : PlaylistInv env (result.withLog log) := (hinv.remove hr).1.congr rfl rfl
    obtain ⟨hplaylist,hindex⟩ := finishRoomMessage_playlist hresult ctx.userId inp.newOwnerId
      inp.now hint
    rw [hplaylist,hindex]
    have hcurrent : getCurrentMediaId state ≠ some itemId →
        indexGet? result.playlist result.currentIndex =
          indexGet? state.playlist state.currentIndex :=
      fun hother => hinv.remove_current hr hother
    exact ⟨(hinv.remove hr).2,hcurrent⟩

end CurrentItem

/-- The playlist of every room that operations can reach: ids are distinct, the index
is in range, the limit is kept, the mark names the current item, preferences are for
items of the playlist, and moving or removing other items leaves the current one and
the order of the rest. -/
theorem stored_playlist {env : Env} {state : RoomState} (h : Stored env state) :
    (itemIds state).Nodup ∧
      (0 ≤ state.currentIndex ∧ state.currentIndex < max 1 (state.playlist.length : ℤ)) ∧
      state.playlist.length ≤ env.roomPlaylistLimit ∧
      (state.playback.mediaId = (indexGet? state.playlist state.currentIndex).map (·.id) ∧
        (state.playback.mediaId = none ↔ state.playlist = [])) ∧
      (∀ userId p prefs, state.participants.get? userId = some p → p.viewerMedia = some prefs →
        ∀ id ∈ prefs.byItemId.keys, id ∈ itemIds state) ∧
      (∀ ctx inp from_ to_ next,
        (RoomOp.message ctx inp (.playlistReorder from_ to_)).commit env (some state) = some next →
        indexGet? next.playlist next.currentIndex = indexGet? state.playlist state.currentIndex ∧
          ∀ moved, state.playlist[from_]? = some moved →
            (next.playlist.filter fun item => decide (item.id ≠ moved.id)) =
              state.playlist.filter fun item => decide (item.id ≠ moved.id)) ∧
      ∀ ctx inp itemId next,
        (RoomOp.message ctx inp (.playlistRemove itemId)).commit env (some state) = some next →
        (next.playlist = state.playlist.filter fun item => decide (item.id ≠ itemId)) ∧
          (getCurrentMediaId state ≠ some itemId →
            indexGet? next.playlist next.currentIndex =
              indexGet? state.playlist state.currentIndex) := by
  have hok := h.playlistOk
  refine ⟨hok.inv.nodup,hok.inv.index,hok.inv.length_le,⟨hok.media,?_⟩,?_,?_,?_⟩
  · rw [hok.media,getCurrentMediaId,Option.map_eq_none_iff]
    constructor
    · intro hnone
      by_contra hne
      obtain ⟨item,hitem⟩ := hok.inv.current hne
      rw [hnone] at hitem
      cases hitem
    · intro hnil
      rw [hnil,indexGet?_nil]
  · exact fun userId p prefs hp hprefs => hok.viewer userId p hp prefs hprefs
  · exact fun ctx inp from_ to_ next hc => hok.reorder_message hc
  · exact fun ctx inp itemId next hc => hok.remove_message hc

theorem stored_playlist_of_two_files : ∃ state, Stored scenarioEnv state ∧
    itemIds state = ["i","j"] ∧ state.currentIndex = 0 ∧ (itemIds state).Nodup := by
  obtain ⟨state,hstored,hids,hindex⟩ := exists_stored_of_runRoom scenarioEnv
    [joinAs "ann" 1000 {},
      messageFrom "ann" 1001 {"ann"} "i" (.playlistAddLocal (videoFile "f" none)),
      messageFrom "ann" 1002 {"ann"} "j" (.playlistAddUrl "https://example.org/v")]
    (fun state => itemIds state = ["i","j"] ∧ state.currentIndex = 0) (by decide +kernel)
  exact ⟨state,hstored,hids,hindex,(stored_playlist hstored).1⟩

end WebSyncPlay
