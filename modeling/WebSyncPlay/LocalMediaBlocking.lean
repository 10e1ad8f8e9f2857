import WebSyncPlay.OwnershipInvariant
import WebSyncPlay.PlaylistInvariant

/-! Local files whose owner is offline: closing a socket blocks them, the reconciles
with presence do not. -/
namespace WebSyncPlay

open Library

def ownerOffline (item : PlaylistItem) : Bool := item.blockedReason == some .localOwnerOffline

/-- A reconcile with these connections turns off somebody who shares a file that is
not blocked yet; `exempt` is the user that the operation turns on again. -/
def missesSharer (state : RoomState) (activeConnections : Finset UserId) (exempt : Option UserId) :
    Bool :=
  state.participants.values.any fun p =>
    p.connected && decide (p.userId ∉ activeConnections) && exempt != some p.userId &&
      state.playlist.any (sharesUnblocked p.userId)

/-- A message that marks a blocked item ready and leaves it blocked. -/
def readiesBlocked (inp : MessageInputs) (state : RoomState) : RoomMessage → Bool
  | .playlistItemError itemId none => (findItem state itemId).any ownerOffline
  | .localMediaAbrPublish _ _ =>
    (inp.localMediaEntry.bind fun parent =>
      state.playlist.find? fun item => item.localMediaId == some parent.id).any ownerOffline
  | _ => false

def retries : RoomMessage → Bool
  | .playlistRetry _ => true
  | _ => false

/-- The runs of an operation in which nobody who shares a file is first found offline
by a reconcile, and no blocked item is reported ready. -/
def RoomOp.keepsBlocks : RoomOp → RoomState → Bool
  | .message ctx inp msg, state =>
    -- a retry writes the room without a reconcile
    retries msg ||
      !missesSharer state inp.activeConnections (some ctx.userId) && !readiesBlocked inp state msg
  | .join input, state => !missesSharer state input.activeConnections (some input.userId)
  | .cleanup activeConnections _ _, state => !missesSharer state activeConnections none
  | _, _ => true

/-- Blocked items have failed, and whoever is offline shares blocked items only; the
`exempt` user is one that an operation under way turns on before it ends. -/
structure BlockInv (exempt : Option UserId) (state : RoomState) : Prop where
  error : ∀ item ∈ state.playlist, ownerOffline item = true → item.ingestStatus = some .error
  offline : ∀ userId p, exempt ≠ some userId → state.participants.get? userId = some p →
    p.connected = false → ∀ item ∈ state.playlist, sharesUnblocked userId item = false

section Blocking

variable {env : Env} {state next : RoomState} {exempt : Option UserId}

abbrev SameConnected (p p' : ParticipantState) : Prop := p'.connected = p.connected

theorem SameConnected.refl (p : ParticipantState) : SameConnected p p := rfl

theorem SameConnected.trans (a b c : ParticipantState) (h : SameConnected a b)
    (h' : SameConnected b c) : SameConnected a c :=
  Eq.trans h' h

/-- Whoever is offline in one roster is offline in another already. -/
def OfflineBefore (exempt : Option UserId) (ps ps' : Record UserId ParticipantState) : Prop :=
  ∀ userId p', exempt ≠ some userId → ps'.get? userId = some p' → p'.connected = false →
    ∃ p, ps.get? userId = some p ∧ p.connected = false

theorem OfflineBefore.of_derives {ps ps' : Record UserId ParticipantState}
    (h : ps.Derives SameConnected ps') : OfflineBefore exempt ps ps' := by
  intro userId p' _ hp' hoff
  obtain ⟨p,hp,hconn⟩ := h userId p' hp'
  exact ⟨p,hp,hconn ▸ hoff⟩

/-- Each item is no less blocked than one that was there before. -/
def NoLessBlocked (exempt : Option UserId) (state next : RoomState) : Prop :=
  ∀ item' ∈ next.playlist, (ownerOffline item' = true → item'.ingestStatus = some .error) ∧
    ∀ userId, exempt ≠ some userId → sharesUnblocked userId item' = true →
      ∃ item ∈ state.playlist, sharesUnblocked userId item = true

theorem BlockInv.of_before (h : BlockInv exempt state)
    (hps : OfflineBefore exempt state.participants next.participants)
    (hitems : NoLessBlocked exempt state next) : BlockInv exempt next where
  error item hi := (hitems item hi).1
  offline userId p' hne hp' hoff item' hi := by
    obtain ⟨p,hp,hpoff⟩ := hps userId p' hne hp' hoff
    by_contra hshares
    obtain ⟨item,hitem,hshare⟩ := (hitems item' hi).2 userId hne (by simpa using hshares)
    rw [h.offline userId p hne hp hpoff item hitem] at hshare
    cases hshare

theorem BlockInv.noLess (h : BlockInv exempt state) (hp : next.playlist = state.playlist) :
    NoLessBlocked exempt state next := by
  intro item hi
  rw [hp] at hi
  exact ⟨h.error item hi,fun userId _ hs => ⟨item,hi,hs⟩⟩

theorem BlockInv.of_derives (h : BlockInv exempt state)
    (hps : state.participants.Derives SameConnected next.participants)
    (hp : next.playlist = state.playlist) : BlockInv exempt next :=
  h.of_before (.of_derives hps) (h.noLess hp)

theorem BlockInv.congr (h : BlockInv exempt state) (hps : next.participants = state.participants)
    (hp : next.playlist = state.playlist) : BlockInv exempt next :=
  h.of_derives (by rw [hps]; exact .refl SameConnected.refl _) hp

/-- What a changed item may be: as blocked as it was, and failed if it is blocked. -/
structure KeepsBlock (item item' : PlaylistItem) : Prop where
  kind : item'.sourceKind = item.sourceKind
  origin : item'.localOriginUserId = item.localOriginUserId
  blocked : item'.blockedReason = item.blockedReason
  error : ownerOffline item = true → item.ingestStatus = some .error →
    item'.ingestStatus = some .error

theorem KeepsBlock.sharesUnblocked {item item' : PlaylistItem} (h : KeepsBlock item item')
    (userId : UserId) : sharesUnblocked userId item' = sharesUnblocked userId item := by
  simp only [WebSyncPlay.sharesUnblocked,h.kind,h.origin,h.blocked]

theorem KeepsBlock.ownerOffline {item item' : PlaylistItem} (h : KeepsBlock item item') :
    ownerOffline item' = ownerOffline item := by
  simp only [WebSyncPlay.ownerOffline,h.blocked]

theorem KeepsBlock.rfl {item : PlaylistItem} : KeepsBlock item item :=
  ⟨Eq.refl _,Eq.refl _,Eq.refl _,fun _ h => h⟩

theorem BlockInv.noLess_of_keeps (h : BlockInv exempt state)
    (hk : ∀ item' ∈ next.playlist, ∃ item ∈ state.playlist, KeepsBlock item item') :
    NoLessBlocked exempt state next := by
  intro item' hi
  obtain ⟨item,hitem,hkeeps⟩ := hk item' hi
  refine ⟨fun hb => ?_,fun userId _ hs => ⟨item,hitem,?_⟩⟩
  · have hblocked : ownerOffline item = true := hkeeps.ownerOffline ▸ hb
    exact hkeeps.error hblocked (h.error item hitem hblocked)
  · rwa [← hkeeps.sharesUnblocked]

theorem BlockInv.noLess_modifyFirst (h : BlockInv exempt state) {test : PlaylistItem → Bool}
    {f : PlaylistItem → PlaylistItem} (hp : next.playlist = modifyFirst test f state.playlist)
    (hf : ∀ item, state.playlist.find? test = some item → KeepsBlock item (f item)) :
    NoLessBlocked exempt state next := by
  refine h.noLess_of_keeps fun item' hi => ?_
  rw [hp] at hi
  rcases mem_modifyFirst hi with hi | ⟨item,hitem,rfl⟩
  · exact ⟨item',hi,.rfl⟩
  · exact ⟨item,List.mem_of_find?_eq_some hitem,hf item hitem⟩

theorem BlockInv.noLess_append (h : BlockInv exempt state) {item : PlaylistItem}
    (hp : next.playlist = state.playlist ++ [item]) (hblocked : item.blockedReason = none)
    (hshare : ∀ userId, exempt ≠ some userId → sharesUnblocked userId item = false) :
    NoLessBlocked exempt state next := by
  intro item' hi
  rw [hp,List.mem_append,List.mem_singleton] at hi
  rcases hi with hi | rfl
  · exact ⟨h.error item' hi,fun userId _ hs => ⟨item',hi,hs⟩⟩
  · refine ⟨fun hb => ?_,fun userId hne hs => ?_⟩
    · simp [ownerOffline,hblocked] at hb
    · rw [hshare userId hne] at hs
      cases hs

theorem BlockInv.noLess_ready {sender : UserId} (h : BlockInv (some sender) state)
    {localMediaId : String}
    (hp : next.playlist = state.playlist.map (readyLocalItem sender localMediaId)) :
    NoLessBlocked (some sender) state next := by
  intro item' hi
  rw [hp] at hi
  obtain ⟨item,hitem,rfl⟩ := List.mem_map.mp hi
  unfold readyLocalItem
  split
  · rename_i hawaits
    have horigin : item.localOriginUserId = some sender := by
      simp only [awaitsReady,Bool.and_eq_true,beq_iff_eq] at hawaits
      exact hawaits.1.2
    refine ⟨fun hb => by simp [ownerOffline] at hb,fun userId hne hs => ?_⟩
    simp only [sharesUnblocked,horigin,Bool.and_eq_true,beq_iff_eq] at hs
    exact absurd hs.1.2 hne
  · exact ⟨h.error item hitem,fun userId _ hs => ⟨item,hitem,hs⟩⟩

/-- A report on an item, unless it clears one that is blocked. -/
theorem BlockInv.noLess_itemError (h : BlockInv exempt state) {itemId : ItemId}
    {error : Option String} {cleared : Bool} {now : ℕ}
    (he : applyPlaylistItemError state itemId error now = some (next,cleared))
    (hclear : error = none → (findItem state itemId).any ownerOffline = false) :
    NoLessBlocked exempt state next := by
  obtain ⟨index,item,-,-,⟨hnone,-,rfl⟩ | rfl | ⟨message,failed,hf,hnext⟩⟩ :=
    applyPlaylistItemError_cases he
  · refine h.noLess_modifyFirst rfl fun item hitem => ⟨rfl,rfl,rfl,fun hb => ?_⟩
    have hnot := hclear hnone
    have hfound : findItem state itemId = some item := hitem
    rw [hfound,Option.any_some,hb] at hnot
    cases hnot
  · exact h.noLess rfl
  · have hplaylist : next.playlist = failed.playlist := by
      rcases hnext with rfl | ⟨-,-,rfl⟩ <;> rfl
    rw [hf] at hplaylist
    exact h.noLess_modifyFirst hplaylist fun item _ => ⟨rfl,rfl,rfl,fun _ _ => rfl⟩

theorem RosterEffect.offlineBefore {ctx : RoomMessageContext} {participant : ParticipantState}
    {msg : RoomMessage} (he : RosterEffect ctx state participant msg next) :
    OfflineBefore (some ctx.userId) state.participants next.participants := by
  have hreplaced : ∀ q, next.participants = state.participants.modify ctx.userId (fun _ => q) →
      OfflineBefore (some ctx.userId) state.participants next.participants := by
    intro q hps userId p' hne hp' hoff
    rw [hps,Record.get?_modify,if_neg fun he => hne (congrArg some he.symm)] at hp'
    exact ⟨p',hp',hoff⟩
  cases he with
  | same hsame =>
    rw [hsame.participants]
    exact .of_derives (.refl SameConnected.refl _)
  | prune itemId _ hps =>
    rw [hps]
    refine .of_derives (.mapValues _ fun p => ?_)
    unfold pruneViewerMedia
    split
    · rfl
    · split
      · rfl
      · dsimp only
        split <;> rfl
  | prefer _ _ p' _ _ hps => exact hreplaced p' hps
  | profile p' _ hps => exact hreplaced p' hps
  | role _ targetUserId _ _ _ _ hps =>
    rw [hps]
    exact .of_derives (.modify _ targetUserId SameConnected.refl fun _ _ => rfl)
  | security _ hps =>
    rw [hps]
    exact .of_derives (.refl SameConnected.refl _)

theorem MessageEffect.noLessBlocked {ctx : RoomMessageContext} {inp : MessageInputs}
    {participant : ParticipantState} {msg : RoomMessage}
    (he : MessageEffect env ctx inp state participant msg next)
    (h : BlockInv (some ctx.userId) state) (hready : readiesBlocked inp state msg = false) :
    NoLessBlocked (some ctx.userId) state next := by
  cases he with
  | seek => exact h.noLess rfl
  | setPaused => exact h.noLess rfl
  | rate => exact h.noLess rfl
  | loop => exact h.noLess rfl
  | select _ _ _ _ hs =>
    obtain ⟨-,rfl⟩ := applyPlaylistSelect_eq_some hs
    exact h.noLess rfl
  | addUrl => exact h.noLess_append rfl rfl fun userId _ => rfl
  | addLocal =>
    refine h.noLess_append rfl rfl fun userId hne => ?_
    have hother : (some ctx.userId == some userId) = false := by simpa using hne
    simp only [sharesUnblocked,buildLocalFilePlaylistItem,hother,Bool.and_false,Bool.false_and]
  | itemError _ itemId error _ _ _ he =>
    have hkept := h.noLess_itemError he fun hnone => by
      subst hnone
      exact hready
    exact hkept
  | reorder _ _ _ _ _ hr =>
    obtain ⟨entry,hentry,hto,rfl⟩ := applyPlaylistReorder_eq_some hr
    exact h.noLess_of_keeps fun item hi => ⟨item,(move_perm hentry hto).mem_iff.mp hi,.rfl⟩
  | rename _ _ _ _ _ hr =>
    rw [applyPlaylistRename_eq_some hr]
    exact h.noLess_modifyFirst rfl fun item _ => ⟨rfl,rfl,rfl,fun _ h => h⟩
  | remove _ _ _ _ hr =>
    obtain ⟨index,item,adjusted,-,-,rfl,hp,-⟩ := applyPlaylistRemove_cases hr
    refine h.noLess_of_keeps fun item hi => ⟨item,?_,.rfl⟩
    rw [RoomState.withLog_playlist,pruneViewerMediaItemId_playlist,hp] at hi
    exact List.mem_of_mem_eraseIdx hi
  | itemDuration _ _ _ hd =>
    rw [(applyPlaylistItemDuration_eq_some hd).2]
    exact h.noLess_modifyFirst rfl fun item _ => ⟨rfl,rfl,rfl,fun _ h => h⟩
  | itemTitle _ _ _ ht =>
    rw [(applyPlaylistItemTitle_eq_some ht).2]
    exact h.noLess_modifyFirst rfl fun item _ => ⟨rfl,rfl,rfl,fun _ h => h⟩
  | localReady => exact h.noLess_ready rfl
  | abrPublish _ _ parent _ _ _ hparent ha =>
    obtain ⟨-,rfl⟩ := publishAbr_eq_some ha
    refine h.noLess_modifyFirst rfl fun item hitem => ⟨rfl,rfl,rfl,fun hb => ?_⟩
    simp only [readiesBlocked,hparent,Option.bind_some,hitem,Option.any_some,hb] at hready
    cases hready
  | viewerMedia => exact h.noLess rfl
  | profile => exact h.noLess rfl
  | sameRole => exact h.noLess rfl
  | role => exact h.noLess rfl
  | security => exact h.noLess rfl

theorem MessageEffect.not_retries {ctx : RoomMessageContext} {inp : MessageInputs}
    {participant : ParticipantState} {msg : RoomMessage}
    (he : MessageEffect env ctx inp state participant msg next) : retries msg = false := by
  cases he with
  | setPaused _ _ _ _ hmsg => rcases hmsg with rfl | rfl <;> rfl
  | loop _ _ _ _ _ hmsg => rcases hmsg with rfl | rfl <;> rfl
  | security _ _ _ _ hmsg => rcases hmsg with ⟨_,rfl⟩ | rfl | ⟨_,rfl⟩ <;> rfl
  | _ => rfl

theorem mem_repairPlaylistState {item' : PlaylistItem}
    (h : item' ∈ (repairPlaylistState env state).1.playlist) :
    ∃ item ∈ state.playlist, item' = (repairPlaylistItemFields item).1 := by
  have hmem : item' ∈ state.playlist.map fun item => (repairPlaylistItemFields item).1 := by
    simp only [repairPlaylistState] at h
    split at h
    · exact List.mem_of_mem_drop h
    · exact h
  obtain ⟨item,hitem,rfl⟩ := List.mem_map.mp hmem
  exact ⟨item,hitem,rfl⟩

theorem repairPlaylistItemFields_keeps (item : PlaylistItem) :
    KeepsBlock item (repairPlaylistItemFields item).1 := by
  refine ⟨rfl,rfl,rfl,fun _ herror => ?_⟩
  simp [repairPlaylistItemFields,herror]

theorem BlockInv.repair (h : BlockInv exempt state) (now : ℕ) (newOwnerId : UserId) :
    BlockInv exempt (applyRoomStateRepair env now newOwnerId state) := by
  refine h.of_before (.of_derives ?_) (h.noLess_of_keeps fun item' hi => ?_)
  · rw [applyRoomStateRepair_participants]
    exact repairParticipants_derives SameConnected.refl SameConnected.trans env now
      (fun _ => rfl) state.participants
  · obtain ⟨item,hitem,rfl⟩ := mem_repairPlaylistState hi
    exact ⟨item,hitem,repairPlaylistItemFields_keeps item⟩

/-- A reconcile that turns off nobody who shares an unblocked file. -/
def MissesNobody (state : RoomState) (activeConnections : Finset UserId) (exempt : Option UserId) :
    Prop :=
  ∀ userId p, state.participants.get? userId = some p → p.connected = true →
    userId ∉ activeConnections → exempt ≠ some userId →
      ∀ item ∈ state.playlist, sharesUnblocked userId item = false

theorem missesNobody_of_not (hroster : RosterInv state) {activeConnections : Finset UserId}
    (h : missesSharer state activeConnections exempt = false) :
    MissesNobody state activeConnections exempt := by
  intro userId p hp hconn habsent hne item hitem
  simp only [missesSharer,List.any_eq_false] at h
  have hvalue := h p ((Record.mem_values_iff _ _).mpr ⟨userId,hp⟩)
  rw [(hroster.key userId p hp).1] at hvalue
  by_contra hshares
  refine hvalue ?_
  simp only [hconn,habsent,not_false_iff,decide_true,Bool.true_and,Bool.and_eq_true,bne_iff_ne]
  exact ⟨hne,List.any_eq_true.mpr ⟨item,hitem,by simpa using hshares⟩⟩

theorem BlockInv.reconcile (h : BlockInv none state) (hroster : RosterInv state)
    {active : Finset UserId} (hmiss : MissesNobody state active exempt) (now : ℕ) :
    BlockInv exempt (reconcileParticipantsConnectivity active now state) where
  error := h.error
  offline userId p' hne hp' hoff := by
    obtain ⟨p,hp,rfl⟩ := Option.map_eq_some_iff.mp ((Record.get?_mapValues _ _ _).symm.trans hp')
    rw [reconcileParticipant_connected,decide_eq_false_iff_not,(hroster.key userId p hp).1] at hoff
    cases hconn : p.connected with
    | true => exact hmiss userId p hp hconn hoff hne
    | false => exact h.offline userId p nofun hp hconn

theorem MissesNobody.repair {active : Finset UserId} (h : MissesNobody state active exempt)
    (now : ℕ) (newOwnerId : UserId) :
    MissesNobody (applyRoomStateRepair env now newOwnerId state) active exempt := by
  intro userId p' hp' hconn habsent hne item' hi
  obtain ⟨p,hp,hsame⟩ := repairParticipants_derives SameConnected.refl SameConnected.trans env now
    (fun _ => rfl) state.participants userId p' hp'
  obtain ⟨item,hitem,rfl⟩ := mem_repairPlaylistState hi
  rw [(repairPlaylistItemFields_keeps item).sharesUnblocked]
  exact h userId p hp (hsame ▸ hconn) habsent hne item hitem

theorem BlockInv.finish {userId : UserId} (h : BlockInv (some userId) state)
    (newOwnerId : UserId) (now : ℕ) (hint : RoomPublishHint) :
    BlockInv none (finishRoomMessage env userId newOwnerId now hint state) := by
  have hrepaired : BlockInv (some userId) (applyRoomStateRepair env now newOwnerId state) :=
    h.repair now newOwnerId
  refine ⟨hrepaired.error,fun user p' _ hp' hoff => ?_⟩
  have hget : (finishRoomMessage env userId newOwnerId now hint state).participants.get? user =
      ((applyRoomStateRepair env now newOwnerId state).participants.modify userId
        (markSeen now)).get? user := rfl
  rw [hget,Record.get?_modify] at hp'
  split at hp'
  · obtain ⟨p,-,rfl⟩ := Option.map_eq_some_iff.mp hp'
    cases hoff
  · rename_i hother
    exact hrepaired.offline user p' (fun he => hother (Option.some.inj he).symm) hp' hoff

theorem BlockInv.seat {input : JoinInput} (h : BlockInv (some input.userId) state) :
    BlockInv none (seatJoiner input state) := by
  refine ⟨h.error,fun user p' _ hp' hoff => ?_⟩
  simp only [seatJoiner,Record.get?_set] at hp'
  split at hp'
  · cases hp'
    cases hoff
  · rename_i hother
    exact h.offline user p' (fun he => hother (Option.some.inj he).symm) hp' hoff

theorem BlockInv.transfer (h : BlockInv exempt state) (now : ℕ) (reason : TransferReason) :
    BlockInv exempt (transferOwnershipIfNeeded env now state reason).1 :=
  h.of_derives (transferOwnershipIfNeeded_derives env now state reason SameConnected.refl
    SameConnected.trans fun _ _ => rfl) (transferOwnershipIfNeeded_playlist env now state reason)

theorem blockLocalItem_unblocked (userId : UserId) (item : PlaylistItem) :
    sharesUnblocked userId (blockLocalItem userId item) = false := by
  unfold blockLocalItem
  split
  · simp [sharesUnblocked]
  · rename_i hnot
    simpa using hnot

theorem BlockInv.wentOffline (h : BlockInv none state) (roomId : String) (userId : UserId)
    (now : ℕ) : BlockInv none (applyUserWentOffline env state roomId userId now).1 where
  error item' hi hb := by
    rw [applyUserWentOffline_playlist] at hi
    obtain ⟨item,hitem,rfl⟩ := List.mem_map.mp hi
    unfold blockLocalItem at hb ⊢
    split
    · rfl
    · rename_i hnot
      rw [if_neg hnot] at hb
      exact h.error item hitem hb
  offline user p' _ hp' hoff item' hi := by
    rw [applyUserWentOffline_playlist] at hi
    rw [applyUserWentOffline_participants,Record.get?_modify] at hp'
    obtain ⟨item,hitem,rfl⟩ := List.mem_map.mp hi
    split at hp'
    · rename_i hsame
      rw [hsame]
      exact blockLocalItem_unblocked userId item
    · have hbefore := h.offline user p' (Option.some_ne_none user).symm hp' hoff item hitem
      unfold blockLocalItem
      split
      · simp [sharesUnblocked]
      · exact hbefore

theorem BlockInv.reresolve (h : BlockInv exempt state) {itemId : ItemId} {now : ℕ}
    (hr : reresolveRemotePlaylistItem itemId now state = some next) : BlockInv exempt next := by
  obtain ⟨⟨item,hitem,-,hopen⟩,rfl⟩ := reresolveRemotePlaylistItem_eq_some hr
  refine h.of_before (.of_derives (.refl SameConnected.refl _)) ?_
  refine h.noLess_modifyFirst rfl fun found hfound => ⟨rfl,rfl,rfl,fun hb => ?_⟩
  have hsame : found = item := Option.some.inj (hfound.symm.trans hitem)
  simp only [hsame,ownerOffline,beq_iff_eq] at hb
  exact absurd hb hopen

theorem BlockInv.settle (h : BlockInv exempt state) {itemId : ItemId} {outcome : ResolveOutcome}
    {retryUntilPresent : Bool} {now : ℕ}
    (hc : commitResolvingItem env itemId outcome retryUntilPresent now state = some next) :
    BlockInv exempt next := by
  rcases commitResolvingItem_eq_some hc with rfl | ⟨⟨item,hitem,hwaits⟩,rfl⟩
  · exact h
  · refine h.of_before (.of_derives (.refl SameConnected.refl _)) ?_
    refine h.noLess_modifyFirst rfl fun found hfound => ?_
    have hsame : found = item := Option.some.inj (hfound.symm.trans hitem)
    obtain ⟨-,hkind,horigin,hblocked⟩ := outcome.mutateItem_frame env found
    refine ⟨hkind,horigin,hblocked,fun _ herror => ?_⟩
    rw [hsame,hwaits] at herror
    cases herror

theorem BlockInv.message (h : BlockInv none state) (hroster : RosterInv state)
    {ctx : RoomMessageContext} {inp : MessageInputs} {msg : RoomMessage}
    (hg : (RoomOp.message ctx inp msg).keepsBlocks state = true)
    (hc : processRoomMessage env ctx inp msg state = some next) : BlockInv none next := by
  rcases processRoomMessage_cases hc with ⟨itemId,-,hr⟩ | ⟨p,mutated,hint,hp,he,rfl⟩
  · exact h.reresolve hr
  · simp only [RoomOp.keepsBlocks,he.not_retries,Bool.false_or,Bool.and_eq_true,
      Bool.not_eq_true'] at hg
    have hreconciled := h.reconcile hroster (missesNobody_of_not hroster hg.1) inp.now
    have hmutated := hreconciled.of_before he.roster.offlineBefore
      (he.noLessBlocked hreconciled hg.2)
    exact hmutated.finish inp.newOwnerId inp.now hint

theorem BlockInv.sweep (h : BlockInv none state) (hroster : RosterInv state)
    {activeConnections : Finset UserId} {newOwnerId : UserId} {now : ℕ}
    (hg : (RoomOp.cleanup activeConnections newOwnerId now).keepsBlocks state = true)
    (hc : cleanupInactiveRoom env activeConnections newOwnerId now state = some next) :
    BlockInv none next := by
  rw [cleanupInactiveRoom_eq_some hc]
  have hmiss : MissesNobody state activeConnections none :=
    missesNobody_of_not hroster (by simpa [RoomOp.keepsBlocks] using hg)
  have hbase : BlockInv none (sweepBase env activeConnections newOwnerId now state) :=
    (h.repair now newOwnerId).reconcile (hroster.repair now newOwnerId) (hmiss.repair now newOwnerId)
      now
  have hmoved : BlockInv none (transferOwnershipIfNeeded env now
      (sweepBase env activeConnections newOwnerId now state) .cleanup).1 :=
    hbase.transfer now .cleanup
  generalize transferOwnershipIfNeeded env now
    (sweepBase env activeConnections newOwnerId now state) .cleanup = swept at hmoved ⊢
  exact hmoved.congr rfl rfl

theorem createInitialRoomState_block (env : Env) (input : JoinInput) :
    BlockInv none (createInitialRoomState env input) where
  error item hi hb := by
    rw [createInitialRoomState_playlist] at hi
    obtain ⟨id,url,name,rfl⟩ := mem_initialPlaylist hi
    cases hb
  offline _ _ _ hp := by
    rw [createInitialRoomState_participants] at hp
    cases hp

theorem BlockInv.join {input : JoinInput} {existing : Option RoomState}
    (hne : input.userId ≠ "")
    (h : ∀ state, existing = some state → BlockInv none state ∧ RosterInv state ∧
      (RoomOp.join input).keepsBlocks state = true)
    (hc : commitJoinMembership env input existing = some next) : BlockInv none next := by
  have hstate : ∀ state, existing.getD (createInitialRoomState env input) = state →
      BlockInv none state ∧ RosterInv state ∧
        MissesNobody state input.activeConnections (some input.userId) := by
    rintro state rfl
    cases existing with
    | none =>
      refine ⟨createInitialRoomState_block env input,createInitialRoomState_roster env hne,?_⟩
      intro userId p hp
      rw [Option.getD_none,createInitialRoomState_participants] at hp
      cases hp
    | some state =>
      obtain ⟨hblock,hroster,hg⟩ := h state rfl
      exact ⟨hblock,hroster,missesNobody_of_not hroster (by simpa [RoomOp.keepsBlocks] using hg)⟩
  have hbase : BlockInv (some input.userId) (joinBase env input existing) := by
    unfold joinBase
    generalize existing.getD (createInitialRoomState env input) = state at hstate ⊢
    obtain ⟨hblock,hroster,hmiss⟩ := hstate state rfl
    exact (hblock.repair input.now input.newOwnerId).reconcile
      (hroster.repair input.now input.newOwnerId) (hmiss.repair input.now input.newOwnerId)
      input.now
  have hentered : BlockInv none (enterParticipant env input (joinBase env input existing)).1 :=
    hbase.seat.transfer input.now .join
  obtain ⟨log,generation,structuralRevision,rfl⟩ := commitJoinMembership_eq_some hc
  generalize (enterParticipant env input (joinBase env input existing)).1 = entered
    at hentered ⊢
  exact hentered.congr rfl rfl

theorem BlockInv.prune (h : BlockInv none state) {removed : RoomState} (now : ℕ)
    (hps : state.participants.Derives SameConnected removed.participants)
    (hp : removed.playlist = state.playlist) :
    BlockInv none { bumpRoomRevisions (transferOwnershipIfNeeded env now removed .prune).1 with
      updatedAt := now } := by
  have hmoved : BlockInv none (transferOwnershipIfNeeded env now removed .prune).1 :=
    (h.of_derives hps hp).transfer now .prune
  generalize transferOwnershipIfNeeded env now removed .prune = moved at hmoved ⊢
  exact hmoved.congr rfl rfl

/-- Every operation that misses nobody and readies no blocked item keeps the blocks. -/
theorem BlockInv.step {op : RoomOp} (h : BlockInv none state) (hroster : RosterInv state)
    (hf : op.Fresh (some state)) (hg : op.keepsBlocks state = true)
    (hc : op.commit env (some state) = some next) : BlockInv none next := by
  cases op with
  | message ctx inp msg => exact h.message hroster hg hc
  | join input => exact .join hf.1 (fun s hs => by cases hs; exact ⟨h,hroster,hg⟩) hc
  | disconnect roomId userId activeUsers now =>
    rw [(handleSocketDisconnect_eq_some hc).2]
    exact (h.wentOffline roomId userId now).congr rfl rfl
  | abortJoin roomId userId now =>
    rw [abortJoinAfterCommit_eq_some hc]
    exact (h.wentOffline roomId userId now).congr rfl rfl
  | cleanup activeConnections newOwnerId now => exact h.sweep hroster hg hc
  | prune userId now =>
    rw [(removeDisconnectedParticipant_eq_some hc).2]
    exact h.prune now (.erase _ userId SameConnected.refl) rfl
  | pruneFallback now =>
    rw [pruneByDisconnectedAtFallback_eq_some hc]
    exact h.prune now (.foldl_erase _ SameConnected.refl SameConnected.trans _) rfl
  | reresolve itemId now => exact h.reresolve hc
  | settleResolve itemId outcome retryUntilPresent now => exact h.settle hc

theorem blockInv_of_guarded
    (h : (guardedRoomSystem env RoomOp.keepsBlocks).Reachable (some state)) :
    BlockInv none state := by
  apply guarded_invariant (BlockInv none) _ _ h
  · intro input next hf hc
    exact .join hf.1 (fun s hs => by cases hs) hc
  · intro state op next hr hi hg hf hc
    exact hi.step (Stored.of_guarded hr).rosterInv hf hg hc

end Blocking

/-- In every run whose operations all keep the blocks, a local file of an offline
participant is blocked and failed. -/
theorem local_media_blocked {env : Env} {state : RoomState}
    (h : (guardedRoomSystem env RoomOp.keepsBlocks).Reachable (some state)) :
    ∀ item ∈ state.playlist, ∀ (userId : UserId) (p : ParticipantState),
      item.sourceKind = .localFile → item.localOriginUserId = some userId →
      state.participants.get? userId = some p → p.connected = false →
        item.blockedReason = some .localOwnerOffline ∧ item.ingestStatus = some .error := by
  intro item hi userId p hkind horigin hp hoff
  have hinv := blockInv_of_guarded h
  have hne : userId ≠ "" := ((Stored.of_guarded h).rosterInv.key userId p hp).2
  have hshares := hinv.offline userId p nofun hp hoff item hi
  have hblocked : item.blockedReason = some .localOwnerOffline := by
    simpa [sharesUnblocked,hkind,horigin,hne] using hshares
  exact ⟨hblocked,hinv.error item hi (by simp [ownerOffline,hblocked])⟩

/-- Ann shares a file and closes her only socket. -/
theorem local_media_blocked_on_close : ∃ (state : RoomState) (item : PlaylistItem)
    (p : ParticipantState), item ∈ state.playlist ∧ state.participants.get? "ann" = some p ∧ p.connected = false ∧
      item.blockedReason = some .localOwnerOffline ∧ item.ingestStatus = some .error := by
  obtain ⟨state,hr,hstate⟩ := exists_guarded_of_runRoom scenarioEnv RoomOp.keepsBlocks
    [joinAs "ann" 1000 {},
      messageFrom "ann" 2000 {"ann"} "file" (.playlistAddLocal (videoFile "film" none)),
      .disconnect "room" "ann" {} 3000]
    (fun state => ((state.playlist.head?.any fun item =>
        item.sourceKind == .localFile && item.localOriginUserId == some "ann") &&
      (state.participants.get? "ann").any fun p => !p.connected) = true)
    (by decide +kernel)
  simp only [Bool.and_eq_true,Option.any_eq_true,beq_iff_eq,Bool.not_eq_true'] at hstate
  obtain ⟨⟨item,hhead,hkind,horigin⟩,p,hp,hoff⟩ := hstate
  have hitem := List.mem_of_mem_head? hhead
  exact ⟨state,item,p,hitem,hp,hoff,
    local_media_blocked hr item hitem "ann" p hkind horigin hp hoff⟩

/-- Ann's process dies with her socket; the next sweep turns her off, and her file
stays ready. -/
theorem local_media_unblocked_by_sweep : ¬∀ (env : Env) (state : RoomState), Stored env state →
    ∀ item ∈ state.playlist, ∀ (userId : UserId) (p : ParticipantState),
      item.sourceKind = .localFile → item.localOriginUserId = some userId →
      state.participants.get? userId = some p → p.connected = false →
        item.blockedReason = some .localOwnerOffline ∧ item.ingestStatus = some .error := by
  intro h
  obtain ⟨state,hstored,hstate⟩ := exists_stored_of_runRoom scenarioEnv
    [joinAs "ann" 1000 {},joinAs "bob" 1500 {"ann"},
      messageFrom "ann" 2000 {"ann","bob"} "file" (.playlistAddLocal (videoFile "film" none)),
      .cleanup {"bob"} "" 3000]
    (fun state => ((state.playlist.head?.any fun item => item.sourceKind == .localFile &&
        (item.localOriginUserId == some "ann" && item.blockedReason == none)) &&
      (state.participants.get? "ann").any fun p => !p.connected) = true)
    (by decide +kernel)
  simp only [Bool.and_eq_true,Option.any_eq_true,beq_iff_eq,Bool.not_eq_true'] at hstate
  obtain ⟨⟨item,hhead,hkind,horigin,hopen⟩,p,hp,hoff⟩ := hstate
  have hblocked := (h scenarioEnv state hstored item (List.mem_of_mem_head? hhead) "ann" p hkind
    horigin hp hoff).1
  rw [hopen] at hblocked
  cases hblocked

end WebSyncPlay
