import WebSyncPlay.RepairCurrentItem

/-! What a repair establishes, and that a second one finds nothing to change (`server/repair.ts`). -/
namespace WebSyncPlay.Decoded

open Library ScriptValue

section Sound

/-- The four texts of an item are there and its three enumerations are legal. -/
def LegalItem (item : ScriptValue) : Prop :=
  isPlaylistItem item = true ∧ isOneOf (propOf item "sourceKind") sourceKinds = true ∧
    isOneOf (propOf item "playbackMode") playbackModes = true ∧
    isOneOf (propOf item "ingestStatus") ingestStatuses = true

def IsCount (v : Option ScriptValue) : Prop := ∃ q : ℚ, 0 ≤ q ∧ v = some (rat q)

structure SoundRoom (env : Env) (state : ScriptObject) : Prop where
  playlist : ∃ items, getProp state "playlist" = some (.array items []) ∧
    items.length ≤ env.roomPlaylistLimit ∧ (∀ item ∈ items, LegalItem item) ∧
    ∃ i : ℕ, getProp state "currentIndex" = some (rat i) ∧ i < max 1 items.length
  participants : ∃ entries, getProp state "participants" = some (.object entries) ∧
    entries.length ≤ env.roomParticipantsLimit
  actionLog : ∃ entries, getProp state "actionLog" = some (.array entries []) ∧
    entries.length ≤ env.roomActionLogLimit
  playback : ∃ v, getProp state "playback" = some v ∧ IsCount (propOf v "timelineAnchorMs") ∧
    IsCount (propOf v "serverNowMs") ∧
    ∃ rate : ℚ, 1/4 ≤ rate ∧ rate ≤ 3 ∧ propOf v "playbackRate" = some (rat rate)
  security : ∃ current, getProp state "roomSecurity" = some (.object current) ∧
    (getProp current "joinPasswordEnabled" = some (.bool true) →
      ∃ hash salt, hash ≠ "" ∧ salt ≠ "" ∧
        getProp current "joinPasswordHash" = some (.string hash) ∧
        getProp current "joinPasswordSalt" = some (.string salt))
  generation : IsCount (getProp state "generation")
  structuralRevision : IsCount (getProp state "structuralRevision")

/-- The repair goes through, and a second one changes nothing. -/
def RepairSettles (env : Env) (conv : NumberText) (now : ℤ) (newOwnerId : String)
    (state : ScriptObject) : Prop :=
  ∃ state' findings,
    repairCleanupAndCheckRoomState env conv now newOwnerId state = some (state',findings) ∧
    SoundRoom env state' ∧ ∀ newOwnerId', ∃ findings',
      repairCleanupAndCheckRoomState env conv now newOwnerId' state' = some (state',findings')

end Sound

section Values

variable {v : ScriptValue} {props : ScriptObject} {k : String}

theorem propOf_eq (h : v.props? = some props) (k : String) : propOf v k = getProp props k := by
  rw [propOf,h]
  rfl

theorem mapProps_eq (h : v.props? = some props) (f : ScriptObject → ScriptObject) :
    mapProps v f = v.withProps (f props) := by
  rw [mapProps,h]

theorem props?_mapProps (h : v.props? = some props) (f : ScriptObject → ScriptObject) :
    (mapProps v f).props? = some (f props) := by
  rw [mapProps_eq h]
  exact props?_withProps h

theorem mapProps_self (h : v.props? = some props) {f : ScriptObject → ScriptObject}
    (hf : f props = props) : mapProps v f = v := by
  rw [mapProps_eq h,hf]
  exact withProps_self h

theorem exists_props (h : isText (propOf v k) = true) : ∃ props, v.props? = some props := by
  rw [propOf] at h
  cases hprops : v.props? with
  | none =>
    rw [hprops] at h
    cases h
  | some props => exact ⟨props,rfl⟩

end Values

section Rules

variable {o : ScriptObject} {rules : List RepairRule} {rule : RepairRule}

def RepairRule.Idle (rule : RepairRule) (o : ScriptObject) : Prop :=
  ∀ v, rule.value o = some v → getProp o rule.key = some v

theorem RepairRule.apply_of_idle (h : rule.Idle o) : (rule.apply o).1 = o :=
  assignProp_of_getProp h

theorem applyRules_cons (rule : RepairRule) (rules : List RepairRule) (o : ScriptObject) :
    (applyRules (rule :: rules) o).1 = (applyRules rules (rule.apply o).1).1 :=
  rfl

theorem applyRules_of_idle (h : ∀ rule ∈ rules, rule.Idle o) : (applyRules rules o).1 = o := by
  induction rules with
  | nil => rfl
  | cons rule rules ih =>
    have hfirst := RepairRule.apply_of_idle (h rule List.mem_cons_self)
    rw [applyRules_cons,hfirst]
    exact ih fun other hother => h other (List.mem_cons_of_mem rule hother)

theorem getProp_applyRules {k : String} (h : ∀ rule ∈ rules, rule.key ≠ k) :
    getProp (applyRules rules o).1 k = getProp o k := by
  induction rules generalizing o with
  | nil => rfl
  | cons rule rules ih =>
    rw [applyRules_cons,ih fun other hother => h other (List.mem_cons_of_mem rule hother),
      RepairRule.apply,getProp_assignProp,if_neg (Ne.symm (h rule List.mem_cons_self))]

theorem isOneOf_string {s : String} {names : List String} (h : s ∈ names) :
    isOneOf (some (.string s)) names = true := by
  simpa [isOneOf,string?] using h

theorem getProp_foldl_deleteProp (ks : List String) (o : ScriptObject) (j : String) :
    getProp (ks.foldl deleteProp o) j = if j ∈ ks then none else getProp o j := by
  induction ks generalizing o with
  | nil => rfl
  | cons k ks ih =>
    rw [List.foldl_cons,ih,getProp_deleteProp]
    by_cases hk : j = k
    · simp [hk]
    · simp [hk]

theorem foldl_deleteProp_of_getProp {ks : List String} (h : ∀ k ∈ ks, getProp o k = none) :
    ks.foldl deleteProp o = o := by
  induction ks with
  | nil => rfl
  | cons k ks ih =>
    rw [List.foldl_cons,deleteProp_of_getProp (h k List.mem_cons_self)]
    exact ih fun k' hk' => h k' (List.mem_cons_of_mem k hk')

end Rules

section Items

variable {item : ScriptObject}

structure SettledItem (item : ScriptObject) : Prop where
  sourceKind : isOneOf (getProp item "sourceKind") sourceKinds = true
  playbackMode : isOneOf (getProp item "playbackMode") playbackModes = true
  sameOrigin : ¬(string? (getProp item "sourceKind") = some "local_file" ∧
    string? (getProp item "playbackMode") = some "relay")
  ingestStatus : isOneOf (getProp item "ingestStatus") ingestStatuses = true
  noLegacy : ∀ k ∈ legacyKeys, getProp item k = none

theorem migrationRule_idle {key legacyKey finding : String} (h : getProp item legacyKey = none) :
    (migrationRule key legacyKey finding).Idle item := by
  intro v hv
  change (if truthy (getProp item key) = true then none
    else (string? (getProp item legacyKey)).map .string) = some v at hv
  rw [h] at hv
  split at hv <;> cases hv

theorem SettledItem.repair (h : SettledItem item) : (repairPlaylistItemFields item).1 = item := by
  have hidle : (applyRules itemRules item).1 = item := by
    refine applyRules_of_idle fun rule hrule => ?_
    simp only [itemRules,List.mem_cons,List.not_mem_nil,or_false] at hrule
    rcases hrule with rfl | rfl | rfl | rfl | rfl | rfl | rfl
    · intro v hv
      simp [sourceKindRule,h.sourceKind] at hv
    · intro v hv
      simp [playbackModeRule,h.playbackMode] at hv
    · intro v hv
      change (if _ then _ else none) = some v at hv
      rw [if_neg h.sameOrigin] at hv
      cases hv
    · intro v hv
      simp [ingestStatusRule,h.ingestStatus] at hv
    · exact migrationRule_idle (h.noLegacy _ (by decide))
    · exact migrationRule_idle (h.noLegacy _ (by decide))
    · exact migrationRule_idle (h.noLegacy _ (by decide))
  rw [repairPlaylistItemFields]
  dsimp only
  rw [hidle]
  exact foldl_deleteProp_of_getProp h.noLegacy

theorem isOneOf_apply (rule : RepairRule) {names : List String}
    (hassign : ∀ v, rule.value item = some v → isOneOf (some v) names = true)
    (hkeep : rule.value item = none → isOneOf (getProp item rule.key) names = true) :
    isOneOf (getProp (rule.apply item).1 rule.key) names = true := by
  rw [RepairRule.apply,getProp_assignProp,if_pos rfl]
  cases hvalue : rule.value item with
  | none => exact hkeep hvalue
  | some v => exact hassign v hvalue

theorem isOneOf_apply_enum (rule : RepairRule) {names : List String} {s : String} (hs : s ∈ names)
    (hrule : rule.value item =
      if isOneOf (getProp item rule.key) names then none else some (.string s)) :
    isOneOf (getProp (rule.apply item).1 rule.key) names = true := by
  refine isOneOf_apply rule ?_ ?_
  · intro v hv
    rw [hrule] at hv
    split at hv
    · cases hv
    · obtain rfl := Option.some.inj hv
      exact isOneOf_string hs
  · intro hnone
    rw [hrule] at hnone
    split at hnone
    · assumption
    · cases hnone

theorem getProp_apply_of_ne (rule : RepairRule) {k : String} (h : k ≠ rule.key) :
    getProp (rule.apply item).1 k = getProp item k := by
  rw [RepairRule.apply,getProp_assignProp,if_neg h]

theorem isOneOf_sourceKind (item : ScriptObject) :
    isOneOf (getProp (sourceKindRule.apply item).1 "sourceKind") sourceKinds = true := by
  refine isOneOf_apply_enum sourceKindRule ?_ rfl
  split <;> decide

theorem isOneOf_playbackMode (item : ScriptObject) :
    isOneOf (getProp (playbackModeRule.apply item).1 "playbackMode") playbackModes = true :=
  isOneOf_apply_enum playbackModeRule (by decide) rfl

theorem isOneOf_localPlaybackMode
    (h : isOneOf (getProp item "playbackMode") playbackModes = true) :
    isOneOf (getProp (localPlaybackModeRule.apply item).1 "playbackMode") playbackModes = true := by
  refine isOneOf_apply localPlaybackModeRule ?_ fun _ => h
  intro v hv
  change (if _ then some _ else none) = some v at hv
  split at hv
  · obtain rfl := Option.some.inj hv
    exact isOneOf_string (by decide)
  · cases hv

theorem isOneOf_ingestStatus (item : ScriptObject) :
    isOneOf (getProp (ingestStatusRule.apply item).1 "ingestStatus") ingestStatuses = true := by
  refine isOneOf_apply_enum ingestStatusRule ?_ rfl
  split
  · decide
  · split <;> decide

theorem localPlaybackMode_sameOrigin (item : ScriptObject) :
    ¬(string? (getProp (localPlaybackModeRule.apply item).1 "sourceKind") = some "local_file" ∧
      string? (getProp (localPlaybackModeRule.apply item).1 "playbackMode") = some "relay") := by
  rintro ⟨hkind,hmode⟩
  rw [getProp_apply_of_ne localPlaybackModeRule (by decide)] at hkind
  rw [RepairRule.apply,getProp_assignProp] at hmode
  change string? ((if string? (getProp item "sourceKind") = some "local_file" ∧
    string? (getProp item "playbackMode") = some "relay" then some (.string "direct")
    else none : Option ScriptValue).or (getProp item "playbackMode")) = some "relay" at hmode
  split at hmode
  · exact absurd (Option.some.inj hmode) (by decide)
  · rename_i hnot
    exact hnot ⟨hkind,hmode⟩

theorem settledItem_repair (item : ScriptObject) :
    SettledItem (repairPlaylistItemFields item).1 := by
  set kind := (sourceKindRule.apply item).1 with hkind
  set mode := (playbackModeRule.apply kind).1 with hmode
  set direct := (localPlaybackModeRule.apply mode).1 with hdirect
  set status := (ingestStatusRule.apply direct).1 with hstatus
  have hfinal : (repairPlaylistItemFields item).1 = legacyKeys.foldl deleteProp
      (applyRules [ingestErrorRule,defaultStreamRule,defaultTextTrackRule] status).1 := by
    rw [hstatus,hdirect,hmode,hkind,repairPlaylistItemFields,itemRules,applyRules_cons,
      applyRules_cons,applyRules_cons,applyRules_cons]
  -- the migrations and the stripping touch none of the three enumerations
  have hkeep : ∀ k ∈ ["sourceKind","playbackMode","ingestStatus"],
      getProp (repairPlaylistItemFields item).1 k = getProp status k := by
    intro k hk
    have hlegacy : ∀ k ∈ ["sourceKind","playbackMode","ingestStatus"], k ∉ legacyKeys := by decide
    have hmigrations : ∀ k ∈ ["sourceKind","playbackMode","ingestStatus"],
        k ∉ ["ingestError","defaultStreamId","defaultTextTrackId"] := by decide
    have hne := hmigrations k hk
    simp only [List.mem_cons,List.not_mem_nil,or_false,not_or] at hne
    rw [hfinal,getProp_foldl_deleteProp,if_neg (hlegacy k hk)]
    refine getProp_applyRules fun rule hrule => ?_
    simp only [List.mem_cons,List.not_mem_nil,or_false] at hrule
    rcases hrule with rfl | rfl | rfl
    · exact Ne.symm hne.1
    · exact Ne.symm hne.2.1
    · exact Ne.symm hne.2.2
  have hsourceKind : getProp status "sourceKind" = getProp kind "sourceKind" := by
    rw [hstatus,getProp_apply_of_ne ingestStatusRule (by decide),hdirect,
      getProp_apply_of_ne localPlaybackModeRule (by decide),hmode,
      getProp_apply_of_ne playbackModeRule (by decide)]
  have hplaybackMode : getProp status "playbackMode" = getProp direct "playbackMode" := by
    rw [hstatus,getProp_apply_of_ne ingestStatusRule (by decide)]
  have hstays : getProp status "sourceKind" = getProp direct "sourceKind" := by
    rw [hstatus,getProp_apply_of_ne ingestStatusRule (by decide)]
  refine ⟨?_,?_,?_,?_,?_⟩
  · rw [hkeep _ (by decide),hsourceKind]
    exact isOneOf_sourceKind item
  · rw [hkeep _ (by decide),hplaybackMode]
    exact isOneOf_localPlaybackMode (isOneOf_playbackMode kind)
  · rw [hkeep _ (by decide),hkeep _ (by decide),hstays,hplaybackMode]
    exact localPlaybackMode_sameOrigin mode
  · rw [hkeep _ (by decide)]
    exact isOneOf_ingestStatus direct
  · intro k hk
    rw [hfinal,getProp_foldl_deleteProp,if_pos hk]

def itemTexts : List String := ["id","name","sourceUrl","playableUrl"]

theorem getProp_repair_text (item : ScriptObject) {k : String} (hk : k ∈ itemTexts) :
    getProp (repairPlaylistItemFields item).1 k = getProp item k := by
  have hlegacy : ∀ k ∈ itemTexts, k ∉ legacyKeys := by decide
  have hkeys : ∀ k ∈ itemTexts, k ∉ itemRules.map RepairRule.key := by decide
  rw [repairPlaylistItemFields]
  dsimp only
  rw [getProp_foldl_deleteProp,if_neg (hlegacy k hk)]
  refine getProp_applyRules fun rule hrule hsame => ?_
  exact hkeys k hk (List.mem_map.mpr ⟨rule,hrule,hsame⟩)

theorem isPlaylistItem_repair {v : ScriptValue} (h : isPlaylistItem v = true) :
    isPlaylistItem (repairPlaylistItem v) = true := by
  have hid := h
  simp only [isPlaylistItem,Bool.and_eq_true] at hid
  obtain ⟨props,hprops⟩ := exists_props hid.1.1.1
  have hrepaired : (repairPlaylistItem v).props? = some (repairPlaylistItemFields props).1 :=
    props?_mapProps hprops _
  have hsame : ∀ k ∈ itemTexts, propOf (repairPlaylistItem v) k = propOf v k := by
    intro k hk
    rw [propOf_eq hrepaired,propOf_eq hprops,getProp_repair_text props hk]
  rw [isPlaylistItem,hsame "id" (by decide),hsame "name" (by decide),hsame "sourceUrl" (by decide),
    hsame "playableUrl" (by decide)]
  exact h

def SettledValue (v : ScriptValue) : Prop :=
  isPlaylistItem v = true ∧ ∃ props, v.props? = some props ∧ SettledItem props

theorem settledValue_repair {v : ScriptValue} (h : isPlaylistItem v = true) :
    SettledValue (repairPlaylistItem v) := by
  refine ⟨isPlaylistItem_repair h,?_⟩
  simp only [isPlaylistItem,Bool.and_eq_true] at h
  obtain ⟨props,hprops⟩ := exists_props h.1.1.1
  exact ⟨_,props?_mapProps hprops _,settledItem_repair props⟩

theorem SettledValue.repair {v : ScriptValue} (h : SettledValue v) : repairPlaylistItem v = v := by
  obtain ⟨-,props,hprops,hsettled⟩ := h
  exact mapProps_self hprops hsettled.repair

theorem SettledValue.legal {v : ScriptValue} (h : SettledValue v) : LegalItem v := by
  obtain ⟨hitem,props,hprops,hsettled⟩ := h
  refine ⟨hitem,?_,?_,?_⟩
  · rw [propOf_eq hprops]
    exact hsettled.sourceKind
  · rw [propOf_eq hprops]
    exact hsettled.playbackMode
  · rw [propOf_eq hprops]
    exact hsettled.ingestStatus

end Items

section Playlist

variable {env : Env} {conv : NumberText} {state : ScriptObject}

/-- A playlist that needs no repair, with an index into it. -/
def SettledPlaylist (env : Env) (playlist currentIndex : Option ScriptValue) : Prop :=
  ∃ items, ∃ i : ℕ, playlist = some (.array items []) ∧ currentIndex = some (rat i) ∧
    items.length ≤ env.roomPlaylistLimit ∧ i < max 1 items.length ∧ ∀ item ∈ items, SettledValue item

theorem rat_toNat {z : ℤ} (h : 0 ≤ z) : rat (z : ℚ) = rat ((z.toNat : ℕ) : ℚ) := by
  have hz : ((z.toNat : ℕ) : ℤ) = z := Int.toNat_of_nonneg h
  congr 1
  exact_mod_cast hz.symm

/-- The clamped index is one of the playlist, or zero when there is none. -/
theorem clampIndex_range (raw : Option ScriptValue) (conv : NumberText) {number : ScriptNumber}
    (hnumber : toNumber? conv raw = some number) (length : ℕ) :
    0 ≤ (clampIndex raw number length).1 ∧ (clampIndex raw number length).1 < max 1 (length : ℤ) := by
  rw [clampIndex]
  dsimp only
  split
  · have hcast : ((max 0 ((length : ℤ)-1) : ℤ) : ℚ) = (((max 0 ((length : ℤ)-1) : ℤ)) : ℚ) := rfl
    rw [integer?_rat]
    have hnonneg : decide (0 ≤ max 0 ((length : ℤ)-1)) = true := decide_eq_true (le_max_left _ _)
    simp only [Option.filter,hnonneg,if_true,Option.getD_some]
    omega
  · rename_i hlow
    cases hindex : (integer? raw).filter fun i => decide (0 ≤ i) with
    | none =>
      simp only [Option.getD_none]
      omega
    | some i =>
      obtain ⟨hint,hnonneg⟩ := Option.filter_eq_some_iff.mp hindex
      have hraw := eq_rat_of_integer? hint
      rw [hraw,toNumber?_rat] at hnumber
      obtain rfl := Option.some.inj hnumber
      rw [ScriptNumber.le_finite] at hlow
      have hlt : ¬(length : ℤ) ≤ i := by
        intro hle
        refine hlow (decide_eq_true ?_)
        exact_mod_cast hle
      have hnonneg' : 0 ≤ i := of_decide_eq_true hnonneg
      simp only [Option.getD_some]
      omega

theorem repairPlaylistState_isSome :
    (repairPlaylistState env conv state).isSome =
      (toNumber? conv (getProp state "currentIndex")).isSome := by
  rw [repairPlaylistState]
  exact Option.isSome_map

theorem repairPlaylistState_settled {state' : ScriptObject} {findings : List String}
    (h : repairPlaylistState env conv state = some (state',findings)) :
    SettledPlaylist env (getProp state' "playlist") (getProp state' "currentIndex") ∧
      ∀ k, k ≠ "playlist" → k ≠ "currentIndex" → getProp state' k = getProp state k := by
  rw [repairPlaylistState] at h
  obtain ⟨number,hnumber,hstate⟩ := Option.map_eq_some_iff.mp h
  obtain ⟨rfl,-⟩ := Prod.mk.inj hstate
  refine ⟨?_,fun k hplaylist hindex => by simp [hplaylist,hindex]⟩
  set playlist := ((storedPlaylist state).1.filter isPlaylistItem).map repairPlaylistItem
    with hplaylist
  have hvalues : ∀ item ∈ playlist, SettledValue item := by
    intro item hitem
    obtain ⟨v,hv,rfl⟩ := List.mem_map.mp hitem
    exact settledValue_repair (List.mem_filter.mp hv).2
  obtain ⟨hnonneg,hlt⟩ := clampIndex_range _ conv hnumber playlist.length
  have hpos := env.playlist_pos
  rw [getProp_setProp,getProp_setProp,getProp_setProp,if_pos rfl]
  simp only [String.reduceEq,if_false,if_true]
  by_cases htrims : env.roomPlaylistLimit < playlist.length
  · rw [if_pos htrims,if_pos htrims]
    have hlength : (playlist.drop (playlist.length-env.roomPlaylistLimit)).length =
        env.roomPlaylistLimit := by
      rw [List.length_drop]
      omega
    refine ⟨_,(max 0 (min ((clampIndex (getProp state "currentIndex") number playlist.length).1-
      ((playlist.length-env.roomPlaylistLimit : ℕ) : ℤ)) ((env.roomPlaylistLimit : ℤ)-1))).toNat,
      rfl,?_,hlength.le,?_,fun item hitem => hvalues item (List.mem_of_mem_drop hitem)⟩
    · rw [hlength]
      exact congrArg some (rat_toNat (le_max_left _ _))
    · rw [hlength]
      omega
  · rw [if_neg htrims,if_neg htrims]
    refine ⟨_,(clampIndex (getProp state "currentIndex") number playlist.length).1.toNat,rfl,?_,
      not_lt.mp htrims,?_,hvalues⟩
    · exact congrArg some (rat_toNat hnonneg)
    · omega

theorem SettledPlaylist.repair (conv : NumberText)
    (h : SettledPlaylist env (getProp state "playlist") (getProp state "currentIndex")) :
    ∃ findings, repairPlaylistState env conv state = some (state,findings) := by
  obtain ⟨items,i,hplaylist,hindex,hlimit,hi,hvalues⟩ := h
  have hfilter : items.filter isPlaylistItem = items :=
    List.filter_eq_self.mpr fun item hitem => (hvalues item hitem).1
  have hmap : items.map repairPlaylistItem = items := by
    calc items.map repairPlaylistItem = items.map id :=
          List.map_congr_left fun item hitem => (hvalues item hitem).repair
      _ = items := List.map_id items
  have hclamp : (clampIndex (some (rat i)) (.finite i) items.length).1 = i := by
    rw [clampIndex]
    dsimp only
    rw [ScriptNumber.le_finite]
    have hint : integer? (some (rat (i : ℚ))) = some (i : ℤ) := by
      have hrat := integer?_rat (i : ℤ)
      rwa [Int.cast_natCast] at hrat
    by_cases hle : items.length ≤ i
    · -- the playlist is empty
      have hzero : i = 0 ∧ items.length = 0 := by omega
      have hcast : (items.length : ℚ) ≤ (i : ℚ) := by exact_mod_cast hle
      rw [decide_eq_true hcast,if_pos rfl,integer?_rat,hzero.1,hzero.2]
      rfl
    · have hcast : ¬(items.length : ℚ) ≤ (i : ℚ) := by exact_mod_cast hle
      rw [decide_eq_false hcast,if_neg Bool.false_ne_true,hint]
      simp [Option.filter]
  have hsame : (repairPlaylistState env conv state).map Prod.fst = some state := by
    rw [repairPlaylistState,storedPlaylist,hindex,toNumber?_rat,hplaylist]
    simp only [Option.map_some,hfilter,hmap,hclamp]
    rw [if_neg (not_lt.mpr hlimit),if_neg (not_lt.mpr hlimit),setProp_of_getProp hplaylist,
      Int.cast_natCast,setProp_of_getProp hindex]
  obtain ⟨⟨state',findings⟩,hrepair,rfl⟩ := Option.map_eq_some_iff.mp hsame
  exact ⟨findings,hrepair⟩

end Playlist

section Security

variable {state current : ScriptObject}

theorem getProp_optionalField (k : String) (s : Option String) (j : String) :
    getProp (optionalField k s) j = if j = k then s.map .string else none := by
  cases s with
  | none => simp [optionalField]
  | some s =>
    rw [optionalField]
    by_cases h : j = k
    · simp [getProp_cons,h]
    · simp [getProp_cons,h,Ne.symm h]

theorem getProp_append (o o' : ScriptObject) (k : String) :
    getProp (o ++ o') k = (getProp o k).or (getProp o' k) := by
  induction o with
  | nil => rfl
  | cons e o ih =>
    rw [List.cons_append,getProp_cons,getProp_cons,ih]
    split <;> rfl

section Fields

variable (enabled : Bool) (updatedAt : ScriptValue) (version : ℤ) (role : String)
  (hash salt : Option String)

theorem roomSecurity_enabled :
    getProp (roomSecurity enabled updatedAt version role hash salt) "joinPasswordEnabled" =
      some (.bool enabled) := rfl

theorem roomSecurity_hash :
    getProp (roomSecurity enabled updatedAt version role hash salt) "joinPasswordHash" =
      hash.map .string := by
  rw [roomSecurity,getProp_append,getProp_append,getProp_optionalField,getProp_optionalField]
  cases hash <;> rfl

theorem roomSecurity_salt :
    getProp (roomSecurity enabled updatedAt version role hash salt) "joinPasswordSalt" =
      salt.map .string := by
  rw [roomSecurity,getProp_append,getProp_append,getProp_optionalField,getProp_optionalField]
  cases salt <;> rfl

end Fields

theorem string?_map (s : Option String) : string? (s.map .string) = s := by
  cases s <;> rfl

/-- Security in the form in which the repair writes it. -/
def SettledSecurity (current : ScriptObject) : Prop :=
  ∃ enabled updatedAt version role hash salt,
    current = roomSecurity enabled updatedAt version role hash salt ∧
      asFiniteNumberOrNull (some updatedAt) = updatedAt ∧ 0 ≤ version ∧
      normalizeDefaultJoinRole (some (.string role)) = role ∧
      (enabled = true → lacks hash = false ∧ lacks salt = false)

theorem asFiniteNumberOrNull_idem (v : Option ScriptValue) :
    asFiniteNumberOrNull (some (asFiniteNumberOrNull v)) = asFiniteNumberOrNull v := by
  rw [asFiniteNumberOrNull,asFiniteNumberOrNull]
  cases finite? v <;> rfl

theorem normalizeDefaultJoinRole_idem (v : Option ScriptValue) :
    normalizeDefaultJoinRole (some (.string (normalizeDefaultJoinRole v))) =
      normalizeDefaultJoinRole v := by
  rw [normalizeDefaultJoinRole,normalizeDefaultJoinRole]
  split <;> rfl

theorem asNonNegativeInt_nonneg (v : Option ScriptValue) : 0 ≤ asNonNegativeInt v := by
  rw [asNonNegativeInt]
  cases hi : (integer? v).filter fun i => decide (0 ≤ i) with
  | none => exact le_rfl
  | some i => exact of_decide_eq_true (Option.filter_eq_some_iff.mp hi).2

theorem settledSecurity_normalize (current : ScriptObject) :
    SettledSecurity (normalizeRoomSecurity current) := by
  rw [normalizeRoomSecurity]
  split
  · exact ⟨_,_,_,_,_,_,rfl,asFiniteNumberOrNull_idem _,asNonNegativeInt_nonneg _,
      normalizeDefaultJoinRole_idem _,nofun⟩
  · rename_i hnot
    refine ⟨_,_,_,_,_,_,rfl,asFiniteNumberOrNull_idem _,asNonNegativeInt_nonneg _,
      normalizeDefaultJoinRole_idem _,fun henabled => ?_⟩
    simpa [henabled] using hnot

theorem settledSecurity_default : SettledSecurity createDefaultRoomSecurity :=
  ⟨false,.null,0,"guest",none,none,rfl,rfl,le_rfl,rfl,nofun⟩

theorem SettledSecurity.normalize (h : SettledSecurity current) :
    normalizeRoomSecurity current = current := by
  obtain ⟨enabled,updatedAt,version,role,hash,salt,rfl,hupdatedAt,hversion,hrole,hsecret⟩ := h
  have hat : getProp (roomSecurity enabled updatedAt version role hash salt)
      "joinPasswordUpdatedAt" = some updatedAt := rfl
  have hver : getProp (roomSecurity enabled updatedAt version role hash salt)
      "admissionVersion" = some (rat version) := rfl
  have hjoin : getProp (roomSecurity enabled updatedAt version role hash salt)
      "defaultJoinRole" = some (.string role) := rfl
  have hsame : asNonNegativeInt (some (rat version)) = version := by
    rw [asNonNegativeInt,integer?_rat]
    simp [Option.filter,hversion]
  rw [normalizeRoomSecurity,roomSecurity_enabled,roomSecurity_hash,roomSecurity_salt,hat,hver,hjoin,
    string?_map,string?_map,hupdatedAt,hsame,hrole]
  cases enabled with
  | false => rfl
  | true =>
    obtain ⟨hhash,hsalt⟩ := hsecret rfl
    simp [isEnabled,hhash,hsalt]

theorem SettledSecurity.secret (h : SettledSecurity current)
    (henabled : getProp current "joinPasswordEnabled" = some (.bool true)) :
    ∃ hash salt, hash ≠ "" ∧ salt ≠ "" ∧ getProp current "joinPasswordHash" = some (.string hash) ∧
      getProp current "joinPasswordSalt" = some (.string salt) := by
  obtain ⟨enabled,updatedAt,version,role,hash,salt,rfl,-,-,-,hsecret⟩ := h
  rw [roomSecurity_enabled] at henabled
  cases henabled
  obtain ⟨hhash,hsalt⟩ := hsecret rfl
  cases hash with
  | none => cases hhash
  | some hash =>
    cases salt with
    | none => cases hsalt
    | some salt =>
      refine ⟨hash,salt,by simpa [lacks] using hhash,by simpa [lacks] using hsalt,?_,?_⟩
      · rw [roomSecurity_hash]
        rfl
      · rw [roomSecurity_salt]
        rfl

theorem repairSecurity_settled (state : ScriptObject) :
    ∃ current, getProp (repairSecurity state).1 "roomSecurity" = some (.object current) ∧
      SettledSecurity current := by
  rw [repairSecurity]
  split
  · exact ⟨_,by rw [getProp_setProp,if_pos rfl],settledSecurity_default⟩
  · exact ⟨_,by rw [getProp_setProp,if_pos rfl],settledSecurity_normalize _⟩

theorem getProp_repairSecurity {k : String} (h : k ≠ "roomSecurity") :
    getProp (repairSecurity state).1 k = getProp state k := by
  rw [repairSecurity]
  split <;> exact (getProp_setProp _ _ _ _).trans (if_neg h)

theorem SettledSecurity.repair (hstate : getProp state "roomSecurity" = some (.object current))
    (h : SettledSecurity current) : (repairSecurity state).1 = state := by
  rw [repairSecurity,hstate]
  change setProp state "roomSecurity" (.object (normalizeRoomSecurity current)) = state
  rw [h.normalize]
  exact setProp_of_getProp hstate

end Security

section Participants

variable {env : Env} {now : ℤ} {state : ScriptObject}

theorem joinedAtRule_idle (now : ℤ) (participant : ScriptObject) :
    (joinedAtRule now).Idle ((joinedAtRule now).apply participant).1 := by
  intro v hv
  set fallback := ScriptValue.number (((positiveNumber (getProp participant "connectedAt")).or
    (positiveNumber (getProp participant "lastSeenAt"))).getD (.finite now)) with hfallback
  have hother : ∀ k, k ≠ "joinedAt" →
      getProp ((joinedAtRule now).apply participant).1 k = getProp participant k :=
    fun k hk => getProp_apply_of_ne (joinedAtRule now) hk
  change (if (finite? (getProp ((joinedAtRule now).apply participant).1 "joinedAt")).any (0 < ·) then
    none else some (ScriptValue.number (((positiveNumber (getProp _ "connectedAt")).or
      (positiveNumber (getProp _ "lastSeenAt"))).getD (.finite now)))) = some v at hv
  rw [hother "connectedAt" (by decide),hother "lastSeenAt" (by decide),← hfallback] at hv
  split at hv
  · cases hv
  · rename_i hbad
    obtain rfl := Option.some.inj hv
    change getProp (assignProp participant "joinedAt" (if (finite? (getProp participant
      "joinedAt")).any (0 < ·) then none else some fallback)) "joinedAt" = some fallback
    split
    · rename_i hgood
      -- the stamp was good and is still there
      refine absurd ?_ hbad
      change (finite? (getProp (assignProp participant "joinedAt" (if (finite? (getProp participant
        "joinedAt")).any (0 < ·) then none else some fallback)) "joinedAt")).any (0 < ·) = true
      rw [if_pos hgood]
      exact hgood
    · rw [getProp_assignProp,if_pos rfl]
      rfl

def SettledParticipants (env : Env) (now : ℤ) (participants : Option ScriptValue) : Prop :=
  ∃ entries, participants = some (.object entries) ∧ entries.length ≤ env.roomParticipantsLimit ∧
    ∀ e ∈ entries, isParticipant e = true ∧ repairJoinedAt now e.2 = e.2

theorem isParticipant_repair {e : String × ScriptValue} (h : isParticipant e = true) :
    isParticipant (e.1,repairJoinedAt now e.2) = true ∧
      repairJoinedAt now (repairJoinedAt now e.2) = repairJoinedAt now e.2 := by
  rw [isParticipant,Bool.and_eq_true] at h
  obtain ⟨props,hprops⟩ := exists_props h.2
  have hrepaired : (repairJoinedAt now e.2).props? = some ((joinedAtRule now).apply props).1 :=
    props?_mapProps hprops _
  constructor
  · rw [isParticipant,Bool.and_eq_true]
    refine ⟨h.1,?_⟩
    change isText (propOf (repairJoinedAt now e.2) "userId") = true
    rw [propOf_eq hrepaired,getProp_apply_of_ne (joinedAtRule now)
      (by decide : "userId" ≠ "joinedAt"),← propOf_eq hprops]
    exact h.2
  · exact mapProps_self hrepaired (RepairRule.apply_of_idle (joinedAtRule_idle now props))

theorem repairParticipants_settled (env : Env) (now : ℤ) (state : ScriptObject) :
    SettledParticipants env now (getProp (repairParticipants env now state).1 "participants") := by
  rw [repairParticipants]
  dsimp only
  rw [getProp_setProp,if_pos rfl]
  refine ⟨_,rfl,?_,?_⟩
  · rw [List.length_map]
    exact List.length_take_le _ _
  · intro e he
    obtain ⟨e',he',rfl⟩ := List.mem_map.mp he
    have hkept := List.mem_of_mem_take he'
    exact isParticipant_repair (List.mem_filter.mp hkept).2

theorem getProp_repairParticipants {k : String} (h : k ≠ "participants") :
    getProp (repairParticipants env now state).1 k = getProp state k :=
  (getProp_setProp _ _ _ _).trans (if_neg h)

theorem SettledParticipants.repair
    (h : SettledParticipants env now (getProp state "participants")) :
    (repairParticipants env now state).1 = state := by
  obtain ⟨entries,hstate,hlimit,hentries⟩ := h
  have hfilter : entries.filter isParticipant = entries :=
    List.filter_eq_self.mpr fun e he => (hentries e he).1
  have hmap : (entries.map fun e => (e.1,repairJoinedAt now e.2)) = entries := by
    calc (entries.map fun e => (e.1,repairJoinedAt now e.2)) = entries.map id := by
          refine List.map_congr_left fun e he => ?_
          rw [(hentries e he).2]
          rfl
      _ = entries := List.map_id entries
  have hsame : (repairParticipants env now state).1 = setProp state "participants"
      (.object (((entries.filter isParticipant).take env.roomParticipantsLimit).map fun e =>
        (e.1,repairJoinedAt now e.2))) := by
    rw [repairParticipants,hstate]
    rfl
  rw [hsame,hfilter,List.take_of_length_le hlimit,hmap]
  exact setProp_of_getProp hstate

end Participants

section Log

variable {env : Env} {now : ℤ} {state : ScriptObject}

def SettledLog (env : Env) (now : ℤ) (actionLog : Option ScriptValue) : Prop :=
  ∃ entries, actionLog = some (.array entries []) ∧ entries.length ≤ env.roomActionLogLimit ∧
    ∀ entry ∈ entries, isLogEntry now entry = true

theorem isRecent_of_isLogEntry {entry : ScriptValue} (h : isLogEntry now entry = true) :
    isRecent now entry = true := by
  rw [isLogEntry,Bool.and_eq_true] at h
  exact h.2

theorem pruneActionLog_spec (env : Env) (now : ℤ) (entries : List ScriptValue) :
    (pruneActionLog env entries now).length ≤ env.roomActionLogLimit ∧
      pruneActionLog env entries now ⊆ entries := by
  rw [pruneActionLog]
  split
  · refine ⟨?_,fun entry hentry => (List.mem_filter.mp (List.mem_of_mem_drop hentry)).1⟩
    rw [List.length_drop]
    omega
  · rename_i hfits
    exact ⟨not_lt.mp hfits,fun entry hentry => (List.mem_filter.mp hentry).1⟩

theorem repairActionLog_settled (env : Env) (now : ℤ) (state : ScriptObject) :
    SettledLog env now (getProp (repairActionLog env now state).1 "actionLog") := by
  rw [repairActionLog]
  split
  · rename_i actionLog props hlog
    dsimp only
    rw [getProp_setProp,if_pos rfl]
    obtain ⟨hlength,hsubset⟩ := pruneActionLog_spec env now (actionLog.filter (isLogEntry now))
    exact ⟨_,rfl,hlength,fun entry hentry => (List.mem_filter.mp (hsubset hentry)).2⟩
  · dsimp only
    rw [getProp_setProp,if_pos rfl]
    exact ⟨[],rfl,Nat.zero_le _,fun entry hentry => nomatch hentry⟩

theorem getProp_repairActionLog {k : String} (h : k ≠ "actionLog") :
    getProp (repairActionLog env now state).1 k = getProp state k := by
  rw [repairActionLog]
  split <;> exact (getProp_setProp _ _ _ _).trans (if_neg h)

theorem SettledLog.repair (h : SettledLog env now (getProp state "actionLog")) :
    (repairActionLog env now state).1 = state := by
  obtain ⟨entries,hstate,hlimit,hentries⟩ := h
  have hvalid : entries.filter (isLogEntry now) = entries :=
    List.filter_eq_self.mpr hentries
  have hrecent : entries.filter (isRecent now) = entries :=
    List.filter_eq_self.mpr fun entry hentry => isRecent_of_isLogEntry (hentries entry hentry)
  have hpruned : pruneActionLog env entries now = entries := by
    rw [pruneActionLog,hrecent]
    exact if_neg (not_lt.mpr hlimit)
  rw [repairActionLog,hstate]
  change setProp state "actionLog" (.array (pruneActionLog env (entries.filter _) now) []) = state
  rw [hvalid,hpruned]
  exact setProp_of_getProp hstate

end Log

section Playback

variable {now : ℤ} {state playback : ScriptObject}

structure SettledPlayback (playback : ScriptObject) : Prop where
  paused : ∃ b, getProp playback "paused" = some (.bool b)
  playbackRate : ∃ q : ℚ, 1/4 ≤ q ∧ q ≤ 3 ∧ getProp playback "playbackRate" = some (rat q)
  timelineAnchorMs : IsCount (getProp playback "timelineAnchorMs")
  serverNowMs : IsCount (getProp playback "serverNowMs")
  videoLoop : isOneOf (getProp playback "videoLoop") loopModes = true
  playlistLoop : isOneOf (getProp playback "playlistLoop") loopModes = true

theorem loopRule_idle {key : String} (h : isOneOf (getProp playback key) loopModes = true) :
    (loopRule key).Idle playback := by
  intro v hv
  change (if isOneOf (getProp playback key) loopModes = true then none else some _) = some v at hv
  rw [if_pos h] at hv
  cases hv

theorem setNumber_of_getProp {k : String} {q : ℚ} {f : Option ScriptValue → ℚ}
    (h : getProp playback k = some (rat q)) (hf : f (some (rat q)) = q) :
    setNumber playback k f = playback := by
  rw [setNumber,h,hf]
  exact setProp_of_getProp h

@[simp] theorem getProp_setNumber (o : ScriptObject) (k : String) (f : Option ScriptValue → ℚ)
    (j : String) :
    getProp (setNumber o k f) j = if j = k then some (rat (f (getProp o k))) else getProp o j :=
  getProp_setProp _ _ _ _

theorem SettledPlayback.sanitize (h : SettledPlayback playback) (now : ℤ) :
    (sanitizePlayback now playback).1 = playback := by
  obtain ⟨b,hpaused⟩ := h.paused
  obtain ⟨rate,hlow,hhigh,hrate⟩ := h.playbackRate
  obtain ⟨anchor,hanchor0,hanchor⟩ := h.timelineAnchorMs
  obtain ⟨stamp,hstamp0,hstamp⟩ := h.serverNowMs
  have h1 : setProp playback "paused" (.bool (truthy (getProp playback "paused"))) = playback := by
    rw [hpaused]
    exact setProp_of_getProp hpaused
  have h2 : setNumber playback "playbackRate" (fun v =>
      min 3 (max (1/4) (normalizeFiniteNumber v 1))) = playback := by
    refine setNumber_of_getProp hrate ?_
    change min 3 (max (1/4) rate) = rate
    rw [max_eq_right hlow,min_eq_right hhigh]
  have h3 : setNumber playback "timelineAnchorMs" (fun v =>
      max 0 (normalizeFiniteNumber v 0)) = playback :=
    setNumber_of_getProp hanchor (max_eq_right hanchor0)
  have h4 : setNumber playback "serverNowMs" (fun v =>
      max 0 (normalizeFiniteNumber v now)) = playback :=
    setNumber_of_getProp hstamp (max_eq_right hstamp0)
  rw [sanitizePlayback]
  rw [h1,h2,h3,h4]
  refine applyRules_of_idle fun rule hrule => ?_
  simp only [List.mem_cons,List.not_mem_nil,or_false] at hrule
  rcases hrule with rfl | rfl
  · exact loopRule_idle h.videoLoop
  · exact loopRule_idle h.playlistLoop

theorem settledPlayback_sanitize (now : ℤ) (playback : ScriptObject) :
    SettledPlayback (sanitizePlayback now playback).1 := by
  rw [sanitizePlayback]
  set stamped := setNumber (setNumber (setNumber (setProp playback "paused"
    (.bool (truthy (getProp playback "paused")))) "playbackRate" fun v =>
      min 3 (max (1/4) (normalizeFiniteNumber v 1))) "timelineAnchorMs" fun v =>
        max 0 (normalizeFiniteNumber v 0)) "serverNowMs" fun v =>
          max 0 (normalizeFiniteNumber v now) with hstamped
  have hloops : ∀ k, k ≠ "videoLoop" → k ≠ "playlistLoop" → getProp (applyRules
      [loopRule "videoLoop",loopRule "playlistLoop"] stamped).1 k = getProp stamped k := by
    intro k hvideo hlist
    refine getProp_applyRules fun rule hrule => ?_
    simp only [List.mem_cons,List.not_mem_nil,or_false] at hrule
    rcases hrule with rfl | rfl
    · exact Ne.symm hvideo
    · exact Ne.symm hlist
  refine ⟨⟨truthy (getProp playback "paused"),?_⟩,
    ⟨min 3 (max (1/4) (normalizeFiniteNumber (getProp playback "playbackRate") 1)),?_,
      min_le_left _ _,?_⟩,
    ⟨max 0 (normalizeFiniteNumber (getProp playback "timelineAnchorMs") 0),le_max_left _ _,?_⟩,
    ⟨max 0 (normalizeFiniteNumber (getProp playback "serverNowMs") now),le_max_left _ _,?_⟩,?_,?_⟩
  · rw [hloops _ (by decide) (by decide),hstamped]
    simp
  · exact le_min (by norm_num) (le_max_left _ _)
  · rw [hloops _ (by decide) (by decide),hstamped]
    simp
  · rw [hloops _ (by decide) (by decide),hstamped]
    simp
  · rw [hloops _ (by decide) (by decide),hstamped]
    simp
  · have hvideo : isOneOf (getProp ((loopRule "videoLoop").apply stamped).1 "videoLoop")
        loopModes = true :=
      isOneOf_apply_enum (loopRule "videoLoop") (by decide : "off" ∈ loopModes) rfl
    have hkeep : getProp (applyRules [loopRule "videoLoop",loopRule "playlistLoop"] stamped).1
        "videoLoop" = getProp ((loopRule "videoLoop").apply stamped).1 "videoLoop" :=
      getProp_apply_of_ne (loopRule "playlistLoop") (by decide : "videoLoop" ≠ "playlistLoop")
    rw [hkeep]
    exact hvideo
  · exact isOneOf_apply_enum (loopRule "playlistLoop") (by decide : "off" ∈ loopModes) rfl

theorem SettledPlayback.deleteShuffle (h : SettledPlayback playback) :
    SettledPlayback (deleteProp playback "shuffle") := by
  have hkeep : ∀ k, k ≠ "shuffle" → getProp (deleteProp playback "shuffle") k = getProp playback k :=
    fun k hk => (getProp_deleteProp _ _ _).trans (if_neg hk)
  obtain ⟨hpaused,hrate,hanchor,hstamp,hvideo,hlist⟩ := h
  constructor <;> rwa [hkeep _ (by decide)]

def SettledPlaybackValue (v : Option ScriptValue) : Prop :=
  ∃ value props, v = some value ∧ value.props? = some props ∧ SettledPlayback props

theorem repairPlayback_settled (now : ℤ) (state : ScriptObject) :
    SettledPlaybackValue (getProp (repairPlayback now state).1 "playback") := by
  have hprops : ∃ props, (((getProp state "playback").filter fun v => v.props?.isSome).getD
      (.object (createDefaultPlayback now))).props? = some props := by
    cases hvalue : (getProp state "playback").filter fun v => v.props?.isSome with
    | none => exact ⟨_,rfl⟩
    | some v => exact Option.isSome_iff_exists.mp (Option.filter_eq_some_iff.mp hvalue).2
  obtain ⟨props,hprops⟩ := hprops
  rw [repairPlayback]
  dsimp only
  rw [getProp_setProp,if_pos rfl]
  exact ⟨_,_,rfl,props?_mapProps hprops _,settledPlayback_sanitize now props⟩

theorem getProp_repairPlayback {k : String} (h : k ≠ "playback") :
    getProp (repairPlayback now state).1 k = getProp state k :=
  (getProp_setProp _ _ _ _).trans (if_neg h)

theorem SettledPlaybackValue.repair (h : SettledPlaybackValue (getProp state "playback"))
    (now : ℤ) : (repairPlayback now state).1 = state := by
  obtain ⟨v,props,hstate,hprops,hsettled⟩ := h
  rw [repairPlayback,hstate]
  have hfilter : (some v).filter (fun v => v.props?.isSome) = some v := by
    rw [Option.filter_eq_some_iff]
    exact ⟨rfl,by rw [hprops]; rfl⟩
  rw [hfilter]
  change setProp state "playback" (mapProps v _) = state
  rw [mapProps_self hprops (hsettled.sanitize now)]
  exact setProp_of_getProp hstate

end Playback

section Rest

variable {conv : NumberText} {now : ℤ} {state : ScriptObject} {newOwnerId : String}

def SettledOwner (v : Option ScriptValue) : Prop := ∃ id, id ≠ "" ∧ v = some (.string id)

theorem repairOwner_settled (h : newOwnerId ≠ "") (state : ScriptObject) :
    SettledOwner (getProp (repairOwner newOwnerId state).1 "ownerId") := by
  rw [repairOwner]
  split
  · rename_i howner
    cases hid : string? (getProp state "ownerId") with
    | none =>
      rw [hid] at howner
      cases howner
    | some id =>
      rw [hid] at howner
      exact ⟨id,by simpa using howner,eq_string_of_string? hid⟩
  · exact ⟨newOwnerId,h,by rw [getProp_setProp,if_pos rfl]⟩

theorem getProp_repairOwner {k : String} (h : k ≠ "ownerId") :
    getProp (repairOwner newOwnerId state).1 k = getProp state k := by
  rw [repairOwner]
  split
  · rfl
  · exact (getProp_setProp _ _ _ _).trans (if_neg h)

theorem SettledOwner.repair (h : SettledOwner (getProp state "ownerId")) (newOwnerId : String) :
    (repairOwner newOwnerId state).1 = state := by
  obtain ⟨id,hid,hstate⟩ := h
  have howner : (string? (getProp state "ownerId")).any (· ≠ "") = true := by
    rw [hstate]
    simpa [string?] using hid
  rw [repairOwner,if_pos howner]

theorem getProp_stripLegacy {k : String} (hhistory : k ≠ "history") (hplayback : k ≠ "playback") :
    getProp (stripLegacy state).1 k = getProp state k := by
  rw [stripLegacy]
  dsimp only
  rw [getProp_assignProp,if_neg hplayback,getProp_deleteProp,if_neg hhistory]

/-- No legacy field, and a playback without `shuffle`. -/
def Stripped (history playback : Option ScriptValue) : Prop :=
  history = none ∧ ∃ v props, playback = some v ∧ v.props? = some props ∧ SettledPlayback props ∧
    getProp props "shuffle" = none

theorem stripLegacy_stripped (h : SettledPlaybackValue (getProp state "playback")) :
    Stripped (getProp (stripLegacy state).1 "history")
      (getProp (stripLegacy state).1 "playback") := by
  obtain ⟨v,props,hstate,hprops,hsettled⟩ := h
  have hplayback : getProp (deleteProp state "history") "playback" = some v := by
    rw [getProp_deleteProp,if_neg (by decide)]
    exact hstate
  rw [stripLegacy]
  dsimp only
  rw [hplayback]
  refine ⟨?_,_,_,?_,props?_mapProps hprops (deleteProp · "shuffle"),hsettled.deleteShuffle,?_⟩
  · rw [getProp_assignProp,if_neg (by decide),getProp_deleteProp,if_pos rfl]
  · rw [getProp_assignProp,if_pos rfl]
    rfl
  · rw [getProp_deleteProp,if_pos rfl]

theorem Stripped.repair (h : Stripped (getProp state "history") (getProp state "playback")) :
    (stripLegacy state).1 = state := by
  obtain ⟨hhistory,v,props,hstate,hprops,-,hshuffle⟩ := h
  rw [stripLegacy]
  dsimp only
  rw [deleteProp_of_getProp hhistory,hstate]
  change setProp state "playback" (mapProps v (deleteProp · "shuffle")) = state
  have hsame : mapProps v (deleteProp · "shuffle") = v :=
    mapProps_self hprops (deleteProp_of_getProp hshuffle)
  rw [hsame]
  exact setProp_of_getProp hstate

/-- A stamp above zero, or the time of the repair. -/
def SettledStamp (now : ℤ) (v : Option ScriptValue) : Prop :=
  ∃ q : ℚ, (0 < q ∨ q = now) ∧ v = some (rat q)

theorem repairUpdatedAt_settled {state' : ScriptObject} {findings : List String}
    (h : repairUpdatedAt conv now state = some (state',findings)) :
    SettledStamp now (getProp state' "updatedAt") ∧
      ∀ k, k ≠ "updatedAt" → getProp state' k = getProp state k := by
  rw [repairUpdatedAt] at h
  obtain ⟨number,hnumber,hstate⟩ := Option.map_eq_some_iff.mp h
  split at hstate
  · obtain ⟨rfl,-⟩ := Prod.mk.inj hstate
    exact ⟨⟨now,Or.inr rfl,by rw [getProp_setProp,if_pos rfl]⟩,
      fun k hk => (getProp_setProp _ _ _ _).trans (if_neg hk)⟩
  · rename_i hgood
    obtain ⟨rfl,-⟩ := Prod.mk.inj hstate
    refine ⟨?_,fun _ _ => rfl⟩
    rw [Bool.not_eq_true,Bool.or_eq_false_iff] at hgood
    cases hfinite : finite? (getProp state "updatedAt") with
    | none =>
      rw [hfinite] at hgood
      cases hgood.2
    | some q =>
      have hvalue := eq_rat_of_finite? hfinite
      rw [hvalue,toNumber?_rat] at hnumber
      obtain rfl := Option.some.inj hnumber
      have hpos : ¬q ≤ 0 := by simpa using hgood.1
      exact ⟨q,Or.inl (not_le.mp hpos),hvalue⟩

theorem SettledStamp.repair (h : SettledStamp now (getProp state "updatedAt"))
    (conv : NumberText) : ∃ findings, repairUpdatedAt conv now state = some (state,findings) := by
  obtain ⟨q,hq,hstate⟩ := h
  rw [repairUpdatedAt,hstate,toNumber?_rat]
  rcases hq with hpos | rfl
  · refine ⟨[],?_⟩
    have hnot : ¬q ≤ 0 := not_le.mpr hpos
    simp [hnot]
  · rw [Option.map_some]
    split
    · rw [setProp_of_getProp hstate]
      exact ⟨_,rfl⟩
    · exact ⟨_,rfl⟩

theorem repairUpdatedAt_isSome :
    (repairUpdatedAt conv now state).isSome =
      (toNumber? conv (getProp state "updatedAt")).isSome := by
  rw [repairUpdatedAt]
  exact Option.isSome_map

theorem isCount_apply (key finding : String) (state : ScriptObject) :
    IsCount (getProp ((countRule key finding).apply state).1 key) := by
  change IsCount (getProp (assignProp state key (if (finite? (getProp state key)).any (0 ≤ ·) = true
    then none else some (rat 0))) key)
  rw [getProp_assignProp,if_pos rfl]
  split
  · rename_i hgood
    cases hfinite : finite? (getProp state key) with
    | none =>
      rw [hfinite] at hgood
      cases hgood
    | some q =>
      rw [hfinite] at hgood
      exact ⟨q,by simpa using hgood,eq_rat_of_finite? hfinite⟩
  · exact ⟨0,le_rfl,rfl⟩

theorem countRule_idle {key finding : String} (h : IsCount (getProp state key)) :
    (countRule key finding).Idle state := by
  obtain ⟨q,hq,hstate⟩ := h
  intro v hv
  change (if (finite? (getProp state key)).any (0 ≤ ·) = true then none else some (rat 0)) =
    some v at hv
  rw [hstate,finite?_rat,if_pos (by simpa using hq)] at hv
  cases hv

end Rest

section Room

variable {env : Env} {conv : NumberText} {now : ℤ} {newOwnerId : String} {state : ScriptObject}

/-- A room in which no repair finds anything to change. -/
structure SettledRoom (env : Env) (now : ℤ) (state : ScriptObject) : Prop where
  owner : SettledOwner (getProp state "ownerId")
  security : ∃ current, getProp state "roomSecurity" = some (.object current) ∧
    SettledSecurity current
  playlist : SettledPlaylist env (getProp state "playlist") (getProp state "currentIndex")
  participants : SettledParticipants env now (getProp state "participants")
  actionLog : SettledLog env now (getProp state "actionLog")
  playback : Stripped (getProp state "history") (getProp state "playback")
  updatedAt : SettledStamp now (getProp state "updatedAt")
  generation : IsCount (getProp state "generation")
  structuralRevision : IsCount (getProp state "structuralRevision")

theorem repair_parts {state' : ScriptObject} {findings : List String}
    (h : repairCleanupAndCheckRoomState env conv now newOwnerId state = some (state',findings)) :
    ∃ playlist updatedAt,
      repairPlaylistState env conv (repairSecurity (repairOwner newOwnerId state).1).1 =
        some playlist ∧
      repairUpdatedAt conv now (stripLegacy (repairPlayback now (repairActionLog env now
        (repairParticipants env now playlist.1).1).1).1).1 = some updatedAt ∧
      state' = (applyRules countRules updatedAt.1).1 := by
  obtain ⟨playlist,hplaylist,h⟩ := Option.bind_eq_some_iff.mp h
  obtain ⟨updatedAt,hupdatedAt,h⟩ := Option.map_eq_some_iff.mp h
  exact ⟨playlist,updatedAt,hplaylist,hupdatedAt,(Prod.mk.inj h).1.symm⟩

theorem settledRoom_repair (hid : newOwnerId ≠ "") {state' : ScriptObject} {findings : List String}
    (h : repairCleanupAndCheckRoomState env conv now newOwnerId state = some (state',findings)) :
    SettledRoom env now state' := by
  obtain ⟨⟨playlist,playlistFindings⟩,⟨stamped,stampFindings⟩,hplaylist,hstamped,rfl⟩ :=
    repair_parts h
  obtain ⟨hsettled,hframe⟩ := repairPlaylistState_settled hplaylist
  obtain ⟨hstamp,hstampFrame⟩ := repairUpdatedAt_settled hstamped
  dsimp only at hstampFrame hframe ⊢
  -- each part leaves the properties of the others alone
  have hcounts : ∀ k, k ≠ "generation" → k ≠ "structuralRevision" →
      getProp (applyRules countRules stamped).1 k = getProp stamped k := by
    intro k hgeneration hrevision
    refine getProp_applyRules fun rule hrule => ?_
    simp only [countRules,List.mem_cons,List.not_mem_nil,or_false] at hrule
    rcases hrule with rfl | rfl
    · exact Ne.symm hgeneration
    · exact Ne.symm hrevision
  have hend : ∀ k, k ≠ "generation" → k ≠ "structuralRevision" → k ≠ "updatedAt" → k ≠ "history" →
      k ≠ "playback" → getProp (applyRules countRules stamped).1 k =
        getProp (repairActionLog env now (repairParticipants env now playlist).1).1 k := by
    intro k hgeneration hrevision hupdatedAt hhistory hplayback
    rw [hcounts k hgeneration hrevision,hstampFrame k hupdatedAt,
      getProp_stripLegacy hhistory hplayback,getProp_repairPlayback hplayback]
  have hstart : ∀ k, k ≠ "actionLog" → k ≠ "participants" →
      getProp (repairActionLog env now (repairParticipants env now playlist).1).1 k =
        getProp playlist k :=
    fun k hlog hparticipants => (getProp_repairActionLog hlog).trans
      (getProp_repairParticipants hparticipants)
  refine ⟨?_,?_,?_,?_,?_,?_,?_,?_,?_⟩
  · rw [hend _ (by decide) (by decide) (by decide) (by decide) (by decide),
      hstart _ (by decide) (by decide),hframe _ (by decide) (by decide),
      getProp_repairSecurity (by decide)]
    exact repairOwner_settled hid state
  · rw [hend _ (by decide) (by decide) (by decide) (by decide) (by decide),
      hstart _ (by decide) (by decide),hframe _ (by decide) (by decide)]
    exact repairSecurity_settled _
  · rw [hend _ (by decide) (by decide) (by decide) (by decide) (by decide),
      hend _ (by decide) (by decide) (by decide) (by decide) (by decide),
      hstart _ (by decide) (by decide),hstart _ (by decide) (by decide)]
    exact hsettled
  · rw [hend _ (by decide) (by decide) (by decide) (by decide) (by decide),
      getProp_repairActionLog (by decide)]
    exact repairParticipants_settled env now playlist
  · rw [hend _ (by decide) (by decide) (by decide) (by decide) (by decide)]
    exact repairActionLog_settled env now _
  · rw [hcounts _ (by decide) (by decide),hcounts _ (by decide) (by decide),
      hstampFrame _ (by decide),hstampFrame _ (by decide)]
    exact stripLegacy_stripped (repairPlayback_settled now _)
  · rw [hcounts _ (by decide) (by decide)]
    exact hstamp
  · have hother : getProp (applyRules countRules stamped).1 "generation" =
        getProp ((countRule "generation" "generation-repaired").apply stamped).1 "generation" :=
      getProp_apply_of_ne (countRule "structuralRevision" "structural-revision-repaired")
        (by decide : "generation" ≠ "structuralRevision")
    rw [hother]
    exact isCount_apply _ _ stamped
  · exact isCount_apply "structuralRevision" "structural-revision-repaired" _

/-- A second repair changes nothing. -/
theorem SettledRoom.repair (h : SettledRoom env now state) (conv : NumberText)
    (newOwnerId : String) : ∃ findings,
      repairCleanupAndCheckRoomState env conv now newOwnerId state = some (state,findings) := by
  obtain ⟨current,hsecurity,hcurrent⟩ := h.security
  obtain ⟨playlistFindings,hplaylist⟩ := h.playlist.repair conv
  obtain ⟨stampFindings,hstamp⟩ := h.updatedAt.repair conv
  have hcounts : (applyRules countRules state).1 = state := by
    refine applyRules_of_idle fun rule hrule => ?_
    simp only [countRules,List.mem_cons,List.not_mem_nil,or_false] at hrule
    rcases hrule with rfl | rfl
    · exact countRule_idle h.generation
    · exact countRule_idle h.structuralRevision
  have hplayback : SettledPlaybackValue (getProp state "playback") := by
    obtain ⟨-,v,props,hstate,hprops,hsettled,-⟩ := h.playback
    exact ⟨v,props,hstate,hprops,hsettled⟩
  have hsame : (repairCleanupAndCheckRoomState env conv now newOwnerId state).map Prod.fst =
      some state := by
    rw [repairCleanupAndCheckRoomState]
    dsimp only
    rw [h.owner.repair,hcurrent.repair hsecurity,hplaylist,Option.bind_some]
    dsimp only
    rw [h.participants.repair,h.actionLog.repair,hplayback.repair,h.playback.repair,hstamp,
      Option.map_some,Option.map_some]
    exact congrArg some hcounts
  obtain ⟨⟨state',findings⟩,hrepair,rfl⟩ := Option.map_eq_some_iff.mp hsame
  exact ⟨findings,hrepair⟩

theorem SettledRoom.sound (h : SettledRoom env now state) : SoundRoom env state := by
  obtain ⟨items,i,hplaylist,hindex,hlimit,hi,hvalues⟩ := h.playlist
  obtain ⟨participants,hparticipants,hparticipantsLimit,-⟩ := h.participants
  obtain ⟨actionLog,hactionLog,hactionLogLimit,-⟩ := h.actionLog
  obtain ⟨-,v,props,hstate,hprops,hplayback,-⟩ := h.playback
  obtain ⟨current,hsecurity,hcurrent⟩ := h.security
  refine ⟨⟨items,hplaylist,hlimit,fun item hitem => (hvalues item hitem).legal,i,hindex,hi⟩,
    ⟨participants,hparticipants,hparticipantsLimit⟩,⟨actionLog,hactionLog,hactionLogLimit⟩,
    ⟨v,hstate,?_,?_,?_⟩,⟨current,hsecurity,hcurrent.secret⟩,h.generation,h.structuralRevision⟩
  · rw [propOf_eq hprops]
    exact hplayback.timelineAnchorMs
  · rw [propOf_eq hprops]
    exact hplayback.serverNowMs
  · rw [propOf_eq hprops]
    exact hplayback.playbackRate

/-- Nothing before the comparison of the index or of the stamp changes what is compared. -/
theorem repair_isSome_iff :
    (repairCleanupAndCheckRoomState env conv now newOwnerId state).isSome = true ↔
      (toNumber? conv (getProp state "currentIndex")).isSome = true ∧
        (toNumber? conv (getProp state "updatedAt")).isSome = true := by
  have hindex : (repairPlaylistState env conv
      (repairSecurity (repairOwner newOwnerId state).1).1).isSome =
        (toNumber? conv (getProp state "currentIndex")).isSome := by
    rw [repairPlaylistState_isSome,getProp_repairSecurity (by decide),
      getProp_repairOwner (by decide)]
  rw [← hindex,repairCleanupAndCheckRoomState]
  cases hplaylist : repairPlaylistState env conv
      (repairSecurity (repairOwner newOwnerId state).1).1 with
  | none => simp
  | some playlist =>
    have hframe := (repairPlaylistState_settled hplaylist).2
    have hstamp : (repairUpdatedAt conv now (stripLegacy (repairPlayback now (repairActionLog env
        now (repairParticipants env now playlist.1).1).1).1).1).isSome =
          (toNumber? conv (getProp state "updatedAt")).isSome := by
      rw [repairUpdatedAt_isSome,getProp_stripLegacy (by decide) (by decide),
        getProp_repairPlayback (by decide),getProp_repairActionLog (by decide),
        getProp_repairParticipants (by decide),hframe _ (by decide) (by decide),
        getProp_repairSecurity (by decide),getProp_repairOwner (by decide)]
    rw [Option.bind_some,Option.isSome_map,hstamp]
    simp

end Room

/-- A repair goes through and reaches a sound fixpoint if and only if the index and the stamp of the
document can be compared. -/
theorem repair_settles_iff (env : Env) (conv : NumberText) (now : ℤ) {newOwnerId : String}
    (hid : newOwnerId ≠ "") (state : ScriptObject) :
    RepairSettles env conv now newOwnerId state ↔
      (toNumber? conv (getProp state "currentIndex")).isSome = true ∧
        (toNumber? conv (getProp state "updatedAt")).isSome = true := by
  rw [← @repair_isSome_iff env conv now newOwnerId state]
  constructor
  · rintro ⟨state',findings,hrepair,-⟩
    rw [hrepair]
    rfl
  · intro hsome
    obtain ⟨⟨state',findings⟩,hrepair⟩ := Option.isSome_iff_exists.mp hsome
    have hsettled := settledRoom_repair hid hrepair
    exact ⟨state',findings,hrepair,hsettled.sound,hsettled.repair conv⟩

/-- Two entries that are no items, an unknown kind of source, an index beyond the end, no owner. -/
def brokenRoom : ScriptObject :=
  [("ownerId",.string ""),
    ("playlist",.array [.null,.object [("id",.string "a"),("name",.string "a"),
      ("sourceUrl",.string "a"),("playableUrl",.string "a"),("sourceKind",.string "tape")],
      .string "b",sampleItem "c"] []),
    ("currentIndex",rat 7),("actionLog",.object []),
    ("playback",.object [("playbackRate",rat 9)]),("generation",rat (-1))]

theorem repair_settles_broken :
    ((repairCleanupAndCheckRoomState sampleEnv sampleText 5 "owner" brokenRoom).map
      fun repaired => repaired.2.length) = some 17 ∧
      RepairSettles sampleEnv sampleText 5 "owner" brokenRoom :=
  ⟨by decide +kernel,
    (repair_settles_iff sampleEnv sampleText 5 (by decide) brokenRoom).mpr ⟨rfl,rfl⟩⟩

/-- An index that is an object with a property `toString` makes the repair throw. -/
theorem unprintable_index_throws :
    ¬∀ (env : Env) (conv : NumberText) (now : ℤ) (newOwnerId : String) (state : ScriptObject),
      newOwnerId ≠ "" → RepairSettles env conv now newOwnerId state := by
  intro h
  obtain ⟨state',findings,hrepair,-⟩ := h sampleEnv sampleText 5 "owner"
    [("currentIndex",.object [("toString",rat 0)])] (by decide)
  have hsome := repair_isSome_iff.mp (Option.isSome_iff_exists.mpr ⟨_,hrepair⟩)
  exact Bool.false_ne_true hsome.1

end WebSyncPlay.Decoded
