import WebSyncPlay.LocalMediaStore
import WebSyncPlay.Library.Descent
import WebSyncPlay.Library.TransitionSystem

/-! The ladders of local media as a graph. The deletion of an entry follows it, and ends
where no infinite path begins. -/
namespace WebSyncPlay

open Library Relation

def IsVariant (media : String → Option LocalMediaRecord) (id child : String) : Prop :=
  ∃ entry, media id = some entry ∧ child ∈ childIds id entry

def storedRungs (media : String → Option LocalMediaRecord) (id : String) : List String :=
  ((media id).map (childIds id)).getD []

theorem isVariant_iff {media : String → Option LocalMediaRecord} {id child : String} :
    IsVariant media id child ↔ child ∈ storedRungs media id := by
  cases hid : media id with
  | none => simp [IsVariant,storedRungs,hid]
  | some entry => simp [IsVariant,storedRungs,hid]

theorem IsVariant.congr {media media' : String → Option LocalMediaRecord} {id : String}
    (h : media' id = media id) (child : String) :
    IsVariant media' id child ↔ IsVariant media id child := by
  rw [isVariant_iff,isVariant_iff,storedRungs,storedRungs,h]

theorem ne_of_mem_childIds {id child : String} {entry : LocalMediaRecord}
    (h : child ∈ childIds id entry) : child ≠ id := by
  simpa using (List.mem_filter.mp h).2

section Deletion

/-- Entries may have gone, and nothing else has changed. -/
def Shrinks (media media' : String → Option LocalMediaRecord) : Prop :=
  ∀ id, media' id = media id ∨ media' id = none

theorem Shrinks.refl (media : String → Option LocalMediaRecord) : Shrinks media media :=
  fun _ => Or.inl rfl

theorem Shrinks.trans {a b c : String → Option LocalMediaRecord} (h : Shrinks a b)
    (h' : Shrinks b c) : Shrinks a c := by
  intro id
  rcases h' id with hid | hid
  · rw [hid]
    exact h id
  · exact Or.inr hid

theorem shrinks_drop (w : MediaWorld) (id : String) : Shrinks w.media (w.drop id).media := by
  intro other
  by_cases hother : other = id
  · subst hother
    exact Or.inr (w.drop_media_same other)
  · exact Or.inl (w.drop_media_of_ne hother)

theorem Shrinks.isVariant {media media' : String → Option LocalMediaRecord}
    (h : Shrinks media media') {id child : String} (hchild : IsVariant media' id child) :
    IsVariant media id child := by
  rcases h id with hid | hid
  · exact (IsVariant.congr hid child).mp hchild
  · obtain ⟨entry,hentry,-⟩ := hchild
    rw [hid] at hentry
    cases hentry

theorem Shrinks.grounded {media media' : String → Option LocalMediaRecord}
    (h : Shrinks media media') {id : String} (hid : Grounded (IsVariant media) id) :
    Grounded (IsVariant media') id :=
  hid.mono fun _ _ => h.isVariant

def deletions (sender : Option UserId) (ids : List String) : List SentCommand :=
  ids.map fun id => ⟨sender,.delete id⟩

theorem drain_delete (sender : Option UserId) (fuel : ℕ) (w : MediaWorld) (id : String) :
    TaskPool.drain SentCommand.execute (fuel+1) w (deletions sender [id]) =
      TaskPool.drain SentCommand.execute fuel w
        (deletions sender (storedRungs w.media id) ++ [⟨sender,.del id⟩]) := by
  simp [deletions,storedRungs,TaskPool.drain_succ,SentCommand.execute,execute,Function.comp_def]

/-- The deletion of an entry comes to an end when nobody interferes. -/
def DeletionEnds (sender : Option UserId) (w : MediaWorld) (ids : List String) : Prop :=
  ∃ fuel w', TaskPool.drain SentCommand.execute fuel w (deletions sender ids) = some w' ∧
    Shrinks w.media w'.media

theorem deletionEnds_list {sender : Option UserId} {media : String → Option LocalMediaRecord}
    {ids : List String} (hids : ∀ id ∈ ids, ∀ w : MediaWorld, Shrinks media w.media →
      DeletionEnds sender w [id]) {w : MediaWorld} (h : Shrinks media w.media) :
    DeletionEnds sender w ids := by
  induction ids generalizing w with
  | nil => exact ⟨0,w,rfl,.refl _⟩
  | cons id ids ih =>
    obtain ⟨fuel,middle,hfirst,hmiddle⟩ := hids id List.mem_cons_self w h
    obtain ⟨fuel',w',hrest,hw'⟩ := ih (fun other hmem => hids other (List.mem_cons_of_mem id hmem))
      (h.trans hmiddle)
    exact ⟨fuel+fuel',w',TaskPool.drain_append hfirst hrest,hmiddle.trans hw'⟩

theorem Grounded.deletionEnds {sender : Option UserId} {media : String → Option LocalMediaRecord}
    {id : String} (hid : Grounded (IsVariant media) id) {w : MediaWorld}
    (h : Shrinks media w.media) : DeletionEnds sender w [id] := by
  induction hid generalizing w with
  | intro id _ ih =>
    have hchildren : DeletionEnds sender w (storedRungs w.media id) := by
      refine deletionEnds_list (fun child hmem w' hw' => ?_) h
      exact ih child (h.isVariant (isVariant_iff.mpr hmem)) hw'
    obtain ⟨fuel,middle,hdrain,hmiddle⟩ := hchildren
    have hdel : TaskPool.drain SentCommand.execute 1 middle [⟨sender,.del id⟩] =
        some (middle.drop id) := rfl
    refine ⟨fuel+1+1,middle.drop id,?_,hmiddle.trans (shrinks_drop middle id)⟩
    rw [drain_delete]
    exact TaskPool.drain_append hdrain hdel

def RemovesGrounded (media media' : String → Option LocalMediaRecord) : Prop :=
  ∀ id, media' id = media id ∨ media' id = none ∧ Grounded (IsVariant media) id

theorem RemovesGrounded.grounded {media media' : String → Option LocalMediaRecord}
    (h : RemovesGrounded media media') {id : String} (hid : Grounded (IsVariant media') id) :
    Grounded (IsVariant media) id := by
  induction hid with
  | intro id _ ih =>
    rcases h id with hsame | ⟨-,hgrounded⟩
    · exact .intro fun child hchild => ih child ((IsVariant.congr hsame child).mpr hchild)
    · exact hgrounded

theorem RemovesGrounded.trans {a b c : String → Option LocalMediaRecord} (h : RemovesGrounded a b)
    (h' : RemovesGrounded b c) : RemovesGrounded a c := by
  intro id
  rcases h' id with hid | ⟨hnone,hgrounded⟩
  · rw [hid]
    exact h id
  · exact Or.inr ⟨hnone,h.grounded hgrounded⟩

theorem grounded_of_drain {sender : Option UserId} {fuel : ℕ} {w w' : MediaWorld}
    {ids : List String}
    (h : TaskPool.drain SentCommand.execute fuel w (deletions sender ids) = some w') :
    (∀ id ∈ ids, Grounded (IsVariant w.media) id) ∧ RemovesGrounded w.media w'.media := by
  induction fuel generalizing w w' ids with
  | zero =>
    cases ids with
    | nil =>
      cases h
      exact ⟨nofun,fun _ => Or.inl rfl⟩
    | cons id ids => cases h
  | succ fuel ih =>
    induction ids generalizing w with
    | nil =>
      cases h
      exact ⟨nofun,fun _ => Or.inl rfl⟩
    | cons id ids ihids =>
      obtain ⟨middle,hfirst,hrest⟩ := @TaskPool.drain_append_inv _ _ _ _ _ _ (deletions sender [id]) _ h
      rw [drain_delete] at hfirst
      obtain ⟨before,hchildren,hdel⟩ := TaskPool.drain_append_inv hfirst
      obtain ⟨hbelow,hbefore⟩ := ih hchildren
      have hid : Grounded (IsVariant w.media) id :=
        .intro fun child hchild => hbelow child (isVariant_iff.mp hchild)
      have hmiddle : RemovesGrounded w.media middle.media := by
        cases fuel with
        | zero => cases hdel
        | succ fuel =>
          obtain rfl : before.drop id = middle := by
            simpa [TaskPool.drain_succ,SentCommand.execute] using hdel
          intro other
          by_cases hother : other = id
          · subst hother
            exact Or.inr ⟨before.drop_media_same other,hid⟩
          · rw [before.drop_media_of_ne hother]
            exact hbefore other
      obtain ⟨hids,hw'⟩ := ihids hrest
      refine ⟨fun other hmem => ?_,hmiddle.trans hw'⟩
      rcases List.mem_cons.mp hmem with rfl | hmem
      · exact hid
      · exact hmiddle.grounded (hids other hmem)

/-- The deletion of an entry ends exactly where no infinite path of ladders begins. -/
theorem deletionEnds_iff (sender : Option UserId) (w : MediaWorld) (id : String) :
    DeletionEnds sender w [id] ↔ Grounded (IsVariant w.media) id := by
  constructor
  · rintro ⟨fuel,w',hdrain,-⟩
    exact (grounded_of_drain hdrain).1 id (List.mem_singleton_self id)
  · intro hid
    exact Grounded.deletionEnds hid (.refl _)

end Deletion

section Runs

variable {env : Env} {s s' : MediaState} {a : MediaAction}

/-- Every deletion makes finitely many calls: no cycle can be reached from any entry. -/
structure DeletesFinitely (w : MediaWorld) : Prop where
  ends : ∀ sender id, DeletionEnds sender w [id]
  no_cycle : ∀ id other, ReflTransGen (IsVariant w.media) id other →
    ¬TransGen (IsVariant w.media) other other

theorem deletesFinitely_of_grounded {w : MediaWorld}
    (h : ∀ id, Grounded (IsVariant w.media) id) : DeletesFinitely w where
  ends sender id := (deletionEnds_iff sender w id).mpr (h id)
  no_cycle id _ hpath := ((h id).path hpath).not_cycle

/-- An entry brings the ladder that is stored already, or one whose other rungs have none. -/
def flatLadder (media : String → Option LocalMediaRecord) (entry : LocalMediaRecord) : Bool :=
  decide (childIds entry.id entry = storedRungs media entry.id) ||
    (childIds entry.id entry).all fun child => (storedRungs media child).isEmpty

def LocalMediaCommand.setsFlat (media : String → Option LocalMediaRecord) :
    LocalMediaCommand → Bool
  | .set entry => flatLadder media entry
  | _ => true

/-- A new ladder is stored only while no other rung of it has one. -/
def setsFlatLadders (s : MediaState) : MediaAction → Bool
  | .run n => (nextCommand s n).all fun c => c.command.setsFlat s.world.media
  | _ => true

theorem put_sameOff (w : MediaWorld) (entry : LocalMediaRecord) :
    SameOff entry.id (IsVariant w.media) (IsVariant (w.put entry).media) :=
  fun _ child hid => IsVariant.congr (w.put_media_of_ne entry hid) child

theorem put_isVariant {w : MediaWorld} {entry : LocalMediaRecord} {child : String} :
    IsVariant (w.put entry).media entry.id child ↔ child ∈ childIds entry.id entry := by
  rw [isVariant_iff,storedRungs,w.put_media_same]
  rfl

theorem mediaStep_world (h : mediaStep env s a = some s') :
    (∃ n sender entry, a = .run n ∧ nextCommand s n = some ⟨sender,.set entry⟩ ∧
      s'.world = s.world.put entry) ∨
      (Shrinks s.world.media s'.world.media ∧
        ∀ n sender entry, a = .run n → nextCommand s n ≠ some ⟨sender,.set entry⟩) := by
  rcases mediaStep_cases h with ⟨n,rfl,hrun⟩ | ⟨hmedia,hno,-⟩
  · obtain ⟨c,hnext,hworld,-,-⟩ := run_sent_spec hrun
    have hother : (∀ entry, c.command ≠ .set entry) → ∀ m sender entry,
        MediaAction.run n = .run m → nextCommand s m ≠ some ⟨sender,.set entry⟩ := by
      intro hne m sender entry hm hset
      cases hm
      obtain rfl : c = ⟨sender,.set entry⟩ := Option.some.inj (hnext.symm.trans hset)
      exact hne entry rfl
    rcases execute_world s.world c.command with ⟨entry,hc⟩ | ⟨id,hc⟩ | hsame
    · obtain ⟨sender,command⟩ := c
      obtain rfl : command = .set entry := hc
      exact Or.inl ⟨n,sender,entry,rfl,hnext,hworld⟩
    · refine Or.inr ⟨?_,hother fun entry hset => ?_⟩
      · rw [hworld,hc]
        exact shrinks_drop s.world id
      · rw [hc] at hset
        cases hset
    · by_cases hset : ∃ entry, c.command = .set entry
      · obtain ⟨entry,hset⟩ := hset
        obtain ⟨sender,command⟩ := c
        obtain rfl : command = .set entry := hset
        exact Or.inl ⟨n,sender,entry,rfl,hnext,hworld⟩
      · refine Or.inr ⟨?_,hother fun entry heq => hset ⟨entry,heq⟩⟩
        rw [hworld,hsame]
        exact .refl _
  · exact Or.inr ⟨hmedia,fun n _ _ ha => absurd ha (hno n)⟩

theorem not_path_of_flat {media : String → Option LocalMediaRecord} {id child : String}
    (hne : child ≠ id) (hflat : storedRungs media child = []) :
    ¬ReflTransGen (IsVariant media) child id := by
  intro hpath
  rcases ReflTransGen.cases_head hpath with heq | ⟨next,hnext,-⟩
  · exact hne heq
  · rw [isVariant_iff,hflat] at hnext
    cases hnext

theorem grounded_put {w : MediaWorld} {entry : LocalMediaRecord}
    (hi : ∀ id, Grounded (IsVariant w.media) id) (hflat : flatLadder w.media entry = true) :
    ∀ id, Grounded (IsVariant (w.put entry).media) id := by
  rw [flatLadder,Bool.or_eq_true,decide_eq_true_eq,List.all_eq_true] at hflat
  rcases hflat with hsame | hflat
  · -- The same ladder again: no edge is new.
    refine fun id => (hi id).mono fun a b hab => ?_
    by_cases ha : a = entry.id
    · subst ha
      rw [isVariant_iff,← hsame]
      exact put_isVariant.mp hab
    · exact (put_sameOff w entry a b ha).mp hab
  · refine (put_sameOff w entry).grounded hi fun child hchild => ?_
    have hmem := put_isVariant.mp hchild
    exact not_path_of_flat (ne_of_mem_childIds hmem) (List.isEmpty_iff.mp (hflat child hmem))

theorem grounded_step (hi : ∀ id, Grounded (IsVariant s.world.media) id)
    (h : mediaStep env s a = some s') (hguard : setsFlatLadders s a = true) :
    ∀ id, Grounded (IsVariant s'.world.media) id := by
  rcases mediaStep_world h with ⟨n,sender,entry,rfl,hset,hworld⟩ | ⟨hshrinks,-⟩
  · rw [setsFlatLadders,hset] at hguard
    rw [hworld]
    exact grounded_put hi hguard
  · exact fun id => hshrinks.grounded (hi id)

theorem grounded_emptyMedia (id : String) : Grounded (IsVariant emptyMedia.world.media) id := by
  refine .intro fun child hchild => ?_
  obtain ⟨entry,hentry,-⟩ := hchild
  cases hentry

end Runs

section Alone

variable {env : Env} {s s' : MediaState} {w : MediaWorld}
  {media : String → Option LocalMediaRecord} {cs rest : List LocalMediaCommand}

/-- Every entry is stored under its own id. -/
def KeysRight (media : String → Option LocalMediaRecord) : Prop :=
  ∀ id entry, media id = some entry → entry.id = id

theorem KeysRight.put (h : KeysRight w.media) (entry : LocalMediaRecord) :
    KeysRight (w.put entry).media := by
  intro id found hfound
  by_cases hid : id = entry.id
  · subst hid
    rw [w.put_media_same] at hfound
    cases hfound
    rfl
  · rw [w.put_media_of_ne entry hid] at hfound
    exact h id found hfound

theorem KeysRight.shrinks (h : KeysRight media) {media' : String → Option LocalMediaRecord}
    (hshrinks : Shrinks media media') : KeysRight media' := by
  intro id entry hentry
  rcases hshrinks id with hid | hid
  · exact h id entry (hid ▸ hentry)
  · rw [hid] at hentry
    cases hentry

theorem KeysRight.execute (h : KeysRight w.media) (c : LocalMediaCommand) :
    KeysRight (execute w c).1.media := by
  rcases execute_world w c with ⟨entry,rfl⟩ | ⟨id,rfl⟩ | hsame
  · exact h.put entry
  · exact h.shrinks (shrinks_drop w id)
  · rwa [hsame]

theorem KeysRight.step (h : KeysRight s.world.media) {a : MediaAction}
    (hs : mediaStep env s a = some s') : KeysRight s'.world.media := by
  rcases mediaStep_world hs with ⟨n,sender,entry,-,-,hworld⟩ | ⟨hshrinks,-⟩
  · rw [hworld]
    exact h.put entry
  · exact h.shrinks hshrinks

/-- The command stores no ladder, whatever it finds, or the one that it has just read. -/
def LocalMediaCommand.plain : LocalMediaCommand → Bool
  | .set entry => (childIds entry.id entry).isEmpty
  | .edit _ (.abr _ _) => false
  | .publish .. => false
  | _ => true

/-- The commands before the ladder of a publish. -/
def LocalMediaCommand.registers : LocalMediaCommand → Bool
  | .set entry => (childIds entry.id entry).isEmpty
  | .create .. => true
  | .del _ => true
  | .delete _ => true
  | _ => false

def LocalMediaCommand.creates (child : String) : LocalMediaCommand → Bool
  | .create _ input => input.id == child
  | .set entry => entry.id == child
  | _ => false

/-- The id has no ladder, or is about to be created without one. -/
def FlatSoon (media : String → Option LocalMediaRecord) (before : List LocalMediaCommand)
    (child : String) : Prop :=
  storedRungs media child = [] ∨ ∃ c ∈ before, c.creates child = true

/-- What is left of a call that nobody has interrupted. -/
inductive Uninterrupted (media : String → Option LocalMediaRecord) (cs : List LocalMediaCommand) :
    Prop
  | plain (hplain : ∀ c ∈ cs, c.plain = true)
  | storing (entry : LocalMediaRecord) (rest : List LocalMediaCommand)
      (hcs : cs = .set entry :: rest) (hflat : flatLadder media entry = true)
      (hplain : ∀ c ∈ rest, c.plain = true)
  | publishing (ctx : RoomMessageContext) (nodeId : String) (parsed : AbrPublishInput)
      (hcs : cs = [.publish ctx nodeId parsed])
  | packaging (before : List LocalMediaCommand) (parentId : String) (abr : LocalMediaAbrState)
      (ownerUserId : Option UserId)
      (hcs : cs = before ++ [.edit parentId (.abr (some abr) ownerUserId)])
      (hregisters : ∀ c ∈ before, c.registers = true)
      (hflat : ∀ v ∈ abr.variants, v.localMediaId ≠ parentId → FlatSoon media before v.localMediaId)

theorem childIds_normalizeEntry (id : String) (entry : LocalMediaRecord) :
    childIds id (normalizeEntry entry) = childIds id entry := by
  simp [childIds,normalizeEntry,Option.filter_filter]

theorem storedRungs_drop_nil {id child : String} (h : storedRungs w.media child = []) :
    storedRungs (w.drop id).media child = [] := by
  rcases shrinks_drop w id child with hsame | hnone
  · rw [storedRungs,hsame]
    exact h
  · rw [storedRungs,hnone]
    rfl

theorem storedRungs_put_nil {entry : LocalMediaRecord} {child : String}
    (hentry : childIds entry.id entry = []) (h : child = entry.id ∨ storedRungs w.media child = []) :
    storedRungs (w.put entry).media child = [] := by
  by_cases hchild : child = entry.id
  · subst hchild
    rw [storedRungs,w.put_media_same]
    exact hentry
  · rw [storedRungs,w.put_media_of_ne entry hchild]
    exact h.resolve_left hchild

theorem edit_uninterrupted (hkeys : KeysRight w.media) {id : String} {edit : LocalMediaEdit}
    (hedit : (LocalMediaCommand.edit id edit).plain = true) (hrest : ∀ c ∈ rest, c.plain = true) :
    Uninterrupted w.media (continueEdit w.now id edit (w.read id) ++ rest) := by
  have hread : w.read id = .missing ∨ w.read id = .expired ∨
      ∃ raw, w.media id = some raw ∧ w.read id = .found (normalizeEntry raw) := by
    rw [MediaWorld.read]
    cases hid : w.media id with
    | none => exact Or.inl rfl
    | some raw =>
      rw [getLocalMediaEntry]
      split
      · exact Or.inr (Or.inl rfl)
      · exact Or.inr (Or.inr ⟨raw,rfl,rfl⟩)
  rcases hread with hread | hread | ⟨raw,hraw,hread⟩
  · rw [hread]
    exact .plain hrest
  · rw [hread]
    refine .plain fun c hc => ?_
    rcases List.mem_cons.mp hc with rfl | hc
    · rfl
    · exact hrest c hc
  · rw [hread,continueEdit]
    cases hstored : edit.apply w.now (normalizeEntry raw) with
    | none => exact .plain hrest
    | some entry =>
      refine .storing entry rest rfl ?_ hrest
      have hsame : entry.id = id ∧ childIds id entry = childIds id raw := by
        rw [← hkeys id raw hraw,← childIds_normalizeEntry raw.id raw]
        cases edit with
        | abr next owner => cases hedit
        | touch =>
          cases hstored
          exact ⟨rfl,rfl⟩
        | providerReady ready owner nodeId =>
          rw [LocalMediaEdit.apply] at hstored
          split_ifs at hstored <;> cases hstored <;> exact ⟨rfl,rfl⟩
      obtain ⟨hid,hrungs⟩ := hsame
      have hstay : childIds entry.id entry = storedRungs w.media entry.id := by
        rw [hid,hrungs,storedRungs,hraw]
        rfl
      rw [flatLadder,hstay]
      simp

theorem plain_of_registers {c : LocalMediaCommand} (h : c.registers = true) : c.plain = true := by
  cases c with
  | set entry => exact h
  | create | del | delete => rfl
  | _ => cases h

theorem execute_plain {c : LocalMediaCommand} (h : c.plain = true)
    (hedit : ∀ id edit, c ≠ .edit id edit) : ∀ next ∈ (execute w c).2, next.plain = true := by
  have hreads : ∀ next ∈ (execute w c).2, next.registers = true ∨ (∃ id n, next = .get id n) ∨
      (∃ ctx nodeId id, next = .recreate ctx nodeId id) ∨
      ∃ id owner nodeId, next = .edit id (.providerReady true owner nodeId) := by
    intro next hnext
    cases c with
    | set | del => cases hnext
    | create nodeId input =>
      obtain rfl := List.mem_singleton.mp hnext
      exact Or.inl rfl
    | get id retries =>
      simp only [execute] at hnext
      split at hnext <;> simp at hnext <;> grind [LocalMediaCommand.registers]
    | edit id edit => exact absurd rfl (hedit id edit)
    | delete id =>
      rcases List.mem_append.mp hnext with hnext | hnext
      · obtain ⟨child,-,rfl⟩ := List.mem_map.mp hnext
        exact Or.inl rfl
      · obtain rfl := List.mem_singleton.mp hnext
        exact Or.inl rfl
    | announce ctx nodeId id =>
      simp only [execute,continueAnnounce] at hnext
      split at hnext <;> simp at hnext <;> grind [LocalMediaCommand.registers]
    | recreate ctx nodeId id =>
      simp only [execute,continueRecreate] at hnext
      split at hnext
      · simp at hnext
        grind
      · split at hnext <;> simp at hnext <;> grind [LocalMediaCommand.registers]
    | publish => cases h
  intro next hnext
  rcases hreads next hnext with hregisters | ⟨_,_,rfl⟩ | ⟨_,_,_,rfl⟩ | ⟨_,_,_,rfl⟩
  · exact plain_of_registers hregisters
  · rfl
  · rfl
  · rfl

theorem execute_registers {c : LocalMediaCommand} (h : c.registers = true)
    (before : List LocalMediaCommand) : (∀ next ∈ (execute w c).2, next.registers = true) ∧
      ∀ child, FlatSoon w.media (c :: before) child →
        FlatSoon (execute w c).1.media ((execute w c).2 ++ before) child := by
  have hlater : ∀ {media : String → Option LocalMediaRecord} {child : String},
      (∃ next ∈ before, next.creates child = true) →
        FlatSoon media ((execute w c).2 ++ before) child := by
    rintro media child ⟨next,hnext,hcreates⟩
    exact Or.inr ⟨next,List.mem_append_right _ hnext,hcreates⟩
  cases c with
  | create nodeId input =>
    refine ⟨fun next hnext => ?_,fun child hchild => ?_⟩
    · obtain rfl := List.mem_singleton.mp hnext
      rfl
    · rcases hchild with hflat | ⟨next,hnext,hcreates⟩
      · exact Or.inl hflat
      · rcases List.mem_cons.mp hnext with rfl | hnext
        · exact Or.inr ⟨_,List.mem_cons_self,hcreates⟩
        · exact hlater ⟨next,hnext,hcreates⟩
  | set entry =>
    refine ⟨nofun,fun child hchild => ?_⟩
    have hentry : childIds entry.id entry = [] := List.isEmpty_iff.mp h
    rcases hchild with hflat | ⟨next,hnext,hcreates⟩
    · exact Or.inl (storedRungs_put_nil hentry (Or.inr hflat))
    · rcases List.mem_cons.mp hnext with rfl | hnext
      · exact Or.inl (storedRungs_put_nil hentry (Or.inl (beq_iff_eq.mp hcreates).symm))
      · exact hlater ⟨next,hnext,hcreates⟩
  | del id =>
    refine ⟨nofun,fun child hchild => ?_⟩
    rcases hchild with hflat | ⟨next,hnext,hcreates⟩
    · exact Or.inl (storedRungs_drop_nil hflat)
    · rcases List.mem_cons.mp hnext with rfl | hnext
      · cases hcreates
      · exact hlater ⟨next,hnext,hcreates⟩
  | delete id =>
    refine ⟨fun next hnext => ?_,fun child hchild => ?_⟩
    · rcases List.mem_append.mp hnext with hnext | hnext
      · obtain ⟨child,-,rfl⟩ := List.mem_map.mp hnext
        rfl
      · obtain rfl := List.mem_singleton.mp hnext
        rfl
    · rcases hchild with hflat | ⟨next,hnext,hcreates⟩
      · exact Or.inl hflat
      · rcases List.mem_cons.mp hnext with rfl | hnext
        · cases hcreates
        · exact hlater ⟨next,hnext,hcreates⟩
  | _ => cases h

theorem publish_uninterrupted (ctx : RoomMessageContext) (nodeId : String)
    (parsed : AbrPublishInput) (found : LocalMediaRead) (media : String → Option LocalMediaRecord) :
    Uninterrupted media (continuePublish ctx nodeId parsed found) := by
  cases found with
  | missing => exact .plain nofun
  | expired =>
    refine .plain fun c hc => ?_
    obtain rfl := List.mem_singleton.mp hc
    rfl
  | found parent =>
    rw [continuePublish]
    split
    · exact .plain nofun
    · refine .packaging _ parent.id (publishedAbr parsed) (some ctx.userId) rfl ?_ ?_
      · intro c hc
        rcases List.mem_append.mp hc with hc | hc
        · obtain ⟨child,-,rfl⟩ := List.mem_map.mp hc
          rfl
        · obtain ⟨v,-,rfl⟩ := List.mem_map.mp hc
          rfl
      · -- Every other rung is created before the ladder is stored.
        intro rung hrung hne
        obtain ⟨v,hv,rfl⟩ := List.mem_map.mp hrung
        refine Or.inr ⟨.create nodeId (abrChildInput ctx parent.id v),?_,beq_self_eq_true _⟩
        refine List.mem_append_right _ (List.mem_map.mpr ⟨v,List.mem_filter.mpr ⟨hv,?_⟩,rfl⟩)
        exact decide_eq_true hne

theorem abr_uninterrupted (hkeys : KeysRight w.media) {parentId : String} {abr : LocalMediaAbrState}
    {ownerUserId : Option UserId}
    (hflat : ∀ v ∈ abr.variants, v.localMediaId ≠ parentId →
      storedRungs w.media v.localMediaId = []) :
    Uninterrupted w.media
      (continueEdit w.now parentId (.abr (some abr) ownerUserId) (w.read parentId)) := by
  rw [MediaWorld.read]
  cases hid : w.media parentId with
  | none => exact .plain nofun
  | some raw =>
    rw [getLocalMediaEntry]
    split
    · refine .plain fun c hc => ?_
      obtain rfl := List.mem_singleton.mp hc
      rfl
    · rw [continueEdit,LocalMediaEdit.apply]
      split
      · exact .plain nofun
      · refine .storing _ [] rfl ?_ nofun
        rw [flatLadder,Bool.or_eq_true,List.all_eq_true]
        right
        intro child hchild
        have hkey : raw.id = parentId := hkeys parentId raw hid
        obtain ⟨hmem,hne⟩ := List.mem_filter.mp hchild
        have hrung : child ∈ abr.variants.map (·.localMediaId) := by
          simp only [normalizeEntry,Option.filter_some] at hmem
          split at hmem
          · exact hmem
          · cases hmem
        obtain ⟨v,hv,rfl⟩ := List.mem_map.mp hrung
        refine List.isEmpty_iff.mpr (hflat v hv ?_)
        rw [← hkey]
        exact of_decide_eq_true hne

theorem Uninterrupted.next {c : LocalMediaCommand} (hkeys : KeysRight w.media)
    (h : Uninterrupted w.media (c :: rest)) : c.setsFlat w.media = true ∧
      Uninterrupted (execute w c).1.media ((execute w c).2 ++ rest) := by
  cases h with
  | plain hplain =>
    have hhead := hplain c List.mem_cons_self
    have hrest : ∀ d ∈ rest, d.plain = true := fun d hd => hplain d (List.mem_cons_of_mem c hd)
    by_cases hedit : ∃ id edit, c = .edit id edit
    · obtain ⟨id,edit,rfl⟩ := hedit
      exact ⟨rfl,edit_uninterrupted hkeys hhead hrest⟩
    · refine ⟨?_,.plain fun d hd => ?_⟩
      · cases c with
        | set entry =>
          have hnone : childIds entry.id entry = [] := List.isEmpty_iff.mp hhead
          simp [LocalMediaCommand.setsFlat,flatLadder,hnone]
        | _ => rfl
      · rcases List.mem_append.mp hd with hd | hd
        · exact execute_plain hhead (fun id edit he => hedit ⟨id,edit,he⟩) d hd
        · exact hrest d hd
  | storing entry rest' hcs hflat hplain =>
    obtain ⟨rfl,rfl⟩ := List.cons.inj hcs
    exact ⟨hflat,.plain hplain⟩
  | publishing ctx nodeId parsed hcs =>
    obtain ⟨rfl,rfl⟩ := List.cons.inj hcs
    refine ⟨rfl,?_⟩
    rw [List.append_nil]
    exact publish_uninterrupted ctx nodeId parsed _ _
  | packaging before parentId abr ownerUserId hcs hregisters hflat =>
    cases before with
    | nil =>
      obtain ⟨rfl,rfl⟩ := List.cons.inj hcs
      refine ⟨rfl,?_⟩
      rw [List.append_nil]
      refine abr_uninterrupted hkeys fun v hv hne => ?_
      exact (hflat v hv hne).resolve_right nofun
    | cons d before =>
      obtain ⟨rfl,rfl⟩ := List.cons.inj hcs
      have hc := hregisters c List.mem_cons_self
      obtain ⟨hmore,hkeep⟩ := execute_registers (w := w) hc before
      refine ⟨?_,.packaging ((execute w c).2 ++ before) parentId abr ownerUserId ?_ ?_ ?_⟩
      · cases c with
        | set entry =>
          have hnone : childIds entry.id entry = [] := List.isEmpty_iff.mp hc
          simp [LocalMediaCommand.setsFlat,flatLadder,hnone]
        | _ => rfl
      · exact (List.append_assoc _ _ _).symm
      · intro d hd
        rcases List.mem_append.mp hd with hd | hd
        · exact hmore d hd
        · exact hregisters d (List.mem_cons_of_mem c hd)
      · exact fun v hv hne => hkeep _ (hflat v hv hne)

theorem Uninterrupted.run {sender : Option UserId} {n : ℕ} (k : ℕ)
    (hkeys : KeysRight s.world.media) (htask : s.tasks[n]? = some (cs.map (SentCommand.mk sender)))
    (h : Uninterrupted s.world.media cs) :
    EachStep (mediaStep env) (fun s a _ => setsFlatLadders s a = true) s
      (List.replicate k (.run n)) := by
  induction k generalizing s cs with
  | zero => trivial
  | succ k ih =>
    intro s' hs'
    change s.run SentCommand.execute n = some s' at hs'
    rw [TaskPool.run,htask] at hs'
    cases cs with
    | nil => cases hs'
    | cons c rest =>
      cases hs'
      obtain ⟨hflat,hnext⟩ := h.next hkeys
      have hlt : n < s.tasks.length := (List.getElem?_eq_some_iff.mp htask).1
      refine ⟨?_,ih (hkeys.execute c) ?_ hnext⟩
      · have hhead : nextCommand s n = some ⟨sender,c⟩ := by
          rw [nextCommand,htask]
          rfl
        change ((nextCommand s n).all fun d => d.command.setsFlat s.world.media) = true
        rw [hhead]
        exact hflat
      · rw [List.getElem?_set_self hlt,List.map_append]

theorem eachStep_run_of_none {n : ℕ} (k : ℕ) (htask : s.tasks[n]? = none)
    {P : MediaState → MediaAction → MediaState → Prop} :
    EachStep (mediaStep env) P s (List.replicate k (.run n)) := by
  cases k with
  | zero => trivial
  | succ k =>
    intro s' hs'
    change s.run SentCommand.execute n = some s' at hs'
    rw [TaskPool.run,htask] at hs'
    cases hs'

/-- Whatever begins a call begins one that meets the condition as long as nobody interrupts it. -/
theorem call_uninterrupted (hkeys : KeysRight s.world.media) {call : MediaAction}
    (hcall : ∀ n, call ≠ .run n) (k : ℕ) :
    EachStep (mediaStep env) (fun s a _ => setsFlatLadders s a = true) s
      (call :: List.replicate k (.run s.tasks.length)) := by
  intro s' hs'
  refine ⟨?_,?_⟩
  · cases call with
    | run n => exact absurd rfl (hcall n)
    | _ => rfl
  · have hkeys' : KeysRight s'.world.media := hkeys.step hs'
    have hspawn : ∀ sender cs, s' = s.spawn s.world (List.map (SentCommand.mk sender) cs) →
        Uninterrupted s.world.media cs →
        EachStep (mediaStep env) (fun s a _ => setsFlatLadders s a = true) s'
          (List.replicate k (.run s.tasks.length)) := by
      rintro sender cs rfl h
      have htask : (s.spawn s.world (cs.map (SentCommand.mk sender))).tasks[s.tasks.length]? =
          some (cs.map (SentCommand.mk sender)) := by
        simp [TaskPool.spawn]
      exact h.run k hkeys' htask
    have hidle : s'.tasks.length = s.tasks.length →
        EachStep (mediaStep env) (fun s a _ => setsFlatLadders s a = true) s'
          (List.replicate k (.run s.tasks.length)) := by
      intro hlength
      exact eachStep_run_of_none k (List.getElem?_eq_none_iff.mpr hlength.le)
    have hsingle : ∀ c : LocalMediaCommand, c.plain = true → Uninterrupted s.world.media [c] := by
      intro c hc
      refine .plain fun d hd => ?_
      rw [List.mem_singleton.mp hd]
      exact hc
    cases call with
    | run n => exact absurd rfl (hcall n)
    | message ctx nodeId msg =>
      simp only [mediaStep] at hs'
      split at hs'
      · cases hs'
      · refine hspawn _ _ (Option.some.inj hs').symm ?_
        cases msg with
        | playlistAddLocal parsed =>
          rw [MediaMessage.commands]
          split
          · exact hsingle _ rfl
          · exact .plain fun d hd => absurd hd List.not_mem_nil
        | localMediaReady localMediaId ready =>
          cases ready with
          | true => exact hsingle _ rfl
          | false => exact hsingle _ rfl
        | localMediaAbrPublish parsed => exact .publishing ctx nodeId parsed rfl
    | touch id => exact hspawn none [.edit id .touch] (Option.some.inj hs').symm (hsingle _ rfl)
    | providerGone id owner =>
      exact hspawn none [.edit id (.providerReady false (some owner) "")]
        (Option.some.inj hs').symm (hsingle _ rfl)
    | delete id => exact hspawn none [.delete id] (Option.some.inj hs').symm (hsingle _ rfl)
    | abandon n =>
      cases hs'
      exact hidle (List.length_set ..)
    | expire id =>
      simp only [mediaStep] at hs'
      split at hs'
      · cases hs'
        exact hidle rfl
      · cases hs'
    | tick now =>
      simp only [mediaStep] at hs'
      split at hs'
      · cases hs'
        exact hidle rfl
      · cases hs'
    | room roomId op =>
      simp only [mediaStep] at hs'
      split at hs'
      · obtain ⟨next,-,rfl⟩ := Option.map_eq_some_iff.mp hs'
        exact hidle rfl
      · cases hs'
    | destroyRoom roomId =>
      cases hs'
      exact hidle rfl

end Alone

/-- In a run from the empty store all deletions are finite in every state, if every new ladder is
stored while no other rung of it has one; and a call that nobody interrupts stores it so. -/
theorem deletions_finite (env : Env) (run : List MediaAction) :
    (EachStep (mediaStep env) (fun s a _ => setsFlatLadders s a = true) emptyMedia run →
      EachStep (mediaStep env) (fun _ _ s' => DeletesFinitely s'.world) emptyMedia run) ∧
    ∀ s, TransitionSystem.runSteps (mediaStep env) emptyMedia run = some s →
      ∀ call : MediaAction, (∀ n, call ≠ .run n) → ∀ k,
        EachStep (mediaStep env) (fun s a _ => setsFlatLadders s a = true) s
          (call :: List.replicate k (.run s.tasks.length)) := by
  constructor
  · intro hflat
    exact hflat.of_invariant (fun s => ∀ id, Grounded (IsVariant s.world.media) id)
      (fun s a s' hi h hguard => grounded_step hi h hguard)
      (fun s hi => deletesFinitely_of_grounded hi) grounded_emptyMedia
  · intro s hrun call hcall k
    refine call_uninterrupted ?_ hcall k
    refine (EachStep.trivial (mediaStep env) emptyMedia run).invariant (fun s => KeysRight s.world.media)
      (fun s a s' hkeys h _ => hkeys.step h) nofun hrun

section Scenarios

def annAdds (localMediaId : String) (n : ℕ) : List MediaAction :=
  [.message (roomPage "ann") "node" (.playlistAddLocal (videoFile localMediaId none)),
    .run n,.run n]

def publishLadder (parentId otherId : String) : MediaAction :=
  .message (roomPage "ann") "node" (.localMediaAbrPublish {
    parentLocalMediaId := parentId, durationSec := 60,
    variants := [parentId,otherId].map fun id => {
      localMediaId := id, height := 720, bandwidth := 1000, label := "720p",
      mimeType := "video/mp4", sizeBytes := 1000, name := id } })

theorem deletions_finite_single : EachStep (mediaStep scenarioEnv)
    (fun _ _ s' => DeletesFinitely s'.world) emptyMedia
    (annAdds "film" 0 ++ publishLadder "film" "small" :: List.replicate 5 (.run 1)) := by
  have hflat : EachStep (mediaStep scenarioEnv) (fun s a _ => setsFlatLadders s a = true) emptyMedia
      (annAdds "film" 0 ++ publishLadder "film" "small" :: List.replicate 5 (.run 1)) := by
    decide +kernel
  exact (deletions_finite scenarioEnv _).1 hflat

/-- Ann publishes each of two files as a rung of the other. Both publishes read their parent
before either has made it a child. -/
def crossedPublishes : List MediaAction :=
  annAdds "film" 0 ++ annAdds "song" 1 ++
    [publishLadder "film" "song",publishLadder "song" "film",.run 2,.run 3,.run 2,.run 2,.run 3,
      .run 3,.run 2,.run 2,.run 3,.run 3]

theorem crossed_publishes_never_deleted :
    ¬∀ (env : Env) (run : List MediaAction) (s : MediaState),
      TransitionSystem.runSteps (mediaStep env) emptyMedia run = some s →
        DeletesFinitely s.world := by
  intro h
  have hcrossed : ((TransitionSystem.runSteps (mediaStep scenarioEnv) emptyMedia
      crossedPublishes).any fun s => decide
        ("song" ∈ ((s.world.media "film").map (childIds "film")).getD [] ∧
          "film" ∈ ((s.world.media "song").map (childIds "song")).getD [])) = true := by
    decide +kernel
  obtain ⟨s,hrun,hedges⟩ := (Option.any_eq_true _ _).mp hcrossed
  obtain ⟨hsong,hfilm⟩ := of_decide_eq_true hedges
  have hcycle : TransGen (IsVariant s.world.media) "film" "film" :=
    .tail (.single (isVariant_iff.mpr hsong)) (isVariant_iff.mpr hfilm)
  exact (h scenarioEnv crossedPublishes s hrun).no_cycle "film" "film" .refl hcycle

end Scenarios

end WebSyncPlay
