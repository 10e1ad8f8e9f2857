import WebSyncPlay.UpdateRoom

/-! Settling a resolving item (`services/playlist-resolve.ts`): one call of `commitResolvingItem`
with all its attempts, among whatever other writers do to the room. -/
namespace WebSyncPlay

open Library

/-- What one run of the mutate closure meets: the room that was read, the clock, and whether the
write that may follow goes through. -/
structure RoomRead where
  room : Option RoomState
  now : ℕ
  execOk : Bool

inductive UpdateOutcome
  | declined
  | written (read : RoomRead) (next : RoomState)
  /-- `updateRoom: WATCH retry exhausted`. -/
  | exhausted

/-- One call of `updateRoom`: the closure runs again on what the next read brings, as long as
another writer comes in between. -/
def updateRoomCall (mutate : RoomRead → Option RoomState) : ℕ → (ℕ → RoomRead) → UpdateOutcome
  | 0,_ => .exhausted
  | left+1,reads =>
    match mutate (reads 0) with
    | none => .declined
    | some next =>
      if (reads 0).execOk then .written (reads 0) next
      else updateRoomCall mutate left fun j => reads (j+1)

inductive CommitOutcome
  | returned (settled : Bool) (write : Option (RoomRead × RoomState))
  | threw

def commitLoop (mutate : RoomRead → Option RoomState) (retryUntilPresent : Bool) :
    ℕ → (ℕ → ℕ → RoomRead) → CommitOutcome
  | 0,_ => .returned false none
  | left+1,world =>
    match updateRoomCall mutate updateRoomMaxAttempts (world 0) with
    | .written read next => .returned true (some (read,next))
    | .exhausted => .threw
    | .declined =>
      if !retryUntilPresent then .returned false none
      else commitLoop mutate retryUntilPresent left fun k => world (k+1)

def commitMaxAttempts (retryUntilPresent : Bool) : ℕ := if retryUntilPresent then 24 else 1

structure ResolveCommit where
  env : Env
  itemId : ItemId
  outcome : ResolveOutcome
  retryUntilPresent : Bool

namespace ResolveCommit

def mutate (c : ResolveCommit) (read : RoomRead) : Option RoomState :=
  read.room.bind (commitResolvingItem c.env c.itemId c.outcome c.retryUntilPresent read.now)

def run (c : ResolveCommit) (world : ℕ → ℕ → RoomRead) : CommitOutcome :=
  commitLoop c.mutate c.retryUntilPresent (commitMaxAttempts c.retryUntilPresent) world

def Visible (c : ResolveCommit) (read : RoomRead) : Prop :=
  ∃ room item, read.room = some room ∧ findItem room c.itemId = some item

def Resolving (c : ResolveCommit) (read : RoomRead) : Prop :=
  ∃ room item, read.room = some room ∧ findItem room c.itemId = some item ∧
    item.ingestStatus = some .resolving

/-- The write that went through is the change of an item that was waiting. -/
def Settles (c : ResolveCommit) (read : RoomRead) (next : RoomState) : Prop :=
  ∃ room item, read.room = some room ∧ findItem room c.itemId = some item ∧
    item.ingestStatus = some .resolving ∧ read.execOk = true ∧
    next = touchRoomStructural (updateItem room c.itemId (c.outcome.mutateItem c.env)) read.now

/-- A call that does what it is for. It says that it settled the item only when it did; and one that
retries gets to an item that comes late, unless an update runs out of its own retries. -/
structure Sound (c : ResolveCommit) (world : ℕ → ℕ → RoomRead) : Prop where
  truthful : ∀ write, c.run world = .returned true write →
    ∃ k j next, write = some (world k j,next) ∧ c.Settles (world k j) next
  persistent : c.retryUntilPresent = true → ∀ k < commitMaxAttempts true,
    (∀ k' ≤ k, ∃ j < updateRoomMaxAttempts, (world k' j).execOk = true) →
    (∀ k' < k, ∀ j, ¬c.Visible (world k' j)) → (∀ j, c.Resolving (world k j)) →
      ∃ j next, c.run world = .returned true (some (world k j,next)) ∧
        c.Settles (world k j) next

end ResolveCommit

/-- A stretch of reads that all find the room, in which every write is forestalled. -/
def Forestalled (reads : ℕ → RoomRead) (j : ℕ) : Prop :=
  ∀ i < j, (reads i).room.isSome = true ∧ (reads i).execOk = false

def FindsNoRoom (reads : ℕ → RoomRead) : Prop :=
  ∃ j < updateRoomMaxAttempts, (reads j).room = none ∧ Forestalled reads j

/-- The first write that goes through: no earlier attempt found the room, and this one finds it in
a read after which nobody comes in between. -/
def FirstWrite (world : ℕ → ℕ → RoomRead) (k j : ℕ) : Prop :=
  k < commitMaxAttempts true ∧ j < updateRoomMaxAttempts ∧ (∀ k' < k, FindsNoRoom (world k')) ∧
    (world k j).room.isSome = true ∧ (world k j).execOk = true ∧ Forestalled (world k) j

section Loops

variable {mutate : RoomRead → Option RoomState} {retryUntilPresent : Bool}

theorem updateRoomCall_written_iff {left : ℕ} {reads : ℕ → RoomRead} {read : RoomRead}
    {next : RoomState} :
    updateRoomCall mutate left reads = .written read next ↔
      ∃ j < left, reads j = read ∧ mutate read = some next ∧ read.execOk = true ∧
        ∀ i < j, (mutate (reads i)).isSome = true ∧ (reads i).execOk = false := by
  induction left generalizing reads with
  | zero => simp [updateRoomCall]
  | succ left ih =>
    rw [updateRoomCall]
    cases hfirst : mutate (reads 0) with
    | none =>
      refine iff_of_false nofun ?_
      rintro ⟨j,-,rfl,hnext,-,hbefore⟩
      cases j with
      | zero =>
        rw [hfirst] at hnext
        cases hnext
      | succ j =>
        have hstart := (hbefore 0 (Nat.succ_pos j)).1
        rw [hfirst] at hstart
        cases hstart
    | some first =>
      dsimp only
      cases hexec : (reads 0).execOk with
      | true =>
        rw [if_pos rfl]
        constructor
        · intro h
          injection h with hread hnext
          subst hread hnext
          exact ⟨0,Nat.succ_pos left,rfl,hfirst,hexec,fun i hi => absurd hi (Nat.not_lt_zero i)⟩
        · rintro ⟨j,-,rfl,hnext,-,hbefore⟩
          cases j with
          | zero =>
            rw [hfirst] at hnext
            rw [Option.some.inj hnext]
          | succ j =>
            have hstart := (hbefore 0 (Nat.succ_pos j)).2
            rw [hexec] at hstart
            cases hstart
      | false =>
        rw [if_neg nofun,ih]
        constructor
        · rintro ⟨j,hj,hread,hnext,hok,hbefore⟩
          refine ⟨j+1,Nat.succ_lt_succ hj,hread,hnext,hok,fun i hi => ?_⟩
          cases i with
          | zero => exact ⟨by rw [hfirst]; rfl,hexec⟩
          | succ i => exact hbefore i (Nat.lt_of_succ_lt_succ hi)
        · rintro ⟨j,hj,hread,hnext,hok,hbefore⟩
          cases j with
          | zero =>
            rw [← hread,hexec] at hok
            cases hok
          | succ j =>
            exact ⟨j,Nat.lt_of_succ_lt_succ hj,hread,hnext,hok,
              fun i hi => hbefore (i+1) (Nat.succ_lt_succ hi)⟩

theorem updateRoomCall_declined_iff {left : ℕ} {reads : ℕ → RoomRead} :
    updateRoomCall mutate left reads = .declined ↔
      ∃ j < left, mutate (reads j) = none ∧
        ∀ i < j, (mutate (reads i)).isSome = true ∧ (reads i).execOk = false := by
  induction left generalizing reads with
  | zero => simp [updateRoomCall]
  | succ left ih =>
    rw [updateRoomCall]
    cases hfirst : mutate (reads 0) with
    | none =>
      exact iff_of_true rfl ⟨0,Nat.succ_pos left,hfirst,fun i hi => absurd hi (Nat.not_lt_zero i)⟩
    | some first =>
      dsimp only
      cases hexec : (reads 0).execOk with
      | true =>
        rw [if_pos rfl]
        refine iff_of_false nofun ?_
        rintro ⟨j,-,hnone,hbefore⟩
        cases j with
        | zero =>
          rw [hfirst] at hnone
          cases hnone
        | succ j =>
          have hstart := (hbefore 0 (Nat.succ_pos j)).2
          rw [hexec] at hstart
          cases hstart
      | false =>
        rw [if_neg nofun,ih]
        constructor
        · rintro ⟨j,hj,hnone,hbefore⟩
          refine ⟨j+1,Nat.succ_lt_succ hj,hnone,fun i hi => ?_⟩
          cases i with
          | zero => exact ⟨by rw [hfirst]; rfl,hexec⟩
          | succ i => exact hbefore i (Nat.lt_of_succ_lt_succ hi)
        · rintro ⟨j,hj,hnone,hbefore⟩
          cases j with
          | zero =>
            rw [hfirst] at hnone
            cases hnone
          | succ j =>
            exact ⟨j,Nat.lt_of_succ_lt_succ hj,hnone,
              fun i hi => hbefore (i+1) (Nat.succ_lt_succ hi)⟩

/-- What a call that returns `true` wrote, and in which attempt; the attempts before it wrote
nothing. -/
theorem commitLoop_true_iff {left : ℕ} {world : ℕ → ℕ → RoomRead}
    {write : Option (RoomRead × RoomState)} :
    commitLoop mutate retryUntilPresent left world = .returned true write ↔
      ∃ k < left, (0 < k → retryUntilPresent = true) ∧
        (∀ k' < k, updateRoomCall mutate updateRoomMaxAttempts (world k') = .declined) ∧
        ∃ read next, write = some (read,next) ∧
          updateRoomCall mutate updateRoomMaxAttempts (world k) = .written read next := by
  induction left generalizing world with
  | zero => simp [commitLoop]
  | succ left ih =>
    rw [commitLoop]
    cases hfirst : updateRoomCall mutate updateRoomMaxAttempts (world 0) with
    | written read next =>
      constructor
      · intro h
        injection h with _ hwrite
        exact ⟨0,Nat.succ_pos left,fun h0 => absurd h0 (Nat.lt_irrefl 0),
          fun k' hk' => absurd hk' (Nat.not_lt_zero k'),read,next,hwrite.symm,hfirst⟩
      · rintro ⟨k,-,-,hbefore,read',next',rfl,hwritten⟩
        cases k with
        | zero =>
          rw [hfirst] at hwritten
          injection hwritten with hread hnext
          rw [hread,hnext]
        | succ k =>
          have hstart := hbefore 0 (Nat.succ_pos k)
          rw [hfirst] at hstart
          cases hstart
    | exhausted =>
      refine iff_of_false nofun ?_
      rintro ⟨k,-,-,hbefore,read',next',-,hwritten⟩
      cases k with
      | zero =>
        rw [hfirst] at hwritten
        cases hwritten
      | succ k =>
        have hstart := hbefore 0 (Nat.succ_pos k)
        rw [hfirst] at hstart
        cases hstart
    | declined =>
      dsimp only
      cases hretry : retryUntilPresent with
      | false =>
        refine iff_of_false nofun ?_
        rintro ⟨k,-,hretries,-,read',next',-,hwritten⟩
        cases k with
        | zero =>
          rw [hfirst] at hwritten
          cases hwritten
        | succ k => exact absurd (hretries (Nat.succ_pos k)) nofun
      | true =>
        subst hretry
        rw [Bool.not_true,if_neg Bool.false_ne_true,ih]
        constructor
        · rintro ⟨k,hk,-,hbefore,hrest⟩
          refine ⟨k+1,Nat.succ_lt_succ hk,fun _ => rfl,fun k' hk' => ?_,hrest⟩
          cases k' with
          | zero => exact hfirst
          | succ k' => exact hbefore k' (Nat.lt_of_succ_lt_succ hk')
        · rintro ⟨k,hk,-,hbefore,hrest⟩
          cases k with
          | zero =>
            obtain ⟨read',next',-,hwritten⟩ := hrest
            rw [hfirst] at hwritten
            cases hwritten
          | succ k =>
            exact ⟨k,Nat.lt_of_succ_lt_succ hk,fun _ => rfl,
              fun k' hk' => hbefore (k'+1) (Nat.succ_lt_succ hk'),hrest⟩

end Loops

namespace ResolveCommit

section Closure

variable {c : ResolveCommit} {read : RoomRead} {next : RoomState}

theorem mutate_isSome (hretry : c.retryUntilPresent = true) :
    (c.mutate read).isSome = read.room.isSome := by
  unfold mutate
  cases read.room with
  | none => rfl
  | some room =>
    rw [Option.bind_some,commitResolvingItem,hretry]
    split
    · split <;> rfl
    · rfl

theorem mutate_eq_none (hretry : c.retryUntilPresent = true) :
    c.mutate read = none ↔ read.room = none := by
  have hsome : (c.mutate read).isSome = read.room.isSome := mutate_isSome hretry
  rw [← Option.not_isSome_iff_eq_none,← Option.not_isSome_iff_eq_none,hsome]

theorem settles_of_resolving (h : c.Resolving read) (hok : read.execOk = true)
    (hnext : c.mutate read = some next) : c.Settles read next := by
  obtain ⟨room,item,hroom,hitem,hstatus⟩ := h
  rw [mutate,hroom,Option.bind_some,commitResolvingItem,hitem] at hnext
  dsimp only at hnext
  rw [if_pos hstatus] at hnext
  exact ⟨room,item,hroom,hitem,hstatus,hok,(Option.some.inj hnext).symm⟩

theorem resolving_of_once (hretry : c.retryUntilPresent = false)
    (hnext : c.mutate read = some next) : c.Resolving read := by
  obtain ⟨room,hroom,hcommit⟩ := Option.bind_eq_some_iff.mp hnext
  rw [commitResolvingItem,hretry] at hcommit
  split at hcommit
  · rename_i item hitem
    split at hcommit
    · rename_i hstatus
      exact ⟨room,item,hroom,hitem,hstatus⟩
    · cases hcommit
  · cases hcommit

theorem Settles.resolving (h : c.Settles read next) : c.Resolving read := by
  obtain ⟨room,item,hroom,hitem,hstatus,-,-⟩ := h
  exact ⟨room,item,hroom,hitem,hstatus⟩

end Closure

section Run

variable {c : ResolveCommit} {world : ℕ → ℕ → RoomRead}

theorem declined_iff (hretry : c.retryUntilPresent = true) (reads : ℕ → RoomRead) :
    updateRoomCall c.mutate updateRoomMaxAttempts reads = .declined ↔ FindsNoRoom reads := by
  rw [updateRoomCall_declined_iff]
  simp only [mutate_eq_none hretry,mutate_isSome hretry]
  rfl

/-- A call that retries returns `true` with its first write. -/
theorem run_of_firstWrite (hretry : c.retryUntilPresent = true) {k j : ℕ}
    (h : FirstWrite world k j) : ∃ next, c.mutate (world k j) = some next ∧
      c.run world = .returned true (some (world k j,next)) := by
  obtain ⟨hk,hj,hbefore,hroom,hok,hstretch⟩ := h
  rw [← mutate_isSome hretry] at hroom
  obtain ⟨next,hnext⟩ := Option.isSome_iff_exists.mp hroom
  refine ⟨next,hnext,commitLoop_true_iff.mpr ⟨k,?_,fun _ => hretry,fun k' hk' => ?_,_,next,rfl,?_⟩⟩
  · rwa [hretry]
  · exact (declined_iff hretry _).mpr (hbefore k' hk')
  · refine updateRoomCall_written_iff.mpr ⟨j,hj,rfl,hnext,hok,fun i hi => ?_⟩
    rw [mutate_isSome hretry]
    exact hstretch i hi

theorem firstWrite_of_run {write : Option (RoomRead × RoomState)}
    (h : c.run world = .returned true write) : ∃ k j next, write = some (world k j,next) ∧
      c.mutate (world k j) = some next ∧ (world k j).execOk = true ∧
      (c.retryUntilPresent = true → FirstWrite world k j) := by
  obtain ⟨k,hk,-,hbefore,read,next,rfl,hwritten⟩ := commitLoop_true_iff.mp h
  obtain ⟨j,hj,rfl,hnext,hok,hstretch⟩ := updateRoomCall_written_iff.mp hwritten
  refine ⟨k,j,next,rfl,hnext,hok,fun hretry => ?_⟩
  rw [hretry] at hk
  refine ⟨hk,hj,fun k' hk' => (declined_iff hretry _).mp (hbefore k' hk'),?_,hok,fun i hi => ?_⟩
  · rw [← mutate_isSome hretry,hnext]
    rfl
  · rw [← mutate_isSome hretry]
    exact hstretch i hi

theorem exists_first_ok {reads : ℕ → RoomRead} (hroom : ∀ j, (reads j).room.isSome = true)
    (hok : ∃ j < updateRoomMaxAttempts, (reads j).execOk = true) :
    ∃ j < updateRoomMaxAttempts, (reads j).execOk = true ∧ Forestalled reads j := by
  classical
  obtain ⟨j,hj,hexec⟩ := hok
  have hfound : ∃ j, (reads j).execOk = true := ⟨j,hexec⟩
  refine ⟨Nat.find hfound,(Nat.find_min' hfound hexec).trans_lt hj,Nat.find_spec hfound,
    fun i hi => ⟨hroom i,?_⟩⟩
  simpa using Nat.find_min hfound hi

theorem findsNoRoom_or_writes {reads : ℕ → RoomRead}
    (hok : ∃ j < updateRoomMaxAttempts, (reads j).execOk = true) :
    FindsNoRoom reads ∨ ∃ j < updateRoomMaxAttempts, (reads j).room.isSome = true ∧
      (reads j).execOk = true ∧ Forestalled reads j := by
  classical
  obtain ⟨j,hj,hexec⟩ := hok
  have hfound : ∃ j, (reads j).room = none ∨ (reads j).execOk = true := ⟨j,Or.inr hexec⟩
  have hlt : Nat.find hfound < updateRoomMaxAttempts :=
    (Nat.find_min' hfound (Or.inr hexec)).trans_lt hj
  have hstretch : Forestalled reads (Nat.find hfound) := by
    intro i hi
    obtain ⟨hroom,hno⟩ := not_or.mp (Nat.find_min hfound hi)
    exact ⟨Option.isSome_iff_ne_none.mpr hroom,by simpa using hno⟩
  cases hroom : (reads (Nat.find hfound)).room with
  | none => exact Or.inl ⟨_,hlt,hroom,hstretch⟩
  | some room =>
    refine Or.inr ⟨_,hlt,by rw [hroom]; rfl,?_,hstretch⟩
    rcases Nat.find_spec hfound with hnone | hexec
    · rw [hroom] at hnone
      cases hnone
    · exact hexec

end Run

end ResolveCommit

open ResolveCommit

/-- Whatever other writers do, a call does what it is for exactly when it does not retry, or the
first write that goes through is on a room that has the item waiting. -/
theorem resolve_commit_sound_iff (c : ResolveCommit) (world : ℕ → ℕ → RoomRead) :
    c.Sound world ↔
      (c.retryUntilPresent = true → ∀ k j, FirstWrite world k j → c.Resolving (world k j)) := by
  constructor
  · intro h hretry k j hfirst
    obtain ⟨next,-,hrun⟩ := run_of_firstWrite hretry hfirst
    obtain ⟨k',j',next',hwrite,hsettles⟩ := h.truthful _ hrun
    obtain ⟨hread,-⟩ := Prod.mk.inj (Option.some.inj hwrite)
    rw [hread]
    exact hsettles.resolving
  · intro h
    constructor
    · intro write hrun
      obtain ⟨k,j,next,rfl,hnext,hok,hfirst⟩ := firstWrite_of_run hrun
      refine ⟨k,j,next,rfl,settles_of_resolving ?_ hok hnext⟩
      cases hretry : c.retryUntilPresent with
      | false => exact resolving_of_once hretry hnext
      | true => exact h hretry k j (hfirst hretry)
    · intro hretry k hk hok hunseen hresolving
      have hroom : ∀ j, (world k j).room.isSome = true := by
        intro j
        obtain ⟨room,item,hroom,-,-⟩ := hresolving j
        rw [hroom]
        rfl
      have hbefore : ∀ k' < k, FindsNoRoom (world k') := by
        intro k' hk'
        induction k' using Nat.strong_induction_on with
        | _ k' ih =>
          rcases findsNoRoom_or_writes (hok k' hk'.le) with hnone | ⟨j,hj,hsome,hexec,hstretch⟩
          · exact hnone
          · -- A write this early would be on a room that has the item, which is not to be seen yet.
            obtain ⟨room,item,hroom,hitem,-⟩ := h hretry k' j
              ⟨hk'.trans hk,hj,fun m hm => ih m hm (hm.trans hk'),hsome,hexec,hstretch⟩
            exact absurd ⟨room,item,hroom,hitem⟩ (hunseen k' hk' j)
      obtain ⟨j,hj,hexec,hstretch⟩ := exists_first_ok hroom (hok k le_rfl)
      obtain ⟨next,hnext,hrun⟩ :=
        run_of_firstWrite hretry ⟨hk,hj,hbefore,hroom j,hexec,hstretch⟩
      exact ⟨j,next,hrun,settles_of_resolving (hresolving j) hexec hnext⟩

def roomWithoutItem : RoomState := createInitialRoomState scenarioEnv {
  now := 1000, roomId := "room", userId := "ann", username := "ann",
  avatarStyle := defaultAvatarStyle, activeConnections := {}, skipDefaultMedia := true,
  newIds := ["seed"] }

/-- A retrying call whose room is not there yet at its first try, and then has the item. -/
theorem resolve_commit_sound_of_late_room :
    ResolveCommit.Sound ⟨scenarioEnv,"item",.failed "no",true⟩ fun k _ =>
      if k = 0 then ⟨none,2000,true⟩
      else ⟨some { roomWithoutItem with
        playlist := [playlistItemFromUrl "item" "https://a/v.mp4" "v" "ann" 1000] },2000,true⟩ := by
  refine (resolve_commit_sound_iff _ _).mpr fun _ k j hfirst => ?_
  obtain ⟨-,-,-,hsome,-,-⟩ := hfirst
  cases k with
  | zero => cases hsome
  | succ k =>
    refine ⟨_,playlistItemFromUrl "item" "https://a/v.mp4" "v" "ann" 1000,rfl,?_,rfl⟩
    decide +kernel

/-- A retrying call that finds the room before its item says that it has settled the item. -/
theorem absent_item_counts_as_settled : ¬∀ (c : ResolveCommit) (world : ℕ → ℕ → RoomRead),
    c.Sound world := by
  intro h
  let c : ResolveCommit := ⟨scenarioEnv,"item",.failed "no",true⟩
  let world : ℕ → ℕ → RoomRead := fun _ _ => ⟨some roomWithoutItem,2000,true⟩
  have hfirst : FirstWrite world 0 0 := by
    refine ⟨by decide,by decide,fun k' hk' => absurd hk' (Nat.not_lt_zero k'),rfl,rfl,?_⟩
    exact fun i hi => absurd hi (Nat.not_lt_zero i)
  obtain ⟨next,-,hrun⟩ := run_of_firstWrite (c := c) rfl hfirst
  obtain ⟨k,j,next',-,room,item,hroom,hitem,-⟩ := (h c world).truthful _ hrun
  obtain rfl := Option.some.inj hroom
  have hempty : findItem roomWithoutItem "item" = none := by decide +kernel
  rw [hempty] at hitem
  cases hitem

end WebSyncPlay
