import WebSyncPlay.RoomSystem
import WebSyncPlay.Library.WatchedStore

/-! Concurrent calls of `updateRoom` (`server/redis/state-store.ts`). A process sends all
commands of all its calls over one connection (`server/redis/client.ts`), and a step is one
command, or one run of a mutate closure. -/
namespace WebSyncPlay

open Library

/-- What a mutate closure does: a state to write, `null`, or an exception. -/
inductive Mutation (V : Type*)
  | write (next : V)
  | decline
  | throw

/-- A call. What its closure reads besides the room (clock, random ids) is an input. -/
structure UpdateCall (π V In : Type*) where
  process : π
  roomId : String
  mutate : In → Option V → Mutation V

inductive CallPhase (V In : Type*)
  | watch (attempt : ℕ)
  | get (attempt : ℕ)
  | mutate (attempt : ℕ) (current : Option V)
  | exec (attempt : ℕ) (current : Option V) (input : In) (next : V)
  | unwatch
  | retry (attempt : ℕ)
  | returned (result : Option V)
  | threw

structure Commit (ι V In : Type*) where
  call : ι
  input : In
  next : V

/-- The store and the calls. Two histories are kept besides: the version of the room that
each call read, and the writes in the order in which they went through. -/
structure UpdateState (π ι V In : Type*) where
  store : WatchedStore π String V
  phase : ι → CallPhase V In
  readAt : ι → ℕ
  log : List (Commit ι V In)

def updateRoomMaxAttempts : ℕ := 12

section System

variable {π ι V In : Type*} [DecidableEq π] [DecidableEq ι]

def UpdateState.setPhase (s : UpdateState π ι V In) (c : ι) (phase : CallPhase V In) :
    UpdateState π ι V In :=
  { s with phase := Function.update s.phase c phase }

/-- One step of one call. The pause before a retry is part of the retry. -/
def stepUpdateRoom (calls : ι → UpdateCall π V In) (s : UpdateState π ι V In) (c : ι) (input : In) :
    Option (UpdateState π ι V In) :=
  let call := calls c
  match s.phase c with
  | .watch attempt =>
    some ({ s with store := s.store.watch call.process call.roomId }.setPhase c (.get attempt))
  | .get attempt =>
    some ({ s with readAt := Function.update s.readAt c (s.store.version call.roomId) }.setPhase c
      (.mutate attempt (s.store.value call.roomId)))
  | .mutate attempt current =>
    match call.mutate input current with
    | .write next => some (s.setPhase c (.exec attempt current input next))
    | .decline => some (s.setPhase c .unwatch)
    | .throw => some (s.setPhase c .threw)
  | .exec attempt _ input next =>
    let result := s.store.exec call.process call.roomId next
    if result.2 then
      some ({ s with
        store := result.1
        log := s.log ++ [Commit.mk c input next] }.setPhase c (.returned (some next)))
    else some ({ s with store := result.1 }.setPhase c (.retry attempt))
  | .unwatch =>
    some ({ s with store := s.store.unwatch call.process }.setPhase c (.returned none))
  | .retry attempt =>
    some ({ s with store := s.store.unwatch call.process }.setPhase c
      (if attempt+1 < updateRoomMaxAttempts then .watch (attempt+1) else .threw))
  | .returned _ => none
  | .threw => none

def updateStart (rooms : String → Option V) : UpdateState π ι V In where
  store := .start rooms
  phase _ := .watch 0
  readAt _ := 0
  log := []

def updateSystem (calls : ι → UpdateCall π V In) (rooms : String → Option V) :
    TransitionSystem (UpdateState π ι V In) (ι × In) where
  init s := s = updateStart rooms
  step s label s' := stepUpdateRoom calls s label.1 label.2 = some s'

/-- A call that sends its EXEC has its lock: its connection has held a mark on the room
since before its GET, or the EXEC fails over another key, or nobody wrote the room since. -/
def holdsLock (calls : ι → UpdateCall π V In) (s : UpdateState π ι V In) (c : ι) : Bool :=
  match s.phase c with
  | .exec .. =>
    ((s.store.marks (calls c).process).any fun m =>
      m.1 == (calls c).roomId && decide (m.2 ≤ s.readAt c)) ||
    s.store.conflict (calls c).process ||
    s.store.version (calls c).roomId == s.readAt c
  | _ => true

/-- The runs in which every EXEC has its lock. -/
def lockedUpdates (calls : ι → UpdateCall π V In) (rooms : String → Option V) :
    TransitionSystem (UpdateState π ι V In) (ι × In) :=
  (updateSystem calls rooms).restrict fun s label => holdsLock calls s label.1 = true

end System

section Knowledge

variable {π ι V In : Type*} {calls : ι → UpdateCall π V In} {rooms : String → Option V}
  {s s' : UpdateState π ι V In} {c : ι}

/-- What `updateRoom` is for: rooms under writes that happen at once, each on what the
write before it left. -/
def atomicUpdates (calls : ι → UpdateCall π V In) (rooms : String → Option V) :
    TransitionSystem ((String → Option V) × List (Commit ι V In)) (Commit ι V In) where
  init t := t = (rooms,[])
  step t commit t' :=
    (calls commit.call).mutate commit.input (t.1 (calls commit.call).roomId) =
        .write commit.next ∧
      t' = (Function.update t.1 (calls commit.call).roomId (some commit.next),t.2 ++ [commit])

def applyCommit (calls : ι → UpdateCall π V In) (stored : Option V) (commit : Commit ι V In) :
    Option V :=
  match (calls commit.call).mutate commit.input stored with
  | .write next => some next
  | _ => stored

def replayRoom (calls : ι → UpdateCall π V In) (rooms : String → Option V)
    (log : List (Commit ι V In)) (roomId : String) : Option V :=
  (log.filter fun commit => (calls commit.call).roomId == roomId).foldl (applyCommit calls)
    (rooms roomId)

theorem replayRoom_of_atomic {t : (String → Option V) × List (Commit ι V In)}
    (h : (atomicUpdates calls rooms).Reachable t)
    (roomId : String) : t.1 roomId = replayRoom calls rooms t.2 roomId := by
  induction h with
  | init h =>
    cases h
    rfl
  | @step t t' commit _ hstep ih =>
    obtain ⟨hwrite,rfl⟩ := hstep
    rw [replayRoom,List.filter_append,List.foldl_append]
    by_cases hroom : (calls commit.call).roomId = roomId
    · subst hroom
      rw [replayRoom] at ih
      rw [List.filter_singleton,beq_self_eq_true,← ih]
      simp only [Bool.cond_true,List.foldl_cons,List.foldl_nil,applyCommit,hwrite,
        Function.update_self]
    · have hother : ((calls commit.call).roomId == roomId) = false := beq_false_of_ne hroom
      rw [replayRoom] at ih
      rw [List.filter_singleton,hother,← ih]
      simp only [Bool.cond_false,List.foldl_nil]
      exact Function.update_of_ne (Ne.symm hroom) _ _

def StoreAdvances (store store' : WatchedStore π String V) : Prop :=
  ∀ roomId, store.version roomId ≤ store'.version roomId ∧
    (store'.version roomId = store.version roomId → store'.value roomId = store.value roomId)

theorem StoreAdvances.of_eq {store store' : WatchedStore π String V}
    (hversion : store'.version = store.version) (hvalue : store'.value = store.value) :
    StoreAdvances store store' := by
  intro roomId
  rw [hversion,hvalue]
  exact ⟨le_rfl,fun _ => rfl⟩

/-- What a call knows of the room: the value it read, as long as the version it read is the
current one, and the result of its closure on that value. -/
def CallOk (calls : ι → UpdateCall π V In) (s : UpdateState π ι V In) (c : ι) : Prop :=
  let room := (calls c).roomId
  let readOk (current : Option V) := s.readAt c ≤ s.store.version room ∧
    (s.store.version room = s.readAt c → s.store.value room = current)
  match s.phase c with
  | .mutate _ current => readOk current
  | .exec _ current input next => readOk current ∧ (calls c).mutate input current = .write next
  | _ => True

theorem CallOk.of_frame (h : CallOk calls s c) (hphase : s'.phase c = s.phase c)
    (hread : s'.readAt c = s.readAt c) (hstore : StoreAdvances s.store s'.store) :
    CallOk calls s' c := by
  obtain ⟨hle,hvalue⟩ := hstore (calls c).roomId
  have hkeeps : ∀ current : Option V,
      (s.readAt c ≤ s.store.version (calls c).roomId ∧
        (s.store.version (calls c).roomId = s.readAt c →
          s.store.value (calls c).roomId = current)) →
      s.readAt c ≤ s'.store.version (calls c).roomId ∧
        (s'.store.version (calls c).roomId = s.readAt c →
          s'.store.value (calls c).roomId = current) := by
    rintro current ⟨hlow,hsame⟩
    refine ⟨hlow.trans hle,fun heq => ?_⟩
    have hversion : s'.store.version (calls c).roomId = s.store.version (calls c).roomId := by
      omega
    rw [hvalue hversion]
    exact hsame (hversion.symm.trans heq)
  unfold CallOk at h ⊢
  rw [hphase,hread]
  dsimp only at h ⊢
  split at h
  · exact hkeeps _ h
  · exact ⟨hkeeps _ h.1,h.2⟩
  · trivial

/-- Every call is in order; the rooms are as atomic writes leave them; the writes are those
of the calls that returned a state, one for each. -/
structure UpdateInv (calls : ι → UpdateCall π V In) (rooms : String → Option V)
    (s : UpdateState π ι V In) : Prop where
  callOk : ∀ c, CallOk calls s c
  atomic : (atomicUpdates calls rooms).Reachable (s.store.value,s.log)
  nodup : (s.log.map (·.call)).Nodup
  returned : ∀ c next, s.phase c = .returned (some next) ↔ ∃ read, Commit.mk c read next ∈ s.log

/-- An EXEC that goes through with its lock finds the value that the call read. -/
theorem current_of_lock (hok : CallOk calls s c) {attempt : ℕ} {current : Option V} {read : In}
    {next : V} (hphase : s.phase c = .exec attempt current read next)
    (hlock : holdsLock calls s c = true) (hfree : s.store.conflict (calls c).process = false) :
    (calls c).mutate read (s.store.value (calls c).roomId) = .write next := by
  unfold CallOk at hok
  rw [hphase] at hok
  obtain ⟨⟨hle,hvalue⟩,hwrite⟩ := hok
  have hversion : s.store.version (calls c).roomId = s.readAt c := by
    unfold holdsLock at hlock
    rw [hphase,hfree] at hlock
    simp only [Bool.or_false,Bool.or_eq_true,beq_iff_eq] at hlock
    rcases hlock with hmark | hversion
    · obtain ⟨m,hm,hfacts⟩ := List.any_eq_true.mp hmark
      simp only [Bool.and_eq_true,beq_iff_eq,decide_eq_true_eq] at hfacts
      obtain ⟨hroom,hold⟩ := hfacts
      have hmark : ((calls c).roomId,m.2) ∈ s.store.marks (calls c).process := by
        rw [← hroom]
        exact hm
      have := WatchedStore.version_of_no_conflict hfree hmark
      omega
    · exact hversion
  rw [hvalue hversion]
  exact hwrite

theorem updateInv_start : UpdateInv calls rooms (updateStart rooms) where
  callOk _ := trivial
  atomic := .init rfl
  nodup := List.nodup_nil
  returned c next := ⟨fun h => (by cases h),fun ⟨read,h⟩ => (by cases h)⟩

/-- Not begun, or over. -/
def CallPhase.resting : CallPhase V In → Prop
  | .watch attempt => attempt = 0
  | .returned _ => True
  | .threw => True
  | _ => False

def Marked (calls : ι → UpdateCall π V In) (s : UpdateState π ι V In) (c : ι) : Prop :=
  match s.phase c with
  | .get _ => ∃ v, ((calls c).roomId,v) ∈ s.store.marks (calls c).process
  | .mutate .. => ∃ v ≤ s.readAt c, ((calls c).roomId,v) ∈ s.store.marks (calls c).process
  | .exec .. => ∃ v ≤ s.readAt c, ((calls c).roomId,v) ∈ s.store.marks (calls c).process
  | _ => True

theorem marked_of_resting (h : (s.phase c).resting) : Marked calls s c := by
  unfold Marked
  cases hphase : s.phase c with
  | get | mutate | exec =>
    rw [hphase] at h
    exact h.elim
  | _ => trivial

end Knowledge

section Steps

variable {π ι V In : Type*} [DecidableEq π] [DecidableEq ι] {calls : ι → UpdateCall π V In}
  {rooms : String → Option V} {s s' : UpdateState π ι V In} {c : ι} {input : In}

inductive UpdateStep (calls : ι → UpdateCall π V In) (s : UpdateState π ι V In) (c : ι)
    (input : In) : UpdateState π ι V In → Prop
  | watch (attempt : ℕ) (hphase : s.phase c = .watch attempt) :
    UpdateStep calls s c input
      ({ s with store := s.store.watch (calls c).process (calls c).roomId }.setPhase c
        (.get attempt))
  | get (attempt : ℕ) (hphase : s.phase c = .get attempt) :
    UpdateStep calls s c input
      ({ s with
        readAt := Function.update s.readAt c (s.store.version (calls c).roomId) }.setPhase c
        (.mutate attempt (s.store.value (calls c).roomId)))
  | write (attempt : ℕ) (current : Option V) (next : V) (hphase : s.phase c = .mutate attempt current)
    (hwrite : (calls c).mutate input current = .write next) :
    UpdateStep calls s c input (s.setPhase c (.exec attempt current input next))
  | decline (attempt : ℕ) (current : Option V) (hphase : s.phase c = .mutate attempt current) :
    UpdateStep calls s c input (s.setPhase c .unwatch)
  | throw (attempt : ℕ) (current : Option V) (hphase : s.phase c = .mutate attempt current) :
    UpdateStep calls s c input (s.setPhase c .threw)
  | commit (attempt : ℕ) (current : Option V) (read : In) (next : V)
    (hphase : s.phase c = .exec attempt current read next)
    (hfree : s.store.conflict (calls c).process = false) :
    UpdateStep calls s c input
      ({ s with
        store := (s.store.exec (calls c).process (calls c).roomId next).1
        log := s.log ++ [Commit.mk c read next] }.setPhase c (.returned (some next)))
  | conflict (attempt : ℕ) (current : Option V) (read : In) (next : V)
    (hphase : s.phase c = .exec attempt current read next)
    (hconflict : s.store.conflict (calls c).process = true) :
    UpdateStep calls s c input
      ({ s with
        store := (s.store.exec (calls c).process (calls c).roomId next).1 }.setPhase c
        (.retry attempt))
  | unwatch (hphase : s.phase c = .unwatch) :
    UpdateStep calls s c input
      ({ s with store := s.store.unwatch (calls c).process }.setPhase c (.returned none))
  | retry (attempt : ℕ) (hphase : s.phase c = .retry attempt) :
    UpdateStep calls s c input
      ({ s with store := s.store.unwatch (calls c).process }.setPhase c
        (if attempt+1 < updateRoomMaxAttempts then .watch (attempt+1) else .threw))

theorem updateStep_of_eq (h : stepUpdateRoom calls s c input = some s') :
    UpdateStep calls s c input s' := by
  unfold stepUpdateRoom at h
  dsimp only at h
  split at h
  · rename_i attempt hphase
    cases h
    exact .watch attempt hphase
  · rename_i attempt hphase
    cases h
    exact .get attempt hphase
  · rename_i attempt current hphase
    split at h
    · rename_i next hwrite
      cases h
      exact .write attempt current next hphase hwrite
    · cases h
      exact .decline attempt current hphase
    · cases h
      exact .throw attempt current hphase
  · rename_i attempt current read next hphase
    cases hc : s.store.conflict (calls c).process with
    | true =>
      have hresult := congrArg Prod.snd
        (s.store.exec_of_conflict (calls c).process (calls c).roomId next hc)
      simp only [hresult,Bool.false_eq_true,if_false] at h
      cases h
      exact .conflict attempt current read next hphase hc
    | false =>
      have hresult := congrArg Prod.snd
        (s.store.exec_of_no_conflict (calls c).process (calls c).roomId next hc)
      simp only [hresult,if_true] at h
      cases h
      exact .commit attempt current read next hphase hc
  · rename_i hphase
    cases h
    exact .unwatch hphase
  · rename_i attempt hphase
    cases h
    exact .retry attempt hphase
  · cases h
  · cases h

theorem UpdateStep.advances (h : UpdateStep calls s c input s') :
    StoreAdvances s.store s'.store := by
  cases h with
  | watch => exact .of_eq (s.store.watch_version _ _) (s.store.watch_value _ _)
  | commit => exact fun roomId =>
      ⟨WatchedStore.version_le_exec roomId,WatchedStore.value_of_version_exec roomId⟩
  | conflict => exact fun roomId =>
      ⟨WatchedStore.version_le_exec roomId,WatchedStore.value_of_version_exec roomId⟩
  | _ => exact .of_eq rfl rfl

theorem UpdateStep.other (h : UpdateStep calls s c input s') {d : ι} (hd : d ≠ c) :
    s'.phase d = s.phase d ∧ s'.readAt d = s.readAt d := by
  cases h with
  | get => exact ⟨Function.update_of_ne hd _ _,Function.update_of_ne hd _ _⟩
  | _ => exact ⟨Function.update_of_ne hd _ _,rfl⟩

theorem UpdateStep.log_cases (h : UpdateStep calls s c input s') :
    (s'.log = s.log ∧ ∀ next, s'.phase c ≠ .returned (some next)) ∨
    ∃ read next, s'.log = s.log ++ [Commit.mk c read next] ∧
      s'.phase c = .returned (some next) := by
  cases h with
  | commit _ _ read next => exact Or.inr ⟨read,next,rfl,Function.update_self _ _ _⟩
  | retry attempt =>
    refine Or.inl ⟨rfl,fun next heq => ?_⟩
    simp only [UpdateState.setPhase,Function.update_self] at heq
    split at heq <;> cases heq
  | _ =>
    refine Or.inl ⟨rfl,fun next heq => ?_⟩
    simp only [UpdateState.setPhase,Function.update_self] at heq
    cases heq

theorem not_returned (h : stepUpdateRoom calls s c input = some s') (result : Option V) :
    s.phase c ≠ .returned result := by
  intro hphase
  rw [stepUpdateRoom,hphase] at h
  cases h

theorem UpdateStep.callOk (h : UpdateStep calls s c input s') (hok : CallOk calls s c) :
    CallOk calls s' c := by
  unfold CallOk at hok ⊢
  cases h with
  | get attempt =>
    simp only [UpdateState.setPhase,Function.update_self]
    exact ⟨le_rfl,fun _ => trivial⟩
  | write attempt current next hphase hwrite =>
    rw [hphase] at hok
    simp only [UpdateState.setPhase,Function.update_self]
    exact ⟨hok,hwrite⟩
  | retry attempt =>
    simp only [UpdateState.setPhase,Function.update_self]
    split
    · rename_i heq
      split at heq <;> cases heq
    · rename_i heq
      split at heq <;> cases heq
    · trivial
  | _ =>
    simp only [UpdateState.setPhase,Function.update_self]

theorem UpdateInv.step (h : UpdateInv calls rooms s) (hlock : holdsLock calls s c = true)
    (hstep : stepUpdateRoom calls s c input = some s') : UpdateInv calls rooms s' := by
  have hs := updateStep_of_eq hstep
  have hcalls : ∀ d, CallOk calls s' d := by
    intro d
    by_cases hd : d = c
    · subst hd
      exact hs.callOk (h.callOk d)
    · obtain ⟨hphase,hread⟩ := hs.other hd
      exact (h.callOk d).of_frame hphase hread hs.advances
  have hnew : ∀ next read, Commit.mk c read next ∉ s.log := fun next read hmem =>
    not_returned hstep (some next) ((h.returned c next).mpr ⟨read,hmem⟩)
  rcases hs.log_cases with ⟨hlog,hrunning⟩ | ⟨read,next,hlog,hdone⟩
  · have hvalue : s'.store.value = s.store.value := by
      cases hs with
      | watch => exact s.store.watch_value _ _
      | commit _ _ read next =>
        exact absurd (Function.update_self _ _ _) (hrunning next)
      | conflict _ _ _ next _ hconflict =>
        exact congrArg (fun r => r.1.value)
          (s.store.exec_of_conflict (calls c).process (calls c).roomId next hconflict)
      | _ => rfl
    refine ⟨hcalls,?_,?_,fun d next => ?_⟩
    · rw [hvalue,hlog]
      exact h.atomic
    · rw [hlog]
      exact h.nodup
    · rw [hlog]
      by_cases hd : d = c
      · subst hd
        refine ⟨fun heq => absurd heq (hrunning next),?_⟩
        rintro ⟨read,hmem⟩
        exact absurd hmem (hnew next read)
      · rw [(hs.other hd).1]
        exact h.returned d next
  · have hcommit : (atomicUpdates calls rooms).step (s.store.value,s.log) (Commit.mk c read next)
        (s'.store.value,s'.log) := by
      cases hs with
      | commit attempt current read' next' hphase hfree =>
        have hsame : Commit.mk c read' next' = Commit.mk c read next :=
          List.singleton_inj.mp (List.append_cancel_left hlog)
        cases hsame
        refine ⟨current_of_lock (h.callOk c) hphase hlock hfree,?_⟩
        have hexec := s.store.exec_of_no_conflict (calls c).process (calls c).roomId next hfree
        exact congrArg (fun r => (r.1.value,s.log ++ [Commit.mk c read next])) hexec
      | _ =>
        have hlength := congrArg List.length hlog
        rw [List.length_append,List.length_singleton] at hlength
        exact absurd hlength (Nat.ne_add_one _)
    refine ⟨hcalls,.step h.atomic hcommit,?_,fun d found => ?_⟩
    · rw [hlog,List.map_append,List.nodup_append]
      refine ⟨h.nodup,List.nodup_singleton _,?_⟩
      intro a ha b hb
      obtain ⟨commit,hmem,rfl⟩ := List.mem_map.mp ha
      rw [List.map_singleton,List.mem_singleton] at hb
      rintro rfl
      have hcall : commit.call = c := hb
      exact hnew commit.next commit.input (by rw [← hcall]; exact hmem)
    · rw [hlog]
      simp only [List.mem_append,List.mem_singleton,Commit.mk.injEq]
      by_cases hd : d = c
      · subst hd
        rw [hdone]
        constructor
        · intro heq
          cases heq
          exact ⟨read,Or.inr ⟨rfl,rfl,rfl⟩⟩
        · rintro ⟨read',hmem | ⟨-,-,rfl⟩⟩
          · exact absurd hmem (hnew found read')
          · rfl
      · rw [(hs.other hd).1,h.returned d found]
        constructor
        · rintro ⟨read',hmem⟩
          exact ⟨read',Or.inl hmem⟩
        · rintro ⟨read',hmem | ⟨hcall,-⟩⟩
          · exact ⟨read',hmem⟩
          · exact absurd hcall hd

theorem updateInv_of_locked (h : (lockedUpdates calls rooms).Reachable s) :
    UpdateInv calls rooms s := by
  apply h.invariant (UpdateInv calls rooms)
  · rintro s rfl
    exact updateInv_start
  · rintro s ⟨c,input⟩ s' - hi ⟨hlock,hstep⟩
    exact hi.step hlock hstep

/-- In every run in which each EXEC has its lock, every room holds what the closures of the
calls that returned a state give, one after another in commit order, each applied to what
the one before it left. -/
theorem update_room_linearizable {π ι V In : Type*} [DecidableEq π] [DecidableEq ι]
    {calls : ι → UpdateCall π V In} {rooms : String → Option V} {s : UpdateState π ι V In}
    (h : (lockedUpdates calls rooms).Reachable s) :
    (∀ roomId, s.store.value roomId = replayRoom calls rooms s.log roomId) ∧
      (atomicUpdates calls rooms).Reachable (s.store.value,s.log) ∧
      (s.log.map (·.call)).Nodup ∧
      ∀ c next, s.phase c = .returned (some next) ↔ ∃ input, Commit.mk c input next ∈ s.log := by
  have hinv := updateInv_of_locked h
  exact ⟨replayRoom_of_atomic hinv.atomic,hinv.atomic,hinv.nodup,hinv.returned⟩

end Steps

section Exclusive

variable {π ι V In : Type*} [DecidableEq π] [DecidableEq ι] {calls : ι → UpdateCall π V In}
  {rooms : String → Option V} {s s' : UpdateState π ι V In} {c : ι} {input : In}

/-- The runs in which no two calls of a process overlap, as if each had a connection of
its own. -/
def exclusiveUpdates (calls : ι → UpdateCall π V In) (rooms : String → Option V) :
    TransitionSystem (UpdateState π ι V In) (ι × In) :=
  (updateSystem calls rooms).restrict fun s label =>
    ∀ d ≠ label.1, (calls d).process = (calls label.1).process → (s.phase d).resting

theorem UpdateStep.marks_other (h : UpdateStep calls s c input s') {q : π}
    (hq : q ≠ (calls c).process) : s'.store.marks q = s.store.marks q := by
  cases h with
  | watch => exact s.store.watch_marks_other _ _ hq
  | commit | conflict =>
    simp only [UpdateState.setPhase,WatchedStore.exec_marks]
    exact Function.update_of_ne hq _ _
  | unwatch | retry => exact Function.update_of_ne hq _ _
  | _ => rfl

theorem UpdateStep.marksSound (h : UpdateStep calls s c input s') (hsound : s.store.MarksSound) :
    s'.store.MarksSound := by
  cases h with
  | watch => exact hsound.watch _ _
  | commit | conflict => exact hsound.exec _ _ _
  | unwatch | retry => exact hsound.unwatch _
  | _ => exact hsound

theorem UpdateStep.marked (h : UpdateStep calls s c input s') (hsound : s.store.MarksSound)
    (hmarked : Marked calls s c) : Marked calls s' c := by
  unfold Marked at hmarked ⊢
  cases h with
  | watch =>
    simp only [UpdateState.setPhase,Function.update_self]
    exact s.store.exists_watch_mark _ _
  | get attempt hphase =>
    rw [hphase] at hmarked
    obtain ⟨v,hv⟩ := hmarked
    simp only [UpdateState.setPhase,Function.update_self]
    exact ⟨v,hsound _ _ hv,hv⟩
  | write attempt current next hphase =>
    rw [hphase] at hmarked
    simp only [UpdateState.setPhase,Function.update_self]
    exact hmarked
  | retry attempt =>
    simp only [UpdateState.setPhase,Function.update_self]
    split
    all_goals first
      | trivial
      | (rename_i heq; split at heq <;> cases heq)
  | _ => simp only [UpdateState.setPhase,Function.update_self]

/-- Without overlap on a connection, every EXEC has its lock. -/
theorem locked_of_exclusive (h : (exclusiveUpdates calls rooms).Reachable s) :
    (lockedUpdates calls rooms).Reachable s ∧ s.store.MarksSound ∧ ∀ c, Marked calls s c := by
  induction h with
  | init h =>
    cases h
    exact ⟨.init rfl,WatchedStore.marksSound_start _,fun _ => trivial⟩
  | @step s s' label _ hstep ih =>
    obtain ⟨c,input⟩ := label
    obtain ⟨hr,hsound,hmarked⟩ := ih
    obtain ⟨hexclusive,hstep⟩ := hstep
    have hs := updateStep_of_eq hstep
    have hlock : holdsLock calls s c = true := by
      have hmark := hmarked c
      unfold Marked at hmark
      unfold holdsLock
      cases hphase : s.phase c with
      | exec =>
        rw [hphase] at hmark
        obtain ⟨v,hv,hm⟩ := hmark
        have hany : ((s.store.marks (calls c).process).any fun m =>
            m.1 == (calls c).roomId && decide (m.2 ≤ s.readAt c)) = true := by
          refine List.any_eq_true.mpr ⟨_,hm,?_⟩
          rw [beq_self_eq_true,Bool.true_and]
          exact decide_eq_true hv
        simp only [hany,Bool.true_or]
      | _ => rfl
    refine ⟨.step (a := (c,input)) hr ⟨hlock,hstep⟩,hs.marksSound hsound,fun d => ?_⟩
    by_cases hd : d = c
    · subst hd
      exact hs.marked hsound (hmarked d)
    · obtain ⟨hphase,hread⟩ := hs.other hd
      by_cases hprocess : (calls d).process = (calls c).process
      · refine marked_of_resting ?_
        rw [hphase]
        exact hexclusive d hd hprocess
      · have hm := hmarked d
        unfold Marked at hm ⊢
        rw [hphase,hread,hs.marks_other hprocess]
        exact hm

end Exclusive

section Rooms

/-- The closure of a room operation. Its random ids are new to the room. -/
def roomMutate (env : Env) (op : RoomOp) (current : Option RoomState) : Mutation RoomState :=
  if op.Fresh current then
    match op.commit env current with
    | some next => .write next
    | none => .decline
  else .decline

theorem roomMutate_eq_write {env : Env} {op : RoomOp} {current : Option RoomState}
    {next : RoomState} (h : roomMutate env op current = .write next) :
    op.Fresh current ∧ op.commit env current = some next := by
  unfold roomMutate at h
  split at h
  · rename_i hfresh
    split at h
    · rename_i found hcommit
      cases h
      exact ⟨hfresh,hcommit⟩
    · cases h
  · cases h

/-- Locked calls of `updateRoom` run each room as the room system does. -/
theorem room_reachable_of_locked {π ι : Type*} [DecidableEq π] [DecidableEq ι] {env : Env}
    {calls : ι → UpdateCall π RoomState RoomOp} (hcalls : ∀ c, (calls c).mutate = roomMutate env)
    {s : UpdateState π ι RoomState RoomOp} (h : (lockedUpdates calls fun _ => none).Reachable s)
    (roomId : String) : (roomSystem env).Reachable (s.store.value roomId) := by
  have hatomic := (updateInv_of_locked h).atomic
  apply hatomic.invariant fun t => (roomSystem env).Reachable (t.1 roomId)
  · rintro t rfl
    exact .init rfl
  · rintro t commit t' - ih ⟨hwrite,rfl⟩
    rw [hcalls] at hwrite
    obtain ⟨hfresh,hcommit⟩ := roomMutate_eq_write hwrite
    dsimp only
    by_cases hroom : roomId = (calls commit.call).roomId
    · subst hroom
      rw [Function.update_self]
      exact .step (a := .write commit.input) ih ⟨hfresh,commit.next,hcommit,rfl⟩
    · rw [Function.update_of_ne hroom]
      exact ih

/-- Calls of room operations, of which no two of a process overlap, always hold their locks, and
every room is a state of the room system, as those of the calls leave it that returned a state. -/
theorem exclusive_updates_run_rooms {π ι : Type*} [DecidableEq π] [DecidableEq ι] {env : Env}
    {calls : ι → UpdateCall π RoomState RoomOp} (hcalls : ∀ c, (calls c).mutate = roomMutate env)
    {s : UpdateState π ι RoomState RoomOp}
    (h : (exclusiveUpdates calls fun _ => none).Reachable s) :
    (lockedUpdates calls fun _ => none).Reachable s ∧
    (∀ roomId, (roomSystem env).Reachable (s.store.value roomId) ∧
      s.store.value roomId = replayRoom calls (fun _ => none) s.log roomId) ∧
    ∀ c next, s.phase c = .returned (some next) ↔ ∃ input, Commit.mk c input next ∈ s.log := by
  obtain ⟨hlocked,-,-⟩ := locked_of_exclusive h
  have hinv := updateInv_of_locked hlocked
  exact ⟨hlocked,fun roomId => ⟨room_reachable_of_locked hcalls hlocked roomId,
    replayRoom_of_atomic hinv.atomic roomId⟩,hinv.returned⟩

end Rooms

section Scenario

variable {π ι V In : Type*} [DecidableEq π] [DecidableEq ι]

/-- Carry out steps one after another; `none` when a call has no step left or an EXEC fails
the test. -/
def runUpdates (calls : ι → UpdateCall π V In) (test : UpdateState π ι V In → ι → Bool) :
    List (ι × In) → UpdateState π ι V In → Option (UpdateState π ι V In)
  | [],s => some s
  | (c,input)::steps,s =>
    if test s c then (stepUpdateRoom calls s c input).bind (runUpdates calls test steps) else none

theorem reachable_of_runUpdates {calls : ι → UpdateCall π V In} {rooms : String → Option V}
    {test : UpdateState π ι V In → ι → Bool} (steps : List (ι × In)) {s s' : UpdateState π ι V In}
    (hr : ((updateSystem calls rooms).restrict fun s label => test s label.1 = true).Reachable s)
    (h : runUpdates calls test steps s = some s') :
    ((updateSystem calls rooms).restrict fun s label => test s label.1 = true).Reachable s' := by
  induction steps generalizing s with
  | nil =>
    cases h
    exact hr
  | cons step steps ih =>
    obtain ⟨c,input⟩ := step
    unfold runUpdates at h
    split at h
    · rename_i htest
      obtain ⟨mid,hmid,hrest⟩ := Option.bind_eq_some_iff.mp h
      exact ih (.step (a := (c,input)) hr ⟨htest,hmid⟩) hrest
    · cases h

def joinCall {π : Type*} (process : π) (userId : UserId) (now : ℕ) : UpdateCall π RoomState Unit where
  process := process
  roomId := "room"
  mutate _ current :=
    match (joinAs userId now {}).commit scenarioEnv current with
    | some next => .write next
    | none => .decline

def twoJoins {π : Type*} (process : Bool → π) (c : Bool) : UpdateCall π RoomState Unit :=
  if c then joinCall (process true) "ann" 1000 else joinCall (process false) "bob" 2000

theorem update_room_linearizable_of_two_processes :
    ∃ s : UpdateState Bool Bool RoomState Unit,
      (lockedUpdates (twoJoins id) fun _ => none).Reachable s ∧
      (s.store.value "room").map (·.participants.keys) = some ["ann","bob"] ∧
      s.store.value "room" = replayRoom (twoJoins id) (fun _ => none) s.log "room" := by
  -- Both read the absent room; the second EXEC conflicts and its call starts over.
  let steps : List (Bool × Unit) :=
    [true,true,false,false,true,true,false,false,false,false,false,false,false].map (·,())
  have hrun : ((runUpdates (twoJoins id) (holdsLock (twoJoins id)) steps
      (updateStart fun _ => none)).any fun s =>
        (s.store.value "room").map (·.participants.keys) == some ["ann","bob"]) = true := by
    decide +kernel
  obtain ⟨s,hs,hkeys⟩ := (Option.any_eq_true _ _).mp hrun
  have hr : (lockedUpdates (twoJoins id) fun _ => none).Reachable s :=
    reachable_of_runUpdates steps (.init rfl) hs
  exact ⟨s,hr,beq_iff_eq.mp hkeys,(update_room_linearizable hr).1 "room"⟩

def roomCalls (process : Bool) : UpdateCall Bool RoomState RoomOp where
  process := process
  roomId := "room"
  mutate := roomMutate scenarioEnv

/-- The same two joins as room operations; the calls overlap, on two connections. -/
theorem exclusive_updates_run_rooms_of_two_joins : ∃ s : UpdateState Bool Bool RoomState RoomOp,
    (exclusiveUpdates roomCalls fun _ => none).Reachable s ∧
      (s.store.value "room").map (·.participants.keys) = some ["ann","bob"] ∧
      (roomSystem scenarioEnv).Reachable (s.store.value "room") := by
  let ann : Bool × RoomOp := (true,joinAs "ann" 1000 {"ann"})
  let bob : Bool × RoomOp := (false,joinAs "bob" 2000 {"ann","bob"})
  let steps : List (Bool × RoomOp) := [ann,ann,bob,bob,ann,ann,bob,bob,bob,bob,bob,bob,bob]
  have hrun : ((runUpdates roomCalls (fun _ _ => true) steps (updateStart fun _ => none)).any
      fun s => (s.store.value "room").map (·.participants.keys) == some ["ann","bob"]) = true := by
    decide +kernel
  obtain ⟨s,hs,hkeys⟩ := (Option.any_eq_true _ _).mp hrun
  have hr : (updateSystem roomCalls fun _ => none).Reachable s :=
    .of_restrict (reachable_of_runUpdates steps (.init rfl) hs)
  have hexclusive : (exclusiveUpdates roomCalls fun _ => none).Reachable s :=
    hr.to_restrict fun _ _ _ hd hprocess => absurd hprocess hd
  exact ⟨s,hexclusive,beq_iff_eq.mp hkeys,
    ((exclusive_updates_run_rooms (fun _ => rfl) hexclusive).2.1 "room").1⟩

/-- Two calls on one connection: the first EXEC drops the mark of both, and the second one
writes over it. -/
theorem update_room_loses_join : ¬∀ (calls : Bool → UpdateCall Unit RoomState Unit)
    (s : UpdateState Unit Bool RoomState Unit), (updateSystem calls fun _ => none).Reachable s →
    ∀ roomId, s.store.value roomId = replayRoom calls (fun _ => none) s.log roomId := by
  intro h
  let calls : Bool → UpdateCall Unit RoomState Unit := twoJoins fun _ => ()
  let steps : List (Bool × Unit) := [true,true,false,false,true,true,false,false].map (·,())
  have hrun : ((runUpdates calls (fun _ _ => true) steps (updateStart fun _ => none)).any fun s =>
        (s.store.value "room").map (·.participants.keys) !=
          (replayRoom calls (fun _ => none) s.log "room").map (·.participants.keys)) = true := by
    decide +kernel
  obtain ⟨s,hs,hkeys⟩ := (Option.any_eq_true _ _).mp hrun
  have hr : (updateSystem calls fun _ => none).Reachable s :=
    .of_restrict (reachable_of_runUpdates steps (.init rfl) hs)
  have hsame := h calls s hr "room"
  rw [hsame] at hkeys
  exact bne_iff_ne.mp hkeys rfl

end Scenario

end WebSyncPlay
