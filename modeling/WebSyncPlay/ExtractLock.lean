import WebSyncPlay.Library.Lease
import WebSyncPlay.Library.TransitionSystem

/-! The extract lock of one URL hash: any number of calls of `withYtDlpExtractLock` in any
number of processes, one command or answer at a time. -/
namespace WebSyncPlay

open Library

/-- Short lock TTL renewed by a heartbeat while yt-dlp runs. -/
def derivedLockHeartbeatTtlSeconds (timeoutMs : ℕ) : ℕ :=
  max 10 (min 30 ((timeoutMs+1999)/2000+5))

def derivedExtractFailoverWaitMs (timeoutMs : ℕ) : ℕ := timeoutMs*2+15000

/-- Where a call stands; what it waits for. -/
inductive ExtractPhase
  | idle
  | opening
  | looping
  | reading
  | acquiring (token : String)
  | checking (token : String)
  | working (token : String)
  | releasing (token : String)
  | lastReading
  | localReading
  | localWaiting (owner : ℕ)
  | localWorking
  | orphaned (token : String)
  | ended
  deriving DecidableEq

namespace ExtractPhase

def runsWork : ExtractPhase → Bool
  | working _ => true
  | localWorking => true
  | _ => false

/-- The token of a call whose lock command may still reach the store, or has reached it. -/
def token? : ExtractPhase → Option String
  | acquiring token => some token
  | checking token => some token
  | working token => some token
  | releasing token => some token
  | orphaned token => some token
  | _ => none

/-- The token of a call that has the lock and has not finished its work. -/
def holder? : ExtractPhase → Option String
  | checking token => some token
  | working token => some token
  | _ => none

/-- On the path that does without the clustered lock. -/
def isLocal : ExtractPhase → Bool
  | localReading => true
  | localWaiting _ => true
  | localWorking => true
  | _ => false

/-- What a dead process leaves behind: commands that were sent. -/
def crashed : ExtractPhase → ExtractPhase
  | acquiring token => orphaned token
  | orphaned token => orphaned token
  | releasing token => releasing token
  | _ => ended

end ExtractPhase

structure ExtractCall where
  process : ℕ := 0
  deadlineMs : ℕ := 0
  phase : ExtractPhase := .idle

structure ExtractState where
  nowMs : ℕ
  lock : Option (Lease String)
  issued : List String
  /-- Renewals on their way to the store. -/
  renewals : List String
  localInflight : ℕ → Option ℕ
  calls : ℕ → ExtractCall

namespace ExtractState

def setPhase (s : ExtractState) (n : ℕ) (phase : ExtractPhase) : ExtractState :=
  { s with calls := Function.update s.calls n { s.calls n with phase := phase } }

def idle : ExtractState where
  nowMs := 0
  lock := none
  issued := []
  renewals := []
  localInflight _ := none
  calls _ := {}

end ExtractState

inductive ExtractStep
  | call (n process nowMs : ℕ)
  /-- `defaultLockStore` has a client, or throws. -/
  | openStore (n : ℕ) (available : Bool)
  /-- The loop's condition, with the process's own clock. -/
  | test (n nowMs : ℕ)
  /-- `readReady` answers; a call that goes on to acquire draws a random token. -/
  | read (n : ℕ) (found : Bool) (token : String)
  | acquire (n : ℕ) (answered : Bool)
  | heartbeat (n : ℕ)
  | renew (i : ℕ) (delivered : Bool)
  | workEnds (n : ℕ)
  | release (n : ℕ) (delivered : Bool)
  | crash (process : ℕ)
  | tick (ms : ℕ)

section Step

variable (timeoutMs : ℕ)

def lockTtlMs : ℕ := derivedLockHeartbeatTtlSeconds timeoutMs*1000

/-- `withLocalExtractSingleFlight` of a call that found nothing ready. -/
def joinLocalFlight (s : ExtractState) (n : ℕ) : ExtractState :=
  match s.localInflight (s.calls n).process with
  | some owner => s.setPhase n (.localWaiting owner)
  | none =>
    { s.setPhase n .localWorking with
      localInflight := Function.update s.localInflight (s.calls n).process (some n) }

def answerRead (s : ExtractState) (n : ℕ) (found : Bool) (token : String) : Option ExtractState :=
  match (s.calls n).phase with
  | .reading =>
    if found then some (s.setPhase n .ended)
    else if token ∈ s.issued then none
    else some { s.setPhase n (.acquiring token) with issued := token :: s.issued }
  | .checking held =>
    some (s.setPhase n (if found then .releasing held else .working held))
  | .lastReading => some (s.setPhase n .ended)
  | .localReading => some (if found then s.setPhase n .ended else joinLocalFlight s n)
  | _ => none

/-- `SET NX EX` reaches the store. -/
def answerAcquire (s : ExtractState) (n : ℕ) (answered : Bool) : Option ExtractState :=
  match (s.calls n).phase with
  | .acquiring token =>
    if answered then
      match Lease.acquire s.nowMs (lockTtlMs timeoutMs) token s.lock with
      | some lease => some { s.setPhase n (.checking token) with lock := some lease }
      | none => some (s.setPhase n .looping)
    else some (s.setPhase n .localReading)
  | .orphaned token =>
    match Lease.acquire s.nowMs (lockTtlMs timeoutMs) token s.lock with
    | some lease => some { s.setPhase n .ended with lock := some lease }
    | none => some (s.setPhase n .ended)
  | _ => none

def endWork (s : ExtractState) (n : ℕ) : Option ExtractState :=
  match (s.calls n).phase with
  | .working token => some (s.setPhase n (.releasing token))
  | .localWorking =>
    some (if s.localInflight (s.calls n).process = some n then
      { s.setPhase n .ended with
        localInflight := Function.update s.localInflight (s.calls n).process none }
    else s.setPhase n .ended)
  | .localWaiting owner =>
    if (s.calls owner).phase = .localWorking then none else some (s.setPhase n .ended)
  | _ => none

def extractStep (s : ExtractState) : ExtractStep → Option ExtractState
  | .call n process nowMs =>
    if (s.calls n).phase = .idle then
      some { s with
        calls := Function.update s.calls n
          ⟨process,nowMs+derivedExtractFailoverWaitMs timeoutMs,.opening⟩ }
    else none
  | .openStore n available =>
    if (s.calls n).phase = .opening then
      some (s.setPhase n (if available then .looping else .localReading))
    else none
  | .test n nowMs =>
    if (s.calls n).phase = .looping then
      some (s.setPhase n (if nowMs < (s.calls n).deadlineMs then .reading else .lastReading))
    else none
  | .read n found token => answerRead s n found token
  | .acquire n answered => answerAcquire timeoutMs s n answered
  | .heartbeat n =>
    (s.calls n).phase.holder?.map fun token => { s with renewals := token :: s.renewals }
  | .renew i delivered =>
    s.renewals[i]?.map fun token =>
      { s with
        renewals := s.renewals.eraseIdx i
        lock := if delivered then Lease.renew s.nowMs (lockTtlMs timeoutMs) token s.lock
          else s.lock }
  | .workEnds n => endWork s n
  | .release n delivered =>
    match (s.calls n).phase with
    | .releasing token =>
      some { s.setPhase n .ended with
        lock := if delivered then Lease.release s.nowMs token s.lock else s.lock }
    | _ => none
  | .crash process =>
    some { s with
      localInflight := Function.update s.localInflight process none
      calls := fun n => if (s.calls n).process = process then
        { s.calls n with phase := (s.calls n).phase.crashed } else s.calls n }
  | .tick ms => some { s with nowMs := s.nowMs+ms }

def extractSystem : TransitionSystem ExtractState ExtractStep where
  init s := s = .idle
  step s a s' := extractStep timeoutMs s a = some s'

end Step

/-- The store answers, as opposed to single renewals or releases that get lost. -/
def storeWorks : ExtractStep → Bool
  | .openStore _ available => available
  | .acquire _ answered => answered
  | _ => true

/-- The stored lease has not lapsed under a caller that is not done. -/
def LeaseAlive (s : ExtractState) : Prop :=
  ∀ lease, s.lock = some lease → lease.expiresAtMs ≤ s.nowMs →
    ∀ n, (s.calls n).phase.holder? ≠ some lease.token

def AliveAtAcquire (s : ExtractState) (a : ExtractStep) : Prop :=
  ∀ n answered, a = .acquire n answered → LeaseAlive s

def OneWorker (s : ExtractState) : Prop :=
  ∀ n m, (s.calls n).phase.runsWork = true → (s.calls m).phase.runsWork = true → n = m

section Effects

variable {timeoutMs : ℕ} {s s' : ExtractState} {a : ExtractStep} {n : ℕ}

/-- A phase that adds no token to those of the phase before. -/
structure Settles (before after : ExtractPhase) : Prop where
  token : ∀ token, after.token? = some token → before.token? = some token
  holder : ∀ token, after.holder? = some token → before.holder? = some token
  clustered : before.isLocal = false → after.isLocal = false

theorem Settles.refl (phase : ExtractPhase) : Settles phase phase :=
  ⟨fun _ h => h,fun _ h => h,fun h => h⟩

theorem settles_crashed (phase : ExtractPhase) : Settles phase phase.crashed := by
  cases phase <;> constructor <;>
    simp [ExtractPhase.crashed,ExtractPhase.token?,ExtractPhase.holder?,ExtractPhase.isLocal]

@[simp] theorem calls_setPhase_self (s : ExtractState) (n : ℕ) (phase : ExtractPhase) :
    ((s.setPhase n phase).calls n).phase = phase := by
  simp [ExtractState.setPhase]

theorem calls_setPhase_of_ne {m : ℕ} (h : m ≠ n) (phase : ExtractPhase) :
    (s.setPhase n phase).calls m = s.calls m := by
  simp [ExtractState.setPhase,h]

theorem settles_setPhase {phase : ExtractPhase} (h : Settles (s.calls n).phase phase) (m : ℕ) :
    Settles (s.calls m).phase ((s.setPhase n phase).calls m).phase := by
  by_cases hm : m = n
  · subst hm
    simpa using h
  · rw [calls_setPhase_of_ne hm]
    exact Settles.refl _

/-- What a step can do to the tokens of the calls and to the one that is stored. -/
inductive LockEffect (timeoutMs : ℕ) (s : ExtractState) (a : ExtractStep) (s' : ExtractState) : Prop
  | quiet (hlock : s'.lock.map Lease.token = s.lock.map Lease.token) (hissued : s'.issued = s.issued)
      (hcalls : ∀ m, Settles (s.calls m).phase (s'.calls m).phase)
  | draws (n : ℕ) (token : String) (hfresh : token ∉ s.issued)
      (hs' : s' = { s.setPhase n (.acquiring token) with issued := token :: s.issued })
  | takes (n : ℕ) (answered : Bool) (token : String) (phase : ExtractPhase)
      (ha : a = .acquire n answered) (htoken : (s.calls n).phase.token? = some token)
      (hphase : phase = .checking token ∨ phase = .ended)
      (hfree : ∀ old, s.lock = some old → old.expiresAtMs ≤ s.nowMs)
      (hs' : s' = { s.setPhase n phase with lock := some ⟨token,s.nowMs+lockTtlMs timeoutMs⟩ })
  | gives (n : ℕ) (token : String) (hphase : (s.calls n).phase = .releasing token)
      (hs' : s' = { s.setPhase n .ended with lock := Lease.release s.nowMs token s.lock })

theorem quiet_setPhase {phase : ExtractPhase} (h : Settles (s.calls n).phase phase) :
    LockEffect timeoutMs s a (s.setPhase n phase) :=
  .quiet rfl rfl (settles_setPhase h)

theorem answerRead_effect {found : Bool} {token : String}
    (h : answerRead s n found token = some s') (hlocal : (s.calls n).phase.isLocal = false) :
    LockEffect timeoutMs s a s' := by
  unfold answerRead at h
  split at h
  · rename_i hphase
    split at h
    · cases h
      exact quiet_setPhase ⟨nofun,nofun,fun _ => rfl⟩
    · split at h
      · cases h
      · rename_i hfresh
        cases h
        exact .draws n token hfresh rfl
  · rename_i held hphase
    cases h
    refine quiet_setPhase ?_
    rw [hphase]
    cases found <;> constructor <;>
      simp [ExtractPhase.token?,ExtractPhase.holder?,ExtractPhase.isLocal]
  · cases h
    exact quiet_setPhase ⟨nofun,nofun,fun _ => rfl⟩
  · rename_i hphase
    simp [hphase,ExtractPhase.isLocal] at hlocal
  · cases h

theorem answerAcquire_effect (h : answerAcquire timeoutMs s n true = some s') :
    LockEffect timeoutMs s (.acquire n true) s' := by
  unfold answerAcquire at h
  split at h
  · rename_i token hphase
    rw [if_pos rfl] at h
    split at h
    · rename_i lease hlease
      obtain ⟨hfree,rfl⟩ := Lease.acquire_eq_some_iff.mp hlease
      cases h
      exact .takes n true token _ rfl (by simp [hphase,ExtractPhase.token?]) (Or.inl rfl) hfree rfl
    · cases h
      exact quiet_setPhase ⟨nofun,nofun,fun _ => rfl⟩
  · rename_i token hphase
    split at h
    · rename_i lease hlease
      obtain ⟨hfree,rfl⟩ := Lease.acquire_eq_some_iff.mp hlease
      cases h
      exact .takes n true token _ rfl (by simp [hphase,ExtractPhase.token?]) (Or.inr rfl) hfree rfl
    · cases h
      exact quiet_setPhase ⟨nofun,nofun,fun _ => rfl⟩
  · cases h

theorem endWork_effect (h : endWork s n = some s') (hlocal : (s.calls n).phase.isLocal = false) :
    LockEffect timeoutMs s a s' := by
  unfold endWork at h
  split at h
  · rename_i token hphase
    cases h
    refine quiet_setPhase ?_
    rw [hphase]
    constructor <;> simp [ExtractPhase.token?,ExtractPhase.holder?,ExtractPhase.isLocal]
  · rename_i hphase
    simp [hphase,ExtractPhase.isLocal] at hlocal
  · rename_i owner hphase
    simp [hphase,ExtractPhase.isLocal] at hlocal
  · cases h

/-- While the store works and no call is on the local path. -/
theorem extractStep_effect (h : extractStep timeoutMs s a = some s') (hworks : storeWorks a = true)
    (hlocal : ∀ m, (s.calls m).phase.isLocal = false) : LockEffect timeoutMs s a s' := by
  cases a with
  | call n process nowMs =>
    rw [extractStep] at h
    split at h
    · cases h
      refine .quiet rfl rfl fun m => ?_
      by_cases hm : m = n
      · subst hm
        simp only [Function.update_self]
        exact ⟨nofun,nofun,fun _ => rfl⟩
      · simp only [Function.update_of_ne hm]
        exact Settles.refl _
    · cases h
  | openStore n available =>
    rw [extractStep] at h
    split at h
    · cases h
      obtain rfl : available = true := hworks
      exact quiet_setPhase ⟨nofun,nofun,fun _ => rfl⟩
    · cases h
  | test n nowMs =>
    rw [extractStep] at h
    split at h
    · cases h
      refine quiet_setPhase ?_
      split <;> exact ⟨nofun,nofun,fun _ => rfl⟩
    · cases h
  | read n found token => exact answerRead_effect h (hlocal n)
  | acquire n answered =>
    obtain rfl : answered = true := hworks
    exact answerAcquire_effect h
  | heartbeat n =>
    obtain ⟨token,-,rfl⟩ := Option.map_eq_some_iff.mp h
    exact .quiet rfl rfl fun m => Settles.refl _
  | renew i delivered =>
    obtain ⟨token,-,rfl⟩ := Option.map_eq_some_iff.mp h
    refine .quiet ?_ rfl fun m => Settles.refl _
    cases delivered <;> simp
  | workEnds n => exact endWork_effect h (hlocal n)
  | release n delivered =>
    rw [extractStep] at h
    split at h
    · rename_i token hphase
      cases h
      cases delivered with
      | true => exact .gives n token hphase rfl
      | false => exact quiet_setPhase ⟨nofun,nofun,fun _ => rfl⟩
    · cases h
  | crash process =>
    cases h
    refine .quiet rfl rfl fun m => ?_
    by_cases hm : (s.calls m).process = process
    · simp only [hm,if_true]
      exact settles_crashed _
    · simp only [hm,if_false]
      exact Settles.refl _
  | tick ms =>
    cases h
    exact .quiet rfl rfl fun m => Settles.refl _

end Effects

section Invariant

variable {timeoutMs : ℕ} {s s' : ExtractState} {a : ExtractStep}

theorem token_of_holder {phase : ExtractPhase} {token : String}
    (h : phase.holder? = some token) : phase.token? = some token := by
  cases phase <;> simp_all [ExtractPhase.holder?,ExtractPhase.token?]

/-- Tokens are drawn before they are used, no two calls have the same, and the one that is
stored is that of every call between its acquire and the end of its work. -/
structure LockInvariant (s : ExtractState) : Prop where
  issued : ∀ n token, (s.calls n).phase.token? = some token → token ∈ s.issued
  distinct : ∀ n m token, (s.calls n).phase.token? = some token →
    (s.calls m).phase.token? = some token → n = m
  stored : ∀ n token, (s.calls n).phase.holder? = some token →
    s.lock.map Lease.token = some token
  clustered : ∀ n, (s.calls n).phase.isLocal = false

theorem lockInvariant_idle : LockInvariant .idle :=
  ⟨nofun,nofun,nofun,fun _ => rfl⟩

theorem LockInvariant.of_tokens (h : LockInvariant s) (hissued : s'.issued = s.issued)
    (htoken : ∀ m token, (s'.calls m).phase.token? = some token →
      (s.calls m).phase.token? = some token)
    (hstored : ∀ m token, (s'.calls m).phase.holder? = some token →
      s'.lock.map Lease.token = some token)
    (hclustered : ∀ m, (s'.calls m).phase.isLocal = false) : LockInvariant s' := by
  refine ⟨fun m token hm => ?_,fun m k token hm hk => ?_,hstored,hclustered⟩
  · rw [hissued]
    exact h.issued m token (htoken m token hm)
  · exact h.distinct m k token (htoken m token hm) (htoken k token hk)

theorem LockInvariant.not_holder (h : LockInvariant s) (halive : LeaseAlive s)
    (hfree : ∀ old, s.lock = some old → old.expiresAtMs ≤ s.nowMs) (n : ℕ) :
    (s.calls n).phase.holder? = none := by
  by_contra hne
  obtain ⟨token,htoken⟩ := Option.ne_none_iff_exists'.mp hne
  obtain ⟨lease,hlease,rfl⟩ := Option.map_eq_some_iff.mp (h.stored n token htoken)
  exact halive lease hlease (hfree lease hlease) n htoken

theorem LockInvariant.draws (h : LockInvariant s) {n : ℕ} {token : String}
    (hfresh : token ∉ s.issued) :
    LockInvariant { s.setPhase n (.acquiring token) with issued := token :: s.issued } := by
  have hself : ∀ m other, m ≠ n →
      ((s.setPhase n (.acquiring token)).calls m).phase.token? = some other → other ≠ token := by
    rintro m other hm hother rfl
    rw [calls_setPhase_of_ne hm] at hother
    exact hfresh (h.issued m _ hother)
  have hdrawn : ∀ other, ((s.setPhase n (.acquiring token)).calls n).phase.token? = some other →
      other = token := by
    intro other hother
    simpa [ExtractPhase.token?,eq_comm] using hother
  refine ⟨fun m other hm => ?_,fun m k other hm hk => ?_,fun m other hm => ?_,fun m => ?_⟩
  · by_cases hmn : m = n
    · subst hmn
      rw [hdrawn other hm]
      simp
    · have hold : (s.calls m).phase.token? = some other := by
        simpa [calls_setPhase_of_ne hmn] using hm
      exact List.mem_cons_of_mem _ (h.issued m other hold)
  · by_cases hmn : m = n
    · by_cases hkn : k = n
      · rw [hmn,hkn]
      · subst hmn
        exact absurd (hdrawn other hm) (hself k other hkn hk)
    · by_cases hkn : k = n
      · subst hkn
        exact absurd (hdrawn other hk) (hself m other hmn hm)
      · have hm' : (s.calls m).phase.token? = some other := by
          simpa [calls_setPhase_of_ne hmn] using hm
        have hk' : (s.calls k).phase.token? = some other := by
          simpa [calls_setPhase_of_ne hkn] using hk
        exact h.distinct m k other hm' hk'
  · by_cases hmn : m = n
    · subst hmn
      simp [ExtractPhase.holder?] at hm
    · refine h.stored m other ?_
      simpa [calls_setPhase_of_ne hmn] using hm
  · by_cases hmn : m = n
    · subst hmn
      simp [ExtractPhase.isLocal]
    · simpa [calls_setPhase_of_ne hmn] using h.clustered m

theorem LockInvariant.takes (h : LockInvariant s) (halive : LeaseAlive s) {n expiresAtMs : ℕ}
    {token : String} {phase : ExtractPhase} (htoken : (s.calls n).phase.token? = some token)
    (hphase : phase = .checking token ∨ phase = .ended)
    (hfree : ∀ old, s.lock = some old → old.expiresAtMs ≤ s.nowMs) :
    LockInvariant { s.setPhase n phase with lock := some ⟨token,expiresAtMs⟩ } := by
  refine h.of_tokens rfl (fun m other hm => ?_) (fun m other hm => ?_) fun m => ?_
  · by_cases hmn : m = n
    · subst hmn
      rcases hphase with rfl | rfl
      · simp [ExtractPhase.token?] at hm
        rw [htoken,hm]
      · simp [ExtractPhase.token?] at hm
    · simpa [calls_setPhase_of_ne hmn] using hm
  · by_cases hmn : m = n
    · subst hmn
      rcases hphase with rfl | rfl
      · simpa [ExtractPhase.holder?] using hm
      · simp [ExtractPhase.holder?] at hm
    · -- Whoever has acquired before is done.
      have hnone := h.not_holder halive hfree m
      simp [calls_setPhase_of_ne hmn,hnone] at hm
  · by_cases hmn : m = n
    · subst hmn
      rcases hphase with rfl | rfl <;> simp [ExtractPhase.isLocal]
    · simpa [calls_setPhase_of_ne hmn] using h.clustered m

theorem LockInvariant.gives (h : LockInvariant s) {n : ℕ} {token : String}
    (hphase : (s.calls n).phase = .releasing token) :
    LockInvariant { s.setPhase n .ended with lock := Lease.release s.nowMs token s.lock } := by
  have htoken : (s.calls n).phase.token? = some token := by
    rw [hphase]
    rfl
  refine h.of_tokens rfl (fun m other hm => ?_) (fun m other hm => ?_) fun m => ?_
  · by_cases hmn : m = n
    · subst hmn
      simp [ExtractPhase.token?] at hm
    · simpa [calls_setPhase_of_ne hmn] using hm
  · by_cases hmn : m = n
    · subst hmn
      simp [ExtractPhase.holder?] at hm
    · have hholder : (s.calls m).phase.holder? = some other := by
        simpa [calls_setPhase_of_ne hmn] using hm
      have hne : s.lock.map Lease.token ≠ some token := by
        intro hsame
        have hother : other = token := Option.some.inj ((h.stored m other hholder).symm.trans hsame)
        subst hother
        exact hmn (h.distinct m n other (token_of_holder hholder) htoken)
      rw [Lease.release_of_ne hne]
      exact h.stored m other hholder
  · by_cases hmn : m = n
    · subst hmn
      simp [ExtractPhase.isLocal]
    · simpa [calls_setPhase_of_ne hmn] using h.clustered m

theorem LockInvariant.step (h : LockInvariant s) (heffect : LockEffect timeoutMs s a s')
    (halive : AliveAtAcquire s a) : LockInvariant s' := by
  cases heffect with
  | quiet hlock hissued hcalls =>
    refine h.of_tokens hissued (fun m => (hcalls m).token) (fun m token hm => ?_) fun m =>
      (hcalls m).clustered (h.clustered m)
    rw [hlock]
    exact h.stored m token ((hcalls m).holder token hm)
  | draws n token hfresh hs' =>
    subst hs'
    exact h.draws hfresh
  | takes n answered token phase ha htoken hphase hfree hs' =>
    subst hs'
    exact h.takes (halive n answered ha) htoken hphase hfree
  | gives n token hphase hs' =>
    subst hs'
    exact h.gives hphase

theorem LockInvariant.oneWorker (h : LockInvariant s) : OneWorker s := by
  have hholder : ∀ n, (s.calls n).phase.runsWork = true →
      ∃ token, (s.calls n).phase.holder? = some token := by
    intro n hwork
    have hlocal := h.clustered n
    cases hphase : (s.calls n).phase <;>
      simp_all [ExtractPhase.runsWork,ExtractPhase.holder?,ExtractPhase.isLocal]
  intro n m hn hm
  obtain ⟨token,htoken⟩ := hholder n hn
  obtain ⟨token',htoken'⟩ := hholder m hm
  have hsame : token = token' :=
    Option.some.inj ((h.stored n token htoken).symm.trans (h.stored m token' htoken'))
  subst hsame
  exact h.distinct n m token (token_of_holder htoken) (token_of_holder htoken')

end Invariant

section Workers

variable (timeoutMs : ℕ)

theorem lockInvariant_reachable {s : ExtractState}
    (h : ((extractSystem timeoutMs).restrict fun s a =>
      storeWorks a = true ∧ AliveAtAcquire s a).Reachable s) : LockInvariant s := by
  refine h.invariant LockInvariant ?_ ?_
  · rintro s rfl
    exact lockInvariant_idle
  · rintro s a s' - hinv ⟨⟨hworks,halive⟩,hstep⟩
    exact hinv.step (extractStep_effect hstep hworks hinv.clustered) halive

theorem extractStep_read_checking {s : ExtractState} {n : ℕ} {token : String}
    (h : (s.calls n).phase = .checking token) :
    ∃ s', extractStep timeoutMs s (.read n false "") = some s' ∧
      (s'.calls n).phase = .working token ∧ ∀ m, m ≠ n → s'.calls m = s.calls m := by
  refine ⟨s.setPhase n (.working token),?_,calls_setPhase_self _ _ _,fun m hm => ?_⟩
  · simp [extractStep,answerRead,h]
  · exact calls_setPhase_of_ne hm _

theorem extractStep_acquire_lapsed {s : ExtractState} {n : ℕ} {token : String}
    (hphase : (s.calls n).phase = .acquiring token)
    (hfree : ∀ old, s.lock = some old → old.expiresAtMs ≤ s.nowMs) :
    ∃ s', extractStep timeoutMs s (.acquire n true) = some s' ∧
      (s'.calls n).phase = .checking token ∧ ∀ m, m ≠ n → s'.calls m = s.calls m := by
  have hacquire : Lease.acquire s.nowMs (lockTtlMs timeoutMs) token s.lock =
      some ⟨token,s.nowMs+lockTtlMs timeoutMs⟩ :=
    Lease.acquire_eq_some_iff.mpr ⟨hfree,rfl⟩
  refine ⟨{ s.setPhase n (.checking token) with
    lock := some ⟨token,s.nowMs+lockTtlMs timeoutMs⟩ },?_,calls_setPhase_self _ _ _,fun m hm => ?_⟩
  · simp [extractStep,answerAcquire,hphase,hacquire]
  · exact calls_setPhase_of_ne hm _

theorem not_oneWorker {s : ExtractState} {n m : ℕ} (hne : m ≠ n) {token held : String}
    (hn : (s.calls n).phase = .working token) (hm : (s.calls m).phase = .working held) :
    ¬OneWorker s := by
  intro hone
  refine hne (hone m n ?_ ?_)
  · simp [hm,ExtractPhase.runsWork]
  · simp [hn,ExtractPhase.runsWork]

/-- A call that acquires over a lapsed lease works beside the one that had it, when neither
finds the result ready. -/
theorem two_workers_of_lapsed {s : ExtractState} {n : ℕ} {token : String}
    (hphase : (s.calls n).phase = .acquiring token) (hlapsed : ¬LeaseAlive s) :
    ∃ as s', (∀ a ∈ as, storeWorks a = true) ∧
      TransitionSystem.runSteps (extractStep timeoutMs) s as = some s' ∧ ¬OneWorker s' := by
  unfold LeaseAlive at hlapsed
  push Not at hlapsed
  obtain ⟨old,hold,hlate,m,hm⟩ := hlapsed
  have hmn : m ≠ n := by
    rintro rfl
    simp [hphase,ExtractPhase.holder?] at hm
  have hfree : ∀ lease, s.lock = some lease → lease.expiresAtMs ≤ s.nowMs := by
    intro lease hlease
    obtain rfl : old = lease := Option.some.inj (hold.symm.trans hlease)
    exact hlate
  obtain ⟨s₁,hs₁,hn₁,hkept₁⟩ := extractStep_acquire_lapsed timeoutMs hphase hfree
  obtain ⟨s₂,hs₂,hn₂,hkept₂⟩ := extractStep_read_checking timeoutMs hn₁
  have hm₂ : s₂.calls m = s.calls m := (hkept₂ m hmn).trans (hkept₁ m hmn)
  cases hpm : (s.calls m).phase with
  | working held =>
    refine ⟨[.acquire n true,.read n false ""],s₂,by simp [storeWorks],?_,?_⟩
    · simp [TransitionSystem.runSteps,hs₁,hs₂]
    · exact not_oneWorker hmn hn₂ ((congrArg ExtractCall.phase hm₂).trans hpm)
  | checking held =>
    obtain ⟨s₃,hs₃,hm₃,hkept₃⟩ := extractStep_read_checking timeoutMs
      ((congrArg ExtractCall.phase hm₂).trans hpm)
    refine ⟨[.acquire n true,.read n false "",.read m false ""],s₃,by simp [storeWorks],?_,?_⟩
    · simp [TransitionSystem.runSteps,hs₁,hs₂,hs₃]
    · have hn₃ : (s₃.calls n).phase = .working token := by
        rw [hkept₃ n hmn.symm]
        exact hn₂
      exact not_oneWorker hmn hn₃ hm₃
  | _ => simp [hpm,ExtractPhase.holder?] at hm

/-- At most one call runs its work as long as no lease has lapsed under a call that is not
done when another one acquires; where one has, two calls may work. What a renewal or a
release finds under another token it leaves alone. -/
theorem extract_lock_one_worker :
    (∀ s, ((extractSystem timeoutMs).restrict fun s a =>
      storeWorks a = true ∧ AliveAtAcquire s a).Reachable s → OneWorker s) ∧
    (∀ s n token, (s.calls n).phase = .acquiring token → ¬LeaseAlive s →
      ∃ as s', (∀ a ∈ as, storeWorks a = true) ∧
        TransitionSystem.runSteps (extractStep timeoutMs) s as = some s' ∧ ¬OneWorker s') ∧
    (∀ s i delivered token s', s.renewals[i]? = some token →
      Lease.seen s.nowMs s.lock ≠ some token →
      extractStep timeoutMs s (.renew i delivered) = some s' → s'.lock = s.lock) ∧
    ∀ s n delivered token s', (s.calls n).phase = .releasing token →
      Lease.seen s.nowMs s.lock ≠ some token →
      extractStep timeoutMs s (.release n delivered) = some s' → s'.lock = s.lock := by
  refine ⟨fun s h => (lockInvariant_reachable timeoutMs h).oneWorker,
    fun s n token hphase hlapsed => two_workers_of_lapsed timeoutMs hphase hlapsed,
    fun s i delivered token s' htoken hother h => ?_,
    fun s n delivered token s' hphase hother h => ?_⟩
  · rw [extractStep,htoken] at h
    cases h
    cases delivered with
    | true => exact if_neg hother
    | false => rfl
  · rw [extractStep,hphase] at h
    cases h
    cases delivered with
    | true => exact if_neg hother
    | false => rfl

/-- A second call finds the lock taken while the first one works and renews its lease. -/
theorem extract_lock_one_worker_of_two_calls : ∃ s,
    TransitionSystem.runSteps (TransitionSystem.guardStep (extractStep 30000)
      fun s a => storeWorks a = true ∧ ∀ lease ∈ s.lock, s.nowMs < lease.expiresAtMs) .idle
      [.call 0 0 0,.openStore 0 true,.test 0 0,.read 0 false "a",.acquire 0 true,.read 0 false "",
        .heartbeat 0,.tick 10000,.renew 0 true,.call 1 1 10000,.openStore 1 true,.test 1 10000,
        .read 1 false "b",.tick 12000,.acquire 1 true] = some s ∧
      (s.calls 0).phase = .working "a" ∧ OneWorker s := by
  have hrun : (TransitionSystem.runSteps (TransitionSystem.guardStep (extractStep 30000)
      fun s a => storeWorks a = true ∧ ∀ lease ∈ s.lock, s.nowMs < lease.expiresAtMs) .idle
      [.call 0 0 0,.openStore 0 true,.test 0 0,.read 0 false "a",.acquire 0 true,.read 0 false "",
        .heartbeat 0,.tick 10000,.renew 0 true,.call 1 1 10000,.openStore 1 true,.test 1 10000,
        .read 1 false "b",.tick 12000,.acquire 1 true]).map
          (fun s => (s.calls 0).phase) = some (.working "a") := by
    decide +kernel
  obtain ⟨s,hs,hphase⟩ := Option.map_eq_some_iff.mp hrun
  refine ⟨s,hs,hphase,(extract_lock_one_worker 30000).1 s ?_⟩
  refine .of_runSteps (fun s a s' hstep => ?_) _ (.init rfl) hs
  rw [TransitionSystem.guardStep] at hstep
  split at hstep
  · rename_i hguard
    refine ⟨⟨hguard.1,?_⟩,hstep⟩
    rintro n answered - lease hlock hlapsed
    exact absurd (hguard.2 lease hlock) (by omega)
  · cases hstep

/-- Two calls: the renewals of the first are late, the second acquires and works beside it. -/
theorem lapsed_lease_two_workers :
    ¬∀ (timeoutMs : ℕ) (s : ExtractState),
      ((extractSystem timeoutMs).restrict fun _ a => storeWorks a = true).Reachable s →
        OneWorker s := by
  intro h
  have hrun : (TransitionSystem.runSteps (TransitionSystem.guardStep (extractStep 30000)
      fun _ a => storeWorks a = true) .idle
      [.call 0 0 0,.openStore 0 true,.test 0 0,.read 0 false "a",.acquire 0 true,.read 0 false "",
        .heartbeat 0,.tick 20000,.call 1 1 20000,.openStore 1 true,.test 1 20000,.read 1 false "b",
        .acquire 1 true,.read 1 false "",.renew 0 true]).map
      (fun s => ((s.calls 0).phase,(s.calls 1).phase)) =
        some (.working "a",.working "b") := by
    decide +kernel
  obtain ⟨s,hs,hphases⟩ := Option.map_eq_some_iff.mp hrun
  obtain ⟨h0,h1⟩ := Prod.mk.inj hphases
  refine not_oneWorker (by decide : (1 : ℕ) ≠ 0) h0 h1 (h 30000 s ?_)
  exact .of_guardSteps (fun _ _ _ hstep => hstep) _ (.init rfl) hs

end Workers

end WebSyncPlay
