import WebSyncPlay.TokenBucket
import WebSyncPlay.Library.TransitionSystem
import Mathlib.Order.Interval.Finset.Nat

/-! The fixed-window limiter of one key (`consumeRateLimit` in `security/rate-limit.ts`): INCR, and
EXPIRE by the call that saw 1. A step is one Redis command, the end of a process, or time. -/
namespace WebSyncPlay

open Library

structure RateLimitParams where
  limit : ℕ
  windowMs : ℚ
  failOpen : Bool := false

def RateLimitParams.windowSeconds (p : RateLimitParams) : ℕ := max 1 ⌈p.windowMs/1000⌉.toNat

/-- How a command ends. A command that fails may have been carried out. -/
inductive Delivery
  | answered
  | lost
  | refused
  deriving DecidableEq

/-- The counter. Its window is kept besides: the how manieth key this is. -/
structure WindowKey where
  count : ℕ
  expiresAt : Option ℕ
  window : ℕ
  deriving DecidableEq

inductive WindowPhase
  | calling
  /-- The answer was 1. -/
  | opening
  | finished (result : RateLimitResult)
  | died
  deriving DecidableEq

/-- A call, with what Redis made of it: the window and the count of its INCR, and whether its EXPIRE
was carried out. -/
structure WindowCall where
  phase : WindowPhase := .calling
  hit : Option (ℕ × ℕ) := none
  armed : Bool := false
  deriving DecidableEq

structure WindowState where
  now : ℕ
  key : Option WindowKey
  /-- How many windows there have been. -/
  windows : ℕ
  calls : ℕ → Option WindowCall

inductive WindowAction
  | begin (c : ℕ)
  | incr (c : ℕ) (delivery : Delivery)
  | expire (c : ℕ) (delivery : Delivery)
  | die (c : ℕ)
  | tick (ms : ℕ)

namespace WindowState

def setCall (s : WindowState) (c : ℕ) (call : WindowCall) : WindowState :=
  { s with calls := Function.update s.calls c (some call) }

def bumped (s : WindowState) : WindowKey :=
  match s.key with
  | some key => { key with count := key.count+1 }
  | none => ⟨1,none,s.windows⟩

def incr (s : WindowState) : WindowState :=
  { s with
    key := some s.bumped
    windows := if s.key.isSome then s.windows else s.windows+1 }

/-- EXPIRE leaves a key that is not there alone. -/
def expire (p : RateLimitParams) (s : WindowState) : WindowState :=
  { s with
    key := s.key.map fun key =>
      { key with expiresAt := some (s.now+1000*p.windowSeconds) } }

/-- Keys whose time has come are gone. -/
def tick (s : WindowState) (ms : ℕ) : WindowState :=
  { s with
    now := s.now+ms
    key := s.key.filter fun key => key.expiresAt.all fun at_ => decide (s.now+ms < at_) }

end WindowState

namespace RateLimitParams

/-- The catch branch. -/
def onError (p : RateLimitParams) : RateLimitResult :=
  if p.failOpen then ⟨true,p.limit⟩ else ⟨false,0⟩

def onCount (p : RateLimitParams) (count : ℕ) : RateLimitResult :=
  if p.limit < count then ⟨false,0⟩ else ⟨true,max 0 ((p.limit : ℤ)-count)⟩

def afterIncr (p : RateLimitParams) (s : WindowState) (delivery : Delivery) : WindowCall :=
  match delivery with
  | .refused => { phase := .finished p.onError }
  | .lost => { phase := .finished p.onError, hit := some (s.bumped.window,s.bumped.count) }
  | .answered =>
    { phase := if s.bumped.count = 1 then .opening else .finished (p.onCount s.bumped.count)
      hit := some (s.bumped.window,s.bumped.count) }

def afterExpire (p : RateLimitParams) (call : WindowCall) (delivery : Delivery) : WindowCall :=
  match delivery with
  | .refused => { call with phase := .finished p.onError }
  | .lost => { call with phase := .finished p.onError, armed := true }
  | .answered => { call with phase := .finished (p.onCount 1), armed := true }

def windowStep (p : RateLimitParams) (s : WindowState) : WindowAction → Option WindowState
  | .begin c => if (s.calls c).isNone then some (s.setCall c {}) else none
  | .incr c delivery =>
    if (s.calls c).map (·.phase) = some .calling then
      some ((if delivery = .refused then s else s.incr).setCall c (p.afterIncr s delivery))
    else none
  | .expire c delivery =>
    (s.calls c).bind fun call =>
      if call.phase = .opening then
        some ((if delivery = .refused then s else s.expire p).setCall c
          (p.afterExpire call delivery))
      else none
  | .die c => (s.calls c).map fun call => s.setCall c { call with phase := .died }
  | .tick ms => some (s.tick ms)

def windowSystem (p : RateLimitParams) : TransitionSystem WindowState WindowAction where
  init s := s = ⟨0,none,0,fun _ => none⟩
  step s a s' := p.windowStep s a = some s'

end RateLimitParams

namespace WindowState

/-- A counter has a time to live, of at most the window. -/
def Expires (p : RateLimitParams) (s : WindowState) : Prop :=
  ∀ key, s.key = some key → 1 ≤ key.count →
    ∃ at_, key.expiresAt = some at_ ∧ at_ ≤ s.now+1000*p.windowSeconds

def AllowedIn (s : WindowState) (window c : ℕ) : Prop :=
  ∃ call result n, s.calls c = some call ∧ call.phase = .finished result ∧ result.allowed = true ∧
    call.hit = some (window,n)

/-- What the limiter is for. Calls that are to be let through when Redis fails are not counted. -/
def Limits (p : RateLimitParams) (s : WindowState) : Prop :=
  s.Expires p ∧ (p.failOpen = false →
    (∀ c call result, s.calls c = some call → call.phase = .finished result →
      result.allowed = true → call.hit.isSome = true) ∧
    ∀ (window : ℕ) (cs : Finset ℕ), (∀ c ∈ cs, s.AllowedIn window c) → cs.card ≤ p.limit)

/-- The call that started the window has had its EXPIRE carried out. -/
def Opened (s : WindowState) : Prop :=
  ∀ key, s.key = some key → ∃ c call, s.calls c = some call ∧ call.hit = some (key.window,1) ∧
    call.armed = true

end WindowState

/-- What holds in every reachable state, failures or not. -/
structure WindowInvariant (p : RateLimitParams) (s : WindowState) : Prop where
  counted : ∀ key, s.key = some key → 1 ≤ key.count ∧ key.window < s.windows
  known : ∀ c call w n, s.calls c = some call → call.hit = some (w,n) →
    1 ≤ n ∧ w < s.windows ∧ ∀ key, s.key = some key → w = key.window → n ≤ key.count
  apart : ∀ c d call call' hit, s.calls c = some call → s.calls d = some call' →
    call.hit = some hit → call'.hit = some hit → c = d
  /-- The call that is about to send EXPIRE is the one that started the window, which lasts. -/
  opening : ∀ c call, s.calls c = some call → call.phase = .opening →
    call.armed = false ∧ ∃ key, s.key = some key ∧ key.expiresAt = none ∧
      call.hit = some (key.window,1)
  calling : ∀ c call, s.calls c = some call → call.phase = .calling →
    call.hit = none ∧ call.armed = false
  armed : ∀ c call key, s.calls c = some call → call.armed = true → s.key = some key →
    call.hit = some (key.window,1) → key.expiresAt.isSome = true
  armer : ∀ key at_, s.key = some key → key.expiresAt = some at_ →
    at_ ≤ s.now+1000*p.windowSeconds ∧ ∃ c call, s.calls c = some call ∧
      call.hit = some (key.window,1) ∧ call.armed = true
  allowed : ∀ c call result, s.calls c = some call → call.phase = .finished result →
    result.allowed = true → p.failOpen = true ∨ ∃ w n, call.hit = some (w,n) ∧ n ≤ p.limit

section Calls

variable {p : RateLimitParams} {s : WindowState} {c : ℕ} {call : WindowCall}

@[simp] theorem setCall_key : (s.setCall c call).key = s.key := rfl

@[simp] theorem setCall_now : (s.setCall c call).now = s.now := rfl

@[simp] theorem setCall_windows : (s.setCall c call).windows = s.windows := rfl

theorem setCall_calls_eq_some {d : ℕ} {call' : WindowCall} :
    (s.setCall c call).calls d = some call' ↔
      d = c ∧ call' = call ∨ d ≠ c ∧ s.calls d = some call' := by
  by_cases hd : d = c
  · subst hd
    simp [WindowState.setCall,eq_comm]
  · simp [WindowState.setCall,hd]

end Calls

section Invariant

variable {p : RateLimitParams} {s s' : WindowState}

theorem windowInvariant_start : WindowInvariant p ⟨0,none,0,fun _ => none⟩ where
  counted _ hkey := by cases hkey
  known _ _ _ _ hcall := by cases hcall
  apart _ _ _ _ _ hcall := by cases hcall
  opening _ _ hcall := by cases hcall
  calling _ _ hcall := by cases hcall
  armed _ _ _ hcall := by cases hcall
  armer _ _ hkey := by cases hkey
  allowed _ _ _ hcall := by cases hcall

/-- A call may change as long as its hit is its own and what it armed stays armed. -/
theorem WindowInvariant.setCall (h : WindowInvariant p s) {c : ℕ} {call : WindowCall}
    (hknown : ∀ w n, call.hit = some (w,n) →
      1 ≤ n ∧ w < s.windows ∧ ∀ key, s.key = some key → w = key.window → n ≤ key.count)
    (hapart : ∀ d other hit, d ≠ c → s.calls d = some other → other.hit = some hit →
      call.hit ≠ some hit)
    (hopening : call.phase = .opening → call.armed = false ∧ ∃ key, s.key = some key ∧
      key.expiresAt = none ∧ call.hit = some (key.window,1))
    (hcalling : call.phase = .calling → call.hit = none ∧ call.armed = false)
    (harmed : ∀ key, call.armed = true → s.key = some key → call.hit = some (key.window,1) →
      key.expiresAt.isSome = true)
    (hkept : ∀ old, s.calls c = some old → old.armed = true →
      call.hit = old.hit ∧ call.armed = true)
    (hallowed : ∀ result, call.phase = .finished result → result.allowed = true →
      p.failOpen = true ∨ ∃ w n, call.hit = some (w,n) ∧ n ≤ p.limit) :
    WindowInvariant p (s.setCall c call) where
  counted := h.counted
  known d other w n hd hhit := by
    rcases setCall_calls_eq_some.mp hd with ⟨-,rfl⟩ | ⟨-,hd⟩
    · exact hknown w n hhit
    · exact h.known d other w n hd hhit
  apart d e other other' hit hd he hhit hhit' := by
    rcases setCall_calls_eq_some.mp hd with ⟨rfl,rfl⟩ | ⟨hdc,hd₁⟩
    · rcases setCall_calls_eq_some.mp he with ⟨rfl,-⟩ | ⟨hec,he₁⟩
      · rfl
      · exact absurd hhit (hapart e other' hit hec he₁ hhit')
    · rcases setCall_calls_eq_some.mp he with ⟨rfl,rfl⟩ | ⟨-,he₁⟩
      · exact absurd hhit' (hapart d other hit hdc hd₁ hhit)
      · exact h.apart d e other other' hit hd₁ he₁ hhit hhit'
  opening d other hd hphase := by
    rcases setCall_calls_eq_some.mp hd with ⟨-,rfl⟩ | ⟨-,hd⟩
    · exact hopening hphase
    · exact h.opening d other hd hphase
  calling d other hd hphase := by
    rcases setCall_calls_eq_some.mp hd with ⟨-,rfl⟩ | ⟨-,hd⟩
    · exact hcalling hphase
    · exact h.calling d other hd hphase
  armed d other key hd harm hkey hhit := by
    rcases setCall_calls_eq_some.mp hd with ⟨-,rfl⟩ | ⟨-,hd⟩
    · exact harmed key harm hkey hhit
    · exact h.armed d other key hd harm hkey hhit
  armer key at_ hkey hat := by
    obtain ⟨hle,d,other,hd,hhit,harm⟩ := h.armer key at_ hkey hat
    refine ⟨hle,?_⟩
    by_cases hdc : d = c
    · subst hdc
      obtain ⟨hsame,harm'⟩ := hkept other hd harm
      exact ⟨d,call,setCall_calls_eq_some.mpr (Or.inl ⟨rfl,rfl⟩),hsame.trans hhit,harm'⟩
    · exact ⟨d,other,setCall_calls_eq_some.mpr (Or.inr ⟨hdc,hd⟩),hhit,harm⟩
  allowed d other result hd hphase hallow := by
    rcases setCall_calls_eq_some.mp hd with ⟨-,rfl⟩ | ⟨-,hd⟩
    · exact hallowed result hphase hallow
    · exact h.allowed d other result hd hphase hallow

theorem WindowInvariant.setPhase (h : WindowInvariant p s) {c : ℕ} {call : WindowCall}
    (hcall : s.calls c = some call) {phase : WindowPhase} (hopening : phase ≠ .opening)
    (hcalling : phase ≠ .calling)
    (hallowed : ∀ result, phase = .finished result → result.allowed = true →
      p.failOpen = true ∨ ∃ w n, call.hit = some (w,n) ∧ n ≤ p.limit) :
    WindowInvariant p (s.setCall c { call with phase := phase }) := by
  refine h.setCall (h.known c call · · hcall) ?_ (fun hphase => absurd hphase hopening)
    (fun hphase => absurd hphase hcalling)
    (fun key harm hkey hhit => h.armed c call key hcall harm hkey hhit) ?_ hallowed
  · intro d other hit hdc hd hhit hsame
    exact hdc (h.apart d c other call hit hd hcall hhit hsame)
  · intro old hold harm
    rw [hcall] at hold
    obtain rfl := Option.some.inj hold
    exact ⟨rfl,harm⟩

theorem onError_allowed (h : p.onError.allowed = true) : p.failOpen = true := by
  unfold RateLimitParams.onError at h
  split at h
  · assumption
  · cases h

theorem onCount_allowed {count : ℕ} (h : (p.onCount count).allowed = true) : count ≤ p.limit := by
  unfold RateLimitParams.onCount at h
  split at h
  · cases h
  · rename_i hle
    exact not_lt.mp hle

theorem bumped_fresh (h : WindowInvariant p s) {d : ℕ} {other : WindowCall}
    (hd : s.calls d = some other) : other.hit ≠ some (s.bumped.window,s.bumped.count) := by
  intro hhit
  obtain ⟨-,hw,hle⟩ := h.known d other _ _ hd hhit
  unfold WindowState.bumped at hw hle
  cases hkey : s.key with
  | none =>
    rw [hkey] at hw
    exact lt_irrefl _ hw
  | some key =>
    have hcount := hle key hkey
    rw [hkey] at hcount
    have hcount : key.count+1 ≤ key.count := hcount rfl
    omega

theorem bumped_counted (h : WindowInvariant p s) :
    1 ≤ s.bumped.count ∧ s.bumped.window < s.incr.windows := by
  unfold WindowState.bumped WindowState.incr
  cases hkey : s.key with
  | none => simp
  | some key => simpa using (h.counted key hkey).2

theorem bumped_one (h : WindowInvariant p s) (hone : s.bumped.count = 1) :
    s.bumped.expiresAt = none := by
  unfold WindowState.bumped at hone ⊢
  cases hkey : s.key with
  | none => rfl
  | some key =>
    have hcount := (h.counted key hkey).1
    rw [hkey] at hone
    have hone : key.count+1 = 1 := hone
    omega

theorem WindowInvariant.incr (h : WindowInvariant p s) : WindowInvariant p s.incr where
  counted key hkey := by
    obtain rfl := Option.some.inj hkey
    exact bumped_counted h
  known c call w n hcall hhit := by
    obtain ⟨hn,hw,hle⟩ := h.known c call w n hcall hhit
    refine ⟨hn,?_,?_⟩
    · unfold WindowState.incr
      dsimp only
      split <;> omega
    · intro key hkey hsame
      obtain rfl := Option.some.inj hkey
      unfold WindowState.bumped at hsame ⊢
      cases hold : s.key with
      | none =>
        rw [hold] at hsame
        exact absurd hsame (ne_of_lt hw)
      | some key =>
        rw [hold] at hsame
        exact (hle key hold hsame).trans (Nat.le_succ _)
  apart := h.apart
  opening c call hcall hphase := by
    obtain ⟨harm,key,hkey,hnone,hhit⟩ := h.opening c call hcall hphase
    refine ⟨harm,s.bumped,rfl,?_⟩
    unfold WindowState.bumped
    rw [hkey]
    exact ⟨hnone,hhit⟩
  calling := h.calling
  armed c call key hcall harm hkey hhit := by
    obtain rfl := Option.some.inj hkey
    unfold WindowState.bumped at hhit ⊢
    cases hold : s.key with
    | none =>
      rw [hold] at hhit
      exact absurd (h.known c call _ _ hcall hhit).2.1 (lt_irrefl _)
    | some key =>
      rw [hold] at hhit
      exact h.armed c call key hcall harm hold hhit
  armer key at_ hkey hat := by
    obtain rfl := Option.some.inj hkey
    unfold WindowState.bumped at hat ⊢
    cases hold : s.key with
    | none =>
      rw [hold] at hat
      cases hat
    | some key =>
      rw [hold] at hat
      exact h.armer key at_ hold hat
  allowed := h.allowed

theorem WindowInvariant.expire (h : WindowInvariant p s) {c : ℕ} {call : WindowCall}
    (hcall : s.calls c = some call) (hphase : call.phase = .opening) {result : RateLimitResult}
    (hallowed : result.allowed = true → p.failOpen = true ∨
      ∃ w n, call.hit = some (w,n) ∧ n ≤ p.limit) :
    WindowInvariant p ((s.expire p).setCall c
      { call with phase := .finished result, armed := true }) := by
  obtain ⟨-,key,hkey,hnone,hhit⟩ := h.opening c call hcall hphase
  have hkey' : (s.expire p).key =
      some { key with expiresAt := some (s.now+1000*p.windowSeconds) } := by
    rw [WindowState.expire,hkey]
    rfl
  constructor
  · intro k hk
    obtain rfl := Option.some.inj (hkey'.symm.trans hk)
    exact h.counted key hkey
  · intro d other w n hd hhit'
    have hknown : 1 ≤ n ∧ w < s.windows ∧
        ∀ key, s.key = some key → w = key.window → n ≤ key.count := by
      rcases setCall_calls_eq_some.mp hd with ⟨-,rfl⟩ | ⟨-,hd⟩
      · exact h.known c call w n hcall hhit'
      · exact h.known d other w n hd hhit'
    obtain ⟨hn,hw,hle⟩ := hknown
    refine ⟨hn,hw,fun k hk => ?_⟩
    obtain rfl := Option.some.inj (hkey'.symm.trans hk)
    exact hle key hkey
  · intro d e other other' hit hd he hhit₁ hhit₂
    rcases setCall_calls_eq_some.mp hd with ⟨rfl,rfl⟩ | ⟨-,hd₁⟩
    · rcases setCall_calls_eq_some.mp he with ⟨rfl,-⟩ | ⟨-,he₁⟩
      · rfl
      · exact h.apart d e call other' hit hcall he₁ hhit₁ hhit₂
    · rcases setCall_calls_eq_some.mp he with ⟨rfl,rfl⟩ | ⟨-,he₁⟩
      · exact h.apart d e other call hit hd₁ hcall hhit₁ hhit₂
      · exact h.apart d e other other' hit hd₁ he₁ hhit₁ hhit₂
  · intro d other hd hopen
    rcases setCall_calls_eq_some.mp hd with ⟨-,rfl⟩ | ⟨hdc,hd⟩
    · cases hopen
    · -- Two calls about to send EXPIRE would both have started the window.
      obtain ⟨-,key₂,hkey₂,-,hhit₂⟩ := h.opening d other hd hopen
      obtain rfl := Option.some.inj (hkey.symm.trans hkey₂)
      exact absurd (h.apart d c other call _ hd hcall hhit₂ hhit) hdc
  · intro d other hd hcalling
    rcases setCall_calls_eq_some.mp hd with ⟨-,rfl⟩ | ⟨-,hd⟩
    · cases hcalling
    · exact h.calling d other hd hcalling
  · intro d other k hd harm hk hhit'
    obtain rfl := Option.some.inj (hkey'.symm.trans hk)
    rfl
  · intro k at_ hk hat
    obtain rfl := Option.some.inj (hkey'.symm.trans hk)
    obtain rfl := Option.some.inj hat
    exact ⟨le_rfl,c,_,setCall_calls_eq_some.mpr (Or.inl ⟨rfl,rfl⟩),hhit,rfl⟩
  · intro d other outcome hd hfinished hallow
    rcases setCall_calls_eq_some.mp hd with ⟨-,rfl⟩ | ⟨-,hd⟩
    · injection hfinished with hsame
      subst hsame
      exact hallowed hallow
    · exact h.allowed d other outcome hd hfinished hallow

theorem tick_key_eq_some {ms : ℕ} {key : WindowKey} :
    (s.tick ms).key = some key ↔
      s.key = some key ∧ key.expiresAt.all (fun at_ => decide (s.now+ms < at_)) = true :=
  Option.filter_eq_some_iff

theorem WindowInvariant.tick (h : WindowInvariant p s) (ms : ℕ) :
    WindowInvariant p (s.tick ms) where
  counted key hkey := h.counted key (tick_key_eq_some.mp hkey).1
  known c call w n hcall hhit := by
    obtain ⟨hn,hw,hle⟩ := h.known c call w n hcall hhit
    exact ⟨hn,hw,fun key hkey => hle key (tick_key_eq_some.mp hkey).1⟩
  apart := h.apart
  opening c call hcall hphase := by
    obtain ⟨harm,key,hkey,hnone,hhit⟩ := h.opening c call hcall hphase
    exact ⟨harm,key,tick_key_eq_some.mpr ⟨hkey,by rw [hnone]; rfl⟩,hnone,hhit⟩
  calling := h.calling
  armed c call key hcall harm hkey := h.armed c call key hcall harm (tick_key_eq_some.mp hkey).1
  armer key at_ hkey hat := by
    obtain ⟨hle,hopener⟩ := h.armer key at_ (tick_key_eq_some.mp hkey).1 hat
    have hnow : (s.tick ms).now = s.now+ms := rfl
    exact ⟨by omega,hopener⟩
  allowed := h.allowed

theorem WindowInvariant.afterIncr (h : WindowInvariant p s) {c : ℕ}
    (hphase : (s.calls c).map (·.phase) = some .calling) {delivery : Delivery}
    (hdelivery : delivery ≠ .refused) :
    WindowInvariant p (s.incr.setCall c (p.afterIncr s delivery)) := by
  obtain ⟨call,hcall,hcalling⟩ := Option.map_eq_some_iff.mp hphase
  obtain ⟨hcount,hwindow⟩ := bumped_counted h
  have hhit : (p.afterIncr s delivery).hit = some (s.bumped.window,s.bumped.count) := by
    cases delivery with
    | refused => exact absurd rfl hdelivery
    | lost => rfl
    | answered => rfl
  have harmed : (p.afterIncr s delivery).armed = false := by
    cases delivery <;> rfl
  refine h.incr.setCall ?_ ?_ ?_ ?_ ?_ ?_ ?_
  · intro w n hsame
    obtain ⟨rfl,rfl⟩ := Prod.mk.inj (Option.some.inj (hhit.symm.trans hsame))
    refine ⟨hcount,hwindow,fun key hkey _ => ?_⟩
    obtain rfl := Option.some.inj hkey
    exact le_rfl
  · intro d other hit _ hd hother hsame
    obtain rfl := Option.some.inj (hhit.symm.trans hsame)
    exact bumped_fresh h hd hother
  · intro hopening
    refine ⟨harmed,s.bumped,rfl,?_⟩
    have hone : s.bumped.count = 1 := by
      cases delivery with
      | refused => cases hopening
      | lost => cases hopening
      | answered =>
        rw [RateLimitParams.afterIncr] at hopening
        dsimp only at hopening
        split at hopening
        · assumption
        · cases hopening
    rw [hhit,hone]
    exact ⟨bumped_one h hone,rfl⟩
  · intro hcalling
    cases delivery with
    | refused => exact absurd rfl hdelivery
    | lost => cases hcalling
    | answered =>
      rw [RateLimitParams.afterIncr] at hcalling
      dsimp only at hcalling
      split at hcalling <;> cases hcalling
  · intro key harm
    rw [harmed] at harm
    cases harm
  · intro old hold harm
    obtain rfl := Option.some.inj (hcall.symm.trans hold)
    rw [(h.calling c call hcall hcalling).2] at harm
    cases harm
  · intro result hfinished hallow
    cases delivery with
    | refused => exact absurd rfl hdelivery
    | lost =>
      injection hfinished with hsame
      subst hsame
      exact Or.inl (onError_allowed hallow)
    | answered =>
      rw [RateLimitParams.afterIncr] at hfinished
      dsimp only at hfinished
      split at hfinished
      · cases hfinished
      · injection hfinished with hsame
        subst hsame
        exact Or.inr ⟨_,_,hhit,onCount_allowed hallow⟩

theorem WindowInvariant.step {a : WindowAction} (h : WindowInvariant p s)
    (hs : p.windowStep s a = some s') : WindowInvariant p s' := by
  cases a with
  | begin c =>
    rw [RateLimitParams.windowStep] at hs
    split at hs
    · rename_i hnone
      obtain rfl := Option.some.inj hs
      refine h.setCall nofun (fun _ _ _ _ _ _ => nofun) nofun (fun _ => ⟨rfl,rfl⟩) (fun _ => nofun)
        ?_ nofun
      intro old hold
      rw [hold] at hnone
      cases hnone
    · cases hs
  | incr c delivery =>
    rw [RateLimitParams.windowStep] at hs
    split at hs
    · rename_i hphase
      obtain rfl := Option.some.inj hs
      by_cases hdelivery : delivery = .refused
      · subst hdelivery
        obtain ⟨call,hcall,hcalling⟩ := Option.map_eq_some_iff.mp hphase
        obtain ⟨hhit,harmed⟩ := h.calling c call hcall hcalling
        have hset := @WindowInvariant.setPhase _ _ h _ _ hcall (.finished p.onError) nofun nofun (by
          intro result hfinished hallow
          injection hfinished with hsame
          subst hsame
          exact Or.inl (onError_allowed hallow))
        rw [hhit,harmed] at hset
        rw [if_pos rfl]
        exact hset
      · rw [if_neg hdelivery]
        exact h.afterIncr hphase hdelivery
    · cases hs
  | expire c delivery =>
    obtain ⟨call,hcall,hs⟩ := Option.bind_eq_some_iff.mp hs
    split at hs
    · rename_i hphase
      obtain rfl := Option.some.inj hs
      obtain ⟨-,key,-,-,hhit⟩ := h.opening c call hcall hphase
      cases delivery with
      | refused =>
        refine h.setPhase hcall nofun nofun ?_
        intro result hfinished hallow
        injection hfinished with hsame
        subst hsame
        exact Or.inl (onError_allowed hallow)
      | lost => exact h.expire hcall hphase fun hallow => Or.inl (onError_allowed hallow)
      | answered =>
        exact h.expire hcall hphase fun hallow => Or.inr ⟨_,_,hhit,onCount_allowed hallow⟩
    · cases hs
  | die c =>
    obtain ⟨call,hcall,rfl⟩ := Option.map_eq_some_iff.mp hs
    exact h.setPhase hcall nofun nofun nofun
  | tick ms =>
    obtain rfl := Option.some.inj hs
    exact h.tick ms

theorem windowInvariant_of_reachable (h : p.windowSystem.Reachable s) : WindowInvariant p s := by
  refine h.invariant _ ?_ fun _ _ _ _ hs hstep => hs.step hstep
  rintro _ rfl
  exact windowInvariant_start

/-- The calls let through in a window have different counts up to the limit. -/
theorem WindowInvariant.card_le (h : WindowInvariant p s) (hclosed : p.failOpen = false)
    {window : ℕ} {cs : Finset ℕ} (hcs : ∀ c ∈ cs, s.AllowedIn window c) : cs.card ≤ p.limit := by
  classical
  let count : ℕ → ℕ := fun c => ((s.calls c).bind (·.hit)).elim 0 Prod.snd
  have hmaps : ∀ c ∈ cs, count c ∈ Finset.Icc 1 p.limit := by
    intro c hc
    obtain ⟨call,result,n,hcall,hfinished,hallow,hhit⟩ := hcs c hc
    have hcount : count c = n := by simp [count,hcall,hhit]
    rcases h.allowed c call result hcall hfinished hallow with hopen | ⟨w,m,hhit',hle⟩
    · rw [hclosed] at hopen
      cases hopen
    · obtain ⟨-,rfl⟩ := Prod.mk.inj (Option.some.inj (hhit.symm.trans hhit'))
      rw [hcount,Finset.mem_Icc]
      exact ⟨(h.known c call _ _ hcall hhit).1,hle⟩
  have hinj : ∀ c ∈ cs, ∀ d ∈ cs, count c = count d → c = d := by
    intro c hc d hd hsame
    obtain ⟨call,-,n,hcall,-,-,hhit⟩ := hcs c hc
    obtain ⟨other,-,m,hother,-,-,hhit'⟩ := hcs d hd
    have hn : count c = n := by simp [count,hcall,hhit]
    have hm : count d = m := by simp [count,hother,hhit']
    obtain rfl : n = m := hn.symm.trans (hsame.trans hm)
    exact h.apart c d call other _ hcall hother hhit hhit'
  have hcard := Finset.card_le_card_of_injOn count hmaps hinj
  rwa [Nat.card_Icc,Nat.add_sub_cancel] at hcard

theorem WindowInvariant.expires_iff (h : WindowInvariant p s) : s.Expires p ↔ s.Opened := by
  constructor
  · intro hexpires key hkey
    obtain ⟨at_,hat,-⟩ := hexpires key hkey (h.counted key hkey).1
    exact (h.armer key at_ hkey hat).2
  · intro hopened key hkey _
    obtain ⟨c,call,hcall,hhit,harm⟩ := hopened key hkey
    obtain ⟨at_,hat⟩ := Option.isSome_iff_exists.mp (h.armed c call key hcall harm hkey hhit)
    exact ⟨at_,hat,(h.armer key at_ hkey hat).1⟩

end Invariant

/-- Whatever fails or dies, and whenever, the limiter does what it is for in a reachable state
exactly when the call that started the window has had its EXPIRE carried out. -/
theorem fixed_window_limits_iff {p : RateLimitParams} {s : WindowState}
    (h : p.windowSystem.Reachable s) : s.Limits p ↔ s.Opened := by
  have hinv := windowInvariant_of_reachable h
  constructor
  · intro hlimits
    exact hinv.expires_iff.mp hlimits.1
  · intro hopened
    refine ⟨hinv.expires_iff.mpr hopened,fun hclosed => ⟨?_,fun window cs => hinv.card_le hclosed⟩⟩
    intro c call result hcall hfinished hallow
    rcases hinv.allowed c call result hcall hfinished hallow with hopen | ⟨w,n,hhit,-⟩
    · rw [hclosed] at hopen
      cases hopen
    · rw [hhit]
      rfl

section Scenarios

def twoPerMinute : RateLimitParams where
  limit := 2
  windowMs := 60000

/-- A first call from end to end. -/
theorem fixed_window_limits_first_call : ∃ s, twoPerMinute.windowSystem.Reachable s ∧
    (s.calls 0).map (·.phase) = some (.finished ⟨true,1⟩) ∧ (s.Limits twoPerMinute ↔ s.Opened) := by
  have hrun : ((TransitionSystem.runSteps twoPerMinute.windowStep ⟨0,none,0,fun _ => none⟩
      [.begin 0,.incr 0 .answered,.expire 0 .answered]).map fun s =>
        (s.calls 0).map (·.phase)) = some (some (.finished ⟨true,1⟩)) := by decide +kernel
  obtain ⟨s,hs,hphase⟩ := Option.map_eq_some_iff.mp hrun
  have hr : twoPerMinute.windowSystem.Reachable s :=
    .of_runSteps (fun _ _ _ h => h) _ (.init rfl) hs
  exact ⟨s,hr,hphase,fixed_window_limits_iff hr⟩

/-- The EXPIRE of the first call fails: a day later the counter is still there, and a third call is
denied. -/
theorem failed_expire_locks_out : ¬∀ (p : RateLimitParams) (s : WindowState),
    p.windowSystem.Reachable s → s.Limits p := by
  intro h
  have hrun : ((TransitionSystem.runSteps twoPerMinute.windowStep ⟨0,none,0,fun _ => none⟩
      [.begin 0,.incr 0 .answered,.expire 0 .refused,.begin 1,.incr 1 .answered,.tick 86400000,
        .begin 2,.incr 2 .answered]).map fun s => (s.key,(s.calls 2).map (·.phase))) =
      some (some ⟨3,none,0⟩,some (.finished ⟨false,0⟩)) := by decide +kernel
  obtain ⟨s,hs,hfacts⟩ := Option.map_eq_some_iff.mp hrun
  obtain ⟨hkey,-⟩ := Prod.mk.inj hfacts
  have hr : twoPerMinute.windowSystem.Reachable s :=
    .of_runSteps (fun _ _ _ h => h) _ (.init rfl) hs
  obtain ⟨at_,hat,-⟩ := (h twoPerMinute s hr).1 _ hkey (by decide)
  cases hat

end Scenarios

end WebSyncPlay
