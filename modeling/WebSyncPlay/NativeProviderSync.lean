import Mathlib.Algebra.Order.Field.Rat
import Mathlib.Algebra.Order.Group.Abs
import Mathlib.Data.List.Induction
import Mathlib.Tactic.Linarith
import Mathlib.Tactic.NormNum

/-! What confirms a seek of an embedded player (`player/native-provider-sync.ts`). The wrapper may
report the requested time while the embed has not moved. -/
namespace WebSyncPlay

inductive Reading
  | finite (sec : ℚ)
  | infinite (negative : Bool)
  | nan
  deriving DecidableEq

namespace Reading

/-- `Math.abs(x - y)`. -/
def distance : Reading → Reading → Reading
  | finite x,finite y => finite |x-y|
  | finite _,infinite _ => infinite false
  | infinite _,finite _ => infinite false
  | infinite x,infinite y => if x = y then nan else infinite false
  | nan,_ => nan
  | _,nan => nan

def atLeast (bound : ℚ) : Reading → Bool
  | finite x => decide (bound ≤ x)
  | infinite negative => !negative
  | nan => false

def below (bound : ℚ) : Reading → Bool
  | finite x => decide (x < bound)
  | infinite negative => negative
  | nan => false

theorem not_atLeast_self (r : Reading) {bound : ℚ} (h : 0 < bound) :
    (r.distance r).atLeast bound = false := by
  cases r with
  | finite x => simpa [distance,atLeast] using h
  | infinite negative => simp [distance,atLeast]
  | nan => rfl

end Reading

def NATIVE_MAX_VERIFY_FAILURES : ℕ := 6
def NATIVE_MIN_CONFIRM_MS : ℚ := 100
def NATIVE_MOVE_TOWARD_EPSILON_SEC : ℚ := 1/4
def NATIVE_STALE_EPSILON_SEC : ℚ := 1/20
def NATIVE_QUIESCE_EPSILON_SEC : ℚ := 7/20
def NATIVE_MIN_SAMPLE_GAP_MS : ℚ := 150
def NATIVE_PAUSE_MIN_SAMPLE_GAP_MS : ℚ := 1500
def NATIVE_QUIESCENT_SAMPLES : ℕ := 2

def hasPlayheadMovedToward : Reading → Reading → Reading → Bool
  | .finite fromSec,.finite currentSec,.finite targetSec =>
    decide (NATIVE_MOVE_TOWARD_EPSILON_SEC ≤ |fromSec-targetSec|-|currentSec-targetSec|)
  | _,_,_ => false

structure SeekProbe where
  anchorMs : ℚ
  fromSec : Reading
  targetSec : Reading
  writtenAtMs : ℚ
  lastSampleSec : Reading
  lastSampleAtMs : ℚ
  /-- The prior sample was already near the room clock. -/
  lastNearRoom : Bool
  deriving DecidableEq

inductive NativeSeekVerdict
  | noProbe
  | pending
  | confirmed
  | gaveUp
  deriving DecidableEq

/-- The pause seek key is the pair that the code joins to a string. -/
structure NativeSyncTracker where
  probe : Option SeekProbe := none
  seekFailures : ℕ := 0
  pauseSample : Option (ℚ × ℚ) := none
  stableSamples : ℕ := 0
  pauseFailures : ℕ := 0
  pauseSettled : Bool := false
  pauseSeekKey : Option (ℚ × ℚ) := none
  deriving DecidableEq

structure SeekWrite where
  anchorMs : ℚ
  fromSec : Reading
  targetSec : Reading
  nowMs : ℚ
  deriving DecidableEq

/-- An absent drift could not be measured. -/
structure SeekRead where
  anchorMs : ℚ
  currentSec : Reading
  driftSec : Option ℚ
  thresholdSec : ℚ
  roomPaused : Bool
  nowMs : ℚ
  deriving DecidableEq

def SeekRead.far (read : SeekRead) : Bool :=
  match read.driftSec with
  | none => true
  | some driftSec => decide (read.thresholdSec < driftSec)

namespace NativeSyncTracker

def resetPauseSamples (t : NativeSyncTracker) : NativeSyncTracker :=
  { t with pauseSample := none, stableSamples := 0, pauseFailures := 0, pauseSettled := false }

def noteSeek (t : NativeSyncTracker) (write : SeekWrite) : NativeSyncTracker :=
  let t := t.resetPauseSamples
  match t.probe.filter fun probe => probe.anchorMs = write.anchorMs with
  | some probe =>
    { t with
      probe := some { probe with
        targetSec := write.targetSec
        writtenAtMs := write.nowMs
        lastNearRoom := false } }
  | none =>
    { t with
      probe := some {
        anchorMs := write.anchorMs
        fromSec := write.fromSec
        targetSec := write.targetSec
        writtenAtMs := write.nowMs
        lastSampleSec := write.fromSec
        lastSampleAtMs := write.nowMs
        lastNearRoom := false }
      seekFailures := 0 }

def dropProbe (t : NativeSyncTracker) : NativeSyncTracker :=
  { t with probe := none, seekFailures := 0 }

def fail (t : NativeSyncTracker) : NativeSeekVerdict × NativeSyncTracker :=
  if NATIVE_MAX_VERIFY_FAILURES ≤ t.seekFailures+1 then (.gaveUp,t.dropProbe)
  else (.pending,{ t with seekFailures := t.seekFailures+1 })

def sample (t : NativeSyncTracker) (probe : SeekProbe) (read : SeekRead) (near : Bool) :
    NativeSyncTracker :=
  { t with
    probe := some { probe with
      lastSampleSec := read.currentSec
      lastSampleAtMs := read.nowMs
      lastNearRoom := near } }

/-- The read of a playing room, near its clock and not too early. -/
def evaluatePlaying (t : NativeSyncTracker) (probe : SeekProbe) (read : SeekRead) :
    NativeSeekVerdict × NativeSyncTracker :=
  let sampleGapOk := decide (NATIVE_MIN_SAMPLE_GAP_MS ≤ read.nowMs-probe.lastSampleAtMs)
  let advanced := (read.currentSec.distance probe.lastSampleSec).atLeast NATIVE_STALE_EPSILON_SEC
  let sampled := t.sample probe read true
  if probe.lastNearRoom && advanced then (.confirmed,sampled.dropProbe)
  else if probe.lastNearRoom && sampleGapOk && !advanced then sampled.fail
  else (.pending,sampled)

def evaluatePaused (t : NativeSyncTracker) (probe : SeekProbe) (read : SeekRead) :
    NativeSeekVerdict × NativeSyncTracker :=
  let moved := hasPlayheadMovedToward probe.fromSec read.currentSec probe.targetSec
  let stale := !moved && decide (NATIVE_MIN_SAMPLE_GAP_MS ≤ read.nowMs-probe.lastSampleAtMs) &&
    (read.currentSec.distance probe.lastSampleSec).below NATIVE_STALE_EPSILON_SEC
  let sampled := t.sample probe read probe.lastNearRoom
  if !moved && stale then sampled.fail else (.confirmed,sampled.dropProbe)

def evaluateSeek (t : NativeSyncTracker) (read : SeekRead) :
    NativeSeekVerdict × NativeSyncTracker :=
  match t.probe with
  | none => (.noProbe,t)
  | some probe =>
    if probe.anchorMs ≠ read.anchorMs then (.noProbe,t.dropProbe)
    else if read.far then (t.sample probe read probe.lastNearRoom).fail
    else if read.nowMs-probe.writtenAtMs < NATIVE_MIN_CONFIRM_MS then (.pending,t)
    else if !read.roomPaused then t.evaluatePlaying probe read
    else t.evaluatePaused probe read

/-- Whether the provider is quiescent; a playhead that is not finite is no sample. -/
def samplePauseQuiescence (t : NativeSyncTracker) (currentSec : Reading) (wrapperPlaying : Bool)
    (nowMs : ℚ) : Bool × NativeSyncTracker :=
  match currentSec with
  | .finite sec =>
    match t.pauseSample with
    | none => (false,{ t with pauseSample := some (sec,nowMs), stableSamples := 0 })
    | some (lastSec,lastMs) =>
      if nowMs-lastMs < NATIVE_PAUSE_MIN_SAMPLE_GAP_MS then (t.pauseSettled,t)
      else
        let t := { t with pauseSample := some (sec,nowMs) }
        if NATIVE_QUIESCE_EPSILON_SEC < |sec-lastSec| ∨ wrapperPlaying then
          let t := { t with
            stableSamples := 0
            pauseSettled := false
            pauseFailures := t.pauseFailures+1 }
          if NATIVE_MAX_VERIFY_FAILURES*2 ≤ t.pauseFailures then
            (true,{ t with pauseSettled := true })
          else (false,t)
        else
          let t := { t with stableSamples := t.stableSamples+1 }
          if NATIVE_QUIESCENT_SAMPLES-1 ≤ t.stableSamples then
            (true,{ t with pauseFailures := 0, pauseSettled := true })
          else (false,t)
  | _ => (false,t)

def claimPauseSeek (t : NativeSyncTracker) (key : ℚ × ℚ) : Bool × NativeSyncTracker :=
  if t.pauseSeekKey = some key then (false,t) else (true,{ t with pauseSeekKey := some key })

end NativeSyncTracker

inductive SeekCall
  | noteSeek (write : SeekWrite)
  | evaluateSeek (read : SeekRead)
  deriving DecidableEq

namespace SeekCall

def nowMs : SeekCall → ℚ
  | noteSeek write => write.nowMs
  | evaluateSeek read => read.nowMs

def isRead : SeekCall → Bool
  | noteSeek _ => false
  | evaluateSeek _ => true

def playing : SeekCall → Bool
  | noteSeek _ => true
  | evaluateSeek read => !read.roomPaused

end SeekCall

namespace NativeSyncTracker

def call (t : NativeSyncTracker) : SeekCall → NativeSyncTracker
  | .noteSeek write => t.noteSeek write
  | .evaluateSeek read => (t.evaluateSeek read).2

def run (calls : List SeekCall) : NativeSyncTracker := calls.foldl call {}

section Probe

variable {t : NativeSyncTracker} {probe : SeekProbe} {read : SeekRead}

theorem fail_cases (h : t.fail.1 = .confirmed) : False := by
  unfold fail at h
  split at h <;> cases h

theorem fail_probe (h : t.fail.2.probe = some probe) : t.probe = some probe := by
  unfold fail at h
  split at h
  · cases h
  · exact h

theorem noteSeek_probe {write : SeekWrite} (h : (t.noteSeek write).probe = some probe) :
    probe.writtenAtMs = write.nowMs ∧ probe.lastNearRoom = false := by
  unfold noteSeek at h
  dsimp only at h
  split at h
  · obtain rfl := Option.some.inj h
    exact ⟨rfl,rfl⟩
  · obtain rfl := Option.some.inj h
    exact ⟨rfl,rfl⟩

/-- The probe that a read of a playing room leaves: as it was, or with the read as its sample. Only
a read that is near the room and late enough may make it one that is near. -/
theorem evaluateSeek_probe (hplaying : read.roomPaused = false)
    (h : (t.evaluateSeek read).2.probe = some probe) :
    ∃ old, t.probe = some old ∧ probe.writtenAtMs = old.writtenAtMs ∧
      (probe = old ∨ probe.lastSampleSec = read.currentSec ∧
        (probe.lastNearRoom = true → old.lastNearRoom = true ∨
          NATIVE_MIN_CONFIRM_MS ≤ read.nowMs-old.writtenAtMs)) := by
  unfold evaluateSeek at h
  split at h
  · rename_i hnone
    rw [hnone] at h
    cases h
  · rename_i old hold
    split at h
    · cases h
    split at h
    · obtain rfl := Option.some.inj (fail_probe h)
      exact ⟨old,hold,rfl,Or.inr ⟨rfl,fun hnear => Or.inl hnear⟩⟩
    split at h
    · rw [hold] at h
      exact ⟨old,hold,by rw [Option.some.inj h],Or.inl (Option.some.inj h).symm⟩
    · rename_i hlate
      have hsampled : ∀ p, (t.sample old read true).probe = some p →
          p.writtenAtMs = old.writtenAtMs ∧ p.lastSampleSec = read.currentSec := by
        intro p hp
        obtain rfl := Option.some.inj hp
        exact ⟨rfl,rfl⟩
      have hprobe : (t.sample old read true).probe = some probe := by
        rw [if_pos (by simp [hplaying])] at h
        unfold evaluatePlaying at h
        dsimp only at h
        split at h
        · cases h
        split at h
        · exact fail_probe h
        · exact h
      obtain ⟨hwritten,hsample⟩ := hsampled probe hprobe
      exact ⟨old,hold,hwritten,Or.inr ⟨hsample,fun _ => Or.inr (not_lt.mp hlate)⟩⟩

theorem evaluateSeek_confirmed (hplaying : read.roomPaused = false)
    (h : (t.evaluateSeek read).1 = .confirmed) :
    ∃ old, t.probe = some old ∧ old.lastNearRoom = true ∧
      NATIVE_MIN_CONFIRM_MS ≤ read.nowMs-old.writtenAtMs ∧
      (read.currentSec.distance old.lastSampleSec).atLeast NATIVE_STALE_EPSILON_SEC = true ∧
      ∃ driftSec, read.driftSec = some driftSec ∧ driftSec ≤ read.thresholdSec := by
  unfold evaluateSeek at h
  split at h
  · cases h
  · rename_i old hold
    split at h
    · cases h
    split at h
    · exact (fail_cases h).elim
    rename_i hnear
    split at h
    · cases h
    rename_i hlate
    have hdrift : ∃ driftSec, read.driftSec = some driftSec ∧ driftSec ≤ read.thresholdSec := by
      unfold SeekRead.far at hnear
      cases hdrift : read.driftSec with
      | none => simp [hdrift] at hnear
      | some driftSec => exact ⟨driftSec,rfl,by simpa [hdrift] using hnear⟩
    rw [if_pos (by simp [hplaying])] at h
    unfold evaluatePlaying at h
    dsimp only at h
    split at h
    · rename_i hadvanced
      obtain ⟨hwas,hadvanced⟩ := Bool.and_eq_true_iff.mp hadvanced
      exact ⟨old,hold,hwas,not_lt.mp hlate,hadvanced,hdrift⟩
    split at h
    · exact (fail_cases h).elim
    · cases h

end Probe

end NativeSyncTracker

/-- The last write of some calls, and the reads since. -/
def LastSeekWrite (calls : List SeekCall) (write : SeekWrite) (since : List SeekCall) : Prop :=
  (∃ before, calls = before ++ .noteSeek write :: since) ∧ ∀ c ∈ since, c.isRead = true

/-- A probe stands for the last write; if its sample is near the room then it was read late enough
after that write. -/
def ProbeSound (calls : List SeekCall) (probe : SeekProbe) : Prop :=
  ∃ write since, LastSeekWrite calls write since ∧ probe.writtenAtMs = write.nowMs ∧
    (probe.lastNearRoom = true → ∃ read, .evaluateSeek read ∈ since ∧
      read.currentSec = probe.lastSampleSec ∧ NATIVE_MIN_CONFIRM_MS ≤ read.nowMs-write.nowMs)

section Sound

variable {calls : List SeekCall} {read : SeekRead} {probe : SeekProbe}

theorem LastSeekWrite.append_read {write : SeekWrite} {since : List SeekCall}
    (h : LastSeekWrite calls write since) (read : SeekRead) :
    LastSeekWrite (calls ++ [.evaluateSeek read]) write (since ++ [.evaluateSeek read]) := by
  obtain ⟨⟨before,rfl⟩,hreads⟩ := h
  refine ⟨⟨before,by rw [List.append_assoc,List.cons_append]⟩,fun c hc => ?_⟩
  rcases List.mem_append.mp hc with hc | hc
  · exact hreads c hc
  · rw [List.mem_singleton.mp hc]
    rfl

theorem ProbeSound.append_read {old : SeekProbe} (hold : ProbeSound calls old)
    (hclock : ∀ c ∈ calls, c.nowMs ≤ read.nowMs) (hwritten : probe.writtenAtMs = old.writtenAtMs)
    (h : probe = old ∨ probe.lastSampleSec = read.currentSec ∧
      (probe.lastNearRoom = true → old.lastNearRoom = true ∨
        NATIVE_MIN_CONFIRM_MS ≤ read.nowMs-old.writtenAtMs)) :
    ProbeSound (calls ++ [.evaluateSeek read]) probe := by
  obtain ⟨write,since,hlast,hwrite,hsample⟩ := hold
  refine ⟨write,_,hlast.append_read read,hwritten.trans hwrite,fun hnear => ?_⟩
  rcases h with rfl | ⟨hcurrent,hlate⟩
  · obtain ⟨earlier,hmem,hsec,hms⟩ := hsample hnear
    exact ⟨earlier,List.mem_append_left _ hmem,hsec,hms⟩
  · refine ⟨read,List.mem_append_right _ List.mem_cons_self,hcurrent.symm,?_⟩
    rcases hlate hnear with hwas | hlate
    · -- A far read after a near one comes no earlier than that one.
      obtain ⟨earlier,hmem,-,hms⟩ := hsample hwas
      obtain ⟨before,hcalls⟩ := hlast.1
      have hle : earlier.nowMs ≤ read.nowMs := hclock (.evaluateSeek earlier) (by
        rw [hcalls]
        exact List.mem_append_right _ (List.mem_cons_of_mem _ hmem))
      linarith
    · rwa [hwrite] at hlate

/-- The probe is sound after any calls about playing rooms, in the order of the clock. -/
theorem probeSound_of_run (hplaying : ∀ c ∈ calls, c.playing = true)
    (hclock : calls.Pairwise fun c d => c.nowMs ≤ d.nowMs)
    (h : (NativeSyncTracker.run calls).probe = some probe) : ProbeSound calls probe := by
  induction calls using List.reverseRecOn generalizing probe with
  | nil => cases h
  | append_singleton calls c ih =>
    have hplaying' : ∀ d ∈ calls, d.playing = true :=
      fun d hd => hplaying d (List.mem_append_left _ hd)
    obtain ⟨hclock',-,hlater⟩ := List.pairwise_append.mp hclock
    have hrun : NativeSyncTracker.run (calls ++ [c]) = (NativeSyncTracker.run calls).call c := by
      simp [NativeSyncTracker.run]
    rw [hrun] at h
    cases c with
    | noteSeek write =>
      obtain ⟨hwritten,hfresh⟩ := NativeSyncTracker.noteSeek_probe h
      refine ⟨write,[],⟨⟨calls,rfl⟩,fun c hc => absurd hc List.not_mem_nil⟩,hwritten,fun hnear => ?_⟩
      rw [hfresh] at hnear
      cases hnear
    | evaluateSeek read =>
      have hroom : read.roomPaused = false := by
        simpa [SeekCall.playing] using hplaying (.evaluateSeek read) (by simp)
      obtain ⟨old,hold,hwritten,hprobe⟩ := NativeSyncTracker.evaluateSeek_probe hroom h
      exact (ih hplaying' hclock' hold).append_read (fun d hd => hlater d hd _ List.mem_cons_self)
        hwritten hprobe

end Sound

/-- Every read since a write reports the time that the write asked for. -/
def Echoes (calls : List SeekCall) : Prop :=
  ∀ before write since read rest,
    calls = before ++ .noteSeek write :: (since ++ .evaluateSeek read :: rest) →
      (∀ c ∈ since, c.isRead = true) → read.currentSec = write.targetSec

theorem Echoes.same {calls since : List SeekCall} {write : SeekWrite} {earlier read : SeekRead}
    (h : Echoes (calls ++ [.evaluateSeek read])) (hlast : LastSeekWrite calls write since)
    (hmem : .evaluateSeek earlier ∈ since) :
    earlier.currentSec = write.targetSec ∧ read.currentSec = write.targetSec := by
  obtain ⟨⟨before,rfl⟩,hreads⟩ := hlast
  obtain ⟨first,rest,rfl⟩ := List.append_of_mem hmem
  constructor
  · refine h before write first earlier (rest ++ [.evaluateSeek read]) ?_ ?_
    · simp
    · exact fun c hc => hreads c (List.mem_append_left _ hc)
  · refine h before write (first ++ .evaluateSeek earlier :: rest) read [] ?_ hreads
    simp

/-- A seek is confirmed in a playing room only by two reads that differ, both late enough after the
last write and the second one near the room clock; so an echo confirms nothing. -/
theorem native_seek_confirmed (calls : List SeekCall) (read : SeekRead)
    (hplaying : ∀ c ∈ calls ++ [SeekCall.evaluateSeek read], c.playing = true)
    (hclock : (calls ++ [SeekCall.evaluateSeek read]).Pairwise fun c d => c.nowMs ≤ d.nowMs)
    (h : ((NativeSyncTracker.run calls).evaluateSeek read).1 = .confirmed) :
    (∃ write since earlier, LastSeekWrite calls write since ∧
      .evaluateSeek earlier ∈ since ∧
      NATIVE_MIN_CONFIRM_MS ≤ earlier.nowMs-write.nowMs ∧
      NATIVE_MIN_CONFIRM_MS ≤ read.nowMs-write.nowMs ∧
      (read.currentSec.distance earlier.currentSec).atLeast NATIVE_STALE_EPSILON_SEC = true ∧
      ∃ driftSec, read.driftSec = some driftSec ∧ driftSec ≤ read.thresholdSec) ∧
    ¬Echoes (calls ++ [SeekCall.evaluateSeek read]) := by
  obtain ⟨hclock',-,-⟩ := List.pairwise_append.mp hclock
  have hroom : read.roomPaused = false := by
    simpa [SeekCall.playing] using hplaying (.evaluateSeek read) (by simp)
  obtain ⟨probe,hprobe,hnear,hlate,hadvanced,hdrift⟩ :=
    NativeSyncTracker.evaluateSeek_confirmed hroom h
  obtain ⟨write,since,hlast,hwritten,hsample⟩ :=
    probeSound_of_run (fun c hc => hplaying c (List.mem_append_left _ hc)) hclock' hprobe
  obtain ⟨earlier,hmem,hsec,hms⟩ := hsample hnear
  rw [hwritten] at hlate
  rw [← hsec] at hadvanced
  refine ⟨⟨write,since,earlier,hlast,hmem,hms,hlate,hadvanced,hdrift⟩,fun hecho => ?_⟩
  obtain ⟨hfirst,hsecond⟩ := hecho.same hlast hmem
  rw [hfirst,hsecond,Reading.not_atLeast_self _ (by norm_num [NATIVE_STALE_EPSILON_SEC])] at hadvanced
  cases hadvanced

def seekAndLook : List SeekCall :=
  [.noteSeek ⟨0,.finite 3,.finite 10,0⟩,.evaluateSeek ⟨0,.finite 10,some 0,4/5,false,200⟩]

theorem native_seek_confirmed_moving :
    (∃ write since earlier, LastSeekWrite seekAndLook write since ∧
      .evaluateSeek earlier ∈ since ∧
      NATIVE_MIN_CONFIRM_MS ≤ earlier.nowMs-write.nowMs ∧
      NATIVE_MIN_CONFIRM_MS ≤ 400-write.nowMs ∧
      ((Reading.finite (51/5)).distance earlier.currentSec).atLeast NATIVE_STALE_EPSILON_SEC =
        true ∧
      ∃ driftSec, some (0 : ℚ) = some driftSec ∧ driftSec ≤ 4/5) ∧
    ¬Echoes (seekAndLook ++ [.evaluateSeek ⟨0,.finite (51/5),some 0,4/5,false,400⟩]) :=
  native_seek_confirmed seekAndLook ⟨0,.finite (51/5),some 0,4/5,false,400⟩ (by decide +kernel)
    (by decide +kernel) (by decide +kernel)

end WebSyncPlay
