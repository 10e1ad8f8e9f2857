import WebSyncPlay.BlockProtocol
import WebSyncPlay.Library.TransitionSystem

/-! The body of a range request for local media (`local-media-relay/fetch.ts`): one aligned block
for each pull, cut to what is still wanted. A block is what the provider, or the cache of what it
once sent, replies. -/
namespace WebSyncPlay

open Library

def LOCAL_MEDIA_RELAY_CHUNK_BYTES : ℤ := LOCAL_MEDIA_MAX_BLOCK_BYTES

def alignedBlockStart (offset chunkBytes : ℤ) : ℤ := offset/chunkBytes*chunkBytes

def subarray (bytes : List UInt8) (start stop : ℤ) : List UInt8 :=
  (bytes.take stop.toNat).drop start.toNat

section Subarray

variable (bytes : List UInt8) {a b c : ℤ}

theorem subarray_length (h : b ≤ bytes.length) :
    (subarray bytes a b).length = b.toNat-a.toNat := by
  rw [subarray,List.length_drop,List.length_take]
  omega

theorem subarray_eq_nil (h : b ≤ a) : subarray bytes a b = [] := by
  rw [subarray,List.drop_eq_nil_iff,List.length_take]
  omega

theorem subarray_append (ha : 0 ≤ a) (hb : a ≤ b) (hc : b ≤ c) :
    subarray bytes a b ++ subarray bytes b c = subarray bytes a c := by
  obtain ⟨i,rfl⟩ := Int.eq_ofNat_of_zero_le ha
  obtain ⟨j,rfl⟩ := Int.eq_ofNat_of_zero_le (ha.trans hb)
  obtain ⟨k,rfl⟩ := Int.eq_ofNat_of_zero_le ((ha.trans hb).trans hc)
  have hij : i ≤ j := by omega
  have hjk : j ≤ k := by omega
  simp only [subarray,Int.toNat_natCast,List.drop_take]
  rw [show k-i = j-i+(k-j) by omega,List.take_add,List.drop_drop,show i+(j-i) = j by omega]

theorem subarray_subarray {start stop : ℤ} (hstart : 0 ≤ start) (ha : 0 ≤ a)
    (hstop : start+b ≤ stop) :
    subarray (subarray bytes start stop) a b = subarray bytes (start+a) (start+b) := by
  obtain ⟨i,rfl⟩ := Int.eq_ofNat_of_zero_le hstart
  obtain ⟨j,rfl⟩ := Int.eq_ofNat_of_zero_le ha
  by_cases hb : 0 ≤ b
  · obtain ⟨k,rfl⟩ := Int.eq_ofNat_of_zero_le hb
    simp only [subarray,Int.toNat_natCast,List.drop_take,List.take_take,
      List.drop_drop]
    rw [show ((i : ℤ)+j).toNat = i+j by omega,show ((i : ℤ)+k).toNat = i+k by omega]
    congr 1
    omega
  · rw [subarray_eq_nil _ (by omega),subarray_eq_nil _ (by omega)]

end Subarray

inductive StreamStatus
  | running
  | closed
  | errored
  | cancelled
  deriving DecidableEq

structure ByteStream where
  offset : ℤ
  status : StreamStatus
  /-- All chunks so far, one after the other. -/
  output : List UInt8
  deriving DecidableEq

structure ByteStreamRequest where
  sizeBytes : ℕ
  start : ℕ
  stop : ℤ

/-- What the stream is asked for. A pull brings the block that it will be given, if any. -/
inductive StreamEvent
  | pull (reply : Option (List UInt8))
  | cancel
  deriving DecidableEq

namespace ByteStreamRequest

def last (r : ByteStreamRequest) : ℤ := min r.stop (r.sizeBytes-1)

def createLocalMediaByteStream (r : ByteStreamRequest) : ByteStream where
  offset := r.start
  status := .running
  output := []

def blockStart (s : ByteStream) : ℤ := alignedBlockStart s.offset LOCAL_MEDIA_RELAY_CHUNK_BYTES

def blockEnd (r : ByteStreamRequest) (s : ByteStream) : ℤ :=
  min (blockStart s+LOCAL_MEDIA_RELAY_CHUNK_BYTES-1) (r.sizeBytes-1)

def pull (r : ByteStreamRequest) (s : ByteStream) (reply : Option (List UInt8)) : ByteStream :=
  if r.last < s.offset then { s with status := .closed }
  else
    match reply with
    | none => { s with status := .errored }
    | some bytes =>
      let blockEnd := blockStart s+bytes.length-1
      let sliceFrom := s.offset-blockStart s
      let sliceTo := min r.last blockEnd-blockStart s+1
      { s with
        offset := blockStart s+sliceTo
        output := s.output ++ subarray bytes sliceFrom sliceTo }

/-- Nothing is pulled from a stream that has ended. -/
def streamStep (r : ByteStreamRequest) (s : ByteStream) : StreamEvent → Option ByteStream
  | .pull reply => if s.status = .running then some (r.pull s reply) else none
  | .cancel =>
    if s.status = .running then some { s with offset := r.last+1, status := .cancelled } else none

def Progress (s s' : ByteStream) : Prop := s.offset < s'.offset ∨ s'.status ≠ .running

/-- A block that is used reaches beyond the offset. -/
def Reaches (r : ByteStreamRequest) (s : ByteStream) : StreamEvent → Prop
  | .pull (some bytes) => s.offset ≤ r.last → s.offset-blockStart s < bytes.length
  | _ => True

def FromFile (r : ByteStreamRequest) (file : List UInt8) (s : ByteStream) : StreamEvent → Prop
  | .pull (some bytes) => s.offset ≤ r.last →
      bytes = subarray file (blockStart s) (r.blockEnd s+1)
  | _ => True

section Pull

variable {r : ByteStreamRequest} {s s' : ByteStream} {event : StreamEvent}

theorem blockStart_le (s : ByteStream) :
    blockStart s ≤ s.offset ∧ s.offset < blockStart s+LOCAL_MEDIA_RELAY_CHUNK_BYTES := by
  have hpos : 0 < LOCAL_MEDIA_RELAY_CHUNK_BYTES := by decide
  have hle := Int.ediv_mul_le s.offset hpos.ne'
  have hlt := Int.lt_ediv_add_one_mul_self s.offset hpos
  rw [add_mul,one_mul] at hlt
  exact ⟨hle,hlt⟩

theorem blockStart_nonneg (h : 0 ≤ s.offset) : 0 ≤ blockStart s :=
  mul_nonneg (Int.ediv_nonneg h (by decide)) (by decide)

theorem requested_block_valid (h : 0 ≤ s.offset) (hlast : s.offset ≤ r.last) :
    0 ≤ blockStart s ∧ blockStart s ≤ r.blockEnd s ∧ r.blockEnd s < r.sizeBytes := by
  have hstart := blockStart_nonneg h
  obtain ⟨hle,-⟩ := blockStart_le s
  have hchunk : 0 < LOCAL_MEDIA_RELAY_CHUNK_BYTES := by decide
  simp only [last,blockEnd] at *
  omega

theorem streamStep_cases (h : r.streamStep s event = some s') :
    s.status = .running ∧
      (s'.status ≠ .running ∧ s'.output = s.output ∧
          (s'.status = .closed → r.last < s.offset ∧ s'.offset = s.offset) ∨
        s'.status = .running ∧ s.offset ≤ r.last ∧ ∃ bytes, event = .pull (some bytes) ∧
          s'.offset = min (r.last+1) (blockStart s+bytes.length) ∧
          s'.output = s.output ++
            subarray bytes (s.offset-blockStart s) (s'.offset-blockStart s)) := by
  cases event with
  | cancel =>
    rw [streamStep] at h
    split at h
    · rename_i hrunning
      obtain rfl := Option.some.inj h
      exact ⟨hrunning,Or.inl ⟨nofun,rfl,nofun⟩⟩
    · cases h
  | pull reply =>
    rw [streamStep] at h
    split at h
    · rename_i hrunning
      obtain rfl := Option.some.inj h
      refine ⟨hrunning,?_⟩
      unfold pull
      split
      · rename_i hpast
        exact Or.inl ⟨nofun,rfl,fun _ => ⟨hpast,rfl⟩⟩
      · rename_i hwanted
        cases reply with
        | none => exact Or.inl ⟨nofun,rfl,nofun⟩
        | some bytes =>
          have hoffset : blockStart s+(min r.last (blockStart s+bytes.length-1)-blockStart s+1) =
              min (r.last+1) (blockStart s+bytes.length) := by
            omega
          refine Or.inr ⟨hrunning,not_lt.mp hwanted,bytes,rfl,hoffset,?_⟩
          dsimp only
          rw [add_sub_cancel_left]
    · cases h

theorem progress_iff (h : r.streamStep s event = some s') : Progress s s' ↔ r.Reaches s event := by
  obtain ⟨hrunning,⟨hended,-,-⟩ | ⟨hgoes,hwanted,bytes,rfl,hoffset,-⟩⟩ := streamStep_cases h
  · refine iff_of_true (Or.inr hended) ?_
    cases event with
    | cancel => trivial
    | pull reply =>
      cases reply with
      | none => trivial
      | some bytes =>
        intro hwanted
        rw [streamStep,if_pos hrunning] at h
        obtain rfl := Option.some.inj h
        rw [pull,if_neg (not_lt.mpr hwanted)] at hended
        exact absurd hrunning hended
  · rw [Progress,Reaches,hoffset]
    constructor
    · rintro (hless | hended) -
      · omega
      · exact absurd hgoes hended
    · intro hreach
      have hreach := hreach hwanted
      exact Or.inl (by omega)

end Pull

/-- Where a stream is whose blocks all reach: as many bytes came out as the offset has moved. -/
def Metered (r : ByteStreamRequest) (s : ByteStream) : Prop :=
  (s.output.length : ℤ) ≤ max 0 (r.last+1-r.start) ∧
    (s.status = .running → s.offset ≤ max (r.start : ℤ) (r.last+1) ∧
      (s.output.length : ℤ) = s.offset-r.start)

/-- The bytes of the file from the start up to the offset came out. -/
def Copied (r : ByteStreamRequest) (file : List UInt8) (s : ByteStream) : Prop :=
  (s.status = .running → (r.start : ℤ) ≤ s.offset ∧ s.offset ≤ max (r.start : ℤ) (r.last+1) ∧
      s.output = subarray file r.start s.offset) ∧
    (s.status = .closed → s.output = subarray file r.start (r.last+1))

section Run

variable {r : ByteStreamRequest} {s s' : ByteStream} {event : StreamEvent}

theorem Metered.step (hs : r.Metered s) (h : r.streamStep s event = some s')
    (hreach : r.Reaches s event) : r.Metered s' := by
  obtain ⟨hrunning,⟨hended,hout,-⟩ | ⟨-,hwanted,bytes,rfl,hoffset,hout⟩⟩ := streamStep_cases h
  · refine ⟨?_,fun hgoes => absurd hgoes hended⟩
    rw [hout]
    exact hs.1
  · obtain ⟨hle,hlen⟩ := hs.2 hrunning
    have hreach := hreach hwanted
    obtain ⟨hbelow,-⟩ := blockStart_le s
    have hslice := subarray_length bytes (a := s.offset-blockStart s)
      (b := s'.offset-blockStart s) (by omega)
    have htotal : (s'.output.length : ℤ) = s'.offset-r.start := by
      rw [hout,List.length_append,hslice]
      omega
    refine ⟨by omega,fun _ => ⟨by omega,htotal⟩⟩

def pullsLeft (r : ByteStreamRequest) (s : ByteStream) : ℕ :=
  if s.status = .running then (r.last+1-s.offset).toNat+1 else 0

theorem pullsLeft_lt (h : r.streamStep s event = some s') (hprogress : Progress s s') :
    r.pullsLeft s' < r.pullsLeft s := by
  obtain ⟨hrunning,⟨hended,-,-⟩ | ⟨hgoes,hwanted,bytes,-,hoffset,-⟩⟩ := streamStep_cases h
  · rw [pullsLeft,if_neg hended,pullsLeft,if_pos hrunning]
    omega
  · have hless : s.offset < s'.offset := hprogress.resolve_right (not_not.mpr hgoes)
    rw [pullsLeft,if_pos hgoes,pullsLeft,if_pos hrunning]
    omega

theorem Copied.step {file : List UInt8} (hfile : file.length = r.sizeBytes) (hs : r.Copied file s)
    (h : r.streamStep s event = some s') (hblock : r.FromFile file s event) :
    r.Copied file s' := by
  obtain ⟨hrunning,⟨hended,hout,hclosed⟩ | ⟨hgoes,hwanted,bytes,rfl,hoffset,hout⟩⟩ :=
    streamStep_cases h
  · obtain ⟨hstart,hle,hcopied⟩ := hs.1 hrunning
    refine ⟨fun hgoes => absurd hgoes hended,fun hclose => ?_⟩
    obtain ⟨hpast,-⟩ := hclosed hclose
    rw [hout,hcopied]
    by_cases hempty : r.last+1 ≤ r.start
    · rw [subarray_eq_nil _ hempty,subarray_eq_nil _ (by omega)]
    · rw [show s.offset = r.last+1 by omega]
  · obtain ⟨hstart,hle,hcopied⟩ := hs.1 hrunning
    have hblock := hblock hwanted
    have hnonneg : 0 ≤ s.offset := by omega
    obtain ⟨hbegin,hend,hsize⟩ := requested_block_valid hnonneg hwanted
    obtain ⟨hbelow,habove⟩ := blockStart_le s
    have hlength : (bytes.length : ℤ) = r.blockEnd s+1-blockStart s := by
      rw [hblock,subarray_length _ (by omega)]
      omega
    have hlast : r.last < r.sizeBytes := by
      rw [last]
      omega
    have hend' : r.blockEnd s = min (blockStart s+LOCAL_MEDIA_RELAY_CHUNK_BYTES-1)
        (r.sizeBytes-1) := rfl
    have hforward : s.offset ≤ s'.offset := by omega
    refine ⟨fun _ => ⟨by omega,by omega,?_⟩,fun hclose => ?_⟩
    · have hstop : blockStart s+(s'.offset-blockStart s) ≤ r.blockEnd s+1 := by omega
      have hpart := subarray_subarray file (a := s.offset-blockStart s) hbegin (by omega) hstop
      rw [add_sub_cancel,add_sub_cancel] at hpart
      rw [hout,hcopied,hblock,hpart]
      exact subarray_append file (by omega) hstart hforward
    · rw [hgoes] at hclose
      cases hclose

end Run

/-- A stream that does what it is for: every pull gets it further or ends it, so it ends; it sends
no more than the range has; and it sends the range, if the blocks are the file's. -/
structure StreamSound (r : ByteStreamRequest) (events : List StreamEvent) : Prop where
  progress : EachStep r.streamStep (fun s _ s' => Progress s s') r.createLocalMediaByteStream events
  ends : ∀ s, TransitionSystem.runSteps r.streamStep r.createLocalMediaByteStream events = some s →
    (events.length : ℤ) ≤ max 0 (r.last-r.start+1)+1
  bounded : ∀ n s, TransitionSystem.runSteps r.streamStep r.createLocalMediaByteStream
    (events.take n) = some s → (s.output.length : ℤ) ≤ max 0 (r.last-r.start+1)
  exactly : ∀ file, file.length = r.sizeBytes →
    EachStep r.streamStep (fun s event _ => r.FromFile file s event) r.createLocalMediaByteStream
      events →
    ∀ s, TransitionSystem.runSteps r.streamStep r.createLocalMediaByteStream events = some s →
      s.status = .closed → s.output = subarray file r.start (r.last+1)

end ByteStreamRequest

open ByteStreamRequest

/-- Whatever the replies, a stream does what it is for exactly when every block that it is given
reaches beyond its offset. -/
theorem byte_stream_sound_iff (r : ByteStreamRequest) (events : List StreamEvent) :
    r.StreamSound events ↔
      EachStep r.streamStep (fun s event _ => r.Reaches s event) r.createLocalMediaByteStream
        events := by
  have hiff : EachStep r.streamStep (fun s _ s' => Progress s s') r.createLocalMediaByteStream
        events ↔
      EachStep r.streamStep (fun s event _ => r.Reaches s event) r.createLocalMediaByteStream
        events :=
    eachStep_iff (fun _ => True)
      (fun s event s' _ (hs : r.streamStep s event = some s') => progress_iff hs)
      (fun _ _ _ _ _ _ => trivial) events trivial
  constructor
  · intro h
    exact hiff.mp h.progress
  · intro h
    have hstart : r.Metered r.createLocalMediaByteStream := by
      simp [Metered,createLocalMediaByteStream]
    refine ⟨hiff.mpr h,fun s hs => ?_,fun n s hs => ?_,fun file hfile hblocks s hs hclosed => ?_⟩
    · have hlength := (hiff.mpr h).length_le r.pullsLeft (fun _ _ _ => pullsLeft_lt) hs
      have hall : r.pullsLeft r.createLocalMediaByteStream = (r.last+1-r.start).toNat+1 := rfl
      omega
    · have hmetered := (h.take n).invariant r.Metered (fun _ _ _ hs => hs.step) hstart hs
      have hbound := hmetered.1
      omega
    · have hcopied : r.Copied file r.createLocalMediaByteStream := by
        refine ⟨fun _ => ⟨le_rfl,le_max_left _ _,?_⟩,nofun⟩
        exact (subarray_eq_nil file le_rfl).symm
      exact (hblocks.invariant (r.Copied file) (fun _ _ _ hs => hs.step hfile) hcopied hs).2 hclosed

theorem byte_stream_sound_of_three_bytes :
    StreamSound ⟨3,0,2⟩ [.pull (some [7,8,9]),.pull none] := by
  refine (byte_stream_sound_iff _ _).mpr ?_
  rintro s ⟨⟩
  refine ⟨fun _ => by decide,?_⟩
  rintro s' ⟨⟩
  exact ⟨trivial,trivial⟩

/-- A provider that answers a block with nothing keeps the stream where it is. -/
theorem empty_block_stalls : ¬∀ (r : ByteStreamRequest) (events : List StreamEvent),
    r.StreamSound events := by
  intro h
  have hprogress := ((h ⟨10,0,9⟩ [.pull (some [])]).progress _ rfl).1
  rcases hprogress with hless | hended
  · exact absurd hless (by decide)
  · exact hended rfl

end WebSyncPlay
