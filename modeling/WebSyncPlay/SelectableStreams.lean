import WebSyncPlay.YtDlpDump
import WebSyncPlay.Library.Text

/-! `media/resolve/build-selectable-streams.ts`: the bounded catalog of streams that a browser can
play, one adaptive entry and a ladder of progressive ones. -/
namespace WebSyncPlay
namespace MediaCatalog

open Library

section Texts

/-- Lower case, as far as the patterns below can tell. -/
def lowerText (s : String) : List Char := s.toList.map Char.toLower

def includesText (s pattern : List Char) : Bool := s.tails.any fun tail => pattern.isPrefixOf tail

/-- `/pattern(\?|$)/` -/
def endsPath (s pattern : List Char) : Bool :=
  s.tails.any fun tail => pattern.isPrefixOf tail &&
    match tail.drop pattern.length with
    | [] => true
    | c :: _ => c = '?'

/-- `/audio[_\s-]?desc/` -/
def hasAudioDesc (s : List Char) : Bool :=
  s.tails.any fun tail => "audio".toList.isPrefixOf tail &&
    match tail.drop 5 with
    | [] => false
    | c :: rest => "desc".toList.isPrefixOf (c :: rest) ||
        ((c = '_' || isWhiteSpace c || c = '-') && "desc".toList.isPrefixOf rest)

end Texts

def mediaStreamCatalogLimit : ℕ := 12

def mediaTextTrackCatalogLimit : ℕ := 20

def playbackLadderHeights : List ℕ := [360,480,720,1080]

inductive StreamKind
  | adaptive | combined
  deriving DecidableEq

structure PlaylistMediaStream where
  id : String
  src : String
  type : Option String
  protocol : Option String
  width : Option ℚ
  height : Option ℚ
  bitrate : Option ScriptNumber
  audioBitrate : Option ScriptNumber
  label : Option String
  isDefault : Option Bool
  kind : StreamKind
  vcodec : Option String
  acodec : Option String
  deriving DecidableEq

def isNoneCodec (value : Option String) : Bool :=
  match value with
  | none => true
  | some value => value = "" || lowerText value = "none".toList || lowerText value = "null".toList

def isAdaptiveProtocol (protocol type : Option String) (src : String) : Bool :=
  let p := lowerText (protocol.getD "")
  let t := lowerText (type.getD "")
  includesText p "m3u8".toList || includesText p "hls".toList || includesText p "dash".toList ||
    includesText p "http_dash".toList || includesText t "mpegurl".toList ||
    includesText t "dash+xml".toList || endsPath (lowerText src) ".m3u8".toList ||
    endsPath (lowerText src) ".mpd".toList

def isCombinedStream (stream : YtDlpStream) : Bool :=
  isAdaptiveProtocol stream.protocol stream.type stream.src ||
    !(stream.acodec.isSome && isNoneCodec stream.acodec)

def isAudioDescriptionStream (id : String) (label : Option String) (src : String) : Bool :=
  hasAudioDesc (lowerText (id ++ " " ++ label.getD "" ++ " " ++ src))

def scriptAbs : ScriptNumber → ScriptNumber
  | .nan => .nan
  | .infinity _ => .infinity false
  | .finite q => .finite |q|

section Selection

variable (env : DumpEnv)

/-- The rung of the ladder that is nearest to a height, the lower one of two. -/
def nearestLadderHeight (height : Option ℚ) : Option ℕ :=
  (truthySize height).bind fun height =>
    (playbackLadderHeights.foldl (fun best (target : ℕ) =>
      let delta := scriptAbs (env.round (target-height))
      if delta.lt best.2 then (some target,delta) else best) (none,.infinity false)).1

def adaptivePreferenceScore (stream : PlaylistMediaStream) (playableUrl : Option String) : ℕ :=
  (if playableUrl.any fun url => url ≠ "" && stream.src = url then 100 else 0)+
    (if stream.isDefault = some true then 50 else 0)+
    (if (truthySize stream.height).isNone then 30 else 0)+
    if lowerText (trim (stream.label.getD "")) = "auto".toList then 20 else 0

def toPlaylistStream (stream : YtDlpStream) (kind : StreamKind) : PlaylistMediaStream where
  id := stream.id
  src := stream.src
  type := stream.type
  protocol := stream.protocol
  width := stream.width
  height := stream.height
  bitrate := stream.bitrate
  audioBitrate := stream.audioBitrate
  label := stream.label
  isDefault := stream.isDefault
  kind
  vcodec := stream.vcodec
  acodec := stream.acodec

/-- `text || otherwise` -/
def orText (text otherwise : String) : String := if text = "" then otherwise else text

instance : PropertyKey ℕ where
  arrayIndex? _ := none

/-- What `consider` has collected. -/
structure Selection where
  bestAdaptive : Option PlaylistMediaStream
  bestAdaptiveScore : Option ℕ
  combinedByHeight : Record ℕ PlaylistMediaStream
  combinedOther : List PlaylistMediaStream
  bestAudioDescription : Option PlaylistMediaStream
  seenSrc : List String

def Selection.start : Selection := ⟨none,none,.empty,[],none,[]⟩

def preferLadderCandidate (existing : Option PlaylistMediaStream) (next : PlaylistMediaStream) :
    Bool :=
  match existing with
  | none => true
  | some existing =>
    let existingAd := isAudioDescriptionStream existing.id existing.label existing.src
    let nextAd := isAudioDescriptionStream next.id next.label next.src
    if existingAd ≠ nextAd then existingAd && !nextAd
    else decide (existing.height.getD 0 < next.height.getD 0)

def adaptiveCandidate (stream : YtDlpStream) : PlaylistMediaStream :=
  toPlaylistStream { stream with id := orText stream.id "auto", label := some "Auto" } .adaptive

def labeledStream (stream : YtDlpStream) : PlaylistMediaStream :=
  let label := orText (stream.label.getD "")
    (match truthySize stream.height with
    | some height => env.numberText.print (.finite height) ++ "p"
    | none => orText stream.id " Progressive")
  toPlaylistStream { stream with label := some label } .combined

def audioDescriptionEntry (labeled : PlaylistMediaStream) : PlaylistMediaStream :=
  { labeled with id := orText labeled.id "audio-description", label := some "Audio Description" }

def ladderEntry (labeled : PlaylistMediaStream) (ladder : ℕ) : PlaylistMediaStream :=
  { labeled with label := some (orText (labeled.label.getD "") (Nat.repr ladder ++ "p")) }

/-- A stream that passed the tests goes to its place. -/
def place (playableUrl : Option String) (s : Selection) (stream : YtDlpStream) : Selection :=
  if isAdaptiveProtocol stream.protocol stream.type stream.src then
    let candidate := adaptiveCandidate stream
    let score := adaptivePreferenceScore candidate playableUrl
    if s.bestAdaptiveScore.all fun best => best < score then
      { s with bestAdaptive := some candidate, bestAdaptiveScore := some score }
    else s
  else
    let labeled := labeledStream env stream
    if isAudioDescriptionStream stream.id stream.label stream.src then
      let adLabeled := audioDescriptionEntry labeled
      if s.bestAudioDescription.all fun best => best.height.getD 0 < adLabeled.height.getD 0 then
        { s with bestAudioDescription := some adLabeled }
      else s
    else
      match nearestLadderHeight env stream.height with
      | some ladder =>
        if preferLadderCandidate (s.combinedByHeight.get? ladder) labeled then
          { s with combinedByHeight := s.combinedByHeight.set ladder (ladderEntry labeled ladder) }
        else s
      | none => { s with combinedOther := s.combinedOther ++ [labeled] }

def consider (playableUrl : Option String) (s : Selection) (stream : YtDlpStream) : Selection :=
  if stream.src = "" || stream.src ∈ s.seenSrc then s
  else if !isHttpOrHttpsUrl env stream.src then s
  else if !isCombinedStream stream then s
  else place env playableUrl { s with seenSrc := s.seenSrc ++ [stream.src] } stream

def variantStream (variant : YtDlpNormalizedVariant) : YtDlpStream where
  id := variant.id
  src := variant.src
  type := none
  protocol := variant.protocol
  width := variant.width
  height := variant.height
  bitrate := variant.tbr.map .finite
  audioBitrate := variant.abr.map .finite
  label := variant.label
  isDefault := none
  vcodec := variant.vcodec
  acodec := variant.acodec

/-- The variants that the loop over them does not skip. -/
def selectableVariants (variants : List YtDlpNormalizedVariant) : List YtDlpStream :=
  (variants.filter fun variant =>
    variant.kind = .combined || variant.kind = .video && !isNoneCodec variant.acodec).map
      variantStream

structure SelectableInput where
  streams : List YtDlpStream
  videoVariants : List YtDlpNormalizedVariant
  textTracks : List YtDlpTextTrack
  playableUrl : Option String

def considerAll (input : SelectableInput) : Selection :=
  (selectableVariants input.videoVariants).foldl (consider env input.playableUrl)
    (input.streams.foldl (consider env input.playableUrl) .start)

def ladderStreams (s : Selection) : List PlaylistMediaStream :=
  (s.combinedByHeight.entries.mergeSort fun a b => a.1 ≤ b.1).map Prod.snd

def pickedStreams (s : Selection) : List PlaylistMediaStream :=
  (s.bestAdaptive.toList ++ s.bestAudioDescription.toList ++ ladderStreams s ++
    s.combinedOther).take mediaStreamCatalogLimit

/-- The entry that stands in for an empty catalog. -/
def defaultEntry (playableUrl : String) : PlaylistMediaStream where
  id := "default"
  src := playableUrl
  type := none
  protocol := none
  width := none
  height := none
  bitrate := none
  audioBitrate := none
  label := some "Default"
  isDefault := some true
  kind := if isAdaptiveProtocol none none playableUrl then .adaptive else .combined
  vcodec := none
  acodec := none

/-- The entries of the catalog, before the default among them is marked. -/
def selectMediaStreams (input : SelectableInput) : List PlaylistMediaStream :=
  match pickedStreams (considerAll env input),input.playableUrl with
  | [],some playableUrl => if playableUrl = "" then [] else [defaultEntry playableUrl]
  | [],none => []
  | stream :: streams,_ => stream :: streams

def preferredDefault (streams : List PlaylistMediaStream) (playableUrl : Option String) :
    Option PlaylistMediaStream :=
  (streams.find? fun s => s.kind = .adaptive).or
    ((streams.find? fun s => s.isDefault = some true).or
      ((streams.find? fun s => some s.src = playableUrl).or streams.head?))

/-- The default is marked by its id. -/
def markDefault (preferred : Option PlaylistMediaStream) (stream : PlaylistMediaStream) :
    PlaylistMediaStream :=
  { stream with isDefault := some (preferred.any fun preferred => stream.id = preferred.id) }

structure SelectableStreams where
  mediaStreams : List PlaylistMediaStream
  textTracks : List YtDlpTextTrack
  defaultStreamId : Option String
  defaultTextTrackId : Option String
  playableUrl : String

def buildSelectableStreams (input : SelectableInput) : SelectableStreams :=
  let mediaStreams := selectMediaStreams env input
  let preferred := preferredDefault mediaStreams input.playableUrl
  let textTracks := (input.textTracks.take mediaTextTrackCatalogLimit).filter fun track =>
    isHttpOrHttpsUrl env track.src
  {
    mediaStreams := mediaStreams.map (markDefault preferred)
    textTracks
    defaultStreamId := preferred.map PlaylistMediaStream.id
    defaultTextTrackId :=
      (textTracks.find? fun track => track.isDefault = some true).map YtDlpTextTrack.id
    playableUrl := ((preferred.map PlaylistMediaStream.src).or input.playableUrl).getD "" }

end Selection

section Marking

variable {streams : List PlaylistMediaStream} {playableUrl : Option String}
  {d stream : PlaylistMediaStream}

theorem preferredDefault_mem (h : preferredDefault streams playableUrl = some d) : d ∈ streams := by
  rw [preferredDefault,Option.or_eq_some_iff] at h
  rcases h with h | ⟨-,h⟩
  · exact List.mem_of_find?_eq_some h
  · rw [Option.or_eq_some_iff] at h
    rcases h with h | ⟨-,h⟩
    · exact List.mem_of_find?_eq_some h
    · rw [Option.or_eq_some_iff] at h
      rcases h with h | ⟨-,h⟩
      · exact List.mem_of_find?_eq_some h
      · exact List.mem_of_mem_head? h

theorem exists_preferredDefault (playableUrl : Option String) (h : streams ≠ []) :
    ∃ d, preferredDefault streams playableUrl = some d := by
  obtain ⟨first,rest,rfl⟩ := List.exists_cons_of_ne_nil h
  rw [← Option.isSome_iff_exists,preferredDefault]
  simp

@[simp] theorem markDefault_src (preferred : Option PlaylistMediaStream) :
    (markDefault preferred stream).src = stream.src := rfl

@[simp] theorem markDefault_id (preferred : Option PlaylistMediaStream) :
    (markDefault preferred stream).id = stream.id := rfl

@[simp] theorem markDefault_kind (preferred : Option PlaylistMediaStream) :
    (markDefault preferred stream).kind = stream.kind := rfl

theorem markDefault_isDefault :
    (markDefault (some d) stream).isDefault = some true ↔ stream.id = d.id := by
  simp [markDefault]

end Marking

structure CatalogOk (env : DumpEnv) (catalog : SelectableStreams) : Prop where
  bounded : catalog.mediaStreams.length ≤ mediaStreamCatalogLimit
  distinct : (catalog.mediaStreams.map PlaylistMediaStream.src).Nodup
  http : ∀ stream ∈ catalog.mediaStreams, isHttpOrHttpsUrl env stream.src = true
  adaptive : (catalog.mediaStreams.countP fun stream => stream.kind = .adaptive) ≤ 1
  default : catalog.mediaStreams ≠ [] → ∃ d ∈ catalog.mediaStreams,
    (catalog.mediaStreams.filter fun stream => stream.isDefault = some true) = [d] ∧
      catalog.defaultStreamId = some d.id ∧
      (∀ stream ∈ catalog.mediaStreams, stream.id = d.id → stream = d) ∧
      catalog.playableUrl = d.src

/-- No other entry has the id of the default. -/
def DefaultIdUnique (streams : List PlaylistMediaStream) (playableUrl : Option String) : Prop :=
  ∀ d, preferredDefault streams playableUrl = some d →
    ∀ stream ∈ streams, stream.id = d.id → stream = d

section Catalog

variable {env : DumpEnv} {input : SelectableInput}

/-- The catalog, given what holds of its entries before the default is marked. -/
theorem catalogOk_iff
    (hbounded : (selectMediaStreams env input).length ≤ mediaStreamCatalogLimit)
    (hdistinct : ((selectMediaStreams env input).map PlaylistMediaStream.src).Nodup)
    (hhttp : ∀ stream ∈ selectMediaStreams env input, isHttpOrHttpsUrl env stream.src = true)
    (hadaptive : ((selectMediaStreams env input).countP fun stream => stream.kind = .adaptive) ≤ 1) :
    CatalogOk env (buildSelectableStreams env input) ↔
      DefaultIdUnique (selectMediaStreams env input) input.playableUrl := by
  set streams := selectMediaStreams env input with hstreams
  set preferred := preferredDefault streams input.playableUrl with hpreferred
  have hmedia : (buildSelectableStreams env input).mediaStreams =
      streams.map (markDefault preferred) := rfl
  have hid : (buildSelectableStreams env input).defaultStreamId =
      preferred.map PlaylistMediaStream.id := rfl
  have hsrc : (streams.map (markDefault preferred)).map PlaylistMediaStream.src =
      streams.map PlaylistMediaStream.src := by
    rw [List.map_map]
    rfl
  constructor
  · intro hok d hd stream hstream hsame
    have hne : (buildSelectableStreams env input).mediaStreams ≠ [] := by
      rw [hmedia]
      exact List.ne_nil_of_mem (List.mem_map_of_mem hstream)
    obtain ⟨d',-,-,hdefault,hunique,-⟩ := hok.default hne
    rw [hid,hpreferred,hd,Option.map_some] at hdefault
    have hd' := Option.some.inj hdefault
    rw [hmedia] at hunique
    have hfirst := hunique _ (List.mem_map_of_mem (preferredDefault_mem hd)) hd'
    have hsecond := hunique _ (List.mem_map_of_mem hstream) (hsame.trans hd')
    have hmarked := congrArg PlaylistMediaStream.src (hsecond.trans hfirst.symm)
    have heq : stream.src = d.src := hmarked
    exact List.inj_on_of_nodup_map hdistinct hstream (preferredDefault_mem hd) heq
  · intro hunique
    refine ⟨by simpa [hmedia] using hbounded,by rw [hmedia,hsrc]; exact hdistinct,?_,?_,?_⟩
    · intro stream hstream
      rw [hmedia] at hstream
      obtain ⟨original,horiginal,rfl⟩ := List.mem_map.mp hstream
      exact hhttp original horiginal
    · rw [hmedia,List.countP_map]
      exact hadaptive
    · intro hne
      have hnonempty : streams ≠ [] := by
        intro hnil
        rw [hmedia,hnil] at hne
        exact hne rfl
      obtain ⟨d,hd⟩ := exists_preferredDefault input.playableUrl hnonempty
      have hmem := preferredDefault_mem hd
      have hpreferred' : preferred = some d := hd
      refine ⟨markDefault (some d) d,?_,?_,?_,?_,?_⟩
      · rw [hmedia,hpreferred']
        exact List.mem_map_of_mem hmem
      · have hfilter : streams.filter (fun stream => stream.id = d.id) = [d] := by
          have hnodup : (streams.filter fun stream => stream.id = d.id).Nodup :=
            (List.Nodup.of_map _ hdistinct).filter _
          refine List.perm_singleton.mp
            ((List.perm_ext_iff_of_nodup hnodup (List.nodup_singleton d)).mpr fun stream => ?_)
          rw [List.mem_filter,List.mem_singleton,decide_eq_true_eq]
          constructor
          · rintro ⟨hstream,hsame⟩
            exact hunique d hd stream hstream hsame
          · rintro rfl
            exact ⟨hmem,rfl⟩
        have hmarked : ((fun stream : PlaylistMediaStream => decide (stream.isDefault = some true)) ∘
            markDefault (some d)) = fun stream => decide (stream.id = d.id) := by
          funext stream
          exact decide_eq_decide.mpr markDefault_isDefault
        rw [hmedia,hpreferred',List.filter_map,hmarked,hfilter]
        rfl
      · rw [hid,hpreferred']
        rfl
      · intro stream hstream hsame
        rw [hmedia,hpreferred'] at hstream
        obtain ⟨original,horiginal,rfl⟩ := List.mem_map.mp hstream
        rw [hunique d hd original horiginal hsame]
      · have hurl : (buildSelectableStreams env input).playableUrl =
            ((preferred.map PlaylistMediaStream.src).or input.playableUrl).getD "" := rfl
        rw [hurl,hpreferred']
        rfl

end Catalog

section Considering

variable {env : DumpEnv} {playableUrl : Option String} {s : Selection} {stream : YtDlpStream}

def progressives (s : Selection) : List PlaylistMediaStream :=
  s.bestAudioDescription.toList ++ s.combinedByHeight.values ++ s.combinedOther

def heldEntries (s : Selection) : List PlaylistMediaStream :=
  s.bestAdaptive.toList ++ progressives s

theorem nodup_src_of_subperm {l₁ l₂ : List PlaylistMediaStream} (h : l₁.Subperm l₂)
    (hnodup : (l₂.map PlaylistMediaStream.src).Nodup) :
    (l₁.map PlaylistMediaStream.src).Nodup := by
  obtain ⟨l,hperm,hsub⟩ := h
  exact (hperm.map _).nodup_iff.mp (hnodup.sublist (hsub.map _))

structure Shows (entry : PlaylistMediaStream) (stream : YtDlpStream) : Prop where
  src : entry.src = stream.src
  id : stream.id ≠ "" → entry.id = stream.id

/-- What placing a stream does: an entry that shows it may come in, for others. -/
structure Placed (s s' : Selection) (stream : YtDlpStream) : Prop where
  seen : s'.seenSrc = s.seenSrc
  held : ∃ entry, Shows entry stream ∧ (heldEntries s').Subperm (entry :: heldEntries s)
  progressive : ∀ entry ∈ progressives s', entry ∈ progressives s ∨ entry.kind = .combined

theorem Placed.unchanged (entry : PlaylistMediaStream) (h : Shows entry stream) :
    Placed s s stream where
  seen := rfl
  held := ⟨entry,h,(List.sublist_cons_self entry _).subperm⟩
  progressive _ hentry := .inl hentry

theorem Placed.of_progressives {s' : Selection} {entry : PlaylistMediaStream}
    (hentry : Shows entry stream) (hkind : entry.kind = .combined)
    (hseen : s'.seenSrc = s.seenSrc) (hadaptive : s'.bestAdaptive = s.bestAdaptive)
    (hsub : (progressives s').Subperm (entry :: progressives s)) : Placed s s' stream where
  seen := hseen
  held := by
    refine ⟨entry,hentry,?_⟩
    rw [heldEntries,heldEntries,hadaptive]
    exact ((List.subperm_append_left _).mpr hsub).trans List.perm_middle.subperm
  progressive := by
    intro e he
    rcases List.mem_cons.mp (hsub.subset he) with rfl | hold
    · exact .inr hkind
    · exact .inl hold

theorem shows_adaptiveCandidate (stream : YtDlpStream) : Shows (adaptiveCandidate stream) stream :=
  ⟨rfl,fun h => if_neg h⟩

theorem shows_labeledStream (env : DumpEnv) (stream : YtDlpStream) :
    Shows (labeledStream env stream) stream :=
  ⟨rfl,fun _ => rfl⟩

theorem Shows.audioDescription {labeled : PlaylistMediaStream} (h : Shows labeled stream) :
    Shows (audioDescriptionEntry labeled) stream := by
  refine ⟨h.src,fun hid => ?_⟩
  have hlabeled := h.id hid
  change orText labeled.id "audio-description" = stream.id
  rw [orText,if_neg (by rw [hlabeled]; exact hid),hlabeled]

theorem Shows.ladder {labeled : PlaylistMediaStream} (h : Shows labeled stream) (ladder : ℕ) :
    Shows (ladderEntry labeled ladder) stream :=
  ⟨h.src,h.id⟩

theorem placed_place (env : DumpEnv) (playableUrl : Option String) (s : Selection)
    (stream : YtDlpStream) : Placed s (place env playableUrl s stream) stream := by
  have hlabeled := shows_labeledStream env stream
  rw [place]
  split
  · dsimp only
    split
    · refine ⟨rfl,⟨adaptiveCandidate stream,shows_adaptiveCandidate stream,?_⟩,fun e he => .inl he⟩
      change (adaptiveCandidate stream :: progressives s).Subperm
        (adaptiveCandidate stream :: heldEntries s)
      exact ((List.sublist_append_right _ _).cons_cons _).subperm
    · exact .unchanged _ (shows_adaptiveCandidate stream)
  · dsimp only
    split
    · split
      · refine .of_progressives hlabeled.audioDescription rfl rfl rfl ?_
        change (audioDescriptionEntry (labeledStream env stream) ::
          (s.combinedByHeight.values ++ s.combinedOther)).Subperm _
        refine ((List.Sublist.cons_cons _ ?_)).subperm
        rw [progressives,List.append_assoc]
        exact List.sublist_append_right _ _
      · exact .unchanged _ hlabeled
    · split
      · rename_i ladder _
        split
        · refine .of_progressives (hlabeled.ladder ladder) rfl rfl rfl ?_
          have hset := Record.values_set_subperm s.combinedByHeight ladder
            (ladderEntry (labeledStream env stream) ladder)
          change (s.bestAudioDescription.toList ++ (s.combinedByHeight.set ladder _).values ++
            s.combinedOther).Subperm _
          have hleft := (List.subperm_append_left s.bestAudioDescription.toList).mpr hset
          refine ((List.subperm_append_right s.combinedOther).mpr hleft).trans ?_
          rw [List.append_assoc,List.cons_append,progressives,List.append_assoc]
          exact List.perm_middle.subperm
        · exact .unchanged _ (hlabeled.ladder ladder)
      · refine .of_progressives hlabeled rfl rfl rfl ?_
        change (s.bestAudioDescription.toList ++ s.combinedByHeight.values ++
          (s.combinedOther ++ [labeledStream env stream])).Subperm _
        rw [← List.append_assoc]
        exact (List.perm_append_singleton _ _).subperm

/-- What holds of the entries after some streams were considered. -/
structure SelectionOk (env : DumpEnv) (considered : YtDlpStream → Prop) (s : Selection) : Prop where
  seen : ∀ entry ∈ heldEntries s, entry.src ∈ s.seenSrc
  distinct : ((heldEntries s).map PlaylistMediaStream.src).Nodup
  http : ∀ entry ∈ heldEntries s, isHttpOrHttpsUrl env entry.src = true
  shows : ∀ entry ∈ heldEntries s, ∃ stream, considered stream ∧ Shows entry stream
  combined : ∀ entry ∈ progressives s, entry.kind = .combined

theorem selectionOk_start (considered : YtDlpStream → Prop) :
    SelectionOk env considered .start := by
  refine ⟨?_,List.nodup_nil,?_,?_,?_⟩
  all_goals
    intro entry hentry
    cases hentry

theorem SelectionOk.consider {considered : YtDlpStream → Prop} (h : SelectionOk env considered s)
    (hstream : considered stream) :
    SelectionOk env considered (consider env playableUrl s stream) := by
  rw [MediaCatalog.consider]
  split
  · exact h
  rename_i hnew
  split
  · exact h
  rename_i hhttp
  split
  · exact h
  rw [Bool.or_eq_true,decide_eq_true_eq,decide_eq_true_eq,not_or] at hnew
  have hhttp' : isHttpOrHttpsUrl env stream.src = true := by simpa using hhttp
  have hplaced := placed_place env playableUrl { s with seenSrc := s.seenSrc ++ [stream.src] } stream
  obtain ⟨entry,hshows,hsub⟩ := hplaced.held
  have hmem : ∀ e ∈ heldEntries (place env playableUrl
      { s with seenSrc := s.seenSrc ++ [stream.src] } stream), e = entry ∨ e ∈ heldEntries s :=
    fun e he => List.mem_cons.mp (hsub.subset he)
  refine ⟨?_,?_,?_,?_,?_⟩
  · intro e he
    rw [hplaced.seen,List.mem_append]
    rcases hmem e he with rfl | hold
    · exact .inr (List.mem_singleton.mpr hshows.src)
    · exact .inl (h.seen e hold)
  · refine nodup_src_of_subperm hsub ?_
    rw [List.map_cons,List.nodup_cons]
    refine ⟨?_,h.distinct⟩
    intro hsrc
    obtain ⟨e,he,heq⟩ := List.mem_map.mp hsrc
    have hseen := h.seen e he
    rw [heq,hshows.src] at hseen
    exact hnew.2 hseen
  · intro e he
    rcases hmem e he with rfl | hold
    · rw [hshows.src]
      exact hhttp'
    · exact h.http e hold
  · intro e he
    rcases hmem e he with rfl | hold
    · exact ⟨stream,hstream,hshows⟩
    · exact h.shows e hold
  · intro e he
    rcases hplaced.progressive e he with hold | hkind
    · exact h.combined e hold
    · exact hkind

theorem SelectionOk.foldl {considered : YtDlpStream → Prop} (streams : List YtDlpStream)
    (hstreams : ∀ stream ∈ streams, considered stream) (h : SelectionOk env considered s) :
    SelectionOk env considered (streams.foldl (MediaCatalog.consider env playableUrl) s) := by
  induction streams generalizing s with
  | nil => exact h
  | cons stream streams ih =>
    exact ih (fun stream' hmem => hstreams stream' (List.mem_cons_of_mem _ hmem))
      (h.consider (hstreams stream List.mem_cons_self))

end Considering

section Picking

variable {env : DumpEnv} {s : Selection} {input : SelectableInput}

theorem ladderStreams_perm (s : Selection) :
    (ladderStreams s).Perm s.combinedByHeight.values :=
  (List.mergeSort_perm _ _).map Prod.snd

theorem pickedStreams_subperm (s : Selection) : (pickedStreams s).Subperm (heldEntries s) := by
  have hperm : (s.bestAdaptive.toList ++ s.bestAudioDescription.toList ++ ladderStreams s ++
      s.combinedOther).Perm (heldEntries s) := by
    rw [heldEntries,progressives,List.append_assoc,List.append_assoc,List.append_assoc]
    exact (((ladderStreams_perm s).append_right _).append_left _).append_left _
  exact (List.take_sublist _ _).subperm.trans hperm.subperm

theorem SelectionOk.adaptive {considered : YtDlpStream → Prop} (h : SelectionOk env considered s) :
    ((heldEntries s).countP fun entry => entry.kind = .adaptive) ≤ 1 := by
  have hnone : ((progressives s).countP fun entry => entry.kind = .adaptive) = 0 := by
    rw [List.countP_eq_zero]
    intro entry hentry
    rw [h.combined entry hentry]
    decide
  rw [heldEntries,List.countP_append,hnone,Nat.add_zero]
  refine List.countP_le_length.trans ?_
  cases s.bestAdaptive with
  | none => exact Nat.zero_le 1
  | some entry => exact Nat.le_refl 1

/-- What holds of the entries of a catalog before the default is marked. -/
structure EntriesOk (env : DumpEnv) (considered : YtDlpStream → Prop)
    (streams : List PlaylistMediaStream) : Prop where
  bounded : streams.length ≤ mediaStreamCatalogLimit
  distinct : (streams.map PlaylistMediaStream.src).Nodup
  http : ∀ stream ∈ streams, isHttpOrHttpsUrl env stream.src = true
  adaptive : (streams.countP fun stream => stream.kind = .adaptive) ≤ 1
  shows : (∀ entry ∈ streams, ∃ stream, considered stream ∧ Shows entry stream) ∨ streams.length = 1

theorem SelectionOk.entriesOk {considered : YtDlpStream → Prop}
    (h : SelectionOk env considered (considerAll env input))
    (hhttp : ∀ url, input.playableUrl = some url → isHttpOrHttpsUrl env url = true) :
    EntriesOk env considered (selectMediaStreams env input) := by
  have hsub := pickedStreams_subperm (considerAll env input)
  have hpicked : EntriesOk env considered (pickedStreams (considerAll env input)) :=
    ⟨List.length_take_le _ _,nodup_src_of_subperm hsub h.distinct,
      fun stream hstream => h.http stream (hsub.subset hstream),
      (hsub.countP_le _).trans h.adaptive,
      .inl fun entry hentry => h.shows entry (hsub.subset hentry)⟩
  have hempty : EntriesOk env considered [] :=
    ⟨Nat.zero_le _,List.nodup_nil,by simp,Nat.zero_le _,.inl (by simp)⟩
  rw [selectMediaStreams]
  split
  · rename_i url _ hurl
    split
    · exact hempty
    · refine ⟨Nat.le_of_ble_eq_true rfl,List.nodup_singleton _,?_,List.countP_le_length,.inr rfl⟩
      intro stream hstream
      rw [List.mem_singleton.mp hstream]
      exact hhttp url hurl
  · exact hempty
  · rename_i hcons
    rwa [hcons] at hpicked

theorem EntriesOk.defaultIdUnique {considered : YtDlpStream → Prop}
    {streams : List PlaylistMediaStream} {playableUrl : Option String}
    (h : EntriesOk env considered streams) (hid : ∀ stream, considered stream → stream.id ≠ "")
    (hinj : ∀ a b, considered a → considered b → a.id = b.id → a.src = b.src) :
    DefaultIdUnique streams playableUrl := by
  intro d hd stream hstream hsame
  have hmem := preferredDefault_mem hd
  rcases h.shows with hshows | hone
  · obtain ⟨a,ha,hshowsa⟩ := hshows stream hstream
    obtain ⟨b,hb,hshowsb⟩ := hshows d hmem
    have hids : a.id = b.id := by
      rw [← hshowsa.id (hid a ha),← hshowsb.id (hid b hb),hsame]
    have hsrc : stream.src = d.src := by
      rw [hshowsa.src,hshowsb.src,hinj a b ha hb hids]
    exact List.inj_on_of_nodup_map h.distinct hstream hmem hsrc
  · obtain ⟨only,rfl⟩ := List.length_eq_one_iff.mp hone
    rw [List.mem_singleton.mp hstream,List.mem_singleton.mp hmem]

end Picking

section Variants

variable {env : DumpEnv} {playableUrl : Option String} {s : Selection} {stream : YtDlpStream}

theorem consider_of_skipped
    (h : stream.src = "" ∨ stream.src ∈ s.seenSrc ∨ isCombinedStream stream = false) :
    consider env playableUrl s stream = s := by
  rw [consider]
  rcases h with hempty | hseen | hcombined
  · simp [hempty]
  · simp [hseen]
  · simp [hcombined]

theorem foldl_consider_of_skipped (streams : List YtDlpStream)
    (h : ∀ stream ∈ streams,
      stream.src = "" ∨ stream.src ∈ s.seenSrc ∨ isCombinedStream stream = false) :
    streams.foldl (consider env playableUrl) s = s := by
  induction streams with
  | nil => rfl
  | cons stream streams ih =>
    rw [List.foldl_cons,consider_of_skipped (h stream List.mem_cons_self)]
    exact ih fun stream' hmem => h stream' (List.mem_cons_of_mem _ hmem)

theorem consider_seenSrc (env : DumpEnv) (playableUrl : Option String) (s : Selection)
    (stream : YtDlpStream) :
    (consider env playableUrl s stream).seenSrc = s.seenSrc ∨
      (consider env playableUrl s stream).seenSrc = s.seenSrc ++ [stream.src] := by
  rw [consider]
  split_ifs
  · exact .inl rfl
  · exact .inl rfl
  · exact .inl rfl
  · exact .inr (placed_place _ _ _ _).seen

theorem mem_seenSrc_consider {src : String} (h : src ∈ s.seenSrc) :
    src ∈ (consider env playableUrl s stream).seenSrc := by
  rcases consider_seenSrc env playableUrl s stream with heq | heq
  · rwa [heq]
  · rw [heq]
    exact List.mem_append_left _ h

theorem mem_seenSrc_self (hsrc : stream.src ≠ "") (hhttp : isHttpOrHttpsUrl env stream.src = true)
    (hcombined : isCombinedStream stream = true) :
    stream.src ∈ (consider env playableUrl s stream).seenSrc := by
  by_cases hseen : stream.src ∈ s.seenSrc
  · exact mem_seenSrc_consider hseen
  · rw [consider]
    simp only [hsrc,hseen,hhttp,hcombined,decide_false,Bool.or_false,Bool.not_true,Bool.false_eq_true,
      if_false]
    rw [(placed_place _ _ _ _).seen]
    exact List.mem_append_right _ (List.mem_singleton_self _)

theorem mem_seenSrc_foldl (streams : List YtDlpStream) (hsrc : stream.src ≠ "")
    (hhttp : ∀ s ∈ streams, isHttpOrHttpsUrl env s.src = true)
    (hmem : stream ∈ streams) (hcombined : isCombinedStream stream = true) :
    stream.src ∈ (streams.foldl (consider env playableUrl) s).seenSrc := by
  have hmono : ∀ (rest : List YtDlpStream) (s : Selection), stream.src ∈ s.seenSrc →
      stream.src ∈ (rest.foldl (consider env playableUrl) s).seenSrc := by
    intro rest
    induction rest with
    | nil => exact fun s h => h
    | cons other rest ih => exact fun s h => ih _ (mem_seenSrc_consider h)
  obtain ⟨before,after,rfl⟩ := List.append_of_mem hmem
  rw [List.foldl_append,List.foldl_cons]
  exact hmono after _ (mem_seenSrc_self hsrc (hhttp stream hmem) hcombined)

end Variants

section Dump

variable {env : DumpEnv}

theorem isAdaptiveProtocol_type {protocol : Option String} {src : String} (type : Option String)
    (h : isAdaptiveProtocol protocol none src = true) :
    isAdaptiveProtocol protocol type src = true := by
  have hmpegurl : includesText (lowerText "") "mpegurl".toList = false := by decide
  have hdash : includesText (lowerText "") "dash+xml".toList = false := by decide
  simp only [isAdaptiveProtocol,Option.getD_none,hmpegurl,hdash,Bool.or_false,Bool.or_eq_true] at h ⊢
  rcases h with ((((h | h) | h) | h) | h) | h <;> simp only [h,true_or,or_true]

/-- What holds of the streams that the parser collects. -/
structure DumpOk (env : DumpEnv) (acc : DumpStreams) : Prop where
  http : ∀ stream ∈ acc.streams, isHttpOrHttpsUrl env stream.src = true
  variants : ∀ variant ∈ acc.videoVariants, ∃ stream ∈ acc.streams, stream.src = variant.src ∧
    (isCombinedStream (variantStream variant) = true → isCombinedStream stream = true)

theorem topLevelStream_spec {parsed : ScriptObject} {stream : YtDlpStream}
    (h : topLevelStream env parsed = some stream) :
    isHttpOrHttpsUrl env stream.src = true ∧ stream.acodec = none := by
  rw [topLevelStream] at h
  split at h
  · rename_i src _ hmanifest
    obtain rfl := Option.some.inj h
    obtain ⟨-,hsrc⟩ := Option.filter_eq_some_iff.mp hmanifest
    rw [Bool.and_eq_true] at hsrc
    exact ⟨hsrc.2,rfl⟩
  · rename_i src _ hurl
    obtain rfl := Option.some.inj h
    exact ⟨(Option.filter_eq_some_iff.mp hurl).2,rfl⟩
  · cases h

theorem dumpOk_startStreams (env : DumpEnv) (parsed : ScriptObject) :
    DumpOk env (startStreams env parsed) := by
  rw [startStreams]
  cases htop : topLevelStream env parsed with
  | none => exact ⟨by simp,by simp⟩
  | some stream =>
    obtain ⟨hhttp,hacodec⟩ := topLevelStream_spec htop
    have hcombined : isCombinedStream stream = true := by simp [isCombinedStream,hacodec]
    refine ⟨?_,?_⟩
    · intro s hs
      rw [List.mem_singleton.mp hs]
      exact hhttp
    · intro variant hvariant
      rw [List.mem_singleton.mp hvariant]
      exact ⟨stream,List.mem_singleton_self stream,rfl,fun _ => hcombined⟩

theorem isCombinedStream_formatVariant {format : ScriptObject} {stream : YtDlpStream}
    {kind : VariantKind}
    (h : isCombinedStream (variantStream (formatVariant format stream kind)) = true) :
    isCombinedStream stream = true := by
  rw [isCombinedStream,Bool.or_eq_true] at h ⊢
  rcases h with h | h
  · exact .inl (isAdaptiveProtocol_type stream.type h)
  · exact .inr h

theorem DumpOk.addFormat {acc : DumpStreams} (h : DumpOk env acc) (format : ScriptObject) :
    DumpOk env (addFormat env acc format) := by
  rw [MediaCatalog.addFormat]
  split
  · exact h
  rename_i src _
  split
  · exact h
  rename_i hnew
  split
  · exact h
  have hhttp : isHttpOrHttpsUrl env src = true := by
    rw [Bool.or_eq_true,not_or] at hnew
    simpa using hnew.2
  have hold : ∀ variant ∈ acc.videoVariants, ∃ s ∈ acc.streams ++
      [formatStream env format src acc.streams.length], s.src = variant.src ∧
        (isCombinedStream (variantStream variant) = true → isCombinedStream s = true) := by
    intro variant hvariant
    obtain ⟨s,hs,hsrc⟩ := h.variants variant hvariant
    exact ⟨s,List.mem_append_left _ hs,hsrc⟩
  have hadd : ∀ kind, ∀ variant ∈ acc.videoVariants ++
      [formatVariant format (formatStream env format src acc.streams.length) kind],
      ∃ s ∈ acc.streams ++ [formatStream env format src acc.streams.length], s.src = variant.src ∧
        (isCombinedStream (variantStream variant) = true → isCombinedStream s = true) := by
    intro kind variant hvariant
    rcases List.mem_append.mp hvariant with hvariant | hvariant
    · exact hold variant hvariant
    · rw [List.mem_singleton.mp hvariant]
      exact ⟨_,List.mem_append_right _ (List.mem_singleton_self _),rfl,
        isCombinedStream_formatVariant⟩
  refine ⟨?_,?_⟩
  · intro stream hstream
    rcases List.mem_append.mp hstream with hstream | hstream
    · exact h.http stream hstream
    · rw [List.mem_singleton.mp hstream]
      exact hhttp
  · dsimp only
    split_ifs
    · exact hadd .combined
    · exact hadd .video
    · exact hold

theorem DumpOk.readFormats {formats : List ScriptValue} {acc acc' : DumpStreams}
    (h : DumpOk env acc) (hread : readFormats env acc formats = some acc') : DumpOk env acc' := by
  induction formats generalizing acc with
  | nil =>
    obtain rfl := Option.some.inj hread
    exact h
  | cons format formats ih =>
    rw [MediaCatalog.readFormats] at hread
    split at hread
    · cases hread
    · exact ih (h.addFormat _) hread

/-- What is accepted was collected by the loop over the formats. -/
theorem parseYtDlpDumpJson_collected {dump : ScriptValue} {result : YtDlpExtractSuccess}
    (h : parseYtDlpDumpJson env dump = some result) :
    ∃ collected, DumpOk env collected ∧ result.streams = collected.streams ∧
      result.videoVariants = collected.videoVariants ∧
      result.bestPlayableUrl = pickBestPlayableUrl collected.streams := by
  rw [parseYtDlpDumpJson] at h
  split at h
  · cases h
  rename_i parsed _
  split at h
  · cases h
  split at h
  · cases h
  rename_i collected hcollected
  split at h
  · cases h
  obtain rfl := Option.some.inj h
  exact ⟨collected,(dumpOk_startStreams env parsed).readFormats hcollected,rfl,rfl,rfl⟩

theorem pickBestPlayableUrl_mem {streams : List YtDlpStream} {url : String}
    (h : pickBestPlayableUrl streams = some url) : ∃ stream ∈ streams, stream.src = url := by
  rw [pickBestPlayableUrl] at h
  split at h
  · rename_i stream hfind
    obtain rfl := Option.some.inj h
    rw [Option.or_eq_some_iff] at hfind
    rcases hfind with hfind | ⟨-,hfind⟩
    · exact ⟨stream,List.mem_of_find?_eq_some hfind,rfl⟩
    · exact ⟨stream,List.mem_of_find?_eq_some hfind,rfl⟩
  · obtain ⟨stream,hhead,rfl⟩ := Option.map_eq_some_iff.mp h
    exact ⟨stream,List.mem_of_mem_head? hhead,rfl⟩

/-- The variants add nothing to what the streams put into the catalog. -/
theorem considerAll_eq {collected : DumpStreams} (h : DumpOk env collected)
    (textTracks : List YtDlpTextTrack) (playableUrl : Option String) :
    considerAll env ⟨collected.streams,collected.videoVariants,textTracks,playableUrl⟩ =
      collected.streams.foldl (consider env playableUrl) .start := by
  apply foldl_consider_of_skipped
  intro stream hstream
  obtain ⟨variant,hvariant,rfl⟩ := List.mem_map.mp hstream
  obtain ⟨s,hs,hsrc,hcombined⟩ := h.variants variant (List.mem_of_mem_filter hvariant)
  by_cases hempty : (variantStream variant).src = ""
  · exact .inl hempty
  by_cases hc : isCombinedStream (variantStream variant) = true
  · refine .inr (.inl ?_)
    have hvsrc : (variantStream variant).src = s.src := hsrc.symm
    rw [hvsrc] at hempty ⊢
    exact mem_seenSrc_foldl collected.streams hempty h.http hs (hcombined hc)
  · exact .inr (.inr (Bool.eq_false_of_not_eq_true hc))

end Dump

/-- The catalog of an accepted dump is as promised if and only if no other entry has the id of the
default, in particular whenever the ids of the dump's streams differ. -/
theorem stream_catalog_default_iff (env : DumpEnv) {dump : ScriptValue}
    {result : YtDlpExtractSuccess} (h : parseYtDlpDumpJson env dump = some result) :
    (∀ url, result.bestPlayableUrl = some url → isHttpOrHttpsUrl env url = true) ∧
    ∀ playableUrl, (∀ url, playableUrl = some url → isHttpOrHttpsUrl env url = true) →
      let input : SelectableInput :=
        ⟨result.streams,result.videoVariants,result.textTracks,playableUrl⟩
      (CatalogOk env (buildSelectableStreams env input) ↔
        DefaultIdUnique (selectMediaStreams env input) playableUrl) ∧
      ((∀ stream ∈ result.streams, stream.id ≠ "") →
        (result.streams.map YtDlpStream.id).Nodup →
          CatalogOk env (buildSelectableStreams env input)) := by
  obtain ⟨collected,hok,hstreams,hvariants,hbest⟩ := parseYtDlpDumpJson_collected h
  refine ⟨?_,?_⟩
  · intro url hurl
    rw [hbest] at hurl
    obtain ⟨stream,hstream,rfl⟩ := pickBestPlayableUrl_mem hurl
    exact hok.http stream hstream
  · intro playableUrl hplayable input
    have hinput : input = ⟨collected.streams,collected.videoVariants,result.textTracks,
        playableUrl⟩ := by
      simp only [input,hstreams,hvariants]
    have hselection : SelectionOk env (fun stream => stream ∈ result.streams)
        (considerAll env input) := by
      rw [hinput,considerAll_eq hok,← hstreams]
      exact (selectionOk_start _).foldl _ fun stream hstream => hstream
    have hentries := hselection.entriesOk hplayable
    have hiff := catalogOk_iff hentries.bounded hentries.distinct hentries.http hentries.adaptive
    refine ⟨hiff,fun hid hnodup => hiff.mpr (hentries.defaultIdUnique hid ?_)⟩
    intro a b ha hb hsame
    rw [List.inj_on_of_nodup_map hnodup ha hb hsame]

section Examples

/-- URLs of one scheme, titles as they are, and integers printed in decimal. -/
def plainEnv : DumpEnv where
  urlProtocol raw := if "https://".toList.isPrefixOf raw.toList then some "https:" else none
  sanitizeMediaTitle := some
  sanitizeLabel := some
  numberText := {
    parse := fun _ => .nan
    print := fun n =>
      match n with
      | .finite q => Int.repr q.num
      | _ => "NaN" }
  round := .finite

def twoStreamDump (formatId : String) : ScriptValue :=
  .object [("url",.string "https://cdn.example/1.mp4"),
    ("formats",.array [.object [("format_id",.string formatId),
      ("url",.string "https://cdn.example/2.mp4")]] [])]

def catalogOf (result : YtDlpExtractSuccess) : SelectableStreams :=
  buildSelectableStreams plainEnv
    ⟨result.streams,result.videoVariants,result.textTracks,result.bestPlayableUrl⟩

/-- Ids that differ. -/
theorem stream_catalog_default_iff_distinct : ∃ result,
    parseYtDlpDumpJson plainEnv (twoStreamDump "720") = some result ∧
      CatalogOk plainEnv (catalogOf result) := by
  have hsome : (parseYtDlpDumpJson plainEnv (twoStreamDump "720")).isSome = true := by
    decide +kernel
  obtain ⟨result,h⟩ := Option.isSome_iff_exists.mp hsome
  have hids : result.streams.map YtDlpStream.id = ["default","720"] := by
    have hmap : (parseYtDlpDumpJson plainEnv (twoStreamDump "720")).map
        (fun result => result.streams.map YtDlpStream.id) = some ["default","720"] := by
      decide +kernel
    rw [h,Option.map_some] at hmap
    exact Option.some.inj hmap
  have hspec := stream_catalog_default_iff plainEnv h
  refine ⟨result,h,(hspec.2 result.bestPlayableUrl hspec.1).2 ?_ ?_⟩
  · intro stream hstream
    have hmem := List.mem_map_of_mem (f := YtDlpStream.id) hstream
    rw [hids] at hmem
    intro hempty
    rw [hempty] at hmem
    revert hmem
    decide
  · rw [hids]
    decide

/-- A format may be called like the entry of the top-level URL; then both are marked. -/
theorem two_defaults_marked : ∃ result,
    parseYtDlpDumpJson plainEnv (twoStreamDump "default") = some result ∧
      ¬CatalogOk plainEnv (catalogOf result) := by
  have hcount : (parseYtDlpDumpJson plainEnv (twoStreamDump "default")).map (fun result =>
      ((catalogOf result).mediaStreams.filter fun stream =>
        stream.isDefault = some true).length) = some 2 := by
    decide +kernel
  obtain ⟨result,h,hlength⟩ := Option.map_eq_some_iff.mp hcount
  refine ⟨result,h,fun hok => ?_⟩
  have hne : (catalogOf result).mediaStreams ≠ [] := by
    intro hnil
    rw [hnil] at hlength
    cases hlength
  obtain ⟨d,-,hfilter,-⟩ := hok.default hne
  rw [hfilter] at hlength
  cases hlength

end Examples

end MediaCatalog
end WebSyncPlay
