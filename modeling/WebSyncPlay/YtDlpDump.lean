import WebSyncPlay.RoomState
import WebSyncPlay.Library.ScriptValue

/-! `media/yt-dlp/parse-dump.ts`: what `parseYtDlpDumpJson` makes of a dump. The dump is taken as
`JSON.parse` built it; where the code throws on it, it is not accepted. -/
namespace WebSyncPlay
namespace MediaCatalog

open Library

/-- What the parser calls: `new URL(raw).protocol` (nothing where it throws), the title sanitiser,
the sanitiser cut to 64 characters, the text of numbers, and the rounding of doubles. -/
structure DumpEnv where
  urlProtocol : String → Option String
  sanitizeMediaTitle : String → Option String
  sanitizeLabel : String → Option String
  numberText : NumberText
  round : ℚ → ScriptNumber

section Values

def mathRound : ScriptNumber → ScriptNumber
  | .finite q => .finite ⌊q+1/2⌋
  | n => n

/-- The own properties behind `value.name`; null has none to read. Those read here are not inherited
by any value. -/
def readProps : ScriptValue → Option ScriptObject
  | .null => none
  | .array _ props => some props
  | .object props => some props
  | .bool _ => some []
  | .number _ => some []
  | .string _ => some []

def iterate : ScriptValue → Option (List ScriptValue)
  | .array items _ => some items
  | .string s => some (s.toList.map fun c => .string (String.singleton c))
  | .null => none
  | .bool _ => none
  | .number _ => none
  | .object _ => none

def iterateOrEmpty : Option ScriptValue → Option (List ScriptValue)
  | none => some []
  | some .null => some []
  | some v => iterate v

end Values

variable (env : DumpEnv)

def isHttpOrHttpsUrl (raw : String) : Bool :=
  env.urlProtocol raw = some "http:" || env.urlProtocol raw = some "https:"

structure YtDlpStream where
  id : String
  src : String
  type : Option String
  protocol : Option String
  width : Option ℚ
  height : Option ℚ
  bitrate : Option ScriptNumber
  audioBitrate : Option ScriptNumber
  label : Option String
  isDefault : Option Bool
  vcodec : Option String
  acodec : Option String
  deriving DecidableEq

inductive VariantKind
  | video | audio | combined
  deriving DecidableEq

structure YtDlpNormalizedVariant where
  id : String
  kind : VariantKind
  src : String
  label : Option String
  width : Option ℚ
  height : Option ℚ
  vcodec : Option String
  acodec : Option String
  protocol : Option String
  tbr : Option ℚ
  abr : Option ℚ
  deriving DecidableEq

structure YtDlpTextTrack where
  id : String
  src : String
  label : String
  language : String
  type : String
  isDefault : Option Bool
  deriving DecidableEq

/-- A key of a `Map`: it stays where it was first set. -/
structure LanguageKey where
  language : String
  deriving DecidableEq

instance : PropertyKey LanguageKey where
  arrayIndex? _ := none

structure DumpStreams where
  streams : List YtDlpStream
  videoVariants : List YtDlpNormalizedVariant
  audioVariants : List YtDlpNormalizedVariant
  seenStreamSrc : List String

structure YtDlpExtractSuccess where
  title : Option String
  durationSeconds : Option ℤ
  isLive : Option Bool
  streams : List YtDlpStream
  textTracks : List YtDlpTextTrack
  videoVariants : List YtDlpNormalizedVariant
  audioVariants : List YtDlpNormalizedVariant
  bestPlayableUrl : Option String

/-- `pushVariantFromTopLevel`, on both lists. -/
def topLevelVariant (src : String) (protocol : Option String) (stream : YtDlpStream) :
    YtDlpNormalizedVariant :=
  ⟨"auto",.combined,src,stream.label,none,none,none,none,protocol,none,none⟩

def videoType (ext : Option ScriptValue) : Option String :=
  (ScriptValue.string? ext).map fun ext => "video/" ++ ext

/-- The stream of the top-level manifest or, without one, of the top-level URL. -/
def topLevelStream (parsed : ScriptObject) : Option YtDlpStream :=
  let protocol := ScriptValue.string? (getProp parsed "protocol")
  let ext := getProp parsed "ext"
  let manifestUrl := (ScriptValue.string? (getProp parsed "manifest_url")).filter fun url =>
    url ≠ "" && isHttpOrHttpsUrl env url
  let url := (ScriptValue.string? (getProp parsed "url")).filter fun url => isHttpOrHttpsUrl env url
  match manifestUrl,url with
  | some src,_ =>
    some {
      id := "auto"
      src
      type := if protocol = some "m3u8_native" then some "application/x-mpegURL" else videoType ext
      protocol
      width := none
      height := none
      bitrate := none
      audioBitrate := none
      label := some "Auto"
      isDefault := some true
      vcodec := none
      acodec := none }
  | none,some src =>
    some {
      id := "default"
      src
      type := videoType ext
      protocol
      width := none
      height := none
      bitrate := none
      audioBitrate := none
      label := some "Default"
      isDefault := some true
      vcodec := none
      acodec := none }
  | none,none => none

def startStreams (parsed : ScriptObject) : DumpStreams :=
  match topLevelStream env parsed with
  | none => ⟨[],[],[],[]⟩
  | some stream =>
    let variant := topLevelVariant stream.src stream.protocol stream
    ⟨[stream],[variant],[variant],[stream.src]⟩

def bitsPerSecond (rate : Option ℚ) : Option ScriptNumber :=
  rate.map fun rate => mathRound (env.round (rate*1000))

def hasCodec (codec : Option String) : Bool :=
  match codec with
  | none => false
  | some codec => codec ≠ "" && codec ≠ "none"

def sizeText (size : Option ℚ) : String :=
  match size with
  | none => "x"
  | some size => env.numberText.print (.finite size)

def truthySize (size : Option ℚ) : Option ℚ := size.filter fun size => size ≠ 0

def formatStream (format : ScriptObject) (src : String) (streamCount : ℕ) : YtDlpStream :=
  let width := ScriptValue.finite? (getProp format "width")
  let height := ScriptValue.finite? (getProp format "height")
  let protocol := ScriptValue.string? (getProp format "protocol")
  {
    id :=
      match ScriptValue.string? (getProp format "format_id") with
      | some formatId => formatId
      | none => sizeText env width ++ "-" ++ sizeText env height ++ "-" ++ Nat.repr (streamCount+1)
    src
    type :=
      if protocol = some "m3u8_native" then some "application/x-mpegURL"
      else videoType (getProp format "ext")
    protocol
    width
    height
    bitrate := bitsPerSecond env (ScriptValue.finite? (getProp format "tbr"))
    audioBitrate := bitsPerSecond env (ScriptValue.finite? (getProp format "abr"))
    label :=
      match ScriptValue.string? (getProp format "format_note") with
      | some note => env.sanitizeLabel note
      | none =>
        match truthySize width,truthySize height with
        | some _,some height => some (env.numberText.print (.finite height) ++ "p")
        | _,_ => none
    isDefault := none
    vcodec := ScriptValue.string? (getProp format "vcodec")
    acodec := ScriptValue.string? (getProp format "acodec") }

/-- The variant of a format; an audio variant has no size. -/
def formatVariant (format : ScriptObject) (stream : YtDlpStream) (kind : VariantKind) :
    YtDlpNormalizedVariant where
  id := stream.id
  kind
  src := stream.src
  label := stream.label
  width := if kind = .audio then none else stream.width
  height := if kind = .audio then none else stream.height
  vcodec := stream.vcodec
  acodec := stream.acodec
  protocol := stream.protocol
  tbr := ScriptValue.finite? (getProp format "tbr")
  abr := ScriptValue.finite? (getProp format "abr")

def addFormat (acc : DumpStreams) (format : ScriptObject) : DumpStreams :=
  match ScriptValue.string? (getProp format "url") with
  | none => acc
  | some src =>
    if src = "" || !isHttpOrHttpsUrl env src then acc
    else if src ∈ acc.seenStreamSrc then acc
    else
      let stream := formatStream env format src acc.streams.length
      let variant := formatVariant format stream
      let hasVideo := hasCodec stream.vcodec
      let hasAudio := hasCodec stream.acodec
      {
        streams := acc.streams ++ [stream]
        videoVariants :=
          if hasVideo && hasAudio then acc.videoVariants ++ [variant .combined]
          else if hasVideo then acc.videoVariants ++ [variant .video]
          else acc.videoVariants
        audioVariants :=
          if hasVideo && hasAudio then acc.audioVariants ++ [variant .combined]
          else if hasVideo then acc.audioVariants
          else if hasAudio then acc.audioVariants ++ [variant .audio]
          else acc.audioVariants
        seenStreamSrc := acc.seenStreamSrc ++ [src] }

def readFormats (acc : DumpStreams) : List ScriptValue → Option DumpStreams
  | [] => some acc
  | format :: formats =>
    match readProps format with
    | none => none
    | some format => readFormats (addFormat env acc format) formats

def addTextTrack (language : String) (byLanguage : Record LanguageKey YtDlpTextTrack)
    (track : ScriptObject) : Record LanguageKey YtDlpTextTrack :=
  match ScriptValue.string? (getProp track "url") with
  | none => byLanguage
  | some src =>
    if src = "" || !isHttpOrHttpsUrl env src then byLanguage
    else
      let name := (ScriptValue.string? (getProp track "name")).filter fun name => trim name ≠ ""
      let nextTrack : YtDlpTextTrack := {
        id := language ++ "-" ++ Nat.repr (byLanguage.size+1)
        src
        label := (env.sanitizeLabel (name.getD language)).getD language
        language
        type :=
          match ScriptValue.string? (getProp track "ext") with
          | some ext => "text/" ++ ext
          | none => "text/vtt"
        isDefault := none }
      match byLanguage.get? ⟨language⟩ with
      | none => byLanguage.set ⟨language⟩ nextTrack
      | some existing =>
        if nextTrack.type = "text/vtt" ∧ existing.type ≠ "text/vtt" then
          byLanguage.set ⟨language⟩ nextTrack
        else byLanguage

def readTracks (language : String) (byLanguage : Record LanguageKey YtDlpTextTrack) :
    List ScriptValue → Option (Record LanguageKey YtDlpTextTrack)
  | [] => some byLanguage
  | track :: tracks =>
    match readProps track with
    | none => none
    | some track => readTracks language (addTextTrack env language byLanguage track) tracks

/-- The loop over the languages of one source; a language whose tracks cannot be iterated throws. -/
def readLanguages (byLanguage : Record LanguageKey YtDlpTextTrack) :
    List (String × ScriptValue) → Option (Record LanguageKey YtDlpTextTrack)
  | [] => some byLanguage
  | (language,tracks) :: languages =>
    match iterate tracks with
    | none => none
    | some tracks =>
      match readTracks env language byLanguage tracks with
      | none => none
      | some byLanguage => readLanguages byLanguage languages

/-- `Object.entries(source ?? {})`; the characters of a text have no tracks to add. -/
def sourceEntries : Option ScriptValue → List (String × ScriptValue)
  | none => []
  | some source => source.entries

def readTextTracks (parsed : ScriptObject) : Option (List YtDlpTextTrack) :=
  match readLanguages env .empty (sourceEntries (getProp parsed "subtitles")) with
  | none => none
  | some byLanguage =>
    match readLanguages env byLanguage (sourceEntries (getProp parsed "automatic_captions")) with
    | none => none
    | some byLanguage =>
      some (byLanguage.values.zipIdx.map fun (track,index) =>
        { track with
          id := track.language ++ "-" ++ Nat.repr (index+1)
          isDefault := some (index = 0) })

def pickBestPlayableUrl (streams : List YtDlpStream) : Option String :=
  let defaultStream :=
    (streams.find? fun s => s.isDefault = some true).or (streams.find? fun s => s.id = "default")
  match defaultStream with
  | some defaultStream => some defaultStream.src
  | none => streams.head?.map YtDlpStream.src

def dumpIsLive (parsed : ScriptObject) : Option Bool :=
  match getProp parsed "is_live" with
  | some (.bool isLive) => some isLive
  | _ =>
    match ScriptValue.string? (getProp parsed "live_status") with
    | some status => if status = "is_live" ∨ status = "is_upcoming" then some true else none
    | none => none

/-- `parseYtDlpDumpJson`; nothing where it throws. -/
def parseYtDlpDumpJson (dump : ScriptValue) : Option YtDlpExtractSuccess :=
  match readProps dump with
  | none => none
  | some parsed =>
    match iterateOrEmpty (getProp parsed "formats") with
    | none => none
    | some formats =>
      match readFormats env (startStreams env parsed) formats with
      | none => none
      | some collected =>
        match readTextTracks env parsed with
        | none => none
        | some textTracks =>
          some {
            title := ((ScriptValue.string? (getProp parsed "title")).filter fun title =>
              trim title ≠ "").bind env.sanitizeMediaTitle
            durationSeconds := (ScriptValue.finite? (getProp parsed "duration")).map fun duration =>
              max 0 ⌊duration+1/2⌋
            isLive := dumpIsLive parsed
            streams := collected.streams
            textTracks
            videoVariants := collected.videoVariants
            audioVariants := collected.audioVariants
            bestPlayableUrl := pickBestPlayableUrl collected.streams }

end MediaCatalog
end WebSyncPlay
