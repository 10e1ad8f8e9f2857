import WebSyncPlay.Library.QuotedScan
import WebSyncPlay.Library.Text

/-! An HLS playlist with its URLs replaced by proxy paths (`media/hls-proxy-rewrite.ts`). The URL
parser is outside: `newUrl raw base` is `new URL(raw, base).href`, or nothing where the constructor
throws. Texts are lists of characters. -/
namespace WebSyncPlay

open Library Library.Piece

abbrev NewUrl := List Char → List Char → Option (List Char)

def uriKey : List Char := ['U','R','I','=']

/-- The quotes of the two patterns for URI attributes, in their order. -/
def uriQuotes : List Char := ['"','\'']

/-- `https?:\/\/` at the start, in either case. -/
def isHttpUrl (url : List Char) : Bool :=
  decide ("http://".toList <+: url.map Char.toLower) ||
    decide ("https://".toList <+: url.map Char.toLower)

def resolveHttpUrl (newUrl : NewUrl) (baseUrl raw : List Char) : Option (List Char) :=
  (newUrl (trimText raw) baseUrl).filter isHttpUrl

def dropCr (line : List Char) : List Char :=
  if line.getLast? = some '\r' then line.dropLast else line

def dropCrs : List (List Char) → List (List Char)
  | [] => []
  | [last] => [last]
  | line :: lines => dropCr line :: dropCrs lines

/-- `split(/\r?\n/)`. -/
def splitLines (body : List Char) : List (List Char) := dropCrs (body.splitOn '\n')

def IsContent (line : List Char) : Prop := trimText line ≠ [] ∧ (trimText line).head? ≠ some '#'

instance : DecidablePred IsContent := fun _ => inferInstanceAs (Decidable (_ ∧ _))

def attributes (q : Char) (s : List Char) : List (List Char) := values (scan uriKey q s)

def collectM3u8ReferencedUrls (newUrl : NewUrl) (baseUrl body : List Char) :
    Finset (List Char) :=
  ((uriQuotes.flatMap fun q => attributes q body) ++
    ((splitLines body).filter IsContent).map trimText).filterMap
      (resolveHttpUrl newUrl baseUrl) |>.toFinset

section Rewrite

variable (newUrl : NewUrl) (baseUrl : List Char) (proxyMap : List Char → Option (List Char))

def proxied (uri : List Char) : Option (List Char) := (newUrl uri baseUrl).bind proxyMap

def replaceUris (q : Char) (line : List Char) : List Char :=
  render uriKey ((scan uriKey q line).map
    (mapValue fun _ uri => (proxied newUrl baseUrl proxyMap uri).getD uri))

def rewriteLineWithMap (line : List Char) : List Char :=
  let result := uriQuotes.foldl (fun result q => replaceUris newUrl baseUrl proxyMap q result) line
  let trimmed := trimEnd result
  let leadingLen := result.length-trimmed.length
  let leadWs := result.take leadingLen
  let content := trimText trimmed
  if content ≠ [] ∧ content.head? ≠ some '#' then
    match proxied newUrl baseUrl proxyMap content with
    | some path => leadWs ++ path
    | none => result
  else result

def rewriteM3u8BodyWithProxyMap (body : List Char) : List Char :=
  ['\n'].intercalate ((splitLines body).map (rewriteLineWithMap newUrl baseUrl proxyMap))

end Rewrite

def AttributesRefer (newUrl : NewUrl) (baseUrl line u : List Char) : Prop :=
  ∃ q ∈ uriQuotes, ∃ v ∈ attributes q line, resolveHttpUrl newUrl baseUrl v = some u

def ContentRefers (newUrl : NewUrl) (baseUrl line u : List Char) : Prop :=
  IsContent line ∧ resolveHttpUrl newUrl baseUrl (trimText line) = some u

/-- Pieces that both patterns see: no match of one overlaps a match of the other. -/
structure IsCut (ps : List (Piece Char)) (line : List Char) : Prop where
  text : render uriKey ps = line
  quotes : ∀ {p v}, .quoted p v ∈ ps → p ∈ uriQuotes
  seen : ∀ q ∈ uriQuotes, ps.flatMap (view uriKey q) = scan uriKey q line

def IsProxyPath (path : List Char) : Prop :=
  path.head? = some '/' ∧ ∀ c ∈ path, isWhiteSpace c = false ∧ c ∉ uriQuotes

/-- A map of the collected URLs, and of no other, to relative paths. -/
structure IsProxyMap (newUrl : NewUrl) (baseUrl body : List Char)
    (proxyMap : List Char → Option (List Char)) : Prop where
  dom : ∀ u, (proxyMap u).isSome ↔ u ∈ collectM3u8ReferencedUrls newUrl baseUrl body
  path : ∀ {u path}, proxyMap u = some path → IsProxyPath path

/-- The value of an attribute, or the proxy path of the URL it resolves to. -/
def replaced (newUrl : NewUrl) (baseUrl : List Char) (proxyMap : List Char → Option (List Char))
    (uri : List Char) : List Char := ((resolveHttpUrl newUrl baseUrl uri).bind proxyMap).getD uri

/-- The attributes of a tag that resolve hold their proxy paths, and the rest is as it was. -/
def TagExact (newUrl : NewUrl) (baseUrl : List Char) (proxyMap : List Char → Option (List Char))
    (line line' : List Char) : Prop :=
  (∀ u, AttributesRefer newUrl baseUrl line u → (proxyMap u).isSome) ∧
  ∃ ps, IsCut ps line ∧
    IsCut (ps.map (mapValue fun _ => replaced newUrl baseUrl proxyMap)) line'

structure LineExact (newUrl : NewUrl) (baseUrl : List Char)
    (proxyMap : List Char → Option (List Char)) (line line' : List Char) : Prop where
  content : ∀ {u}, ContentRefers newUrl baseUrl line u →
    ∃ path, proxyMap u = some path ∧ trimText line' = path
  tag : ¬IsContent line → (∃ u, AttributesRefer newUrl baseUrl line u) →
    TagExact newUrl baseUrl proxyMap line line'
  other : (∀ u, ¬ContentRefers newUrl baseUrl line u) →
    (¬IsContent line → ∀ u, ¬AttributesRefer newUrl baseUrl line u) → line' = line

/-- Line by line, and no URL of the playlist is found again. -/
def ExactRewrite (newUrl : NewUrl) (baseUrl : List Char)
    (proxyMap : List Char → Option (List Char)) (body output : List Char) : Prop :=
  (∃ lines', output = ['\n'].intercalate lines' ∧ lines' ≠ [] ∧ (∀ line' ∈ lines', '\n' ∉ line') ∧
    List.Forall₂ (LineExact newUrl baseUrl proxyMap) (splitLines body) lines') ∧
  Disjoint (collectM3u8ReferencedUrls newUrl baseUrl output)
    (collectM3u8ReferencedUrls newUrl baseUrl body)

/-- A line, or a path in place of the URL that is its content. -/
def Filled (newUrl : NewUrl) (baseUrl line line' : List Char) : Prop :=
  line' = line ∨ line' = dropCr line ∨ (∃ u, ContentRefers newUrl baseUrl line u) ∧
    ∃ lead path, IsBlank lead ∧ IsProxyPath path ∧ line' = lead ++ path

/-- Lines whose attributes resolve neither alone nor together, and out of which no match runs,
whatever paths stand in place of their content. -/
structure Inert (newUrl : NewUrl) (baseUrl : List Char) (q : Char) (lines : List (List Char)) :
    Prop where
  alone : ∀ line ∈ lines, ∀ u, ¬AttributesRefer newUrl baseUrl line u
  together : ∀ lines', List.Forall₂ (Filled newUrl baseUrl) lines lines' →
    ∀ v ∈ attributes q (['\n'].intercalate lines'), resolveHttpUrl newUrl baseUrl v = none
  closed : ∀ lines', List.Forall₂ (Filled newUrl baseUrl) lines lines' → ∀ rest,
    scan uriKey q (['\n'].intercalate lines' ++ '\n' :: rest) =
      scan uriKey q (['\n'].intercalate lines') ++ .text '\n' :: scan uriKey q rest

/-- The lines of a body in runs, so that no match runs from one into the next. -/
structure IsRuns (newUrl : NewUrl) (baseUrl body : List Char) (q : Char)
    (runs : List (List (List Char))) : Prop where
  lines : runs.flatten = body.splitOn '\n'
  scanned : scan uriKey q body =
    [.text '\n'].intercalate ((runs.map ['\n'].intercalate).map (scan uriKey q))
  run : ∀ run ∈ runs, (∃ line, run = [line]) ∨ run ≠ [] ∧ Inert newUrl baseUrl q run

/-- No value that runs over a line end matters, none of a line with content resolves, white space
around those of a tag makes no difference, and those of a tag do not overlap. -/
structure IsRegular (newUrl : NewUrl) (baseUrl body : List Char) : Prop where
  within : ∀ q ∈ uriQuotes, ∃ runs, IsRuns newUrl baseUrl body q runs
  content : ∀ line ∈ splitLines body, IsContent line → ∀ q ∈ uriQuotes, ∀ v ∈ attributes q line,
    resolveHttpUrl newUrl baseUrl v = none ∧
      ∀ u ∈ collectM3u8ReferencedUrls newUrl baseUrl body, newUrl v baseUrl ≠ some u
  trimmed : ∀ line ∈ splitLines body, ¬IsContent line → ∀ q ∈ uriQuotes, ∀ v ∈ attributes q line,
    (newUrl v baseUrl).filter isHttpUrl = resolveHttpUrl newUrl baseUrl v
  separate : ∀ line ∈ splitLines body, ¬IsContent line →
    (∃ u, AttributesRefer newUrl baseUrl line u) → ∃ ps, IsCut ps line

/-! The lines of a body. -/
section Lines

theorem exists_dropCr (line : List Char) :
    ∃ cr, line = dropCr line ++ cr ∧ (cr = [] ∨ cr = ['\r']) := by
  rw [dropCr]
  split
  · rename_i hlast
    exact ⟨['\r'],(List.dropLast_append_getLast? _ hlast).symm,Or.inr rfl⟩
  · exact ⟨[],(List.append_nil line).symm,Or.inl rfl⟩

theorem trimText_dropCr (line : List Char) : trimText (dropCr line) = trimText line := by
  obtain ⟨cr,hline,hcr⟩ := exists_dropCr line
  have hblank : IsBlank cr := by
    rintro c hc
    rcases hcr with rfl | rfl
    · cases hc
    · rw [List.mem_singleton.mp hc]
      decide
  conv_rhs => rw [hline,trimText_append hblank]

theorem attributes_dropCr {q : Char} (hq : q ∈ uriQuotes) (line : List Char) :
    attributes q (dropCr line) = attributes q line := by
  obtain ⟨cr,hline,hcr⟩ := exists_dropCr line
  have hfree : q ∉ cr := by
    rcases hcr with rfl | rfl
    · exact List.not_mem_nil
    · rw [List.mem_singleton]
      rintro rfl
      exact absurd hq (by decide)
  conv_rhs => rw [hline,attributes,scan_append_texts hfree,values_append,values_texts,
    List.append_nil]
  rfl

theorem mem_dropCrs {lines : List (List Char)} {line : List Char} (h : line ∈ dropCrs lines) :
    ∃ line' ∈ lines, line = line' ∨ line = dropCr line' := by
  induction lines with
  | nil => cases h
  | cons first lines ih =>
    cases lines with
    | nil => exact ⟨first,List.mem_cons_self,Or.inl (List.mem_singleton.mp h)⟩
    | cons second lines =>
      rcases List.mem_cons.mp h with rfl | h
      · exact ⟨first,List.mem_cons_self,Or.inr rfl⟩
      · obtain ⟨line',hin,hsame⟩ := ih h
        exact ⟨line',List.mem_cons_of_mem first hin,hsame⟩

theorem map_dropCrs {β : Type*} {f : List Char → β} (hf : ∀ line, f (dropCr line) = f line)
    (lines : List (List Char)) : (dropCrs lines).map f = lines.map f := by
  induction lines with
  | nil => rfl
  | cons first lines ih =>
    cases lines with
    | nil => rfl
    | cons second lines =>
      change (dropCr first :: dropCrs (second :: lines)).map f = _
      rw [List.map_cons,List.map_cons,hf,ih]

theorem dropCrs_ne_nil {lines : List (List Char)} (h : lines ≠ []) : dropCrs lines ≠ [] := by
  cases lines with
  | nil => exact absurd rfl h
  | cons first lines => cases lines <;> exact List.cons_ne_nil _ _

end Lines

/-! What a line and its replacement look like to a scan of the whole text. -/
section Scans

/-- A replacement that adds no quote and no start of a value. -/
structure KeepsScan (q : Char) (line line' : List Char) : Prop where
  mem : q ∈ line' → q ∈ line
  scan_append : ∀ (cr rest rest' : List Char) (ps : List (Piece Char)), cr = [] ∨ cr = ['\r'] →
    (q ∈ rest' → q ∈ rest) → scan uriKey q (line ++ (cr ++ '\n' :: rest)) = scan uriKey q line ++ ps →
      scan uriKey q (line' ++ '\n' :: rest') =
        scan uriKey q line' ++ .text '\n' :: scan uriKey q rest'

theorem lineEnd_not_mem {q : Char} (hq : q ∈ uriQuotes) : '\n' ∉ uriKey ∧ '\n' ≠ q := by
  refine ⟨by decide,?_⟩
  rintro rfl
  exact absurd hq (by decide)

theorem quote_not_mem_uriKey {q : Char} (hq : q ∈ uriQuotes) : q ∉ uriKey := by
  intro hin
  rcases List.mem_pair.mp hq with rfl | rfl
  · exact absurd hin (by decide)
  · exact absurd hin (by decide)

theorem scan_lineEnd {q : Char} (hq : q ∈ uriQuotes) (s : List Char) :
    scan uriKey q ('\n' :: s) = .text '\n' :: scan uriKey q s := by
  obtain ⟨hkey,hne⟩ := lineEnd_not_mem hq
  exact scan_texts_append (a := []) List.not_mem_nil hne hkey s

theorem isKeyword_uriKey {q : Char} (hq : q ∈ uriQuotes) : IsKeyword uriKey q :=
  ⟨⟨'U',['R','I','='],rfl,by decide⟩,quote_not_mem_uriKey hq⟩

theorem KeepsScan.of_refilled {q : Char} (hq : q ∈ uriQuotes) {line line' : List Char}
    (h : Refilled uriKey q (scan uriKey q line) (scan uriKey q line')) :
    KeepsScan q line line' := by
  have hmem : q ∈ line' → q ∈ line := by
    intro hin
    have hin' := h.mem (quote_not_mem_uriKey hq) (by rwa [render_scan])
    rwa [render_scan] at hin'
  refine ⟨hmem,?_⟩
  intro cr rest rest' ps hcr hrest hscan
  obtain ⟨hkey,hne⟩ := lineEnd_not_mem hq
  have hhead : (cr ++ '\n' :: rest).head? ≠ some q := by
    rcases hcr with rfl | rfl
    · exact fun hsame => hne (Option.some.inj hsame)
    · intro hsame
      obtain rfl := Option.some.inj hsame
      exact absurd hq (by decide)
  have hhead' : ∀ c ∈ ('\n' :: rest').head?, c ∉ uriKey ∧ c ≠ q := by
    rintro c ⟨⟩
    exact ⟨hkey,hne⟩
  have hquote : q ∈ '\n' :: rest' → q ∈ cr ++ '\n' :: rest := by
    intro hin
    rcases List.mem_cons.mp hin with hin | hin
    · exact absurd hin.symm hne
    · exact List.mem_append_right cr (List.mem_cons_of_mem _ (hrest hin))
  have hall := h.scan (isKeyword_uriKey hq) hhead hhead' hquote (by rwa [render_scan])
  rw [render_scan] at hall
  rw [hall,scan_lineEnd hq]

theorem KeepsScan.refl {q : Char} (hq : q ∈ uriQuotes) (line : List Char) :
    KeepsScan q line line := by
  refine .of_refilled hq ?_
  have hview : Refilled uriKey q ((scan uriKey q line).flatMap (view uriKey q))
      (((scan uriKey q line).map (mapValue fun _ v => v)).flatMap (view uriKey q)) :=
    Refilled.of_view (fun v hv => (mem_scan hv).2)
      (fun p v hv => (mem_scan hv).1 ▸ quote_not_mem_uriKey hq) (fun p v _ => Or.inl rfl)
  have hmap : (scan uriKey q line).map (mapValue fun _ v => v) = scan uriKey q line := by
    refine (List.map_congr_left fun piece _ => ?_).trans (List.map_id _)
    cases piece <;> rfl
  rwa [hmap,flatMap_view_scan] at hview

theorem KeepsScan.of_not_mem {q : Char} (hq : q ∈ uriQuotes) {line line' : List Char}
    (hfree : q ∉ line') : KeepsScan q line line' := by
  obtain ⟨hkey,hne⟩ := lineEnd_not_mem hq
  refine ⟨fun hin => absurd hin hfree,?_⟩
  intro _ _ rest' _ _ _ _
  rw [scan_texts_append hfree hne hkey,scan_texts hfree,texts,List.map_append,List.append_assoc]
  rfl

/-- What follows the replacement of a text is scanned like what follows the text. -/
structure Follows (q : Char) (text text' : List Char) : Prop where
  mem : q ∈ text' → q ∈ text
  scan_append : ∀ rest rest' : List Char, (q ∈ rest' → q ∈ rest) →
    scan uriKey q (text ++ '\n' :: rest) = scan uriKey q text ++ .text '\n' :: scan uriKey q rest →
      scan uriKey q (text' ++ '\n' :: rest') =
        scan uriKey q text' ++ .text '\n' :: scan uriKey q rest'

theorem KeepsScan.follows {q : Char} (hq : q ∈ uriQuotes) {part line line' : List Char}
    (h : KeepsScan q line line') (hline : line = part ∨ line = dropCr part) :
    Follows q part line' := by
  obtain ⟨cr,rfl,hcr⟩ : ∃ cr, part = line ++ cr ∧ (cr = [] ∨ cr = ['\r']) := by
    rcases hline with rfl | rfl
    · exact ⟨[],(List.append_nil _).symm,Or.inl rfl⟩
    · exact exists_dropCr part
  have hfree : q ∉ cr := by
    rcases hcr with rfl | rfl
    · exact List.not_mem_nil
    · rw [List.mem_singleton]
      rintro rfl
      exact absurd hq (by decide)
  refine ⟨fun hin => List.mem_append_left cr (h.mem hin),fun rest rest' hrest hscan => ?_⟩
  refine h.scan_append cr rest rest' (texts cr ++ .text '\n' :: scan uriKey q rest) hcr hrest ?_
  rw [← List.append_assoc,hscan,scan_append_texts hfree,List.append_assoc]

theorem attributes_texts {q : Char} {texts : List (List Char)}
    (hscan : scan uriKey q (['\n'].intercalate texts) =
      [.text '\n'].intercalate (texts.map (scan uriKey q))) :
    attributes q (['\n'].intercalate texts) = texts.flatMap (attributes q) := by
  rw [attributes,hscan,values_intercalate]
  rfl

theorem attributes_follows {q : Char} (hq : q ∈ uriQuotes) {texts texts' : List (List Char)}
    (hscan : scan uriKey q (['\n'].intercalate texts) =
      [.text '\n'].intercalate (texts.map (scan uriKey q)))
    (h : List.Forall₂ (Follows q) texts texts') :
    attributes q (['\n'].intercalate texts') = texts'.flatMap (attributes q) ∧
      (q ∈ ['\n'].intercalate texts' → q ∈ ['\n'].intercalate texts) := by
  obtain ⟨-,hnl⟩ := lineEnd_not_mem hq
  induction h with
  | nil => exact ⟨rfl,id⟩
  | @cons text text' texts texts' hfirst hrest ih =>
    cases hrest with
    | nil =>
      simp only [List.intercalate_singleton,List.flatMap_singleton]
      exact ⟨trivial,hfirst.mem⟩
    | @cons second second' texts texts' hsecond hrest =>
      obtain ⟨hscan',hsplit⟩ := scan_intercalate_cons (List.cons_ne_nil second texts) hscan
      obtain ⟨hvalues,hmem⟩ := ih hscan'
      rw [intercalate_cons_of_ne_nil (List.cons_ne_nil second' texts'),
        intercalate_cons_of_ne_nil (List.cons_ne_nil second texts)]
      refine ⟨?_,fun hin => ?_⟩
      · rw [List.flatMap_cons,← hvalues,attributes,hfirst.scan_append _ _ hmem hsplit,values_append]
        rfl
      · rcases List.mem_append.mp hin with hin | hin
        · exact List.mem_append_left _ (hfirst.mem hin)
        · rcases List.mem_cons.mp hin with hin | hin
          · exact absurd hin.symm hnl
          · exact List.mem_append_right _ (List.mem_cons_of_mem _ (hmem hin))

end Scans

/-! What is collected. -/
section Collect

variable {newUrl : NewUrl} {baseUrl body : List Char}

theorem mem_collect {u : List Char} : u ∈ collectM3u8ReferencedUrls newUrl baseUrl body ↔
    AttributesRefer newUrl baseUrl body u ∨
      ∃ line ∈ splitLines body, ContentRefers newUrl baseUrl line u := by
  simp only [collectM3u8ReferencedUrls,List.mem_toFinset,List.mem_filterMap,List.mem_append,
    List.mem_flatMap,List.mem_map,List.mem_filter,decide_eq_true_eq]
  constructor
  · rintro ⟨v,⟨q,hq,hv⟩ | ⟨line,⟨hline,hcontent⟩,rfl⟩,hu⟩
    · exact Or.inl ⟨q,hq,v,hv,hu⟩
    · exact Or.inr ⟨line,hline,hcontent,hu⟩
  · rintro (⟨q,hq,v,hv,hu⟩ | ⟨line,hline,hcontent,hu⟩)
    · exact ⟨v,Or.inl ⟨q,hq,hv⟩,hu⟩
    · exact ⟨_,Or.inr ⟨line,⟨hline,hcontent⟩,rfl⟩,hu⟩

theorem isHttpUrl_of_resolve {raw u : List Char} (h : resolveHttpUrl newUrl baseUrl raw = some u) :
    isHttpUrl u = true := (Option.filter_eq_some_iff.mp h).2

theorem isHttpUrl_of_mem_collect {u : List Char}
    (h : u ∈ collectM3u8ReferencedUrls newUrl baseUrl body) : isHttpUrl u = true := by
  rcases mem_collect.mp h with ⟨_,_,_,_,hu⟩ | ⟨_,_,_,hu⟩
  · exact isHttpUrl_of_resolve hu
  · exact isHttpUrl_of_resolve hu

def LineRefers (newUrl : NewUrl) (baseUrl line u : List Char) : Prop :=
  AttributesRefer newUrl baseUrl line u ∨ ContentRefers newUrl baseUrl line u

theorem contentRefers_dropCr {line u : List Char} :
    ContentRefers newUrl baseUrl (dropCr line) u ↔ ContentRefers newUrl baseUrl line u := by
  rw [ContentRefers,ContentRefers,IsContent,IsContent,trimText_dropCr]

theorem attributesRefer_dropCr {line u : List Char} :
    AttributesRefer newUrl baseUrl (dropCr line) u ↔ AttributesRefer newUrl baseUrl line u := by
  constructor
  · rintro ⟨q,hq,v,hv,hu⟩
    exact ⟨q,hq,v,attributes_dropCr hq line ▸ hv,hu⟩
  · rintro ⟨q,hq,v,hv,hu⟩
    exact ⟨q,hq,v,attributes_dropCr hq line ▸ hv,hu⟩

theorem lineRefers_dropCr {line u : List Char} :
    LineRefers newUrl baseUrl (dropCr line) u ↔ LineRefers newUrl baseUrl line u :=
  or_congr attributesRefer_dropCr contentRefers_dropCr

theorem exists_dropCrs {f : List Char → Prop} (hf : ∀ line, f (dropCr line) ↔ f line)
    (lines : List (List Char)) : (∃ line ∈ dropCrs lines, f line) ↔ ∃ line ∈ lines, f line := by
  have hmap := map_dropCrs (f := f) (fun line => propext (hf line)) lines
  constructor
  · rintro ⟨line,hin,hline⟩
    have hprop : f line ∈ (dropCrs lines).map f := List.mem_map_of_mem hin
    rw [hmap] at hprop
    obtain ⟨line',hin',hsame⟩ := List.mem_map.mp hprop
    exact ⟨line',hin',hsame ▸ hline⟩
  · rintro ⟨line,hin,hline⟩
    have hprop : f line ∈ lines.map f := List.mem_map_of_mem hin
    rw [← hmap] at hprop
    obtain ⟨line',hin',hsame⟩ := List.mem_map.mp hprop
    exact ⟨line',hin',hsame ▸ hline⟩

/-- An attribute in one of the quotes refers to a URL. -/
def QuoteRefers (newUrl : NewUrl) (baseUrl : List Char) (q : Char) (text u : List Char) : Prop :=
  ∃ v ∈ attributes q text, resolveHttpUrl newUrl baseUrl v = some u

theorem quoteRefers_runs {q : Char} {runs : List (List (List Char))} {u : List Char}
    (hne : ∀ run ∈ runs, run ≠ [])
    (hattributes : attributes q (['\n'].intercalate (runs.map ['\n'].intercalate)) =
      (runs.map ['\n'].intercalate).flatMap (attributes q))
    (hrun : ∀ run ∈ runs, (∃ line, run = [line]) ∨
      (¬QuoteRefers newUrl baseUrl q (['\n'].intercalate run) u) ∧
        ∀ line ∈ run, ¬QuoteRefers newUrl baseUrl q line u) :
    QuoteRefers newUrl baseUrl q (['\n'].intercalate runs.flatten) u ↔
      ∃ line ∈ runs.flatten, QuoteRefers newUrl baseUrl q line u := by
  have hone : ∀ run ∈ runs, QuoteRefers newUrl baseUrl q (['\n'].intercalate run) u ↔
      ∃ line ∈ run, QuoteRefers newUrl baseUrl q line u := by
    intro run hin
    rcases hrun run hin with ⟨line,rfl⟩ | ⟨htogether,halone⟩
    · simp
    · exact iff_of_false htogether fun ⟨line,hline,hrefer⟩ => halone line hline hrefer
  rw [intercalate_flatten hne]
  constructor
  · rintro ⟨v,hv,hu⟩
    rw [hattributes,List.mem_flatMap] at hv
    obtain ⟨text,htext,hv⟩ := hv
    obtain ⟨run,hin,rfl⟩ := List.mem_map.mp htext
    obtain ⟨line,hline,hrefer⟩ := (hone run hin).mp ⟨v,hv,hu⟩
    exact ⟨line,List.mem_flatten.mpr ⟨run,hin,hline⟩,hrefer⟩
  · rintro ⟨line,hline,hrefer⟩
    obtain ⟨run,hin,hline⟩ := List.mem_flatten.mp hline
    obtain ⟨v,hv,hu⟩ := (hone run hin).mpr ⟨line,hline,hrefer⟩
    refine ⟨v,?_,hu⟩
    rw [hattributes,List.mem_flatMap]
    exact ⟨_,List.mem_map_of_mem hin,hv⟩

/-- When the attributes of a body refer to what those of its lines do, so does the body. -/
theorem mem_collect_parts {parts : List (List Char)} {u : List Char} (hne : parts ≠ [])
    (hparts : ∀ part ∈ parts, '\n' ∉ part) (hattributes : ∀ q ∈ uriQuotes,
      QuoteRefers newUrl baseUrl q (['\n'].intercalate parts) u ↔
        ∃ part ∈ parts, QuoteRefers newUrl baseUrl q part u) :
    u ∈ collectM3u8ReferencedUrls newUrl baseUrl (['\n'].intercalate parts) ↔
      ∃ part ∈ parts, LineRefers newUrl baseUrl part u := by
  have hcontent : (∃ line ∈ splitLines (['\n'].intercalate parts),
      ContentRefers newUrl baseUrl line u) ↔
        ∃ part ∈ parts, ContentRefers newUrl baseUrl part u := by
    rw [splitLines,List.splitOn_intercalate '\n' hparts hne]
    exact exists_dropCrs (fun line => contentRefers_dropCr) parts
  have hattr : AttributesRefer newUrl baseUrl (['\n'].intercalate parts) u ↔
      ∃ part ∈ parts, AttributesRefer newUrl baseUrl part u := by
    constructor
    · rintro ⟨q,hq,hrefer⟩
      obtain ⟨part,hpart,hrefer⟩ := (hattributes q hq).mp hrefer
      exact ⟨part,hpart,q,hq,hrefer⟩
    · rintro ⟨part,hpart,q,hq,hrefer⟩
      exact ⟨q,hq,(hattributes q hq).mpr ⟨part,hpart,hrefer⟩⟩
  rw [mem_collect,hcontent,hattr]
  simp only [LineRefers,and_or_left,exists_or]

theorem exists_parts (body : List Char) : ∃ parts, parts ≠ [] ∧ (∀ part ∈ parts, '\n' ∉ part) ∧
    body = ['\n'].intercalate parts ∧ splitLines body = dropCrs parts := by
  obtain ⟨parts,hne,hparts,rfl⟩ : ∃ parts, parts ≠ [] ∧ (∀ part ∈ parts, '\n' ∉ part) ∧
    body = ['\n'].intercalate parts := exists_intercalate body
  exact ⟨parts,hne,hparts,rfl,congrArg dropCrs (List.splitOn_intercalate '\n' hparts hne)⟩

end Collect

/-! One line. -/
section Line

variable {newUrl : NewUrl} {baseUrl body : List Char} {proxyMap : List Char → Option (List Char)}

theorem replaceUris_eq_self {q : Char} {line : List Char}
    (h : ∀ v ∈ attributes q line, proxied newUrl baseUrl proxyMap v = none) :
    replaceUris newUrl baseUrl proxyMap q line = line := by
  have hpieces : ∀ piece ∈ scan uriKey q line,
      mapValue (fun _ uri => (proxied newUrl baseUrl proxyMap uri).getD uri) piece = id piece := by
    intro piece hin
    cases piece with
    | text c => rfl
    | quoted p v =>
      rw [mapValue,h v (mem_values.mpr ⟨p,hin⟩)]
      rfl
  rw [replaceUris,List.map_congr_left hpieces,List.map_id,render_scan]

theorem attributes_of_isBlank {q : Char} (hq : q ∈ uriQuotes) {s : List Char} (h : IsBlank s) :
    attributes q s = [] := by
  have hfree : q ∉ s := by
    intro hin
    have hwhite := h q hin
    rcases List.mem_pair.mp hq with rfl | rfl
    · exact absurd hwhite (by decide)
    · exact absurd hwhite (by decide)
  rw [attributes,scan_texts hfree,values_texts]

theorem scan_tag {q : Char} (hq : q ∈ uriQuotes) {lead : List Char} (hlead : IsBlank lead)
    (rest : List Char) :
    scan uriKey q (lead ++ '#' :: rest) = texts (lead ++ ['#']) ++ scan uriKey q rest := by
  refine scan_texts_append ?_ ?_ (by decide) rest
  · intro hin
    have hwhite := hlead q hin
    rcases List.mem_pair.mp hq with rfl | rfl
    · exact absurd hwhite (by decide)
    · exact absurd hwhite (by decide)
  · rintro rfl
    exact absurd hq (by decide)

theorem replaceUris_tag {q : Char} (hq : q ∈ uriQuotes) {lead : List Char} (hlead : IsBlank lead)
    (rest : List Char) : replaceUris newUrl baseUrl proxyMap q (lead ++ '#' :: rest) =
      lead ++ '#' :: replaceUris newUrl baseUrl proxyMap q rest := by
  have htexts : ∀ s : List Char, (texts s).map
      (mapValue fun _ uri => (proxied newUrl baseUrl proxyMap uri).getD uri) = texts s := by
    intro s
    rw [texts,List.map_map]
    rfl
  rw [replaceUris,scan_tag hq hlead,List.map_append,htexts,render_append,render_texts,
    List.append_assoc]
  rfl

def passes (newUrl : NewUrl) (baseUrl : List Char) (proxyMap : List Char → Option (List Char))
    (line : List Char) : List Char :=
  replaceUris newUrl baseUrl proxyMap '\'' (replaceUris newUrl baseUrl proxyMap '"' line)

theorem rewriteLineWithMap_eq (line : List Char) :
    rewriteLineWithMap newUrl baseUrl proxyMap line =
      if IsContent (passes newUrl baseUrl proxyMap line) then
        match proxied newUrl baseUrl proxyMap (trimText (passes newUrl baseUrl proxyMap line)) with
        | some path =>
          (passes newUrl baseUrl proxyMap line).take ((passes newUrl baseUrl proxyMap line).length-
            (trimEnd (passes newUrl baseUrl proxyMap line)).length) ++ path
        | none => passes newUrl baseUrl proxyMap line
      else passes newUrl baseUrl proxyMap line := by
  rw [rewriteLineWithMap]
  simp only [uriQuotes,List.foldl_cons,List.foldl_nil,trimText_trimEnd]
  rfl

/-- A line with no attribute to replace is judged by its content. -/
theorem rewriteLineWithMap_of_kept {line : List Char}
    (h : ∀ q ∈ uriQuotes, ∀ v ∈ attributes q line, proxied newUrl baseUrl proxyMap v = none) :
    rewriteLineWithMap newUrl baseUrl proxyMap line =
      if IsContent line then
        match proxied newUrl baseUrl proxyMap (trimText line) with
        | some path => line.take (line.length-(trimEnd line).length) ++ path
        | none => line
      else line := by
  have hpasses : passes newUrl baseUrl proxyMap line = line := by
    rw [passes,replaceUris_eq_self (h '"' (by decide)),replaceUris_eq_self (h '\'' (by decide))]
  rw [rewriteLineWithMap_eq,hpasses]

theorem not_isContent_tag {lead rest : List Char} (hlead : IsBlank lead) :
    ¬IsContent (lead ++ '#' :: rest) :=
  fun h => h.2 (head?_trimText hlead (by decide))

theorem isBlank_or_tag {line : List Char} (h : ¬IsContent line) :
    IsBlank line ∨ ∃ lead rest, IsBlank lead ∧ line = lead ++ '#' :: rest := by
  obtain ⟨lead,trail,hline,hlead,htrail,-⟩ := exists_trim line
  cases htrim : trimText line with
  | nil =>
    left
    rw [hline,htrim,List.append_nil]
    intro c hc
    rcases List.mem_append.mp hc with hc | hc
    · exact hlead c hc
    · exact htrail c hc
  | cons c mid =>
    right
    have hc : c = '#' := by
      by_contra hne
      refine h ⟨?_,?_⟩
      · rw [htrim]
        exact List.cons_ne_nil c mid
      · rw [htrim]
        exact fun hsame => hne (Option.some.inj hsame)
    refine ⟨lead,mid ++ trail,hlead,?_⟩
    conv_lhs => rw [hline,htrim,hc]
    simp

variable (newUrl baseUrl proxyMap) in
theorem rewriteLineWithMap_tag {lead : List Char} (rest : List Char) (hlead : IsBlank lead) :
    rewriteLineWithMap newUrl baseUrl proxyMap (lead ++ '#' :: rest) =
      passes newUrl baseUrl proxyMap (lead ++ '#' :: rest) ∧
    ¬IsContent (passes newUrl baseUrl proxyMap (lead ++ '#' :: rest)) := by
  have hpasses : passes newUrl baseUrl proxyMap (lead ++ '#' :: rest) =
      lead ++ '#' :: passes newUrl baseUrl proxyMap rest := by
    rw [passes,replaceUris_tag (by decide) hlead,replaceUris_tag (by decide) hlead]
    rfl
  have hnot : ¬IsContent (passes newUrl baseUrl proxyMap (lead ++ '#' :: rest)) := by
    rw [hpasses]
    exact not_isContent_tag hlead
  exact ⟨by rw [rewriteLineWithMap_eq,if_neg hnot],hnot⟩

section Mapped

variable (hmap : IsProxyMap newUrl baseUrl body proxyMap)
include hmap

theorem proxied_eq (v : List Char) : proxied newUrl baseUrl proxyMap v =
    ((newUrl v baseUrl).filter isHttpUrl).bind proxyMap := by
  rw [proxied]
  cases newUrl v baseUrl with
  | none => rfl
  | some u =>
    by_cases hu : isHttpUrl u = true
    · rw [Option.filter_some,if_pos hu]
    · rw [Option.filter_some,if_neg hu,Option.bind_some]
      cases hm : proxyMap u with
      | none => rfl
      | some path =>
        exact absurd (isHttpUrl_of_mem_collect ((hmap.dom u).mp (by rw [hm]; rfl))) hu

theorem proxied_trimText (line : List Char) : proxied newUrl baseUrl proxyMap (trimText line) =
    (resolveHttpUrl newUrl baseUrl (trimText line)).bind proxyMap := by
  obtain ⟨-,-,-,-,-,htrimmed⟩ := exists_trim line
  rw [proxied_eq hmap,resolveHttpUrl,trimText_of_isTrimmed htrimmed]

end Mapped

theorem isCut_map {ps : List (Piece Char)} {line : List Char} (hcut : IsCut ps line)
    {g : Char → List Char → List Char}
    (hg : ∀ p v, .quoted p v ∈ ps → g p v = v ∨ IsProxyPath (g p v)) :
    IsCut (ps.map (mapValue g)) (render uriKey (ps.map (mapValue g))) ∧
      ∀ q ∈ uriQuotes, KeepsScan q line (render uriKey (ps.map (mapValue g))) := by
  have hrefilled : ∀ q ∈ uriQuotes, Refilled uriKey q (ps.flatMap (view uriKey q))
      ((ps.map (mapValue g)).flatMap (view uriKey q)) := by
    intro q hq
    refine Refilled.of_view ?_ ?_ ?_
    · intro v hv
      have hin : .quoted q v ∈ ps.flatMap (view uriKey q) := mem_flatMap_view.mpr hv
      rw [hcut.seen q hq] at hin
      exact (mem_scan hin).2
    · exact fun p v hv => quote_not_mem_uriKey (hcut.quotes hv)
    · intro p v hv
      refine (hg p v hv).imp_right fun hpath => ⟨?_,fun hin => (hpath.2 q hin).2 hq⟩
      intro hnil
      have hhead := hpath.1
      rw [hnil] at hhead
      cases hhead
  have hscan : ∀ q ∈ uriQuotes, (ps.map (mapValue g)).flatMap (view uriKey q) =
      scan uriKey q (render uriKey (ps.map (mapValue g))) := by
    intro q hq
    have hbefore : scan uriKey q (render uriKey (ps.flatMap (view uriKey q)) ++ []) =
        ps.flatMap (view uriKey q) ++ [] := by
      rw [render_flatMap_view,List.append_nil,List.append_nil,hcut.text,hcut.seen q hq]
    have hafter : scan uriKey q
        (render uriKey ((ps.map (mapValue g)).flatMap (view uriKey q)) ++ []) =
          (ps.map (mapValue g)).flatMap (view uriKey q) ++ scan uriKey q [] :=
      (hrefilled q hq).scan (isKeyword_uriKey hq) (by simp) (by simp) id hbefore
    rw [render_flatMap_view,List.append_nil,scan_nil,List.append_nil] at hafter
    exact hafter.symm
  refine ⟨⟨rfl,?_,hscan⟩,?_⟩
  · intro p v hv
    obtain ⟨piece,hin,hpiece⟩ := List.mem_map.mp hv
    cases piece with
    | text c => cases hpiece
    | quoted p' v' =>
      obtain ⟨rfl,-⟩ := Piece.quoted.inj hpiece
      exact hcut.quotes hin
  · intro q hq
    refine .of_refilled hq ?_
    rw [← hcut.seen q hq,← hscan q hq]
    exact hrefilled q hq

theorem replaceUris_cut {ps : List (Piece Char)} {line : List Char} (hcut : IsCut ps line)
    {q : Char} (hq : q ∈ uriQuotes) : replaceUris newUrl baseUrl proxyMap q line =
      render uriKey (ps.map (mapValue fun p v =>
        if p = q then (proxied newUrl baseUrl proxyMap v).getD v else v)) := by
  rw [replaceUris,← hcut.seen q hq,map_flatMap_view,render_flatMap_view]

/-- Each pass replaces its own values and finds the pieces again. -/
theorem passes_cut {ps : List (Piece Char)} {line : List Char} (hcut : IsCut ps line)
    {f : List Char → List Char}
    (hf : ∀ p v, .quoted p v ∈ ps → (proxied newUrl baseUrl proxyMap v).getD v = f v)
    (hpath : ∀ p v, .quoted p v ∈ ps → f v = v ∨ IsProxyPath (f v)) :
    passes newUrl baseUrl proxyMap line = render uriKey (ps.map (mapValue fun _ => f)) := by
  have hfirst : ∀ p v, .quoted p v ∈ ps →
      (if p = '"' then (proxied newUrl baseUrl proxyMap v).getD v else v) = v ∨
        IsProxyPath (if p = '"' then (proxied newUrl baseUrl proxyMap v).getD v else v) := by
    intro p v hv
    split
    · rw [hf p v hv]
      exact hpath p v hv
    · exact Or.inl rfl
  rw [passes,replaceUris_cut hcut (by decide),
    replaceUris_cut (isCut_map hcut hfirst).1 (by decide),List.map_map]
  refine congrArg (render uriKey) (List.map_congr_left fun piece hin => ?_)
  cases piece with
  | text c => rfl
  | quoted p v =>
    rcases List.mem_pair.mp (hcut.quotes hin) with rfl | rfl
    · simpa [mapValue] using hf _ v hin
    · simpa [mapValue] using hf _ v hin

inductive LineRewrite (newUrl : NewUrl) (baseUrl : List Char)
    (proxyMap : List Char → Option (List Char)) (line : List Char) : List Char → Prop
  | content {u path : List Char} : ContentRefers newUrl baseUrl line u → proxyMap u = some path →
      (∀ w, ¬AttributesRefer newUrl baseUrl line w) →
      LineRewrite newUrl baseUrl proxyMap line
        (line.take (line.length-(trimEnd line).length) ++ path)
  | tag {ps : List (Piece Char)} : ¬IsContent line → (∃ u, AttributesRefer newUrl baseUrl line u) →
      IsCut ps line →
      ¬IsContent (render uriKey (ps.map (mapValue fun _ => replaced newUrl baseUrl proxyMap))) →
      LineRewrite newUrl baseUrl proxyMap line
        (render uriKey (ps.map (mapValue fun _ => replaced newUrl baseUrl proxyMap)))
  | same : (∀ u, ¬LineRefers newUrl baseUrl line u) → LineRewrite newUrl baseUrl proxyMap line line

section Mapped

variable (hmap : IsProxyMap newUrl baseUrl body proxyMap)
include hmap

theorem replaced_eq_or (v : List Char) : replaced newUrl baseUrl proxyMap v = v ∨
    IsProxyPath (replaced newUrl baseUrl proxyMap v) := by
  rw [replaced]
  cases resolveHttpUrl newUrl baseUrl v with
  | none => exact Or.inl rfl
  | some u =>
    rw [Option.bind_some]
    cases hm : proxyMap u with
    | none => exact Or.inl rfl
    | some path => exact Or.inr (hmap.path hm)

theorem lineRewrite (hreg : IsRegular newUrl baseUrl body)
    (hrefers : ∀ line ∈ splitLines body, ∀ u, ContentRefers newUrl baseUrl line u →
      (proxyMap u).isSome)
    {line : List Char} (hline : line ∈ splitLines body) :
    LineRewrite newUrl baseUrl proxyMap line (rewriteLineWithMap newUrl baseUrl proxyMap line) := by
  by_cases hcontent : IsContent line
  · have hkept : ∀ q ∈ uriQuotes, ∀ v ∈ attributes q line,
        proxied newUrl baseUrl proxyMap v = none := by
      intro q hq v hv
      rw [proxied,Option.bind_eq_none_iff]
      intro u hu
      cases hm : proxyMap u with
      | none => rfl
      | some path =>
        have hin := (hmap.dom u).mp (by rw [hm]; rfl)
        exact absurd hu ((hreg.content line hline hcontent q hq v hv).2 u hin)
    have hnone : ∀ w, ¬AttributesRefer newUrl baseUrl line w := by
      rintro w ⟨q,hq,v,hv,hw⟩
      rw [(hreg.content line hline hcontent q hq v hv).1] at hw
      cases hw
    rw [rewriteLineWithMap_of_kept hkept,if_pos hcontent,proxied_trimText hmap]
    cases hu : resolveHttpUrl newUrl baseUrl (trimText line) with
    | none =>
      refine .same ?_
      rintro u (hattr | ⟨-,hsome⟩)
      · exact hnone u hattr
      · rw [hu] at hsome
        cases hsome
    | some u =>
      obtain ⟨path,hm⟩ := Option.isSome_iff_exists.mp (hrefers line hline u ⟨hcontent,hu⟩)
      rw [Option.bind_some,hm]
      exact .content ⟨hcontent,hu⟩ hm hnone
  · have hproxied : ∀ q ∈ uriQuotes, ∀ v ∈ attributes q line, proxied newUrl baseUrl proxyMap v =
        (resolveHttpUrl newUrl baseUrl v).bind proxyMap := by
      intro q hq v hv
      rw [proxied_eq hmap,hreg.trimmed line hline hcontent q hq v hv]
    by_cases hattr : ∃ u, AttributesRefer newUrl baseUrl line u
    · obtain ⟨ps,hcut⟩ := hreg.separate line hline hcontent hattr
      have hpasses : passes newUrl baseUrl proxyMap line =
          render uriKey (ps.map (mapValue fun _ => replaced newUrl baseUrl proxyMap)) := by
        refine passes_cut hcut ?_ fun p v _ => replaced_eq_or hmap v
        intro p v hv
        have hin : v ∈ attributes p line := by
          refine mem_values.mpr ⟨p,?_⟩
          rw [← hcut.seen p (hcut.quotes hv)]
          exact mem_flatMap_view.mpr hv
        rw [hproxied p (hcut.quotes hv) v hin,replaced]
      rcases isBlank_or_tag hcontent with hblank | ⟨lead,rest,hlead,rfl⟩
      · obtain ⟨u,q,hq,v,hv,-⟩ := hattr
        rw [attributes_of_isBlank hq hblank] at hv
        cases hv
      · obtain ⟨hrewrite,hnot⟩ := rewriteLineWithMap_tag newUrl baseUrl proxyMap rest hlead
        rw [hpasses] at hrewrite hnot
        rw [hrewrite]
        exact .tag hcontent hattr hcut hnot
    · have hkept : ∀ q ∈ uriQuotes, ∀ v ∈ attributes q line,
          proxied newUrl baseUrl proxyMap v = none := by
        intro q hq v hv
        rw [hproxied q hq v hv]
        cases hu : resolveHttpUrl newUrl baseUrl v with
        | none => rfl
        | some u => exact absurd ⟨u,q,hq,v,hv,hu⟩ hattr
      rw [rewriteLineWithMap_of_kept hkept,if_neg hcontent]
      refine .same ?_
      rintro u (hrefer | hrefer)
      · exact hattr ⟨u,hrefer⟩
      · exact hcontent hrefer.1

end Mapped

/-! White space before a path. -/

/-- A line has no more white space at its end than at its start. -/
def EndsFit (line : List Char) : Prop :=
  line.length-(trimEnd line).length ≤ (line.takeWhile isWhiteSpace).length

theorem IsProxyPath.isTrimmed {path : List Char} (h : IsProxyPath path) : IsTrimmed path :=
  ⟨fun c hc => (h.2 c (List.mem_of_mem_head? hc)).1,fun c hc => (h.2 c (List.mem_of_getLast? hc)).1⟩

theorem IsProxyPath.ne_nil {path : List Char} (h : IsProxyPath path) : path ≠ [] := by
  rintro rfl
  cases h.1

theorem trimText_lead {lead path : List Char} (hlead : IsBlank lead) (hpath : IsProxyPath path) :
    trimText (lead ++ path) = path := by
  have hblank : IsBlank [] := fun c hc => absurd hc List.not_mem_nil
  have hall := (trimText_of hlead hblank hpath.isTrimmed hpath.ne_nil).1
  rwa [List.append_nil] at hall

/-- The start that is put before the path is white space exactly when the ends fit. -/
theorem trimText_take_append {line path : List Char} (hline : IsContent line)
    (hpath : IsProxyPath path) :
    (trimText (line.take (line.length-(trimEnd line).length) ++ path) = path ↔ EndsFit line) ∧
      (EndsFit line → IsBlank (line.take (line.length-(trimEnd line).length))) := by
  obtain ⟨lead,trail,hsplit,hlead,htrail,hmid⟩ := exists_trim line
  obtain ⟨c,mid,htrim⟩ := List.exists_cons_of_ne_nil hline.1
  have hends := (trimText_of hlead htrail hmid hline.1).2
  rw [← hsplit,htrim] at hends
  rw [htrim] at hsplit hmid
  have hc : isWhiteSpace c = false := hmid.1 c rfl
  have hline' : line = lead ++ (c :: (mid ++ trail)) := by
    rw [hsplit]
    simp
  have htake : line.takeWhile isWhiteSpace = lead := by
    rw [hline',List.takeWhile_append_of_pos hlead,List.takeWhile_cons_of_neg (by simp [hc]),
      List.append_nil]
  have hlength : line.length-(trimEnd line).length = trail.length := by
    rw [hends,hsplit]
    simp only [List.length_append]
    omega
  rw [EndsFit,htake,hlength]
  by_cases hfit : trail.length ≤ lead.length
  · have hblank : IsBlank (line.take trail.length) := by
      rw [hline',List.take_append_of_le_length hfit]
      exact fun d hd => hlead d (List.mem_of_mem_take hd)
    exact ⟨iff_of_true (trimText_lead hblank hpath) hfit,fun _ => hblank⟩
  · refine ⟨iff_of_false ?_ hfit,fun hle => absurd hle hfit⟩
    obtain ⟨n,hn⟩ : ∃ n, trail.length = lead.length+(n+1) := ⟨trail.length-lead.length-1,by omega⟩
    have hkept : line.take trail.length ++ path =
        lead ++ (c :: ((mid ++ trail).take n ++ path)) ++ [] := by
      rw [hline',hn,List.take_length_add_append,List.take_succ_cons]
      simp
    have hwhole : IsTrimmed (c :: ((mid ++ trail).take n ++ path)) := by
      refine ⟨?_,?_⟩
      · rintro d ⟨⟩
        exact hc
      · intro d hd
        refine hpath.isTrimmed.2 d ?_
        rw [← List.cons_append,List.getLast?_append,Option.mem_def] at hd
        cases hlast : path.getLast? with
        | none => exact absurd (List.getLast?_eq_none_iff.mp hlast) hpath.ne_nil
        | some e =>
          rw [hlast] at hd
          exact hd
    have hblank : IsBlank [] := fun d hd => absurd hd List.not_mem_nil
    rw [hkept,(trimText_of hlead hblank hwhole (List.cons_ne_nil _ _)).1]
    intro hsame
    have hlong := congrArg List.length hsame
    simp only [List.length_cons,List.length_append] at hlong
    omega

theorem quote_not_mem_of_isBlank_append {q : Char} (hq : q ∈ uriQuotes) {lead path : List Char}
    (hlead : IsBlank lead) (hpath : IsProxyPath path) : q ∉ lead ++ path := by
  intro hin
  rcases List.mem_append.mp hin with hin | hin
  · have hwhite := hlead q hin
    rcases List.mem_pair.mp hq with rfl | rfl
    · exact absurd hwhite (by decide)
    · exact absurd hwhite (by decide)
  · exact (hpath.2 q hin).2 hq

section Rewritten

variable {line line' : List Char} (hmap : IsProxyMap newUrl baseUrl body proxyMap)
  (hrewrite : LineRewrite newUrl baseUrl proxyMap line line')
include hmap hrewrite

/-- A line with content that refers to a URL fits where its replacement is exact. -/
theorem endsFit_of_exact (hexact : LineExact newUrl baseUrl proxyMap line line') {u : List Char}
    (hu : ContentRefers newUrl baseUrl line u) : EndsFit line := by
  cases hrewrite with
  | @content u' path hu' hm hnone =>
    obtain ⟨path',hm',htrim⟩ := hexact.content hu'
    obtain rfl := Option.some.inj (hm.symm.trans hm')
    exact (trimText_take_append hu'.1 (hmap.path hm)).1.mp htrim
  | tag hnot _ _ _ => exact absurd hu.1 hnot
  | same hnone => exact absurd (Or.inr hu) (hnone u)

theorem lineExact_of_endsFit (hfit : ∀ u, ContentRefers newUrl baseUrl line u → EndsFit line)
    (hattr : ∀ u, AttributesRefer newUrl baseUrl line u → (proxyMap u).isSome) :
    LineExact newUrl baseUrl proxyMap line line' := by
  cases hrewrite with
  | @content u path hu hm hnone =>
    refine ⟨?_,fun hnot => absurd hu.1 hnot,fun hother => absurd hu (hother u)⟩
    intro w hw
    obtain rfl : u = w := Option.some.inj (hu.2.symm.trans hw.2)
    exact ⟨path,hm,(trimText_take_append hu.1 (hmap.path hm)).1.mpr (hfit u hu)⟩
  | @tag ps hnot hrefer hcut _ =>
    refine ⟨fun hu => absurd hu.1 hnot,?_,?_⟩
    · intro _ _
      exact ⟨hattr,ps,hcut,(isCut_map hcut fun p v _ => replaced_eq_or hmap v).1⟩
    · intro _ hother
      obtain ⟨u,hu⟩ := hrefer
      exact absurd hu (hother hnot u)
  | same hnone =>
    refine ⟨fun hu => absurd (Or.inr hu) (hnone _),?_,fun _ _ => rfl⟩
    rintro - ⟨u,hu⟩
    exact absurd (Or.inl hu) (hnone u)

theorem keepsScan (hfit : ∀ u, ContentRefers newUrl baseUrl line u → EndsFit line) {q : Char}
    (hq : q ∈ uriQuotes) : KeepsScan q line line' := by
  cases hrewrite with
  | @content u path hu hm hnone =>
    refine .of_not_mem hq ?_
    exact quote_not_mem_of_isBlank_append hq
      ((trimText_take_append hu.1 (hmap.path hm)).2 (hfit u hu)) (hmap.path hm)
  | @tag ps _ _ hcut _ => exact (isCut_map hcut fun p v _ => replaced_eq_or hmap v).2 q hq
  | same _ => exact .refl hq line

theorem filled_of_rewrite (hfit : ∀ u, ContentRefers newUrl baseUrl line u → EndsFit line)
    {part : List Char} (hpart : line = part ∨ line = dropCr part)
    (hnone : ∀ u, ¬AttributesRefer newUrl baseUrl part u) : Filled newUrl baseUrl part line' := by
  have hattr : ∀ u, ¬AttributesRefer newUrl baseUrl line u := by
    rcases hpart with rfl | rfl
    · exact hnone
    · exact fun u hu => hnone u (attributesRefer_dropCr.mp hu)
  have hcontent : ∀ u, ContentRefers newUrl baseUrl line u → ContentRefers newUrl baseUrl part u := by
    rcases hpart with rfl | rfl
    · exact fun u hu => hu
    · exact fun u hu => contentRefers_dropCr.mp hu
  cases hrewrite with
  | @content u path hu hm _ =>
    refine Or.inr (Or.inr ⟨⟨u,hcontent u hu⟩,_,path,?_,hmap.path hm,rfl⟩)
    exact (trimText_take_append hu.1 (hmap.path hm)).2 (hfit u hu)
  | tag _ hrefer _ _ =>
    obtain ⟨u,hu⟩ := hrefer
    exact absurd hu (hattr u)
  | same _ => exact hpart.imp_right Or.inl

theorem lineRefers_rewritten (hfit : ∀ u, ContentRefers newUrl baseUrl line u → EndsFit line)
    (hattr : ∀ u, AttributesRefer newUrl baseUrl line u → (proxyMap u).isSome) {w : List Char} :
    LineRefers newUrl baseUrl line' w ↔ ∃ u path, LineRefers newUrl baseUrl line u ∧
      proxyMap u = some path ∧ resolveHttpUrl newUrl baseUrl path = some w := by
  cases hrewrite with
  | @content u path hu hm hnone =>
    have hpath := hmap.path hm
    have hlead := (trimText_take_append hu.1 hpath).2 (hfit u hu)
    have htrim := trimText_lead hlead hpath
    have hcontent : IsContent (line.take (line.length-(trimEnd line).length) ++ path) := by
      refine ⟨?_,?_⟩
      · rw [htrim]
        exact hpath.ne_nil
      · rw [htrim,hpath.1]
        decide
    constructor
    · rintro (⟨q,hq,v,hv,-⟩ | hw)
      · have hfree := quote_not_mem_of_isBlank_append hq hlead hpath
        rw [attributes,scan_texts hfree,values_texts] at hv
        cases hv
      · rw [ContentRefers,htrim] at hw
        exact ⟨u,path,Or.inr hu,hm,hw.2⟩
    · rintro ⟨u',path',hrefer,hm',hw⟩
      have hu' : ContentRefers newUrl baseUrl line u' := hrefer.resolve_left (hnone u')
      obtain rfl : u = u' := Option.some.inj (hu.2.symm.trans hu'.2)
      obtain rfl := Option.some.inj (hm.symm.trans hm')
      refine Or.inr ⟨hcontent,?_⟩
      rw [htrim]
      exact hw
  | @tag ps hnot _ hcut hnot' =>
    have hvalues : ∀ q ∈ uriQuotes,
        attributes q (render uriKey (ps.map (mapValue fun _ => replaced newUrl baseUrl proxyMap))) =
          (attributes q line).map (replaced newUrl baseUrl proxyMap) := by
      intro q hq
      have hcut' := (isCut_map hcut fun p v _ => replaced_eq_or hmap v).1
      rw [attributes,← hcut'.seen q hq,values_flatMap_view,hcut.seen q hq]
      rfl
    constructor
    · rintro (⟨q,hq,v',hv',hw⟩ | hw)
      · rw [hvalues q hq,List.mem_map] at hv'
        obtain ⟨v,hv,rfl⟩ := hv'
        cases hu : resolveHttpUrl newUrl baseUrl v with
        | none =>
          rw [replaced,hu] at hw
          cases hu.symm.trans hw
        | some u =>
          have hrefer : AttributesRefer newUrl baseUrl line u := ⟨q,hq,v,hv,hu⟩
          obtain ⟨path,hm⟩ := Option.isSome_iff_exists.mp (hattr u hrefer)
          rw [replaced,hu,Option.bind_some,hm] at hw
          exact ⟨u,path,Or.inl hrefer,hm,hw⟩
      · exact absurd hw.1 hnot'
    · rintro ⟨u,path,hrefer,hm,hw⟩
      obtain ⟨q,hq,v,hv,hu⟩ := hrefer.resolve_right fun h => hnot h.1
      refine Or.inl ⟨q,hq,path,?_,hw⟩
      rw [hvalues q hq,List.mem_map]
      refine ⟨v,hv,?_⟩
      rw [replaced,hu,Option.bind_some,hm]
      rfl
  | same hnone =>
    constructor
    · exact fun hw => absurd hw (hnone w)
    · rintro ⟨u,path,hrefer,-⟩
      exact absurd hrefer (hnone u)

theorem lineEnd_not_mem_rewritten (hline : '\n' ∉ line) : '\n' ∉ line' := by
  have hpath : ∀ {path : List Char}, IsProxyPath path → '\n' ∉ path := by
    intro path hpath hin
    exact absurd (hpath.2 _ hin).1 (by decide)
  cases hrewrite with
  | @content u path hu hm hnone =>
    intro hin
    rcases List.mem_append.mp hin with hin | hin
    · exact hline (List.mem_of_mem_take hin)
    · exact hpath (hmap.path hm) hin
  | @tag ps _ _ hcut _ =>
    intro hin
    rcases mem_render_map hin with hin | ⟨p,v,hpiece,hin⟩
    · rw [hcut.text] at hin
      exact hline hin
    · rcases replaced_eq_or hmap v with hsame | hproxy
      · rw [hsame] at hin
        refine hline ?_
        rw [← hcut.text]
        exact mem_render_of_value hpiece hin
      · exact hpath hproxy hin
  | same _ => exact hline

end Rewritten

end Line

/-! The whole playlist. -/
section Playlist

variable {newUrl : NewUrl} {baseUrl body : List Char} {proxyMap : List Char → Option (List Char)}

theorem forall₂_dropCrs (lines : List (List Char)) :
    List.Forall₂ (fun part line => line = part ∨ line = dropCr part) lines (dropCrs lines) := by
  induction lines with
  | nil => exact .nil
  | cons first lines ih =>
    cases lines with
    | nil => exact .cons (Or.inl rfl) .nil
    | cons second lines => exact .cons (Or.inr rfl) ih

section Runs

variable {q : Char} {lines lines' : List (List Char)} {runs : List (List (List Char))}
  {line line' : List Char}

theorem Filled.mem (h : Filled newUrl baseUrl line line') (hq : q ∈ uriQuotes) (hin : q ∈ line') :
    q ∈ line := by
  rcases h with rfl | rfl | ⟨-,lead,path,hlead,hpath,rfl⟩
  · exact hin
  · obtain ⟨cr,hline,-⟩ := exists_dropCr line
    rw [hline]
    exact List.mem_append_left cr hin
  · exact absurd hin (quote_not_mem_of_isBlank_append hq hlead hpath)

theorem Filled.not_refers (h : Filled newUrl baseUrl line line') (hq : q ∈ uriQuotes)
    {u : List Char} (hnone : ¬AttributesRefer newUrl baseUrl line u) :
    ¬QuoteRefers newUrl baseUrl q line' u := by
  intro hrefer
  rcases h with rfl | rfl | ⟨-,lead,path,hlead,hpath,rfl⟩
  · exact hnone ⟨q,hq,hrefer⟩
  · exact hnone (attributesRefer_dropCr.mp ⟨q,hq,hrefer⟩)
  · obtain ⟨v,hv,-⟩ := hrefer
    rw [attributes,scan_texts (quote_not_mem_of_isBlank_append hq hlead hpath),values_texts] at hv
    cases hv

theorem Inert.not_refers (h : Inert newUrl baseUrl q lines) (hq : q ∈ uriQuotes)
    (hfilled : List.Forall₂ (Filled newUrl baseUrl) lines lines') (u : List Char) :
    ¬QuoteRefers newUrl baseUrl q (['\n'].intercalate lines') u ∧
      ∀ line' ∈ lines', ¬QuoteRefers newUrl baseUrl q line' u := by
  constructor
  · rintro ⟨v,hv,hu⟩
    rw [h.together lines' hfilled v hv] at hu
    cases hu
  · intro line' hin
    obtain ⟨line,hline,hfill⟩ := exists_of_mem_forall₂ hfilled hin
    exact hfill.not_refers hq (h.alone line hline u)

theorem Inert.follows (h : Inert newUrl baseUrl q lines) (hq : q ∈ uriQuotes)
    (hfilled : List.Forall₂ (Filled newUrl baseUrl) lines lines') :
    Follows q (['\n'].intercalate lines) (['\n'].intercalate lines') := by
  refine ⟨fun hin => ?_,fun _ rest' _ _ => h.closed lines' hfilled rest'⟩
  rcases mem_intercalate hin with heq | ⟨line',hline',hin⟩
  · exact absurd heq.symm (lineEnd_not_mem hq).2
  · obtain ⟨line,hline,hfill⟩ := exists_of_mem_forall₂ hfilled hline'
    exact mem_intercalate_of_mem hline (hfill.mem hq hin)

theorem IsRuns.ne_nil (h : IsRuns newUrl baseUrl body q runs) : ∀ run ∈ runs, run ≠ [] := by
  intro run hin
  rcases h.run run hin with ⟨line,rfl⟩ | ⟨hne,-⟩
  · exact List.cons_ne_nil line []
  · exact hne

theorem IsRuns.scan_texts (h : IsRuns newUrl baseUrl body q runs) :
    scan uriKey q (['\n'].intercalate (runs.map ['\n'].intercalate)) =
      [.text '\n'].intercalate ((runs.map ['\n'].intercalate).map (scan uriKey q)) := by
  rw [← h.scanned,← intercalate_flatten h.ne_nil,h.lines,List.intercalate_splitOn]

/-- Where no value runs over a line end, each line is a run. -/
theorem isRuns_of_within (hq : q ∈ uriQuotes) (h : ∀ v ∈ attributes q body, '\n' ∉ v) :
    IsRuns newUrl baseUrl body q ((body.splitOn '\n').map fun line => [line]) := by
  obtain ⟨hkey,hnl⟩ := lineEnd_not_mem hq
  have htexts : ∀ parts : List (List Char),
      ((parts.map fun line => [line]).map ['\n'].intercalate) = parts := by
    intro parts
    rw [List.map_map]
    exact (List.map_congr_left fun line _ => List.intercalate_singleton).trans (List.map_id parts)
  refine ⟨List.flatMap_singleton' _,?_,fun run hin => ?_⟩
  · rw [htexts]
    have hbody : ['\n'].intercalate (body.splitOn '\n') = body := List.intercalate_splitOn '\n'
    rw [attributes,← hbody] at h
    conv_lhs => rw [← hbody]
    exact scan_intercalate hkey hnl h
  · obtain ⟨line,-,rfl⟩ := List.mem_map.mp hin
    exact Or.inl ⟨line,rfl⟩

end Runs

/-- A regular playlist refers to what its lines refer to. -/
theorem mem_collect_lines (hreg : IsRegular newUrl baseUrl body) {u : List Char} :
    u ∈ collectM3u8ReferencedUrls newUrl baseUrl body ↔
      ∃ line ∈ splitLines body, LineRefers newUrl baseUrl line u := by
  obtain ⟨parts,hne,hparts,rfl,hsplit⟩ := exists_parts body
  have hattributes : ∀ q ∈ uriQuotes,
      QuoteRefers newUrl baseUrl q (['\n'].intercalate parts) u ↔
        ∃ part ∈ parts, QuoteRefers newUrl baseUrl q part u := by
    intro q hq
    obtain ⟨runs,hruns⟩ := hreg.within q hq
    have hflat : runs.flatten = parts := hruns.lines.trans (List.splitOn_intercalate '\n' hparts hne)
    rw [← hflat]
    refine quoteRefers_runs hruns.ne_nil (attributes_texts hruns.scan_texts) fun run hin => ?_
    refine (hruns.run run hin).imp_right fun h => h.2.not_refers hq ?_ u
    exact List.forall₂_same.mpr fun _ _ => Or.inl rfl
  rw [mem_collect_parts hne hparts hattributes,hsplit]
  exact (exists_dropCrs (fun line => lineRefers_dropCr) parts).symm

theorem lineEnd_not_mem_line {line : List Char} (h : line ∈ splitLines body) : '\n' ∉ line := by
  obtain ⟨parts,-,hparts,rfl,hsplit⟩ := exists_parts body
  rw [hsplit] at h
  obtain ⟨part,hin,rfl | rfl⟩ := mem_dropCrs h
  · exact hparts _ hin
  · obtain ⟨cr,hpart,-⟩ := exists_dropCr part
    intro hmem
    refine hparts part hin ?_
    rw [hpart]
    exact List.mem_append_left cr hmem

/-- The white space of lines with URLs does not end up before the paths. -/
def AllEndsFit (newUrl : NewUrl) (baseUrl body : List Char) : Prop :=
  ∀ line ∈ splitLines body, ∀ u, ContentRefers newUrl baseUrl line u → EndsFit line

/-- No path resolves to a collected URL. -/
def PathsElsewhere (newUrl : NewUrl) (baseUrl : List Char)
    (proxyMap : List Char → Option (List Char)) (body : List Char) : Prop :=
  ∀ u path, proxyMap u = some path → ∀ w, resolveHttpUrl newUrl baseUrl path = some w →
    w ∉ collectM3u8ReferencedUrls newUrl baseUrl body

section Regular

variable (hmap : IsProxyMap newUrl baseUrl body proxyMap) (hreg : IsRegular newUrl baseUrl body)
include hmap hreg

theorem isSome_of_lineRefers {line : List Char} (hline : line ∈ splitLines body) {u : List Char}
    (h : LineRefers newUrl baseUrl line u) : (proxyMap u).isSome :=
  (hmap.dom u).mpr ((mem_collect_lines hreg).mpr ⟨line,hline,h⟩)

theorem lineRewrite_of_mem {line : List Char} (hline : line ∈ splitLines body) :
    LineRewrite newUrl baseUrl proxyMap line (rewriteLineWithMap newUrl baseUrl proxyMap line) :=
  lineRewrite hmap hreg (fun _ hin _ hu => isSome_of_lineRefers hmap hreg hin (Or.inr hu)) hline

theorem rewritten_lines :
    (splitLines body).map (rewriteLineWithMap newUrl baseUrl proxyMap) ≠ [] ∧
      ∀ line' ∈ (splitLines body).map (rewriteLineWithMap newUrl baseUrl proxyMap),
        '\n' ∉ line' := by
  constructor
  · obtain ⟨parts,hne,-,-,hsplit⟩ := exists_parts body
    rw [hsplit,ne_eq,List.map_eq_nil_iff]
    exact dropCrs_ne_nil hne
  · intro line' hin
    obtain ⟨line,hline,rfl⟩ := List.mem_map.mp hin
    exact lineEnd_not_mem_rewritten hmap (lineRewrite_of_mem hmap hreg hline)
      (lineEnd_not_mem_line hline)

/-- A run and its lines rewritten. -/
theorem run_rewritten (hfit : AllEndsFit newUrl baseUrl body) {q : Char} (hq : q ∈ uriQuotes)
    {run run' : List (List Char)}
    (hrun : (∃ line, run = [line]) ∨ run ≠ [] ∧ Inert newUrl baseUrl q run)
    (hlines : List.Forall₂ (fun part line' => ∃ line ∈ splitLines body,
      (line = part ∨ line = dropCr part) ∧
        rewriteLineWithMap newUrl baseUrl proxyMap line = line') run run') (w : List Char) :
    Follows q (['\n'].intercalate run) (['\n'].intercalate run') ∧ run' ≠ [] ∧
      ((∃ line', run' = [line']) ∨
        ¬QuoteRefers newUrl baseUrl q (['\n'].intercalate run') w ∧
          ∀ line' ∈ run', ¬QuoteRefers newUrl baseUrl q line' w) := by
  rcases hrun with ⟨part,rfl⟩ | ⟨hne,hinert⟩
  · obtain ⟨line',rest,⟨line,hline,hpart,rfl⟩,hrest,rfl⟩ := List.forall₂_cons_left_iff.mp hlines
    obtain rfl := List.forall₂_nil_left_iff.mp hrest
    rw [List.intercalate_singleton,List.intercalate_singleton]
    refine ⟨?_,List.cons_ne_nil _ _,Or.inl ⟨_,rfl⟩⟩
    exact (keepsScan hmap (lineRewrite_of_mem hmap hreg hline) (hfit line hline) hq).follows hq hpart
  · have hfilled : List.Forall₂ (Filled newUrl baseUrl) run run' := by
      refine ((List.forall₂_and_left _ _).mpr ⟨hinert.alone,hlines⟩).imp ?_
      rintro part _ ⟨hnone,line,hline,hpart,rfl⟩
      exact filled_of_rewrite hmap (lineRewrite_of_mem hmap hreg hline) (hfit line hline) hpart hnone
    refine ⟨hinert.follows hq hfilled,?_,Or.inr (hinert.not_refers hq hfilled w)⟩
    rintro rfl
    exact hne (List.forall₂_nil_right_iff.mp hlines)

theorem mem_collect_output (hfit : AllEndsFit newUrl baseUrl body) {w : List Char} :
    w ∈ collectM3u8ReferencedUrls newUrl baseUrl
        (rewriteM3u8BodyWithProxyMap newUrl baseUrl proxyMap body) ↔
      ∃ u path, proxyMap u = some path ∧ resolveHttpUrl newUrl baseUrl path = some w := by
  obtain ⟨hne,hfree⟩ := rewritten_lines hmap hreg
  have hlines : List.Forall₂ (fun part line' => ∃ line ∈ splitLines body,
      (line = part ∨ line = dropCr part) ∧
        rewriteLineWithMap newUrl baseUrl proxyMap line = line') (body.splitOn '\n')
      ((splitLines body).map (rewriteLineWithMap newUrl baseUrl proxyMap)) := by
    rw [List.forall₂_map_right_iff]
    have hdrop := forall₂_dropCrs (body.splitOn '\n')
    refine ((List.forall₂_and_left _ _).mpr ⟨fun line hline => hline,hdrop.flip⟩).flip.imp ?_
    rintro part line ⟨hline,hpart⟩
    exact ⟨line,hline,hpart,rfl⟩
  have hattributes : ∀ q ∈ uriQuotes, QuoteRefers newUrl baseUrl q (['\n'].intercalate
      ((splitLines body).map (rewriteLineWithMap newUrl baseUrl proxyMap))) w ↔
        ∃ line' ∈ (splitLines body).map (rewriteLineWithMap newUrl baseUrl proxyMap),
          QuoteRefers newUrl baseUrl q line' w := by
    intro q hq
    obtain ⟨runs,hruns⟩ := hreg.within q hq
    rw [← hruns.lines] at hlines
    obtain ⟨runs',hflat,hpairs⟩ := exists_forall₂_flatten hlines
    have hrewritten := ((List.forall₂_and_left _ _).mpr ⟨hruns.run,hpairs⟩).imp
      fun run run' h => run_rewritten hmap hreg hfit hq h.1 h.2 w
    have hright : ∀ run' ∈ runs', run' ≠ [] ∧ ((∃ line', run' = [line']) ∨
        ¬QuoteRefers newUrl baseUrl q (['\n'].intercalate run') w ∧
          ∀ line' ∈ run', ¬QuoteRefers newUrl baseUrl q line' w) := by
      intro run' hin
      obtain ⟨run,-,-,h⟩ := exists_of_mem_forall₂ hrewritten hin
      exact h
    have hfollows : List.Forall₂ (Follows q) (runs.map ['\n'].intercalate)
        (runs'.map ['\n'].intercalate) := by
      rw [List.forall₂_map_left_iff,List.forall₂_map_right_iff]
      exact hrewritten.imp fun _ _ h => h.1
    rw [← hflat]
    exact quoteRefers_runs (fun run' hin => (hright run' hin).1)
      (attributes_follows hq hruns.scan_texts hfollows).1 fun run' hin => (hright run' hin).2
  rw [rewriteM3u8BodyWithProxyMap,mem_collect_parts hne hfree hattributes]
  constructor
  · rintro ⟨line',hin,hw⟩
    obtain ⟨line,hline,rfl⟩ := List.mem_map.mp hin
    obtain ⟨u,path,-,hm,hpath⟩ := (lineRefers_rewritten hmap (lineRewrite_of_mem hmap hreg hline)
      (hfit line hline) (fun u hu => isSome_of_lineRefers hmap hreg hline (Or.inl hu))).mp hw
    exact ⟨u,path,hm,hpath⟩
  · rintro ⟨u,path,hm,hw⟩
    have hu := (hmap.dom u).mp (by rw [hm]; rfl)
    obtain ⟨line,hline,hrefer⟩ := (mem_collect_lines hreg).mp hu
    refine ⟨_,List.mem_map_of_mem hline,?_⟩
    exact (lineRefers_rewritten hmap (lineRewrite_of_mem hmap hreg hline)
      (hfit line hline) (fun u hu => isSome_of_lineRefers hmap hreg hline (Or.inl hu))).mpr
        ⟨u,path,hrefer,hm,hw⟩

/-- In a regular playlist the rewriting is exact exactly when no line with a URL has more white
space at its end than at its start and no proxy path resolves to a URL of the playlist. -/
theorem rewriteM3u8BodyWithProxyMap_exact_iff :
    ExactRewrite newUrl baseUrl proxyMap body
        (rewriteM3u8BodyWithProxyMap newUrl baseUrl proxyMap body) ↔
      AllEndsFit newUrl baseUrl body ∧ PathsElsewhere newUrl baseUrl proxyMap body := by
  obtain ⟨hne,hfree⟩ := rewritten_lines hmap hreg
  constructor
  · rintro ⟨⟨lines',houtput,hne',hfree',hexact⟩,hdisjoint⟩
    -- the lines of the output are determined by it
    obtain rfl := intercalate_inj hne hne' hfree hfree' houtput
    rw [List.forall₂_map_right_iff,List.forall₂_same] at hexact
    have hfit : AllEndsFit newUrl baseUrl body := by
      intro line hline u hu
      exact endsFit_of_exact hmap (lineRewrite_of_mem hmap hreg hline) (hexact line hline) hu
    refine ⟨hfit,?_⟩
    intro u path hm w hw
    exact Finset.disjoint_left.mp hdisjoint
      ((mem_collect_output hmap hreg hfit).mpr ⟨u,path,hm,hw⟩)
  · rintro ⟨hfit,helsewhere⟩
    refine ⟨⟨_,rfl,hne,hfree,?_⟩,?_⟩
    · rw [List.forall₂_map_right_iff,List.forall₂_same]
      intro line hline
      exact lineExact_of_endsFit hmap (lineRewrite_of_mem hmap hreg hline) (hfit line hline)
        fun u hu => isSome_of_lineRefers hmap hreg hline (Or.inl hu)
    · refine Finset.disjoint_left.mpr ?_
      intro w hw
      obtain ⟨u,path,hm,hpath⟩ := (mem_collect_output hmap hreg hfit).mp hw
      exact helsewhere u path hm w hpath

end Regular

/-- Relative and absolute references of a playlist at `https://cdn/live/main.m3u8`. -/
def cdnUrl : NewUrl := fun raw _ =>
  if "https://".toList <+: raw ∨ "data:".toList <+: raw then some raw
  else if ['/'] <+: raw then some ("https://cdn".toList ++ raw)
  else some ("https://cdn/live/".toList ++ raw)

def cdnBase : List Char := "https://cdn/live/main.m3u8".toList

def cdnMap (url : List Char) : Option (List Char) :=
  if url = "https://cdn/live/seg.ts".toList then some "/api/1".toList
  else if url = "https://cdn/live/key".toList then some "/api/2".toList
  else none

theorem isProxyPath_of_all {path : List Char} (hhead : path.head? = some '/')
    (hall : path.all (fun c => !isWhiteSpace c && decide (c ∉ uriQuotes)) = true) :
    IsProxyPath path := by
  refine ⟨hhead,fun c hc => ?_⟩
  have htest := List.all_eq_true.mp hall c hc
  simpa using htest

theorem isProxyPath_cdnMap {u path : List Char} (h : cdnMap u = some path) : IsProxyPath path := by
  rw [cdnMap] at h
  split at h
  · obtain rfl := Option.some.inj h
    exact isProxyPath_of_all (by decide) (by decide)
  · split at h
    · obtain rfl := Option.some.inj h
      exact isProxyPath_of_all (by decide) (by decide)
    · cases h

/-- Data over a line end. -/
def dataLines : List (List Char) :=
  ["#EXT-X-SESSION-DATA:URI=\"data:a".toList,"#b\"".toList]

/-- A playlist with data, a key, a segment and both kinds of line ends. -/
def keyedBody : List Char :=
  "#EXTM3U\r\n#EXT-X-SESSION-DATA:URI=\"data:a\n#b\"\n#EXT-X-KEY:URI=\"key\"\n seg.ts \n".toList

theorem isProxyMap_keyedBody : IsProxyMap cdnUrl cdnBase keyedBody cdnMap := by
  have hcollect : collectM3u8ReferencedUrls cdnUrl cdnBase keyedBody =
      ["https://cdn/live/seg.ts".toList,"https://cdn/live/key".toList].toFinset := by
    decide +kernel
  refine ⟨?_,isProxyPath_cdnMap⟩
  intro u
  rw [hcollect,List.mem_toFinset,List.mem_pair,cdnMap]
  constructor
  · intro h
    by_contra hne
    rw [not_or] at hne
    rw [if_neg hne.1,if_neg hne.2] at h
    cases h
  · rintro (rfl | rfl)
    · rfl
    · rw [if_neg (by decide),if_pos rfl]
      rfl

theorem forall_uriQuotes {p : Char → Prop} : (∀ q ∈ uriQuotes, p q) ↔ p '"' ∧ p '\'' := by
  simp [uriQuotes]

theorem inert_dataLines : Inert cdnUrl cdnBase '"' dataLines := by
  have hkept : ∀ lines', List.Forall₂ (Filled cdnUrl cdnBase) dataLines lines' →
      lines' = dataLines := by
    intro lines' hfilled
    have hline : ∀ line ∈ dataLines, dropCr line = line ∧ ¬IsContent line := by decide +kernel
    have hsame : List.Forall₂ (· = ·) dataLines lines' := by
      refine ((List.forall₂_and_left _ _).mpr ⟨hline,hfilled⟩).imp ?_
      rintro line line' ⟨⟨hcr,hnot⟩,rfl | rfl | ⟨⟨u,hu⟩,-⟩⟩
      · rfl
      · exact hcr.symm
      · exact absurd hu.1 hnot
    rw [List.forall₂_eq_eq_eq] at hsame
    exact hsame.symm
  have hclosed : ∀ s ∈ (['\n'].intercalate dataLines).tails,
      uriKey ++ ['"'] <+: s → '"' ∈ s.drop 5 := by decide +kernel
  refine ⟨?_,?_,?_⟩
  · have hnone : ∀ line ∈ dataLines, ∀ q ∈ uriQuotes, attributes q line = [] := by
      simp only [forall_uriQuotes]
      decide +kernel
    rintro line hline u ⟨q,hq,v,hv,-⟩
    rw [hnone line hline q hq] at hv
    cases hv
  · intro lines' hfilled
    rw [hkept lines' hfilled]
    decide +kernel
  · intro lines' hfilled rest
    rw [hkept lines' hfilled]
    refine scan_of_closed (by decide) (by decide) fun t ht => ?_
    exact hclosed _ ((List.mem_tails _ _).mpr ht) ⟨t,rfl⟩

theorem isRegular_keyedBody : IsRegular cdnUrl cdnBase keyedBody := by
  refine ⟨?_,?_,?_,?_⟩
  · rw [forall_uriQuotes]
    refine ⟨⟨[["#EXTM3U\r".toList],dataLines,["#EXT-X-KEY:URI=\"key\"".toList],
      [" seg.ts ".toList],[[]]],by decide +kernel,by decide +kernel,?_⟩,_,
      isRuns_of_within (by decide) (by decide +kernel)⟩
    intro run hin
    simp only [List.mem_cons,List.not_mem_nil,or_false] at hin
    rcases hin with rfl | rfl | rfl | rfl | rfl
    · exact Or.inl ⟨_,rfl⟩
    · exact Or.inr ⟨List.cons_ne_nil _ _,inert_dataLines⟩
    · exact Or.inl ⟨_,rfl⟩
    · exact Or.inl ⟨_,rfl⟩
    · exact Or.inl ⟨_,rfl⟩
  · simp only [forall_uriQuotes]
    decide +kernel
  · simp only [forall_uriQuotes]
    decide +kernel
  · intro line hline _ _
    have hseen : ∀ line ∈ splitLines keyedBody, ∀ q ∈ uriQuotes,
        (scan uriKey '"' line).flatMap (view uriKey q) = scan uriKey q line := by
      simp only [forall_uriQuotes]
      decide +kernel
    refine ⟨scan uriKey '"' line,render_scan line,?_,hseen line hline⟩
    intro p v hv
    rw [(mem_scan hv).1]
    decide

theorem rewriteM3u8BodyWithProxyMap_exact_iff_keyed :
    ExactRewrite cdnUrl cdnBase cdnMap keyedBody
        (rewriteM3u8BodyWithProxyMap cdnUrl cdnBase cdnMap keyedBody) ↔
      AllEndsFit cdnUrl cdnBase keyedBody ∧ PathsElsewhere cdnUrl cdnBase cdnMap keyedBody :=
  rewriteM3u8BodyWithProxyMap_exact_iff isProxyMap_keyedBody isRegular_keyedBody

/-- Two spaces after a segment, and the path is put behind the first two characters of it. -/
theorem trailing_space_misplaced : ¬∀ (newUrl : NewUrl) (baseUrl body : List Char)
    (proxyMap : List Char → Option (List Char)), IsProxyMap newUrl baseUrl body proxyMap →
      ExactRewrite newUrl baseUrl proxyMap body
        (rewriteM3u8BodyWithProxyMap newUrl baseUrl proxyMap body) := by
  intro hall
  have hmap : IsProxyMap cdnUrl cdnBase "seg.ts  ".toList
      fun u => if u = "https://cdn/live/seg.ts".toList then some "/api/1".toList else none := by
    have hcollect : collectM3u8ReferencedUrls cdnUrl cdnBase "seg.ts  ".toList =
        ["https://cdn/live/seg.ts".toList].toFinset := by decide +kernel
    refine ⟨?_,?_⟩
    · intro u
      rw [hcollect,List.mem_toFinset,List.mem_singleton]
      split
      · exact iff_of_true rfl ‹_›
      · exact iff_of_false Bool.false_ne_true ‹_›
    · intro u path hm
      split at hm
      · obtain rfl := Option.some.inj hm
        exact isProxyPath_of_all (by decide) (by decide)
      · cases hm
  obtain ⟨⟨lines',houtput,-,-,hexact⟩,-⟩ := hall _ _ _ _ hmap
  have hlines : splitLines "seg.ts  ".toList = ["seg.ts  ".toList] := by decide +kernel
  rw [hlines,List.forall₂_cons_left_iff] at hexact
  obtain ⟨line',rest,hline,hrest,rfl⟩ := hexact
  obtain rfl := List.forall₂_nil_left_iff.mp hrest
  rw [List.intercalate_singleton] at houtput
  obtain ⟨path,hm,htrim⟩ := hline.content
    (u := "https://cdn/live/seg.ts".toList) ⟨by decide +kernel,by decide +kernel⟩
  rw [if_pos rfl] at hm
  obtain rfl := Option.some.inj hm
  rw [← houtput] at htrim
  exact absurd htrim (by decide +kernel)

end Playlist

end WebSyncPlay
