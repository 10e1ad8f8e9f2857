import WebSyncPlay.Library.CodeUnits

/-! `shared/sanitize-display.ts`: what the sanitisers of displayed texts make of any text of 16-bit
code units. `String.prototype.normalize` is a parameter. -/
namespace WebSyncPlay
namespace DisplayText

open Library CodeUnit

abbrev Text := List CodeUnit

/-- The markup characters: angle brackets, both quotes and the backtick. -/
def isMarkup (c : CodeUnit) : Bool := c ∈ [0x3C,0x3E,0x22,0x27,0x60]

def isAngle (c : CodeUnit) : Bool := c ∈ [0x3C,0x3E]

def controlOrFormatRanges : List (ℕ × ℕ) :=
  [(0x0,0x1F),(0x7F,0x9F),(0xAD,0xAD),(0x600,0x605),(0x61C,0x61C),(0x6DD,0x6DD),(0x70F,0x70F),
    (0x890,0x891),(0x8E2,0x8E2),(0x180E,0x180E),(0x200B,0x200F),(0x202A,0x202E),(0x2060,0x2064),
    (0x2066,0x206F),(0xFEFF,0xFEFF),(0xFFF9,0xFFFB),(0x110BD,0x110BD),(0x110CD,0x110CD),
    (0x13430,0x1343F),(0x1BCA0,0x1BCA3),(0x1D173,0x1D17A),(0xE0001,0xE0001),(0xE0020,0xE007F)]

def isControlOrFormat (point : ℕ) : Bool :=
  controlOrFormatRanges.any fun range => range.1 ≤ point && point ≤ range.2

structure SanitizeDisplayOptions where
  maxLength : ℕ
  rejectMarkup : Bool
  stripMarkupDelimiters : Bool

def asciiText (s : String) : Text := s.toList.map fun c => UInt16.ofNat c.toNat

def colon : CodeUnit := 0x3A

/-- `/^\s*word\s*:/i` -/
def beginsWithWord (word s : Text) : Bool := startsMarked isSpace colon word (s.map lower)

def beginsWithScheme (s : Text) : Bool :=
  beginsWithWord (asciiText "javascript") s || beginsWithWord (asciiText "data") s

/-- `value.replace(/\s+/g, " ").trim()` -/
def collapseWhitespace (value : Text) : Text :=
  ((squash isSpace blank false value).dropWhile isSpace).rdropWhile isSpace

/-- `value.slice(0, maxLength).trimEnd()` where the value is longer. -/
def sliceText (maxLength : ℕ) (value : Text) : Text :=
  if maxLength < value.length then (value.take maxLength).rdropWhile isSpace else value

section Sanitising

variable (nfc : Text → Text)

def sanitizeDisplayText (raw : Text) (options : SanitizeDisplayOptions) : Option Text :=
  if options.rejectMarkup && raw.any isAngle then none
  else if beginsWithScheme raw then none
  else
    let value := nfc raw
    let value := removePoints isControlOrFormat value
    let value := if options.stripMarkupDelimiters then value.filter fun c => !isMarkup c else value
    let value := collapseWhitespace value
    if value = [] then none
    else
      let value := sliceText options.maxLength value
      if value = [] then none else some value

def usernameOptions : SanitizeDisplayOptions := ⟨64,true,true⟩

def mediaTitleOptions : SanitizeDisplayOptions := ⟨256,false,true⟩

def errorMessageOptions : SanitizeDisplayOptions := ⟨300,true,true⟩

def sanitizeUsername (raw : Text) : Option Text := sanitizeDisplayText nfc raw usernameOptions

def sanitizeMediaTitle (raw : Text) : Option Text := sanitizeDisplayText nfc raw mediaTitleOptions

def sanitizeErrorMessage (raw : Text) : Option Text :=
  sanitizeDisplayText nfc raw errorMessageOptions

inductive Sanitizer
  | username | mediaTitle | errorMessage

def Sanitizer.options : Sanitizer → SanitizeDisplayOptions
  | .username => usernameOptions
  | .mediaTitle => mediaTitleOptions
  | .errorMessage => errorMessageOptions

def Sanitizer.sanitize : Sanitizer → Text → Option Text
  | .username => sanitizeUsername nfc
  | .mediaTitle => sanitizeMediaTitle nfc
  | .errorMessage => sanitizeErrorMessage nfc

/-- What is known of normalisation: it is done once for all, and white space neither composes nor
changes places with what stands around it. -/
structure NfcLaws : Prop where
  idempotent : ∀ s, nfc (nfc s) = nfc s
  blank : nfc [blank] = [blank]
  separable : Separable isSpace fun s => nfc s = s

structure ClosedForm (sanitizer : Sanitizer) (s : Text) : Prop where
  nonempty : s ≠ []
  bounded : s.length ≤ sanitizer.options.maxLength
  composed : nfc s = s
  printable : FreeOf isControlOrFormat s
  markup : ∀ c ∈ s, isMarkup c = false
  scheme : beginsWithScheme s = false
  fixed : sanitizer.sanitize nfc s = some s

/-- What is left of a text without its control, format and markup characters. -/
def visiblePart (raw : Text) : Text :=
  (removePoints isControlOrFormat (nfc raw)).filter fun c => !isMarkup c

/-- The part of it that is shown, a run of white space counting once and at the start not at all. -/
def shownPart (sanitizer : Sanitizer) (raw : Text) : Text :=
  cutRuns isSpace sanitizer.options.maxLength true (visiblePart nfc raw)

/-- Taking characters out brings nothing together: no scheme, no characters that compose, and no
surrogates that make a control or format character. -/
structure SafelyVisible (sanitizer : Sanitizer) (raw : Text) : Prop where
  scheme : beginsWithScheme (visiblePart nfc raw) = false
  composed : nfc (shownPart nfc sanitizer raw) = shownPart nfc sanitizer raw
  printable : FreeOf isControlOrFormat (shownPart nfc sanitizer raw)

end Sanitising

section Schemes

variable {s : Text} {word : Text}

/-- A word of the scheme test: small letters, no white space, short. -/
structure SchemeWord (word : Text) : Prop where
  nonempty : word ≠ []
  visible : ∀ c ∈ word, isSpace c = false
  short : word.length ≤ 10

theorem schemeWord_javascript : SchemeWord (asciiText "javascript") := by
  refine ⟨by decide,?_,by decide⟩
  have hall : (asciiText "javascript").all (fun c => !isSpace c) = true := by decide
  simpa using hall

theorem schemeWord_data : SchemeWord (asciiText "data") := by
  refine ⟨by decide,?_,by decide⟩
  have hall : (asciiText "data").all (fun c => !isSpace c) = true := by decide
  simpa using hall

theorem beginsWithWord_shown (hword : SchemeWord word) {n : ℕ} (hn : 12 ≤ n) :
    beginsWithWord word (((squash isSpace blank true s).take n).rdropWhile isSpace) =
      beginsWithWord word s := by
  have hmap : (((squash isSpace blank true s).take n).rdropWhile isSpace).map lower =
      ((squash isSpace blank true (s.map lower)).take n).rdropWhile isSpace := by
    rw [map_rdropWhile lower isSpace_lower,List.map_take,
      map_squash lower isSpace_lower lower_blank]
  have hroom : word.length+2 ≤ n := by
    have hshort := hword.short
    omega
  rw [beginsWithWord,beginsWithWord,hmap,
    startsMarked_cut hword.nonempty hword.visible isSpace_blank (by decide) hroom,
    startsMarked_squash hword.visible isSpace_blank]

theorem beginsWithScheme_shown {n : ℕ} (hn : 12 ≤ n) :
    beginsWithScheme (((squash isSpace blank true s).take n).rdropWhile isSpace) =
      beginsWithScheme s := by
  rw [beginsWithScheme,beginsWithScheme,beginsWithWord_shown schemeWord_javascript hn,
    beginsWithWord_shown schemeWord_data hn]

end Schemes

section Results

variable {nfc : Text → Text} {sanitizer : Sanitizer} {raw s : Text}

theorem Sanitizer.sanitize_eq (sanitizer : Sanitizer) :
    sanitizer.sanitize nfc raw = sanitizeDisplayText nfc raw sanitizer.options := by
  cases sanitizer <;> rfl

theorem Sanitizer.strips (sanitizer : Sanitizer) :
    sanitizer.options.stripMarkupDelimiters = true := by
  cases sanitizer <;> rfl

theorem Sanitizer.maxLength_ge (sanitizer : Sanitizer) : 12 ≤ sanitizer.options.maxLength := by
  cases sanitizer <;> decide

theorem collapseWhitespace_eq (s : Text) :
    collapseWhitespace s = (squash isSpace blank true s).rdropWhile isSpace := by
  rw [collapseWhitespace,dropWhile_squash isSpace_blank]

theorem sanitize_result (h : sanitizer.sanitize nfc raw = some s) :
    s = ((squash isSpace blank true (visiblePart nfc raw)).take
      sanitizer.options.maxLength).rdropWhile isSpace ∧ s ≠ [] := by
  rw [Sanitizer.sanitize_eq,sanitizeDisplayText] at h
  split at h
  · cases h
  split at h
  · cases h
  simp only [sanitizer.strips,if_true] at h
  split at h
  · cases h
  split at h
  · cases h
  rename_i hne
  obtain rfl := Option.some.inj h
  refine ⟨?_,hne⟩
  change sliceText _ (collapseWhitespace (visiblePart nfc raw)) = _
  rw [← rdropWhile_take_rdropWhile,collapseWhitespace_eq,sliceText]
  split
  · rfl
  · rename_i hle
    rw [List.take_of_length_le (Nat.le_of_not_lt hle),List.rdropWhile_idempotent]

/-- A text that has been through everything comes out as it is. -/
theorem sanitize_fixed (hne : s ≠ []) (hlength : s.length ≤ sanitizer.options.maxLength)
    (hnfc : nfc s = s) (hfree : FreeOf isControlOrFormat s)
    (hmarkup : ∀ c ∈ s, isMarkup c = false) (hscheme : beginsWithScheme s = false)
    (hcollapse : collapseWhitespace s = s) : sanitizer.sanitize nfc s = some s := by
  have hangle : s.any isAngle = false := by
    rw [List.any_eq_false]
    intro c hc hangle
    have hmark := hmarkup c hc
    simp only [isAngle,isMarkup,List.mem_cons,List.not_mem_nil,or_false,decide_eq_true_eq,
      decide_eq_false_iff_not,not_or] at hangle hmark
    tauto
  have hfilter : s.filter (fun c => !isMarkup c) = s := by
    rw [List.filter_eq_self]
    intro c hc
    rw [hmarkup c hc]
    rfl
  have hslice : sliceText sanitizer.options.maxLength s = s := if_neg (Nat.not_lt.mpr hlength)
  rw [Sanitizer.sanitize_eq,sanitizeDisplayText,hangle,hscheme,hnfc]
  simp [removePoints_of_freeOf hfree,sanitizer.strips,hfilter,hcollapse,hne,hslice]

theorem mem_visiblePart {w : CodeUnit} (hlaws : NfcLaws nfc) (h : w ∈ visiblePart nfc raw) :
    isMarkup w = false ∧ (isSpace w = true → nfc [w] = [w] ∧ FreeOf isControlOrFormat [w]) := by
  obtain ⟨hmem,hmarkup⟩ := List.mem_filter.mp h
  obtain ⟨hkept,hfree⟩ := mem_removePoints hmem
  refine ⟨by simpa using hmarkup,fun hw => ⟨?_,?_⟩⟩
  · obtain ⟨before,after,hsplit⟩ := List.append_of_mem hkept
    have hnormal := hlaws.idempotent raw
    rw [hsplit] at hnormal
    exact ((hlaws.separable.split hw).mp hnormal).2.1
  · exact freeOf_singleton.mpr (hfree (isHigh_of_isSpace hw) (isLow_of_isSpace hw))

/-- A property that white space separates holds of a result if and only if it holds of the part that
is shown. -/
theorem separable_result {P : Text → Prop} (hP : Separable isSpace P) (hblank : P [blank])
    (hspace : ∀ w ∈ visiblePart nfc raw, isSpace w = true → P [w])
    (h : sanitizer.sanitize nfc raw = some s) : P s ↔ P (shownPart nfc sanitizer raw) := by
  have hshown : ∀ w ∈ shownPart nfc sanitizer raw, isSpace w = true → P [w] :=
    fun w hw => hspace w ((prefix_of_cutRuns _).subset hw)
  have hsquash : ∀ w ∈ squash isSpace blank true (shownPart nfc sanitizer raw),
      isSpace w = true → P [w] := by
    intro w hw hwhite
    rcases mem_squash hw with hmem | rfl
    · exact hshown w hmem hwhite
    · exact hblank
  rw [(sanitize_result h).1,← squash_cutRuns]
  exact (hP.rdropWhile hsquash).trans (hP.squash isSpace_blank hblank hshown)

theorem collapseWhitespace_result (h : sanitizer.sanitize nfc raw = some s) :
    collapseWhitespace s = s := by
  have hs := (sanitize_result h).1
  obtain ⟨t,ht⟩ := (List.rdropWhile_prefix isSpace
    ((squash isSpace blank true (visiblePart nfc raw)).take sanitizer.options.maxLength)).trans
      (List.take_prefix _ _)
  rw [← hs] at ht
  have htake : s = (squash isSpace blank true (visiblePart nfc raw)).take s.length := by
    rw [← ht,List.take_left]
  rw [collapseWhitespace_eq,htake,squash_take isSpace_blank,← htake]
  rw [hs,List.rdropWhile_idempotent]

theorem mem_result {c : CodeUnit} (h : sanitizer.sanitize nfc raw = some s) (hc : c ∈ s) :
    c ∈ visiblePart nfc raw ∨ c = blank := by
  rw [(sanitize_result h).1] at hc
  exact mem_squash (List.mem_of_mem_take ((List.rdropWhile_prefix _ _).subset hc))

end Results

/-- A result is in the closed normal form if and only if taking characters out of its text brought
nothing together. -/
theorem sanitize_closed_iff {nfc : Text → Text} (hlaws : NfcLaws nfc) {sanitizer : Sanitizer}
    {raw s : Text} (h : sanitizer.sanitize nfc raw = some s) :
    ClosedForm nfc sanitizer s ↔ SafelyVisible nfc sanitizer raw := by
  obtain ⟨hs,hne⟩ := sanitize_result h
  have hscheme : beginsWithScheme s = beginsWithScheme (visiblePart nfc raw) := by
    rw [hs,beginsWithScheme_shown sanitizer.maxLength_ge]
  have hcomposed := separable_result hlaws.separable hlaws.blank
    (fun w hw hwhite => ((mem_visiblePart hlaws hw).2 hwhite).1) h
  have hprintable := separable_result (separable_freeOf isControlOrFormat)
    (freeOf_singleton.mpr (by decide))
    (fun w hw hwhite => ((mem_visiblePart hlaws hw).2 hwhite).2) h
  constructor
  · intro hclosed
    exact ⟨hscheme.symm.trans hclosed.scheme,hcomposed.mp hclosed.composed,
      hprintable.mp hclosed.printable⟩
  · intro hsafe
    have hlength : s.length ≤ sanitizer.options.maxLength := by
      rw [hs]
      exact ((List.rdropWhile_prefix _ _).length_le).trans (List.length_take_le _ _)
    have hmarkup : ∀ c ∈ s, isMarkup c = false := by
      intro c hc
      rcases mem_result h hc with hmem | rfl
      · exact (mem_visiblePart hlaws hmem).1
      · decide
    have hnfc := hcomposed.mpr hsafe.composed
    have hfree := hprintable.mpr hsafe.printable
    have hfalse := hscheme.trans hsafe.scheme
    exact ⟨hne,hlength,hnfc,hfree,hmarkup,hfalse,
      sanitize_fixed hne hlength hnfc hfree hmarkup hfalse (collapseWhitespace_result h)⟩

section Examples

theorem nfcLaws_id : NfcLaws id where
  idempotent := fun _ => rfl
  blank := rfl
  separable := {
    nil := rfl
    split := fun _ => ⟨fun _ => ⟨rfl,rfl,rfl⟩,fun _ => rfl⟩ }

/-- A name with blanks around and inside it. -/
theorem sanitize_closed_iff_name :
    ClosedForm id .username (asciiText "Ada L") := by
  have hresult : Sanitizer.sanitize id .username (asciiText "  Ada   L ") =
      some (asciiText "Ada L") := by decide +kernel
  refine (sanitize_closed_iff nfcLaws_id hresult).mpr ⟨by decide +kernel,rfl,?_⟩
  intro point hpoint
  have hpoints : codePoints (shownPart id .username (asciiText "  Ada   L ")) =
      [0x20,0x20,0x41,0x64,0x61,0x20,0x20,0x20,0x4C,0x20] := by decide +kernel
  have hall : [0x20,0x20,0x41,0x64,0x61,0x20,0x20,0x20,0x4C,0x20].all
      (fun point => !isControlOrFormat point) = true := by decide +kernel
  rw [hpoints] at hpoint
  simpa using List.all_eq_true.mp hall point hpoint

/-- An invisible character inside the scheme hides it from the test, and is taken out after it. -/
theorem hidden_scheme_uncovered : ∃ s,
    Sanitizer.sanitize id .username
      (asciiText "java" ++ [0x200B] ++ asciiText "script:x") = some s ∧
      ¬ClosedForm id .username s := by
  refine ⟨asciiText "javascript:x",by decide +kernel,fun hclosed => ?_⟩
  have hscheme : beginsWithScheme (asciiText "javascript:x") = true := by decide +kernel
  rw [hclosed.scheme] at hscheme
  cases hscheme

end Examples

end DisplayText
end WebSyncPlay
