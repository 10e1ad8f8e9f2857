import WebSyncPlay.Library.IpAddress
import Mathlib.Data.List.DropRight

/-! Which targets a proxied URL may not have (`security/url-safety.ts`). The URL parser, `isIP` and
the name lookup are outside. Texts are lists of characters; host names are ASCII. -/
namespace WebSyncPlay

open Library

structure ParsedUrl where
  protocol : String
  hostname : List Char
  deriving DecidableEq

structure NetPlatform where
  parseUrl : String → Option ParsedUrl
  isIP : List Char → ℕ

def blockedHostnames : List (List Char) :=
  ["localhost".toList,"metadata.google.internal".toList,"metadata".toList]

def blockedHostnameSuffixes : List (List Char) := [".localhost".toList,".local".toList]

def toLowerCase (s : List Char) : List Char := s.map Char.toLower

/-- Without the brackets of an IPv6 host and the dots at the end. -/
def normalizeHostname (hostname : List Char) : List Char :=
  let host := if hostname.head? = some '[' then hostname.tail else hostname
  let host := if host.getLast? = some ']' then host.dropLast else host
  (toLowerCase host).rdropWhile fun c => c = '.'

/-- `[0-9a-f]`. -/
def isLowerHex (c : Char) : Bool := c.isDigit || (decide ('a' ≤ c) && decide (c ≤ 'f'))

/-- `ffff:`, four runs of one to three digits with dots between them, and the end. -/
def mappedDotted (s : List Char) : Option (List (List Char)) := do
  let s ← literal "ffff:".toList s
  let (first,s) ← charRun Char.isDigit 3 s
  let s ← literal ['.'] s
  let (second,s) ← charRun Char.isDigit 3 s
  let s ← literal ['.'] s
  let (third,s) ← charRun Char.isDigit 3 s
  let s ← literal ['.'] s
  let (fourth,s) ← charRun Char.isDigit 3 s
  if s = [] then some [first,second,third,fourth] else none

/-- `ffff:`, two runs of one to four hexadecimal digits with a colon between them, and the end. -/
def mappedHex (s : List Char) : Option (List Char × List Char) := do
  let s ← literal "ffff:".toList s
  let (hi,s) ← charRun isLowerHex 4 s
  let s ← literal [':'] s
  let (lo,s) ← charRun isLowerHex 4 s
  if s = [] then some (hi,lo) else none

/-- `parseInt` of digits in base 16. -/
def parseHex (s : List Char) : ℕ :=
  s.foldl (fun n c => 16*n+(if c.isDigit then c.toNat - '0'.toNat else c.toNat - 'a'.toNat+10)) 0

def ipv4MappedToDotted (ip : List Char) : Option (List Char) :=
  let normalized := toLowerCase ip
  match searchAfter ':' mappedDotted normalized with
  | some parts => some (['.'].intercalate parts)
  | none =>
    (searchAfter ':' mappedHex normalized).map fun groups =>
      let hi := parseHex groups.1
      let lo := parseHex groups.2
      ['.'].intercalate ([(hi >>> 8) &&& 255,hi &&& 255,(lo >>> 8) &&& 255,lo &&& 255].map
        fun byte => Nat.toDigits 10 byte)

/-- `Number` of a part; the parts of an address are decimal digits. -/
def numberOf (part : List Char) : Option ℕ :=
  if part.all Char.isDigit then some (Nat.ofDigitChars 10 part 0) else none

def isPrivateOrLocalIpv4 (ip : List Char) : Bool :=
  match (ip.splitOn '.').map numberOf with
  | [some a,some b,some _,some _] =>
    if a = 10 ∨ a = 127 ∨ a = 0 then true
    else if a = 169 ∧ b = 254 then true
    else if a = 172 ∧ b ≥ 16 ∧ b ≤ 31 then true
    else if a = 192 ∧ b = 168 then true
    else if a = 100 ∧ b ≥ 64 ∧ b ≤ 127 then true
    else false
  | _ => true

def isPrivateOrLocalIp (ip : List Char) : Bool :=
  let normalized := toLowerCase ip
  if normalized = "::1".toList ∨ normalized = "::".toList ∨ normalized = "0.0.0.0".toList then true
  else
    match ipv4MappedToDotted normalized with
    | some mapped => isPrivateOrLocalIpv4 mapped
    | none =>
      if ':' ∈ normalized then
        decide ("fc".toList <+: normalized) || decide ("fd".toList <+: normalized) ||
          decide ("fe80:".toList <+: normalized)
      else isPrivateOrLocalIpv4 normalized

inductive UrlSafetyResult
  | ok (url : ParsedUrl)
  | refused (reason : String)

def UrlSafetyResult.Refuses : UrlSafetyResult → Prop
  | .ok _ => False
  | .refused _ => True

def assertPublicHttpUrl (net : NetPlatform) (allowPrivateUrls : Bool) (raw : String) :
    UrlSafetyResult :=
  match net.parseUrl raw with
  | none => .refused "invalid_url"
  | some url =>
    if url.protocol ≠ "http:" ∧ url.protocol ≠ "https:" then .refused "unsupported_protocol"
    else if allowPrivateUrls then .ok url
    else
      let hostname := normalizeHostname url.hostname
      if hostname ∈ blockedHostnames then .refused "blocked_hostname"
      else if ∃ suffix ∈ blockedHostnameSuffixes, suffix <:+ hostname then
        .refused "blocked_hostname"
      else if net.isIP hostname ≠ 0 ∧ isPrivateOrLocalIp hostname then .refused "private_ip"
      else .ok url

/-- A lookup that fails gives nothing. -/
def assertPublicHttpUrlResolved (net : NetPlatform) (allowPrivateUrls : Bool)
    (lookup : List Char → Option (List (List Char))) (raw : String) : UrlSafetyResult :=
  match assertPublicHttpUrl net allowPrivateUrls raw with
  | .refused reason => .refused reason
  | .ok url =>
    if allowPrivateUrls then .ok url
    else
      let hostname := normalizeHostname url.hostname
      if net.isIP hostname ≠ 0 then .ok url
      else
        match lookup hostname with
        | none => .refused "dns_lookup_failed"
        | some [] => .refused "dns_lookup_failed"
        | some addresses =>
          if addresses.any isPrivateOrLocalIp then .refused "private_ip" else .ok url

section Classes

/-- 0/8, 10/8, 127/8, 169.254/16, 172.16/12, 192.168/16 and 100.64/10. -/
def privateIpv4Blocks : List (Ipv4Address × ℕ) :=
  [(⟨0,0,0,0⟩,8),(⟨10,0,0,0⟩,8),(⟨127,0,0,0⟩,8),(⟨169,254,0,0⟩,16),(⟨172,16,0,0⟩,12),
    (⟨192,168,0,0⟩,16),(⟨100,64,0,0⟩,10)]

def IsPrivateIpv4 (a : Ipv4Address) : Prop :=
  ∃ block ∈ privateIpv4Blocks, InBlock 32 block.1.value block.2 a.value

/-- fc00::/7 and fe80::/10. -/
def IsLocalIpv6 (a : Ipv6Address) : Prop :=
  InBlock 128 (0xfc00*2^112) 7 a.value ∨ InBlock 128 (0xfe80*2^112) 10 a.value

def IsPrivateIpv6 (a : Ipv6Address) : Prop :=
  a.value = 0 ∨ a.value = 1 ∨ IsLocalIpv6 a ∨
    InBlock 128 (0xffff*2^32) 96 a.value ∧ IsPrivateIpv4 a.low

inductive IpAddress
  | v4 (a : Ipv4Address)
  | v6 (a : Ipv6Address)

namespace IpAddress

def IsPrivate : IpAddress → Prop
  | .v4 a => IsPrivateIpv4 a
  | .v6 a => IsPrivateIpv6 a

def hostText : IpAddress → List Char
  | .v4 a => a.text
  | .v6 a => '[' :: a.urlText ++ [']']

def lookupText : IpAddress → List Char
  | .v4 a => a.text
  | .v6 a => a.lookupText

end IpAddress

end Classes

section Matchers

theorem mappedHex_eq_some {s : List Char} {groups : List Char × List Char} :
    mappedHex s = some groups ↔ s = [':'].intercalate ["ffff".toList,groups.1,groups.2] ∧
      IsRun isLowerHex 4 groups.1 ∧ IsRun isLowerHex 4 groups.2 := by
  obtain ⟨hi,lo⟩ := groups
  have hjoin : [':'].intercalate ["ffff".toList,hi,lo] =
      "ffff:".toList ++ (hi ++ ([':'] ++ (lo ++ []))) := by
    simp [List.intercalate]
  rw [hjoin]
  constructor
  · intro h
    obtain ⟨s₁,h₁,h⟩ := Option.bind_eq_some_iff.mp h
    obtain ⟨⟨hi',s₂⟩,h₂,h⟩ := Option.bind_eq_some_iff.mp h
    obtain ⟨s₃,h₃,h⟩ := Option.bind_eq_some_iff.mp h
    obtain ⟨⟨lo',s₄⟩,h₄,h⟩ := Option.bind_eq_some_iff.mp h
    dsimp only at h
    split at h
    · rename_i hend
      obtain ⟨rfl,rfl⟩ := Prod.mk.inj (Option.some.inj h)
      obtain rfl := literal_eq_some.mp h₁
      obtain ⟨rfl,hhi,-⟩ := charRun_eq_some.mp h₂
      obtain rfl := literal_eq_some.mp h₃
      obtain ⟨rfl,hlo,-⟩ := charRun_eq_some.mp h₄
      exact ⟨by rw [hend],hhi,hlo⟩
    · cases h
  · rintro ⟨rfl,hhi,hlo⟩
    have hcolon : ∀ c ∈ ([':'] ++ (lo ++ [])).head?, isLowerHex c = false := by
      rintro c ⟨⟩
      decide
    rw [mappedHex,literal_append]
    simp only [Option.bind_eq_bind,Option.bind_some,charRun_append hhi hcolon,literal_append,
      charRun_end hlo,if_true]

theorem mappedDotted_eq_some {s : List Char} {parts : List (List Char)} :
    mappedDotted s = some parts ↔ s = [':'].intercalate ["ffff".toList,['.'].intercalate parts] ∧
      parts.length = 4 ∧ ∀ part ∈ parts, IsRun Char.isDigit 3 part := by
  have hjoin : ∀ p q r t : List Char, [':'].intercalate ["ffff".toList,['.'].intercalate [p,q,r,t]] =
      "ffff:".toList ++ (p ++ (['.'] ++ (q ++ (['.'] ++ (r ++ (['.'] ++ (t ++ []))))))) := by
    intro p q r t
    simp [List.intercalate]
  constructor
  · intro h
    obtain ⟨s₁,h₁,h⟩ := Option.bind_eq_some_iff.mp h
    obtain ⟨⟨first,s₂⟩,h₂,h⟩ := Option.bind_eq_some_iff.mp h
    obtain ⟨s₃,h₃,h⟩ := Option.bind_eq_some_iff.mp h
    obtain ⟨⟨second,s₄⟩,h₄,h⟩ := Option.bind_eq_some_iff.mp h
    obtain ⟨s₅,h₅,h⟩ := Option.bind_eq_some_iff.mp h
    obtain ⟨⟨third,s₆⟩,h₆,h⟩ := Option.bind_eq_some_iff.mp h
    obtain ⟨s₇,h₇,h⟩ := Option.bind_eq_some_iff.mp h
    obtain ⟨⟨fourth,s₈⟩,h₈,h⟩ := Option.bind_eq_some_iff.mp h
    dsimp only at h
    split at h
    · rename_i hend
      obtain rfl := Option.some.inj h
      obtain rfl := literal_eq_some.mp h₁
      obtain ⟨rfl,hfirst,-⟩ := charRun_eq_some.mp h₂
      obtain rfl := literal_eq_some.mp h₃
      obtain ⟨rfl,hsecond,-⟩ := charRun_eq_some.mp h₄
      obtain rfl := literal_eq_some.mp h₅
      obtain ⟨rfl,hthird,-⟩ := charRun_eq_some.mp h₆
      obtain rfl := literal_eq_some.mp h₇
      obtain ⟨rfl,hfourth,-⟩ := charRun_eq_some.mp h₈
      refine ⟨by rw [hjoin,hend],rfl,?_⟩
      intro part hpart
      simp only [List.mem_cons,List.not_mem_nil,or_false] at hpart
      rcases hpart with rfl | rfl | rfl | rfl <;> assumption
    · cases h
  · rintro ⟨rfl,hlength,hruns⟩
    match parts,hlength with
    | [p,q,r,t],_ =>
      have hdot : ∀ rest : List Char, ∀ c ∈ (['.'] ++ rest).head?, Char.isDigit c = false := by
        rintro rest c ⟨⟩
        decide
      rw [hjoin,mappedDotted,literal_append]
      simp only [Option.bind_eq_bind,Option.bind_some,literal_append,
        charRun_append (hruns p (by simp)) (hdot _),charRun_append (hruns q (by simp)) (hdot _),
        charRun_append (hruns r (by simp)) (hdot _),charRun_end (hruns t (by simp)),if_true]

section Search

variable {pieces : List (List Char)}

theorem searchAfter_mappedHex (hne : pieces ≠ []) (hcolon : ∀ p ∈ pieces, ':' ∉ p)
    {groups : List Char × List Char} :
    searchAfter ':' mappedHex ([':'].intercalate pieces) = some groups ↔
      ["ffff".toList,groups.1,groups.2] <:+ pieces ∧
        IsRun isLowerHex 4 groups.1 ∧ IsRun isLowerHex 4 groups.2 := by
  refine searchAfter_intercalate (k := 3) (by decide) (fun _ => rfl)
    (fun _ _ => mappedHex_eq_some) ?_ ?_ hne hcolon
  · rintro ⟨hi,lo⟩ ⟨hhi,hlo⟩ p hp
    simp only [List.mem_cons,List.not_mem_nil,or_false] at hp
    rcases hp with rfl | rfl | rfl
    · decide
    · exact not_mem_of_isRun hhi (by decide)
    · exact not_mem_of_isRun hlo (by decide)
  · rintro ⟨hi,lo⟩ ⟨hi',lo'⟩ _ _ hsame
    simpa using hsame

theorem searchAfter_mappedDotted (hne : pieces ≠ []) (hcolon : ∀ p ∈ pieces, ':' ∉ p)
    {parts : List (List Char)} :
    searchAfter ':' mappedDotted ([':'].intercalate pieces) = some parts ↔
      ["ffff".toList,['.'].intercalate parts] <:+ pieces ∧
        parts.length = 4 ∧ ∀ part ∈ parts, IsRun Char.isDigit 3 part := by
  refine searchAfter_intercalate (k := 2) (by decide) (fun _ => rfl)
    (fun _ _ => mappedDotted_eq_some) ?_ ?_ hne hcolon
  · rintro parts ⟨-,hruns⟩ p hp
    simp only [List.mem_cons,List.not_mem_nil,or_false] at hp
    rcases hp with rfl | rfl
    · decide
    · intro hmem
      rcases mem_intercalate hmem with hsame | ⟨part,hpart,hmem⟩
      · exact absurd hsame (by decide)
      · exact not_mem_of_isRun (hruns part hpart) (by decide) hmem
  · rintro parts parts' ⟨hlength,hruns⟩ ⟨hlength',hruns'⟩ hsame
    have hdots : ∀ {parts : List (List Char)}, (∀ part ∈ parts, IsRun Char.isDigit 3 part) →
        ∀ part ∈ parts, '.' ∉ part := fun hruns part hpart =>
      not_mem_of_isRun (hruns part hpart) (by decide)
    refine intercalate_inj ?_ ?_ (hdots hruns) (hdots hruns') (by simpa using hsame)
    · rintro rfl
      cases hlength
    · rintro rfl
      cases hlength'

end Search

end Matchers

section Texts

theorem isRun_toDigits {p : Char → Bool} {b most n : ℕ} (hb : 1 < b) (hmost : 0 < most)
    (hp : ∀ d < b, p (Nat.digitChar d) = true) (hn : n < b^most) :
    IsRun p most (Nat.toDigits b n) := by
  refine ⟨Nat.length_toDigits_pos,(Nat.length_toDigits_le_iff hb hmost).mpr hn,?_⟩
  intro c hc
  obtain ⟨d,hd,rfl⟩ := exists_digit_of_mem_toDigits hb hc
  exact hp d hd

theorem isRun_byte (byte : UInt8) : IsRun Char.isDigit 3 (Nat.toDigits 10 byte.toNat) := by
  have hbyte := byte.toNat_lt
  exact isRun_toDigits (by decide) (by decide) (by decide) (by omega)

theorem isRun_hexText (g : UInt16) : IsRun isLowerHex 4 (Ipv6Address.hexText g) := by
  have hg := g.toNat_lt
  exact isRun_toDigits (by decide) (by decide) (by decide) (by omega)

theorem parseHex_hexText (g : UInt16) : parseHex (Ipv6Address.hexText g) = g.toNat :=
  foldl_toDigits (by decide) (by decide) g.toNat

theorem numberOf_byte (byte : UInt8) : numberOf (Nat.toDigits 10 byte.toNat) = some byte.toNat := by
  rw [numberOf,if_pos (List.all_eq_true.mpr (isRun_byte byte).2.2),Nat.ofDigitChars_ten_toDigits]

theorem splitOn_text (a : Ipv4Address) :
    a.text.splitOn '.' = [a.a,a.b,a.c,a.d].map fun byte => Nat.toDigits 10 byte.toNat := by
  rw [Ipv4Address.text]
  refine List.splitOn_intercalate '.' ?_ (List.cons_ne_nil _ _)
  intro part hpart
  obtain ⟨byte,-,rfl⟩ := List.mem_map.mp hpart
  exact not_mem_of_isRun (isRun_byte byte) (by decide)

theorem isPrivateOrLocalIpv4_text (a : Ipv4Address) :
    isPrivateOrLocalIpv4 a.text = true ↔ IsPrivateIpv4 a := by
  obtain ⟨a,b,c,d⟩ := a
  have ha := a.toNat_lt
  have hb := b.toNat_lt
  have hc := c.toNat_lt
  have hd := d.toNat_lt
  rw [isPrivateOrLocalIpv4,splitOn_text]
  simp only [List.map_cons,List.map_nil,numberOf_byte,IsPrivateIpv4,privateIpv4Blocks,
    List.mem_cons,List.not_mem_nil,or_false,exists_eq_or_imp,exists_eq_left,InBlock,
    Ipv4Address.value]
  generalize a.toNat = a at *
  generalize b.toNat = b at *
  generalize c.toNat = c at *
  generalize d.toNat = d at *
  have height : (a*2^24+b*2^16+c*2^8+d)/2^(32-8) = a := by omega
  have htwelve : (a*2^24+b*2^16+c*2^8+d)/2^(32-12) = a*16+b/16 := by omega
  have hsixteen : (a*2^24+b*2^16+c*2^8+d)/2^(32-16) = a*256+b := by omega
  have hten : (a*2^24+b*2^16+c*2^8+d)/2^(32-10) = a*4+b/64 := by omega
  rw [height,htwelve,hsixteen,hten]
  simp only [UInt8.toNat_ofNat,Nat.reduceMod,Nat.reducePow,Nat.reduceMul,
    Nat.reduceAdd,Nat.reduceSub,Nat.reduceDiv]
  split_ifs <;> simp only [true_iff,false_iff] <;> omega

def addressChars : List Char := "0123456789abcdef:.".toList

theorem addressChars_of_all {s : List Char} (h : s.all (fun c => decide (c ∈ addressChars)) = true) :
    ∀ c ∈ s, c ∈ addressChars := by
  simpa using h

theorem digitChar_mem {b d : ℕ} (hb : b ≤ 16) (hd : d < b) : Nat.digitChar d ∈ addressChars := by
  have hall : ∀ e < 16, Nat.digitChar e ∈ addressChars := by decide
  exact hall d (by omega)

theorem mem_of_mem_toDigits {b n : ℕ} (hb : 1 < b) (hb' : b ≤ 16) {c : Char}
    (hc : c ∈ Nat.toDigits b n) : c ∈ addressChars := by
  obtain ⟨d,hd,rfl⟩ := exists_digit_of_mem_toDigits hb hc
  exact digitChar_mem hb' hd

theorem mem_of_mem_text {a : Ipv4Address} {c : Char} (hc : c ∈ a.text) : c ∈ addressChars := by
  rcases mem_intercalate hc with rfl | ⟨part,hpart,hc⟩
  · decide
  · obtain ⟨byte,-,rfl⟩ := List.mem_map.mp hpart
    exact mem_of_mem_toDigits (by decide) (by decide) hc

theorem mem_of_mem_piece {a : Ipv6Address} {p : List Char} (hp : p ∈ a.pieces) {c : Char}
    (hc : c ∈ p) : c ≠ '.' ∧ c ∈ addressChars := by
  have hhex : ∀ g, c ∈ Ipv6Address.hexText g → c ≠ '.' ∧ c ∈ addressChars := by
    intro g hg
    refine ⟨?_,mem_of_mem_toDigits (by decide) (by decide) hg⟩
    rintro rfl
    exact Ipv6Address.not_mem_hexText (by decide) g hg
  have hside : ∀ groups, p ∈ Ipv6Address.sidePieces groups → c ≠ '.' ∧ c ∈ addressChars := by
    intro groups hp
    rw [Ipv6Address.sidePieces] at hp
    split at hp
    · rw [List.mem_singleton.mp hp] at hc
      cases hc
    · obtain ⟨g,-,rfl⟩ := List.mem_map.mp hp
      exact hhex g hc
  rw [Ipv6Address.pieces] at hp
  split at hp
  · obtain ⟨g,-,rfl⟩ := List.mem_map.mp hp
    exact hhex g hc
  · rcases List.mem_append.mp hp with hp | hp
    · exact hside _ hp
    rcases List.mem_cons.mp hp with rfl | hp
    · cases hc
    · exact hside _ hp

theorem mem_of_mem_urlText {a : Ipv6Address} {c : Char} (hc : c ∈ a.urlText) :
    c ≠ '.' ∧ c ∈ addressChars := by
  rw [← a.intercalate_pieces] at hc
  rcases mem_intercalate hc with rfl | ⟨p,hp,hc⟩
  · decide
  · exact mem_of_mem_piece hp hc

theorem toLowerCase_eq {s : List Char} (h : ∀ c ∈ s, c ∈ addressChars) : toLowerCase s = s := by
  have hall : ∀ c ∈ addressChars, c.toLower = c := by
    have hlower : addressChars.all (fun c => decide (c.toLower = c)) = true := by decide
    simpa using hlower
  calc toLowerCase s = s.map id := List.map_congr_left fun c hc => hall c (h c hc)
    _ = s := List.map_id s

end Texts

section Classifier

variable {first : List Char} {rest : List (List Char)}

/-- What is done with a text that has a colon. -/
theorem isPrivateOrLocalIp_pieces (hrest : rest ≠ []) (hcolon : ∀ p ∈ first :: rest, ':' ∉ p)
    (hchars : ∀ c ∈ [':'].intercalate (first :: rest), c ∈ addressChars) :
    isPrivateOrLocalIp ([':'].intercalate (first :: rest)) = true ↔
      first :: rest = [[],[],['1']] ∨ first :: rest = [[],[],[]] ∨
        match ipv4MappedToDotted ([':'].intercalate (first :: rest)) with
        | some mapped => isPrivateOrLocalIpv4 mapped = true
        | none => "fc".toList <+: first ∨ "fd".toList <+: first ∨ first = "fe80".toList := by
  have htext : ∀ {ps : List (List Char)}, ps ≠ [] → (∀ p ∈ ps, ':' ∉ p) →
      ([':'].intercalate (first :: rest) = [':'].intercalate ps ↔ first :: rest = ps) := by
    intro ps hps hfree
    exact ⟨intercalate_inj (List.cons_ne_nil _ _) hps hcolon hfree,fun h => by rw [h]⟩
  have hmem : ':' ∈ [':'].intercalate (first :: rest) := by
    rw [intercalate_cons_of_ne_nil hrest]
    exact List.mem_append_right _ List.mem_cons_self
  have hloopback : [':'].intercalate (first :: rest) = "::1".toList ↔
      first :: rest = [[],[],['1']] := by
    rw [show "::1".toList = [':'].intercalate [[],[],['1']] from rfl]
    exact htext (by simp) (by decide)
  have hany : [':'].intercalate (first :: rest) = "::".toList ↔
      first :: rest = [[],[],[]] := by
    rw [show "::".toList = [':'].intercalate [[],[],[]] from rfl]
    exact htext (by simp) (by decide)
  have hzero : ¬[':'].intercalate (first :: rest) = "0.0.0.0".toList := by
    intro hsame
    rw [hsame] at hmem
    exact absurd hmem (by decide)
  have hfc : "fc".toList <+: [':'].intercalate (first :: rest) ↔ "fc".toList <+: first := by
    rw [intercalate_cons_of_ne_nil hrest,prefix_append_sep (by decide)]
  have hfd : "fd".toList <+: [':'].intercalate (first :: rest) ↔ "fd".toList <+: first := by
    rw [intercalate_cons_of_ne_nil hrest,prefix_append_sep (by decide)]
  have hfe80 : "fe80:".toList <+: [':'].intercalate (first :: rest) ↔ first = "fe80".toList := by
    rw [intercalate_cons_of_ne_nil hrest,
      show "fe80:".toList = "fe80".toList ++ [':'] from rfl,
      append_sep_prefix (by decide) (hcolon first List.mem_cons_self)]
    exact eq_comm
  rw [isPrivateOrLocalIp,toLowerCase_eq hchars]
  split
  · rename_i hspecial
    rcases hspecial with hspecial | hspecial | hspecial
    · simp [hloopback.mp hspecial]
    · simp [hany.mp hspecial]
    · exact absurd hspecial hzero
  · rename_i hspecial
    rw [hloopback,hany,not_or,not_or] at hspecial
    rw [or_iff_right hspecial.1,or_iff_right hspecial.2.1]
    cases ipv4MappedToDotted ([':'].intercalate (first :: rest)) with
    | some mapped => exact Iff.rfl
    | none =>
      simp only [Bool.or_eq_true,decide_eq_true_eq,hfc,hfd,hfe80,or_assoc]

variable {a : Ipv6Address}

/-- The text writes groups 6 and 7 out, after a group ffff. -/
def LooksMapped (a : Ipv6Address) : Prop := a.EndShown ∧ a.groups.getD 5 0 = 0xffff

theorem dotted_groups (high low : UInt16) :
    ['.'].intercalate ([(high.toNat >>> 8) &&& 255,high.toNat &&& 255,(low.toNat >>> 8) &&& 255,
      low.toNat &&& 255].map fun byte => Nat.toDigits 10 byte) =
      Ipv4Address.text ⟨.ofNat (high.toNat/2^8),.ofNat (high.toNat % 2^8),.ofNat (low.toNat/2^8),
        .ofNat (low.toNat % 2^8)⟩ := by
  have hhigh : ∀ g : UInt16, (g.toNat >>> 8) &&& 255 = (UInt8.ofNat (g.toNat/2^8)).toNat := by
    intro g
    rw [UInt8.toNat_ofNat',Nat.shiftRight_eq_div_pow]
    exact Nat.and_two_pow_sub_one_eq_mod _ 8
  have hlow : ∀ g : UInt16, g.toNat &&& 255 = (UInt8.ofNat (g.toNat % 2^8)).toNat := by
    intro g
    rw [UInt8.toNat_ofNat',Nat.mod_mod]
    exact Nat.and_two_pow_sub_one_eq_mod _ 8
  rw [hhigh,hhigh,hlow,hlow]
  rfl

theorem searchAfter_mappedDotted_urlText : searchAfter ':' mappedDotted a.urlText = none := by
  cases hsearch : searchAfter ':' mappedDotted a.urlText with
  | none => rfl
  | some parts =>
    rw [← a.intercalate_pieces] at hsearch
    obtain ⟨hsuffix,hlength,-⟩ :=
      (searchAfter_mappedDotted a.pieces_ne_nil a.colon_not_mem_pieces).mp hsearch
    have hpiece : ['.'].intercalate parts ∈ a.pieces := hsuffix.mem (by simp)
    match parts,hlength with
    | [p,q,r,t],_ =>
      have hdot : '.' ∈ ['.'].intercalate [p,q,r,t] := by simp [List.intercalate]
      exact absurd rfl (mem_of_mem_piece hpiece hdot).1

theorem ipv4MappedToDotted_urlText_of_mapped (h : LooksMapped a) :
    ipv4MappedToDotted a.urlText = some a.low.text := by
  have hsearch : searchAfter ':' mappedHex a.urlText = some
      (Ipv6Address.hexText (a.groups.getD 6 0),Ipv6Address.hexText (a.groups.getD 7 0)) := by
    rw [← a.intercalate_pieces,
      searchAfter_mappedHex a.pieces_ne_nil a.colon_not_mem_pieces]
    refine ⟨?_,isRun_hexText _,isRun_hexText _⟩
    rw [Ipv6Address.suffix_pieces_iff (by decide) (Ipv6Address.hexText_ne_nil _)
      (Ipv6Address.hexText_ne_nil _)]
    refine ⟨h.1,?_,rfl,rfl⟩
    rw [h.2]
    rfl
  rw [ipv4MappedToDotted,toLowerCase_eq fun c hc => (mem_of_mem_urlText hc).2]
  simp only [searchAfter_mappedDotted_urlText,hsearch,Option.map_some,parseHex_hexText,
    dotted_groups]
  rfl

theorem ipv4MappedToDotted_urlText_of_not (h : ¬LooksMapped a) :
    ipv4MappedToDotted a.urlText = none := by
  have hsearch : searchAfter ':' mappedHex a.urlText = none := by
    cases hsearch : searchAfter ':' mappedHex a.urlText with
    | none => rfl
    | some groups =>
      rw [← a.intercalate_pieces] at hsearch
      obtain ⟨hsuffix,hhi,hlo⟩ :=
        (searchAfter_mappedHex a.pieces_ne_nil a.colon_not_mem_pieces).mp hsearch
      have hne : ∀ {run : List Char}, IsRun isLowerHex 4 run → run ≠ [] := by
        rintro _ hrun rfl
        exact absurd hrun.1 (by decide)
      obtain ⟨hshown,hffff,-,-⟩ :=
        (Ipv6Address.suffix_pieces_iff (by decide) (hne hhi) (hne hlo)).mp hsuffix
      have hgroup : Ipv6Address.hexText 0xffff = Ipv6Address.hexText (a.groups.getD 5 0) := hffff
      exact absurd ⟨hshown,(Ipv6Address.hexText_inj hgroup).symm⟩ h
  rw [ipv4MappedToDotted,toLowerCase_eq fun c hc => (mem_of_mem_urlText hc).2]
  simp only [searchAfter_mappedDotted_urlText,hsearch,Option.map_none]

/-- The first group is written fe80, or begins with fc or fd. -/
def ReadAsLocal (g : UInt16) : Prop :=
  g = 0xfe80 ∨ ∃ k, g.toNat/16^k = 0xfc ∨ g.toNat/16^k = 0xfd

def ReadAsPrivate (a : Ipv6Address) : Prop :=
  a.value = 1 ∨ a.value = 0 ∨ LooksMapped a ∧ IsPrivateIpv4 a.low ∨
    ¬LooksMapped a ∧ ReadAsLocal (a.groups.getD 0 0)

theorem readAsLocal_iff (g : UInt16) : ReadAsLocal g ↔
    "fc".toList <+: Ipv6Address.hexText g ∨ "fd".toList <+: Ipv6Address.hexText g ∨
      Ipv6Address.hexText g = "fe80".toList := by
  have hfc : "fc".toList <+: Ipv6Address.hexText g ↔ ∃ k, g.toNat/16^k = 0xfc :=
    prefix_toDigits_iff (x := 15) (y := 12) (by decide) (by decide) (by decide)
  have hfd : "fd".toList <+: Ipv6Address.hexText g ↔ ∃ k, g.toNat/16^k = 0xfd :=
    prefix_toDigits_iff (x := 15) (y := 13) (by decide) (by decide) (by decide)
  have hfe80 : Ipv6Address.hexText g = "fe80".toList ↔ g = 0xfe80 := by
    constructor
    · intro h
      exact Ipv6Address.hexText_inj (h.trans (show "fe80".toList = Ipv6Address.hexText 0xfe80 from rfl))
    · rintro rfl
      rfl
  rw [ReadAsLocal,hfc,hfd,hfe80,exists_or,or_comm,or_assoc]

theorem not_readAsLocal_zero : ¬ReadAsLocal 0 := by
  rintro (h | ⟨k,h | h⟩)
  · exact absurd h (by decide)
  · rw [UInt16.toNat_zero,Nat.zero_div] at h
    cases h
  · rw [UInt16.toNat_zero,Nat.zero_div] at h
    cases h

/-- The groups left out come first only if the first one is zero. -/
theorem first_eq_zero {len : ℕ} (h : a.compressed = some (0,len)) : a.groups.getD 0 0 = 0 := by
  obtain ⟨htwo,-,hzero⟩ := Ipv6Address.compressed_eq_some h
  exact hzero 0 le_rfl (by omega)

theorem isPrivateOrLocalIp_urlText (a : Ipv6Address) :
    isPrivateOrLocalIp a.urlText = true ↔ ReadAsPrivate a := by
  have hchars : ∀ c ∈ [':'].intercalate a.pieces, c ∈ addressChars := by
    rw [a.intercalate_pieces]
    exact fun c hc => (mem_of_mem_urlText hc).2
  have hcolon := a.colon_not_mem_pieces
  have hspecial := a.pieces_eq_loopback
  have hany := a.pieces_eq_any
  have htext := a.intercalate_pieces
  -- What the last test makes of the first piece.
  have hlast : ∃ first rest, rest ≠ [] ∧ a.pieces = first :: rest ∧
      ("fc".toList <+: first ∨ "fd".toList <+: first ∨ first = "fe80".toList ↔
        ReadAsLocal (a.groups.getD 0 0)) := by
    rcases a.pieces_cases with ⟨len,hrun,hpieces⟩ | ⟨rest,hrest,hpieces⟩
    · refine ⟨[],_,List.cons_ne_nil _ _,hpieces,?_⟩
      rw [first_eq_zero hrun]
      exact iff_of_false (by decide) not_readAsLocal_zero
    · exact ⟨_,rest,hrest,hpieces,(readAsLocal_iff _).symm⟩
  obtain ⟨first,rest,hrest,hpieces,hlocal⟩ := hlast
  rw [hpieces] at hchars hcolon hspecial hany htext
  rw [← htext,isPrivateOrLocalIp_pieces hrest hcolon hchars,hspecial,hany,htext,ReadAsPrivate]
  by_cases hmapped : LooksMapped a
  · rw [ipv4MappedToDotted_urlText_of_mapped hmapped]
    dsimp only
    rw [isPrivateOrLocalIpv4_text]
    simp [hmapped]
  · rw [ipv4MappedToDotted_urlText_of_not hmapped]
    dsimp only
    rw [hlocal]
    simp [hmapped]

theorem colon_not_mem_text (a : Ipv4Address) : ':' ∉ a.text := by
  intro hmem
  rcases mem_intercalate hmem with hsame | ⟨part,hpart,hmem⟩
  · exact absurd hsame (by decide)
  · obtain ⟨byte,-,rfl⟩ := List.mem_map.mp hpart
    exact not_mem_of_isRun (isRun_byte byte) (by decide) hmem

theorem dot_mem_text (a : Ipv4Address) : '.' ∈ a.text := by
  simp [Ipv4Address.text,List.intercalate]

theorem seven_le_of_value_lt_two {base len : ℕ} (h : a.value < 2)
    (hrun : a.compressed = some (base,len)) : 7 ≤ len := by
  have hgroups := Ipv6Address.groups_of_value_lt_two h
  have hvalue : a.value = 0 ∨ a.value = 1 := by omega
  rw [Ipv6Address.compressed] at hrun
  rcases hvalue with hvalue | hvalue
  · rw [hgroups,hvalue] at hrun
    obtain ⟨-,rfl⟩ := Prod.mk.inj (Option.some.inj (show some (0,8) = _ from hrun))
    decide
  · rw [hgroups,hvalue] at hrun
    obtain ⟨-,rfl⟩ := Prod.mk.inj (Option.some.inj (show some (0,7) = _ from hrun))
    decide

theorem isPrivateOrLocalIp_compatible (b : Ipv4Address) :
    isPrivateOrLocalIp ([':'].intercalate [[],[],b.text]) = false := by
  have hcolon : ∀ p ∈ [[],[],b.text], ':' ∉ p := by
    intro p hp
    simp only [List.mem_cons,List.not_mem_nil,or_false] at hp
    rcases hp with rfl | rfl | rfl
    · exact List.not_mem_nil
    · exact List.not_mem_nil
    · exact colon_not_mem_text b
  have hchars : ∀ c ∈ [':'].intercalate [[],[],b.text], c ∈ addressChars := by
    intro c hc
    rcases mem_intercalate hc with rfl | ⟨p,hp,hc⟩
    · decide
    · simp only [List.mem_cons,List.not_mem_nil,or_false] at hp
      rcases hp with rfl | rfl | rfl
      · cases hc
      · cases hc
      · exact mem_of_mem_text hc
  have hdotted : searchAfter ':' mappedDotted ([':'].intercalate [[],[],b.text]) = none := by
    cases hsearch : searchAfter ':' mappedDotted ([':'].intercalate [[],[],b.text]) with
    | none => rfl
    | some parts =>
      have hsuffix := ((searchAfter_mappedDotted (List.cons_ne_nil _ _) hcolon).mp hsearch).1
      rw [List.suffix_iff_eq_drop] at hsuffix
      exact absurd (List.cons.inj hsuffix).1 (by decide)
  have hhex : searchAfter ':' mappedHex ([':'].intercalate [[],[],b.text]) = none := by
    cases hsearch : searchAfter ':' mappedHex ([':'].intercalate [[],[],b.text]) with
    | none => rfl
    | some groups =>
      have hsuffix := ((searchAfter_mappedHex (List.cons_ne_nil _ _) hcolon).mp hsearch).1
      rw [List.suffix_iff_eq_drop] at hsuffix
      exact absurd (List.cons.inj hsuffix).1 (by decide)
  have hmapped : ipv4MappedToDotted ([':'].intercalate [[],[],b.text]) = none := by
    rw [ipv4MappedToDotted,toLowerCase_eq hchars]
    simp only [hdotted,hhex,Option.map_none]
  have hdot := dot_mem_text b
  rw [← Bool.not_eq_true,isPrivateOrLocalIp_pieces (List.cons_ne_nil _ _) hcolon hchars,hmapped]
  rintro (h | h | h)
  · obtain ⟨-,h⟩ := List.cons.inj h
    obtain ⟨-,h⟩ := List.cons.inj h
    rw [(List.cons.inj h).1] at hdot
    exact absurd hdot (by decide)
  · obtain ⟨-,h⟩ := List.cons.inj h
    obtain ⟨-,h⟩ := List.cons.inj h
    rw [(List.cons.inj h).1] at hdot
    cases hdot
  · exact absurd h (by decide)

theorem isPrivateOrLocalIp_dotted (b : Ipv4Address) :
    isPrivateOrLocalIp ([':'].intercalate [[],[],"ffff".toList,b.text]) = true ↔
      IsPrivateIpv4 b := by
  have hcolon : ∀ p ∈ [[],[],"ffff".toList,b.text], ':' ∉ p := by
    intro p hp
    simp only [List.mem_cons,List.not_mem_nil,or_false] at hp
    rcases hp with rfl | rfl | rfl | rfl
    · exact List.not_mem_nil
    · exact List.not_mem_nil
    · decide
    · exact colon_not_mem_text b
  have hchars : ∀ c ∈ [':'].intercalate [[],[],"ffff".toList,b.text], c ∈ addressChars := by
    intro c hc
    rcases mem_intercalate hc with rfl | ⟨p,hp,hc⟩
    · decide
    · simp only [List.mem_cons,List.not_mem_nil,or_false] at hp
      rcases hp with rfl | rfl | rfl | rfl
      · cases hc
      · cases hc
      · have hf : ∀ d ∈ "ffff".toList, d ∈ addressChars := addressChars_of_all (by decide)
        exact hf c hc
      · exact mem_of_mem_text hc
  have hdotted : searchAfter ':' mappedDotted ([':'].intercalate [[],[],"ffff".toList,b.text]) =
      some ([b.a,b.b,b.c,b.d].map fun byte => Nat.toDigits 10 byte.toNat) := by
    rw [searchAfter_mappedDotted (List.cons_ne_nil _ _) hcolon]
    refine ⟨⟨[[],[]],rfl⟩,rfl,?_⟩
    intro part hpart
    obtain ⟨byte,-,rfl⟩ := List.mem_map.mp hpart
    exact isRun_byte byte
  have hmapped : ipv4MappedToDotted ([':'].intercalate [[],[],"ffff".toList,b.text]) =
      some b.text := by
    rw [ipv4MappedToDotted,toLowerCase_eq hchars]
    simp only [hdotted]
    rfl
  rw [isPrivateOrLocalIp_pieces (List.cons_ne_nil _ _) hcolon hchars,hmapped]
  dsimp only
  rw [isPrivateOrLocalIpv4_text]
  simp

theorem isPrivateOrLocalIp_lookupText (a : Ipv6Address) :
    isPrivateOrLocalIp a.lookupText = true ↔ ReadAsPrivate a := by
  by_cases hsix : a.compressed = some (0,6)
  · have htext : a.lookupText = [':'].intercalate [[],[],a.low.text] := by
      rw [Ipv6Address.lookupText,if_pos hsix]
      simp [List.intercalate]
    rw [htext,isPrivateOrLocalIp_compatible]
    refine iff_of_false (by decide) ?_
    rintro (h | h | ⟨⟨hshown,-⟩,-⟩ | ⟨-,hlocal⟩)
    · exact absurd (seven_le_of_value_lt_two (by omega) hsix) (by decide)
    · exact absurd (seven_le_of_value_lt_two (by omega) hsix) (by decide)
    · exact absurd (hshown 0 6 hsix) (by decide)
    · rw [first_eq_zero hsix] at hlocal
      exact not_readAsLocal_zero hlocal
  by_cases hfive : a.compressed = some (0,5) ∧ a.groups.getD 5 0 = 0xffff
  · have htext : a.lookupText = [':'].intercalate [[],[],"ffff".toList,a.low.text] := by
      rw [Ipv6Address.lookupText,if_neg hsix,if_pos hfive]
      simp [List.intercalate]
    have hmapped : LooksMapped a := by
      refine ⟨?_,hfive.2⟩
      intro base len hrun
      obtain ⟨rfl,rfl⟩ := Prod.mk.inj (Option.some.inj (hfive.1.symm.trans hrun))
      decide
    have hvalue : ¬a.value < 2 := fun h =>
      absurd (seven_le_of_value_lt_two h hfive.1) (by decide)
    rw [htext,isPrivateOrLocalIp_dotted,ReadAsPrivate]
    constructor
    · exact fun h => Or.inr (Or.inr (Or.inl ⟨hmapped,h⟩))
    · rintro (h | h | ⟨-,h⟩ | ⟨hnot,-⟩)
      · omega
      · omega
      · exact h
      · exact absurd hmapped hnot
  · rw [Ipv6Address.lookupText,if_neg hsix,if_neg hfive]
    exact isPrivateOrLocalIp_urlText a

end Classifier

section Comparison

variable {a : Ipv6Address}

/-- ::ffff:0:0/96. -/
def IsMapped (a : Ipv6Address) : Prop := InBlock 128 (0xffff*2^32) 96 a.value

/-- fe81 to febf are read as public, fc, fd and fc0 to fdf as private. -/
def MisreadGroup (g : UInt16) : Prop :=
  0xfe81 ≤ g.toNat ∧ g.toNat ≤ 0xfebf ∨ g.toNat = 0xfc ∨ g.toNat = 0xfd ∨
    0xfc0 ≤ g.toNat ∧ g.toNat ≤ 0xfdf

/-- The texts that the tests read right. -/
def ReadsRight (a : Ipv6Address) : Prop :=
  (LooksMapped a → ¬IsMapped a → (IsPrivateIpv4 a.low ↔ IsLocalIpv6 a)) ∧
    (¬LooksMapped a → ¬MisreadGroup (a.groups.getD 0 0))

theorem isMapped_iff : IsMapped a ↔
    ∃ g₆ g₇, a.groups = [0,0,0,0,0,0xffff,g₆,g₇] := by
  obtain ⟨g₀,g₁,g₂,g₃,g₄,g₅,g₆,g₇,hgroups⟩ := a.exists_groups
  have hvalue := Ipv6Address.value_eq hgroups
  have h₆ := g₆.toNat_lt
  have h₇ := g₇.toNat_lt
  have hhigh : a.value/2^(128-96) = g₀.toNat*2^80+g₁.toNat*2^64+g₂.toNat*2^48+g₃.toNat*2^32+
      g₄.toNat*2^16+g₅.toNat := by omega
  rw [IsMapped,InBlock,hhigh]
  constructor
  · intro h
    have hzero : ∀ g : UInt16, g.toNat = 0 → g = 0 := fun g hg => UInt16.toNat_inj.mp hg
    have h₅ := g₅.toNat_lt
    obtain rfl := hzero g₀ (by omega)
    obtain rfl := hzero g₁ (by omega)
    obtain rfl := hzero g₂ (by omega)
    obtain rfl := hzero g₃ (by omega)
    obtain rfl := hzero g₄ (by omega)
    obtain rfl : g₅ = 0xffff := UInt16.toNat_inj.mp (by simpa using h)
    exact ⟨g₆,g₇,hgroups⟩
  · rintro ⟨g₆',g₇',h⟩
    rw [hgroups] at h
    simp only [List.cons.injEq,and_true] at h
    obtain ⟨rfl,rfl,rfl,rfl,rfl,rfl,-,-⟩ := h
    rfl

theorem isLocalIpv6_iff : IsLocalIpv6 a ↔
    0xfc00 ≤ (a.groups.getD 0 0).toNat ∧ (a.groups.getD 0 0).toNat ≤ 0xfdff ∨
      0xfe80 ≤ (a.groups.getD 0 0).toNat ∧ (a.groups.getD 0 0).toNat ≤ 0xfebf := by
  obtain ⟨g₀,g₁,g₂,g₃,g₄,g₅,g₆,g₇,hgroups⟩ := a.exists_groups
  have hvalue := Ipv6Address.value_eq hgroups
  have h₀ := g₀.toNat_lt
  have h₁ := g₁.toNat_lt
  have h₂ := g₂.toNat_lt
  have h₃ := g₃.toNat_lt
  have h₄ := g₄.toNat_lt
  have h₅ := g₅.toNat_lt
  have h₆ := g₆.toNat_lt
  have h₇ := g₇.toNat_lt
  have hfirst : a.groups.getD 0 0 = g₀ := by
    rw [hgroups]
    rfl
  rw [IsLocalIpv6,InBlock,InBlock,hfirst]
  have hseven : a.value/2^(128-7) = g₀.toNat/2^9 := by omega
  have hten : a.value/2^(128-10) = g₀.toNat/2^6 := by omega
  rw [hseven,hten]
  omega

theorem exists_div_pow_iff {n m : ℕ} (hn : n < 0x10000) (hm : 16 ≤ m) :
    (∃ k, n/16^k = m) ↔ n = m ∨ n/16 = m ∨ n/256 = m := by
  constructor
  · rintro ⟨k,hk⟩
    match k with
    | 0 =>
      rw [pow_zero,Nat.div_one] at hk
      exact Or.inl hk
    | 1 => exact Or.inr (Or.inl hk)
    | 2 => exact Or.inr (Or.inr hk)
    | k+3 =>
      rw [Nat.add_comm,pow_add,← Nat.div_div_eq_div_mul] at hk
      have hle := Nat.div_le_self (n/16^3) (16^k)
      omega
  · rintro (h | h | h)
    · exact ⟨0,by rw [pow_zero,Nat.div_one,h]⟩
    · exact ⟨1,h⟩
    · exact ⟨2,h⟩

theorem readAsLocal_iff_isLocal : (ReadAsLocal (a.groups.getD 0 0) ↔ IsLocalIpv6 a) ↔
    ¬MisreadGroup (a.groups.getD 0 0) := by
  generalize hg : a.groups.getD 0 0 = g
  have hlt := g.toNat_lt
  have hfe80 : g = 0xfe80 ↔ g.toNat = 0xfe80 := UInt16.toNat_inj.symm
  rw [isLocalIpv6_iff,hg,ReadAsLocal,hfe80,exists_or,exists_div_pow_iff hlt (by decide),
    exists_div_pow_iff hlt (by decide),MisreadGroup]
  generalize g.toNat = n
  omega

/-- The tests read a text right exactly under the conditions above. -/
theorem readAsPrivate_iff : (ReadAsPrivate a ↔ IsPrivateIpv6 a) ↔ ReadsRight a := by
  have hsmall : a.value < 2 → a.groups.getD 0 0 = 0 ∧ ¬LooksMapped a := by
    intro h
    rw [LooksMapped,Ipv6Address.groups_of_value_lt_two h]
    exact ⟨rfl,fun hmapped => absurd (show (0 : UInt16) = 0xffff from hmapped.2) (by decide)⟩
  by_cases hlooks : LooksMapped a
  · have hvalue : ¬a.value < 2 := fun h => (hsmall h).2 hlooks
    have hread : ReadAsPrivate a ↔ IsPrivateIpv4 a.low := by
      rw [ReadAsPrivate,or_iff_right (by omega),or_iff_right (by omega)]
      simp [hlooks]
    rw [hread,IsPrivateIpv6,or_iff_right (by omega),or_iff_right (by omega)]
    by_cases hmapped : IsMapped a
    · obtain ⟨g₆,g₇,hgroups⟩ := isMapped_iff.mp hmapped
      have hlocal : ¬IsLocalIpv6 a := by
        rw [isLocalIpv6_iff,hgroups]
        simp
      have hright : ReadsRight a := ⟨fun _ h => absurd hmapped h,fun h => absurd hlooks h⟩
      refine iff_of_true ?_ hright
      rw [or_iff_right hlocal]
      exact ⟨fun h => ⟨hmapped,h⟩,And.right⟩
    · have hright : ReadsRight a ↔ (IsPrivateIpv4 a.low ↔ IsLocalIpv6 a) :=
        ⟨fun h => h.1 hlooks hmapped,fun h => ⟨fun _ _ => h,fun hnot => absurd hlooks hnot⟩⟩
      rw [hright]
      have hnot : ¬(InBlock 128 (0xffff*2^32) 96 a.value ∧ IsPrivateIpv4 a.low) :=
        fun h => hmapped h.1
      rw [or_iff_left hnot]
  · have hmapped : ¬IsMapped a := by
      intro h
      obtain ⟨g₆,g₇,hgroups⟩ := isMapped_iff.mp h
      refine hlooks ⟨?_,by rw [hgroups]; rfl⟩
      intro base len hrun
      obtain ⟨rfl,rfl⟩ :=
        Prod.mk.inj (Option.some.inj ((Ipv6Address.compressed_mapped hgroups).symm.trans hrun))
      decide
    have hright : ReadsRight a ↔ ¬MisreadGroup (a.groups.getD 0 0) :=
      ⟨fun h => h.2 hlooks,fun h => ⟨fun hyes => absurd hyes hlooks,fun _ => h⟩⟩
    rw [hright]
    by_cases hvalue : a.value < 2
    · have hread : ReadAsPrivate a := by
        rw [ReadAsPrivate]
        omega
      have hprivate : IsPrivateIpv6 a := by
        rw [IsPrivateIpv6]
        omega
      rw [(hsmall hvalue).1]
      exact iff_of_true (iff_of_true hread hprivate) (by unfold MisreadGroup; decide)
    · have hread : ReadAsPrivate a ↔ ReadAsLocal (a.groups.getD 0 0) := by
        rw [ReadAsPrivate,or_iff_right (by omega),or_iff_right (by omega)]
        simp [hlooks]
      have hnot : ¬(InBlock 128 (0xffff*2^32) 96 a.value ∧ IsPrivateIpv4 a.low) :=
        fun h => hmapped h.1
      rw [hread,IsPrivateIpv6,or_iff_right (by omega),or_iff_right (by omega),or_iff_left hnot]
      exact readAsLocal_iff_isLocal

end Comparison

namespace IpAddress

/-- The text without brackets. -/
def text : IpAddress → List Char
  | .v4 a => a.text
  | .v6 a => a.urlText

/-- Every IPv4 address, and the IPv6 addresses above. -/
def ReadsRight : IpAddress → Prop
  | .v4 _ => True
  | .v6 a => WebSyncPlay.ReadsRight a

end IpAddress

section Check

theorem isPrivateOrLocalIp_text (a : Ipv4Address) :
    isPrivateOrLocalIp a.text = true ↔ IsPrivateIpv4 a := by
  have hcolon := colon_not_mem_text a
  have hpieces : ∀ p ∈ [a.text], ':' ∉ p := by
    intro p hp
    rwa [List.mem_singleton.mp hp]
  have hsingle : [':'].intercalate [a.text] = a.text := List.intercalate_singleton
  have hdotted : searchAfter ':' mappedDotted a.text = none := by
    cases hsearch : searchAfter ':' mappedDotted a.text with
    | none => rfl
    | some parts =>
      rw [← hsingle] at hsearch
      have hsuffix := ((searchAfter_mappedDotted (List.cons_ne_nil _ _) hpieces).mp hsearch).1
      exact absurd hsuffix.length_le (by simp)
  have hhex : searchAfter ':' mappedHex a.text = none := by
    cases hsearch : searchAfter ':' mappedHex a.text with
    | none => rfl
    | some groups =>
      rw [← hsingle] at hsearch
      have hsuffix := ((searchAfter_mappedHex (List.cons_ne_nil _ _) hpieces).mp hsearch).1
      exact absurd hsuffix.length_le (by simp)
  have hlower : toLowerCase a.text = a.text := toLowerCase_eq fun c hc => mem_of_mem_text hc
  have hmapped : ipv4MappedToDotted a.text = none := by
    rw [ipv4MappedToDotted,hlower]
    simp only [hdotted,hhex,Option.map_none]
  rw [isPrivateOrLocalIp,hlower]
  split
  · rename_i hspecial
    rcases hspecial with h | h | h
    · rw [h] at hcolon
      exact absurd (by decide) hcolon
    · rw [h] at hcolon
      exact absurd (by decide) hcolon
    · rw [← isPrivateOrLocalIpv4_text,h]
      decide
  · rw [hmapped]
    exact isPrivateOrLocalIpv4_text a

theorem getLast_text (a : Ipv4Address) : ∃ c, a.text.getLast? = some c ∧ c ≠ '.' := by
  have hd : Nat.toDigits 10 a.d.toNat ≠ [] := Nat.toDigits_ne_nil
  refine ⟨(Nat.toDigits 10 a.d.toNat).getLast hd,?_,?_⟩
  · simp only [Ipv4Address.text,List.map_cons,List.map_nil,List.intercalate_cons_cons,
      List.intercalate_singleton,List.getLast?_append,List.getLast?_eq_some_getLast hd,
      Option.some_or]
  · have hrun := (isRun_byte a.d).2.2 _ (List.getLast_mem hd)
    intro hdot
    rw [hdot] at hrun
    cases hrun

theorem getLast_urlText (a : Ipv6Address) : ∃ c, a.urlText.getLast? = some c ∧ c ≠ '.' := by
  have hne : a.urlText ≠ [] := by
    intro hnil
    rw [← a.intercalate_pieces] at hnil
    rcases a.pieces_cases with ⟨len,-,hpieces⟩ | ⟨rest,hrest,hpieces⟩
    · rw [hpieces,intercalate_cons_of_ne_nil (List.cons_ne_nil _ _)] at hnil
      cases hnil
    · rw [hpieces,intercalate_cons_of_ne_nil hrest] at hnil
      exact absurd (List.append_eq_nil_iff.mp hnil).2 (List.cons_ne_nil _ _)
  exact ⟨_,List.getLast?_eq_some_getLast hne,(mem_of_mem_urlText (List.getLast_mem hne)).1⟩

theorem mem_of_mem_addressText {addr : IpAddress} {c : Char} (hc : c ∈ addr.text) :
    c ∈ addressChars := by
  cases addr with
  | v4 a => exact mem_of_mem_text hc
  | v6 a => exact (mem_of_mem_urlText hc).2

theorem normalizeHostname_hostText (addr : IpAddress) :
    normalizeHostname addr.hostText = addr.text := by
  have hplain : ∀ {s : List Char}, (∀ c ∈ s, c ∈ addressChars) →
      (∃ c, s.getLast? = some c ∧ c ≠ '.') →
        (toLowerCase s).rdropWhile (fun c => c = '.') = s := by
    rintro s hs ⟨c,hlast,hdot⟩
    rw [toLowerCase_eq hs,List.rdropWhile_eq_self_iff]
    intro hne
    rw [List.getLast?_eq_some_getLast hne] at hlast
    rw [Option.some.inj hlast]
    simpa using hdot
  cases addr with
  | v4 a =>
    have hchars : ∀ c ∈ a.text, c ∈ addressChars := fun c hc => mem_of_mem_text hc
    have hhead : ¬a.text.head? = some '[' := fun h =>
      absurd (hchars _ (List.mem_of_mem_head? h)) (by decide)
    have hlast : ¬a.text.getLast? = some ']' := fun h =>
      absurd (hchars _ (List.mem_of_mem_getLast? h)) (by decide)
    rw [normalizeHostname,IpAddress.hostText,if_neg hhead,if_neg hlast]
    exact hplain hchars (getLast_text a)
  | v6 a =>
    have hlast : (a.urlText ++ [']']).getLast? = some ']' := List.getLast?_concat
    have hhead : ('[' :: (a.urlText ++ [']'])).head? = some '[' := rfl
    rw [normalizeHostname,IpAddress.hostText,List.cons_append,if_pos hhead,List.tail_cons,
      if_pos hlast,List.dropLast_concat]
    exact hplain (fun c hc => (mem_of_mem_urlText hc).2) (getLast_urlText a)

theorem not_blocked {host : List Char} (h : ∀ c ∈ host, c ∈ addressChars) :
    host ∉ blockedHostnames ∧ ¬∃ suffix ∈ blockedHostnameSuffixes, suffix <:+ host := by
  constructor
  · intro hmem
    simp only [blockedHostnames,List.mem_cons,List.not_mem_nil,or_false] at hmem
    rcases hmem with rfl | rfl | rfl
    · exact absurd (h 'l' (by decide)) (by decide)
    · exact absurd (h 'm' (by decide)) (by decide)
    · exact absurd (h 'm' (by decide)) (by decide)
  · rintro ⟨suffix,hmem,hsuffix⟩
    simp only [blockedHostnameSuffixes,List.mem_cons,List.not_mem_nil,or_false] at hmem
    have hl : 'l' ∈ suffix := by
      rcases hmem with rfl | rfl
      · decide
      · decide
    exact absurd (h 'l' (hsuffix.mem hl)) (by decide)

variable {net : NetPlatform} {raw : String} {url : ParsedUrl}

theorem assertPublicHttpUrl_refuses (hparse : net.parseUrl raw = some url)
    (hprotocol : url.protocol = "http:" ∨ url.protocol = "https:") {addr : IpAddress}
    (hhost : url.hostname = addr.hostText) (hip : net.isIP addr.text ≠ 0) :
    (assertPublicHttpUrl net false raw).Refuses ↔ isPrivateOrLocalIp addr.text = true := by
  have hsupported : ¬(url.protocol ≠ "http:" ∧ url.protocol ≠ "https:") := by tauto
  obtain ⟨hname,hsuffix⟩ := not_blocked fun c (hc : c ∈ addr.text) => mem_of_mem_addressText hc
  rw [assertPublicHttpUrl,hparse]
  dsimp only
  rw [if_neg hsupported,if_neg Bool.false_ne_true,hhost,normalizeHostname_hostText,if_neg hname,
    if_neg hsuffix]
  split
  · rename_i h
    exact iff_of_true trivial h.2
  · rename_i h
    exact iff_of_false id fun hread => h ⟨hip,hread⟩

def IsPublicName (net : NetPlatform) (host : List Char) : Prop :=
  host ∉ blockedHostnames ∧ (¬∃ suffix ∈ blockedHostnameSuffixes, suffix <:+ host) ∧
    net.isIP host = 0

theorem assertPublicHttpUrlResolved_refuses (hparse : net.parseUrl raw = some url)
    (hprotocol : url.protocol = "http:" ∨ url.protocol = "https:")
    (hname : IsPublicName net (normalizeHostname url.hostname))
    {lookup : List Char → Option (List (List Char))} {addresses : List (List Char)}
    (hlookup : lookup (normalizeHostname url.hostname) = some addresses) (hne : addresses ≠ []) :
    (assertPublicHttpUrlResolved net false lookup raw).Refuses ↔
      ∃ address ∈ addresses, isPrivateOrLocalIp address = true := by
  have hsupported : ¬(url.protocol ≠ "http:" ∧ url.protocol ≠ "https:") := by tauto
  obtain ⟨hblocked,hsuffix,hip⟩ := hname
  have hsync : assertPublicHttpUrl net false raw = .ok url := by
    rw [assertPublicHttpUrl,hparse]
    dsimp only
    rw [if_neg hsupported,if_neg Bool.false_ne_true,if_neg hblocked,if_neg hsuffix,
      if_neg fun h => h.1 hip]
  rw [assertPublicHttpUrlResolved,hsync]
  dsimp only
  rw [if_neg Bool.false_ne_true,if_neg (not_not.mpr hip),hlookup]
  cases addresses with
  | nil => exact absurd rfl hne
  | cons address addresses =>
    dsimp only
    rw [← List.any_eq_true]
    split
    · rename_i h
      exact iff_of_true trivial h
    · rename_i h
      exact iff_of_false id h

theorem isPrivateOrLocalIp_addressText (addr : IpAddress) :
    (isPrivateOrLocalIp addr.text = true ↔ addr.IsPrivate) ↔ addr.ReadsRight := by
  cases addr with
  | v4 a => exact iff_of_true (isPrivateOrLocalIp_text a) trivial
  | v6 a => exact Iff.trans (by rw [IpAddress.text,isPrivateOrLocalIp_urlText]; rfl) readAsPrivate_iff

theorem isPrivateOrLocalIp_addressLookupText (addr : IpAddress) :
    (isPrivateOrLocalIp addr.lookupText = true ↔ addr.IsPrivate) ↔ addr.ReadsRight := by
  cases addr with
  | v4 a => exact iff_of_true (isPrivateOrLocalIp_text a) trivial
  | v6 a =>
    exact Iff.trans (by rw [IpAddress.lookupText,isPrivateOrLocalIp_lookupText]; rfl)
      readAsPrivate_iff

end Check

/-- As the host of a URL and as what a lookup answers, an address is told private or public rightly
exactly when its text is read right; with several answers one private address is enough. -/
theorem address_classes_iff {net : NetPlatform} {addr : IpAddress} {raw named : String}
    {url namedUrl : ParsedUrl} (hparse : net.parseUrl raw = some url)
    (hprotocol : url.protocol = "http:" ∨ url.protocol = "https:")
    (hhost : url.hostname = addr.hostText) (hip : net.isIP addr.text ≠ 0)
    (hnamed : net.parseUrl named = some namedUrl)
    (hnamedProtocol : namedUrl.protocol = "http:" ∨ namedUrl.protocol = "https:")
    (hname : IsPublicName net (normalizeHostname namedUrl.hostname)) :
    (((assertPublicHttpUrl net false raw).Refuses ↔ addr.IsPrivate) ↔ addr.ReadsRight) ∧
    (∀ lookup, lookup (normalizeHostname namedUrl.hostname) = some [addr.lookupText] →
      (((assertPublicHttpUrlResolved net false lookup named).Refuses ↔ addr.IsPrivate) ↔
        addr.ReadsRight)) ∧
    ∀ lookup addrs, addrs ≠ [] →
      lookup (normalizeHostname namedUrl.hostname) = some (addrs.map IpAddress.lookupText) →
        (∀ a ∈ addrs, a.ReadsRight) →
          ((assertPublicHttpUrlResolved net false lookup named).Refuses ↔
            ∃ a ∈ addrs, a.IsPrivate) := by
  refine ⟨?_,?_,?_⟩
  · rw [assertPublicHttpUrl_refuses hparse hprotocol hhost hip]
    exact isPrivateOrLocalIp_addressText addr
  · intro lookup hlookup
    rw [assertPublicHttpUrlResolved_refuses hnamed hnamedProtocol hname hlookup
      (List.cons_ne_nil _ _)]
    simpa using isPrivateOrLocalIp_addressLookupText addr
  · intro lookup addrs hne hlookup hright
    rw [assertPublicHttpUrlResolved_refuses hnamed hnamedProtocol hname hlookup (by simpa using hne)]
    constructor
    · rintro ⟨_,hmem,hread⟩
      obtain ⟨a,ha,rfl⟩ := List.mem_map.mp hmem
      exact ⟨a,ha,((isPrivateOrLocalIp_addressLookupText a).mpr (hright a ha)).mp hread⟩
    · rintro ⟨a,ha,hprivate⟩
      exact ⟨_,List.mem_map.mpr ⟨a,ha,rfl⟩,
        ((isPrivateOrLocalIp_addressLookupText a).mpr (hright a ha)).mpr hprivate⟩

section Examples

def sampleNet : NetPlatform where
  parseUrl raw :=
    if raw = "http://[fe80::1]/" then some ⟨"http:","[fe80::1]".toList⟩
    else if raw = "http://[fe81::1]/" then some ⟨"http:","[fe81::1]".toList⟩
    else if raw = "http://media.example/" then some ⟨"http:","media.example".toList⟩
    else none
  isIP host := if host = "fe80::1".toList ∨ host = "fe81::1".toList then 6 else 0

/-- fe80::1 is refused, as a host and as an answer. -/
theorem address_classes_link_local :
    let addr : IpAddress := .v6 ⟨[0xfe80,0,0,0,0,0,0,1],rfl⟩
    ((assertPublicHttpUrl sampleNet false "http://[fe80::1]/").Refuses ↔ addr.IsPrivate) ∧
      ((assertPublicHttpUrlResolved sampleNet false (fun _ => some ["fe80::1".toList])
        "http://media.example/").Refuses ↔ addr.IsPrivate) := by
  intro addr
  have hright : addr.ReadsRight := by
    refine ⟨fun h => absurd h.2 (by decide),fun _ => ?_⟩
    unfold MisreadGroup
    decide
  have hclasses := @address_classes_iff sampleNet addr "http://[fe80::1]/" "http://media.example/"
    ⟨"http:","[fe80::1]".toList⟩ ⟨"http:","media.example".toList⟩ (by decide) (by decide)
    (by decide) (by decide) (by decide) (by decide) ⟨by decide,by decide,by decide⟩
  exact ⟨hclasses.1.mpr hright,(hclasses.2.1 (fun _ => some ["fe80::1".toList]) (by decide)).mpr
    hright⟩

/-- fe81::1 is in fe80::/10 and let through. -/
theorem link_local_let_through : ¬∀ (net : NetPlatform) (addr : IpAddress) (raw : String)
    (url : ParsedUrl), net.parseUrl raw = some url → url.protocol = "http:" →
      url.hostname = addr.hostText → net.isIP addr.text ≠ 0 →
        ((assertPublicHttpUrl net false raw).Refuses ↔ addr.IsPrivate) := by
  intro h
  let addr : IpAddress := .v6 ⟨[0xfe81,0,0,0,0,0,0,1],rfl⟩
  let url : ParsedUrl := ⟨"http:","[fe81::1]".toList⟩
  have hparse : sampleNet.parseUrl "http://[fe81::1]/" = some url := by decide
  have hhost : url.hostname = addr.hostText := by decide
  have hclass := h sampleNet addr "http://[fe81::1]/" url hparse rfl hhost (by decide)
  have hprivate : addr.IsPrivate := Or.inr (Or.inr (Or.inl (Or.inr (by decide))))
  have hrefused := hclass.mpr hprivate
  rw [assertPublicHttpUrl_refuses hparse (Or.inl rfl) hhost (by decide)] at hrefused
  exact absurd hrefused (by decide)

end Examples

end WebSyncPlay
