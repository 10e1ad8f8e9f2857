import Mathlib

/-! Percent-encoding and `application/x-www-form-urlencoded` on bytes: what encoding writes, the
parser reads back. -/
namespace Library
namespace UrlEncoded

def percent : UInt8 := 0x25

def plus : UInt8 := 0x2B

def ampersand : UInt8 := 0x26

def equals : UInt8 := 0x3D

def hexDigit (n : ℕ) : UInt8 := UInt8.ofNat (if n < 10 then 0x30+n else 0x37+n)

/-- The value of a hexadecimal digit in either case. -/
def hexValue (b : UInt8) : Option ℕ :=
  let n := b.toNat
  if 0x30 ≤ n ∧ n ≤ 0x39 then some (n-0x30)
  else if 0x41 ≤ n ∧ n ≤ 0x46 then some (n-0x37)
  else if 0x61 ≤ n ∧ n ≤ 0x66 then some (n-0x57)
  else none

def encodeByte (b : UInt8) : List UInt8 :=
  [percent,hexDigit (b.toNat/16),hexDigit (b.toNat % 16)]

/-- Escape the bytes that are not to be kept as they are. -/
def encode (keep : UInt8 → Bool) (bytes : List UInt8) : List UInt8 :=
  bytes.flatMap fun b => if keep b then [b] else encodeByte b

/-- A percent sign that two hexadecimal digits do not follow stands for itself. -/
def decode : List UInt8 → List UInt8
  | b :: high :: low :: rest =>
    match b == percent,hexValue high,hexValue low with
    | true,some h,some l => UInt8.ofNat (h*16+l) :: decode rest
    | _,_,_ => b :: decode (high :: low :: rest)
  | bytes => bytes

def formText (bytes : List UInt8) : List UInt8 :=
  decode (bytes.map fun b => if b = plus then 0x20 else b)

def formPair (part : List UInt8) : List UInt8 × List UInt8 :=
  (formText (part.takeWhile (· ≠ equals)),formText ((part.dropWhile (· ≠ equals)).drop 1))

def formPairs (bytes : List UInt8) : List (List UInt8 × List UInt8) :=
  ((bytes.splitOn ampersand).filter (· ≠ [])).map formPair

def encodePair (keep : UInt8 → Bool) (field : List UInt8 × List UInt8) : List UInt8 :=
  encode keep field.1 ++ equals :: encode keep field.2

section RoundTrip

variable {keep : UInt8 → Bool} {b c : UInt8} {bytes : List UInt8}

theorem hexValue_hexDigit {n : ℕ} (h : n < 16) : hexValue (hexDigit n) = some n := by
  interval_cases n <;> rfl

/-- Digits are none of the characters that mean something to the parser. -/
theorem hexDigit_ne {n : ℕ} (h : n < 16) :
    hexDigit n ≠ plus ∧ hexDigit n ≠ ampersand ∧ hexDigit n ≠ equals := by
  interval_cases n <;> decide

theorem halves_lt (b : UInt8) : b.toNat/16 < 16 ∧ b.toNat % 16 < 16 := by
  have hb := b.toNat_lt
  omega

theorem decode_encodeByte (b : UInt8) (rest : List UInt8) :
    decode (encodeByte b ++ rest) = b :: decode rest := by
  obtain ⟨hhigh,hlow⟩ := halves_lt b
  have hbyte : UInt8.ofNat (b.toNat/16*16+b.toNat % 16) = b := by
    rw [Nat.div_add_mod']
    exact UInt8.ofNat_toNat
  simp [encodeByte,decode,hexValue_hexDigit hhigh,hexValue_hexDigit hlow,hbyte]

theorem decode_cons (h : b ≠ percent) (rest : List UInt8) : decode (b :: rest) = b :: decode rest := by
  match rest with
  | [] => simp [decode]
  | [_] => simp [decode]
  | _ :: _ :: _ => simp [decode,h]

theorem decode_encode (hkeep : keep percent = false) (bytes rest : List UInt8) :
    decode (encode keep bytes ++ rest) = bytes ++ decode rest := by
  induction bytes with
  | nil => rfl
  | cons b bytes ih =>
    show decode ((if keep b then [b] else encodeByte b) ++ encode keep bytes ++ rest) = _
    rw [List.append_assoc]
    by_cases hb : keep b = true
    · have hne : b ≠ percent := by
        intro heq
        rw [heq,hkeep] at hb
        cases hb
      simp [hb,decode_cons hne,ih]
    · simp [hb,decode_encodeByte,ih]

theorem not_mem_encode (hkeep : keep c = false) (hpercent : c ≠ percent)
    (hdigit : ∀ n < 16, hexDigit n ≠ c) : c ∉ encode keep bytes := by
  induction bytes with
  | nil => simp [encode]
  | cons b bytes ih =>
    show c ∉ (if keep b then [b] else encodeByte b) ++ encode keep bytes
    obtain ⟨hhigh,hlow⟩ := halves_lt b
    by_cases hb : keep b = true
    · have hne : c ≠ b := by
        intro heq
        rw [heq,hb] at hkeep
        cases hkeep
      simp [hb,hne,ih]
    · simp [hb,encodeByte,hpercent,(hdigit _ hhigh).symm,(hdigit _ hlow).symm,ih]

/-- Whether bytes may stand as they are in a form. -/
structure FormSafe (keep : UInt8 → Bool) : Prop where
  percent : keep percent = false
  plus : keep plus = false
  ampersand : keep ampersand = false
  equals : keep equals = false

theorem formText_encode (h : FormSafe keep) (bytes : List UInt8) :
    formText (encode keep bytes) = bytes := by
  have hnot : plus ∉ encode keep bytes :=
    not_mem_encode h.plus (by decide) fun n hn => (hexDigit_ne hn).1
  have hsame : (encode keep bytes).map (fun b => if b = plus then 0x20 else b) =
      encode keep bytes := by
    conv_rhs => rw [← List.map_id (encode keep bytes)]
    apply List.map_congr_left
    intro b hb
    have hne : b ≠ plus := fun hplus => hnot (hplus ▸ hb)
    simp [hne]
  have hdecode := decode_encode h.percent bytes []
  rw [List.append_nil] at hdecode
  rw [formText,hsame,hdecode]
  simp [decode]

theorem formPair_encodePair (h : FormSafe keep) (field : List UInt8 × List UInt8) :
    formPair (encodePair keep field) = field := by
  have hnot : equals ∉ encode keep field.1 :=
    not_mem_encode h.equals (by decide) fun n hn => (hexDigit_ne hn).2.2
  have hkept : ∀ b ∈ encode keep field.1, decide (b ≠ equals) = true := by
    intro b hb
    have hne : b ≠ equals := fun heq => hnot (heq ▸ hb)
    simp [hne]
  have hname : (encodePair keep field).takeWhile (· ≠ equals) = encode keep field.1 := by
    rw [encodePair,List.takeWhile_append_of_pos hkept]
    simp
  have hvalue : (encodePair keep field).dropWhile (· ≠ equals) =
      equals :: encode keep field.2 := by
    rw [encodePair,List.dropWhile_append_of_pos hkept]
    simp
  rw [formPair,hname,hvalue,List.drop_one,List.tail_cons,formText_encode h,formText_encode h]

theorem formPairs_encode (h : FormSafe keep) (fields : List (List UInt8 × List UInt8)) :
    formPairs ([ampersand].intercalate (fields.map (encodePair keep))) = fields := by
  by_cases hfields : fields = []
  · subst hfields
    simp [formPairs]
  · have hnot : ∀ part ∈ fields.map (encodePair keep), ampersand ∉ part := by
      intro part hpart
      obtain ⟨field,-,rfl⟩ := List.mem_map.mp hpart
      have hside : ∀ bytes, ampersand ∉ encode keep bytes := fun bytes =>
        not_mem_encode h.ampersand (by decide) fun n hn => (hexDigit_ne hn).2.1
      have hne : ampersand ≠ equals := by decide
      simp [encodePair,hside,hne]
    have hne : ∀ part ∈ fields.map (encodePair keep), decide (part ≠ []) = true := by
      intro part hpart
      obtain ⟨field,-,rfl⟩ := List.mem_map.mp hpart
      simp [encodePair]
    rw [formPairs,List.splitOn_intercalate ampersand hnot (by simpa using hfields),
      List.filter_eq_self.mpr hne,List.map_map]
    conv_rhs => rw [← List.map_id fields]
    apply List.map_congr_left
    intro field _
    exact formPair_encodePair h field

end RoundTrip

end UrlEncoded
end Library
