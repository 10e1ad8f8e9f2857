import Mathlib

/-! Bytes as text in base 64, with padding, and the lenient way back: what is no digit is passed
over, and the text ends at the padding. -/
namespace Library
namespace Base64

def digits : List Char :=
  "ABCDEFGHIJKLMNOPQRSTUVWXYZabcdefghijklmnopqrstuvwxyz0123456789+/".toList

def digit (n : ℕ) : Char := digits.getD n 'A'

def value (c : Char) : Option ℕ :=
  if c = '-' then some 62
  else if c = '_' then some 63
  else digits.idxOf? c

def encode : List UInt8 → List Char
  | [] => []
  | [a] => [digit (a.toNat/4),digit (a.toNat%4*16),'=','=']
  | [a,b] => [digit (a.toNat/4),digit (a.toNat%4*16+b.toNat/16),digit (b.toNat%16*4),'=']
  | a :: b :: c :: rest =>
    digit (a.toNat/4) :: digit (a.toNat%4*16+b.toNat/16) :: digit (b.toNat%16*4+c.toNat/64) ::
      digit (c.toNat%64) :: encode rest

def join : List ℕ → List UInt8
  | w :: x :: y :: z :: rest =>
    UInt8.ofNat (w*4+x/16) :: UInt8.ofNat (x%16*16+y/4) :: UInt8.ofNat (y%4*64+z) :: join rest
  | [w,x,y] => [UInt8.ofNat (w*4+x/16),UInt8.ofNat (x%16*16+y/4)]
  | [w,x] => [UInt8.ofNat (w*4+x/16)]
  | _ => []

def decode (text : List Char) : List UInt8 :=
  join ((text.takeWhile (· ≠ '=')).filterMap value)

theorem value_digit {n : ℕ} (h : n < 64) : value (digit n) = some n ∧ digit n ≠ '=' := by
  have hall : ∀ n : Fin 64, value (digit n.1) = some n.1 ∧ digit n.1 ≠ '=' := by decide +kernel
  exact hall ⟨n,h⟩

theorem ofNat_toNat {b : UInt8} {n : ℕ} (h : n = b.toNat) : UInt8.ofNat n = b := by
  rw [h]
  exact UInt8.ofNat_toNat

theorem values_digit {n : ℕ} (h : n < 64) (rest : List Char) :
    ((digit n :: rest).takeWhile (· ≠ '=')).filterMap value =
      n :: ((rest.takeWhile (· ≠ '=')).filterMap value) := by
  obtain ⟨hvalue,hpad⟩ := value_digit h
  rw [List.takeWhile_cons_of_pos (by simpa using hpad),List.filterMap_cons_some hvalue]

theorem values_pad (rest : List Char) :
    (('=' :: rest).takeWhile (· ≠ '=')).filterMap value = [] := by
  simp

theorem decode_encode (bytes : List UInt8) : decode (encode bytes) = bytes := by
  unfold decode
  induction bytes using encode.induct with
  | case1 => rfl
  | case2 a =>
    have ha := a.toNat_lt
    rw [encode,values_digit (by omega),values_digit (by omega),values_pad,join,
      ofNat_toNat (b := a) (by omega)]
  | case3 a b =>
    have ha := a.toNat_lt
    have hb := b.toNat_lt
    rw [encode,values_digit (by omega),values_digit (by omega),values_digit (by omega),values_pad,
      join,ofNat_toNat (b := a) (by omega),ofNat_toNat (b := b) (by omega)]
  | case4 a b c rest ih =>
    have ha := a.toNat_lt
    have hb := b.toNat_lt
    have hc := c.toNat_lt
    rw [encode,values_digit (by omega),values_digit (by omega),values_digit (by omega),
      values_digit (by omega),join,ih,ofNat_toNat (b := a) (by omega),
      ofNat_toNat (b := b) (by omega),ofNat_toNat (b := c) (by omega)]

end Base64
end Library
