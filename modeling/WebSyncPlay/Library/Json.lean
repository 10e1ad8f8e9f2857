import Mathlib.Data.List.Basic

/-! The JSON grammar over lists of characters. -/
namespace Library.Json

def IsWs (c : Char) : Prop := c = ' ' ∨ c = '\t' ∨ c = '\n' ∨ c = '\r'

def IsDigits (cs : List Char) : Prop := cs ≠ [] ∧ ∀ c ∈ cs, c.isDigit = true

/-- No leading zeros. -/
inductive Int : List Char → Prop
  | zero : Int ['0']
  | digits {c : Char} {cs : List Char} : c.isDigit = true → c ≠ '0' →
      (∀ d ∈ cs, d.isDigit = true) → Int (c :: cs)

inductive Frac : List Char → Prop
  | none : Frac []
  | some {cs : List Char} : IsDigits cs → Frac ('.' :: cs)

inductive Exp : List Char → Prop
  | none : Exp []
  | some {e : Char} {sign cs : List Char} : e = 'e' ∨ e = 'E' →
      sign = [] ∨ sign = ['+'] ∨ sign = ['-'] → IsDigits cs → Exp (e :: sign ++ cs)

def IsHex (c : Char) : Prop :=
  c.isDigit = true ∨ ('a' ≤ c ∧ c ≤ 'f') ∨ ('A' ≤ c ∧ c ≤ 'F')

inductive Chars : List Char → Prop
  | nil : Chars []
  | plain {c : Char} {cs : List Char} : 0x20 ≤ c.toNat → c ≠ '\x22' → c ≠ '\\' → Chars cs →
      Chars (c :: cs)
  | escape {c : Char} {cs : List Char} : c ∈ ['\x22','\\','/','b','f','n','r','t'] → Chars cs →
      Chars ('\\' :: c :: cs)
  | unicode {hex cs : List Char} : hex.length = 4 → (∀ c ∈ hex, IsHex c) → Chars cs →
      Chars ('\\' :: 'u' :: hex ++ cs)

mutual

inductive Value : List Char → Prop
  | literal {cs : List Char} : cs ∈ ["null".toList,"true".toList,"false".toList] → Value cs
  | number {int frac exp : List Char} : Int int → Frac frac → Exp exp →
      Value (int ++ frac ++ exp)
  | negative {int frac exp : List Char} : Int int → Frac frac → Exp exp →
      Value ('-' :: (int ++ frac ++ exp))
  | string {cs : List Char} : Chars cs → Value ('\x22' :: cs ++ ['\x22'])
  | emptyArray {ws : List Char} : (∀ c ∈ ws, IsWs c) → Value ('[' :: ws ++ [']'])
  | array {cs : List Char} : Elements cs → Value ('[' :: cs ++ [']'])
  | emptyObject {ws : List Char} : (∀ c ∈ ws, IsWs c) → Value ('\x7b' :: ws ++ ['\x7d'])
  | object {cs : List Char} : Members cs → Value ('\x7b' :: cs ++ ['\x7d'])

inductive Element : List Char → Prop
  | mk {before cs after : List Char} : (∀ c ∈ before, IsWs c) → Value cs → (∀ c ∈ after, IsWs c) →
      Element (before ++ cs ++ after)

inductive Elements : List Char → Prop
  | one {cs : List Char} : Element cs → Elements cs
  | more {cs ds : List Char} : Element cs → Elements ds → Elements (cs ++ ',' :: ds)

inductive Member : List Char → Prop
  | mk {before key after cs : List Char} : (∀ c ∈ before, IsWs c) → Chars key →
      (∀ c ∈ after, IsWs c) → Element cs →
        Member (before ++ '\x22' :: key ++ '\x22' :: after ++ ':' :: cs)

inductive Members : List Char → Prop
  | one {cs : List Char} : Member cs → Members cs
  | more {cs ds : List Char} : Member cs → Members ds → Members (cs ++ ',' :: ds)

end

def Text : List Char → Prop := Element

theorem Value.head {cs : List Char} (h : Value cs) :
    ∃ c rest, cs = c :: rest ∧ 0x20 < c.toNat := by
  have hdigit : ∀ {int : List Char}, Int int → ∃ c rest, int = c :: rest ∧ 0x20 < c.toNat := by
    intro int hint
    cases hint with
    | zero => exact ⟨_,_,rfl,by decide⟩
    | @digits c rest hc =>
      refine ⟨c,rest,rfl,?_⟩
      have hlow : '0'.toNat ≤ c.toNat := (Char.isDigit_iff_toNat.mp hc).1
      exact Nat.lt_of_lt_of_le (by decide) hlow
  cases h with
  | literal hmem =>
    simp only [List.mem_cons,List.not_mem_nil,or_false] at hmem
    rcases hmem with rfl | rfl | rfl
    · exact ⟨_,_,rfl,by decide⟩
    · exact ⟨_,_,rfl,by decide⟩
    · exact ⟨_,_,rfl,by decide⟩
  | number hint _ _ =>
    obtain ⟨c,rest,rfl,hc⟩ := hdigit hint
    exact ⟨c,_,rfl,hc⟩
  | negative _ _ _ => exact ⟨_,_,rfl,by decide⟩
  | string _ => exact ⟨_,_,rfl,by decide⟩
  | emptyArray _ => exact ⟨_,_,rfl,by decide⟩
  | array _ => exact ⟨_,_,rfl,by decide⟩
  | emptyObject _ => exact ⟨_,_,rfl,by decide⟩
  | object _ => exact ⟨_,_,rfl,by decide⟩

theorem Text.head {cs : List Char} (h : Text cs) :
    ∃ c rest, cs = c :: rest ∧ (IsWs c ∨ 0x20 < c.toNat) := by
  cases h with
  | @mk before cs after hbefore hvalue _ =>
    cases before with
    | nil =>
      obtain ⟨c,rest,rfl,hc⟩ := hvalue.head
      exact ⟨c,_,rfl,Or.inr hc⟩
    | cons c before => exact ⟨c,_,rfl,Or.inl (hbefore c List.mem_cons_self)⟩

end Library.Json
