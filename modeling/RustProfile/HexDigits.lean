import RustProfile.JitSymbols

/-!
# Numbers in hexadecimal digits

Every way to write a number in hexadecimal digits, of either case and with
leading zeros, is read as that number.
-/

namespace RustProfile

structure HexDigit where
  value : Fin 16
  upper : Bool
  deriving DecidableEq, Repr

namespace HexDigit

def char (digit : HexDigit) : Char :=
  if digit.value < 10 then Char.ofNat (48 + digit.value)
  else Char.ofNat ((if digit.upper then 65 else 97) + (digit.value - 10))

def byte (digit : HexDigit) : UInt8 := UInt8.ofNat digit.char.toNat

theorem hexDigit_char (digit : HexDigit) : hexDigit digit.char = some digit.value.val := by
  obtain ⟨value, upper⟩ := digit
  revert value upper
  decide

theorem char_plain (digit : HexDigit) : digit.char ≠ '+' ∧ digit.char ≠ ';' ∧ digit.char ≠ '-' ∧
    isWhitespace digit.char = false := by
  obtain ⟨value, upper⟩ := digit
  revert value upper
  decide

theorem byte_ne_cr (digit : HexDigit) : digit.byte ≠ 13 := by
  obtain ⟨value, upper⟩ := digit
  revert value upper
  decide

theorem utf8EncodeChar_char (digit : HexDigit) : String.utf8EncodeChar digit.char = [digit.byte] := by
  obtain ⟨value, upper⟩ := digit
  revert value upper
  decide

end HexDigit

def hexValue (value : ℕ) (digits : List HexDigit) : ℕ := digits.foldl (fun n digit => n * 16 + digit.value) value

theorem le_hexValue : ∀ (digits : List HexDigit) (value : ℕ), value ≤ hexValue value digits
  | [], value => le_refl value
  | digit :: digits, value => by
    have hle := le_hexValue digits (value * 16 + digit.value)
    change value ≤ hexValue (value * 16 + digit.value) digits
    omega

theorem hexDigits_chars : ∀ {digits : List HexDigit} {value : ℕ}, hexValue value digits < 2 ^ 64 →
    hexDigits (digits.map HexDigit.char) value = some (hexValue value digits)
  | [], value, _ => rfl
  | digit :: digits, value, h => by
    have hle := le_hexValue digits (value * 16 + digit.value)
    change hexValue (value * 16 + digit.value) digits < 2 ^ 64 at h
    rw [List.map_cons, hexDigits, digit.hexDigit_char]
    change (if value * 16 + digit.value < 2 ^ 64 then _ else none) = _
    rw [if_pos (Nat.lt_of_le_of_lt hle h)]
    exact hexDigits_chars h

theorem fromHex_chars {digits : List HexDigit} (hne : digits ≠ []) (h : hexValue 0 digits < 2 ^ 64) :
    fromHex (digits.map HexDigit.char) = some (UInt64.ofNat (hexValue 0 digits)) := by
  have hplus : (digits.map HexDigit.char).head? ≠ some '+' := by
    cases digits with
    | nil => exact absurd rfl hne
    | cons digit digits =>
      intro hhead
      exact digit.char_plain.1 (Option.some.inj hhead)
  have hmap : digits.map HexDigit.char ≠ [] := fun hnil => hne (List.map_eq_nil_iff.mp hnil)
  unfold fromHex
  rw [if_neg hplus]
  dsimp only
  rw [if_neg hmap, hexDigits_chars h]
  rfl

structure HexNumber where
  digits : List HexDigit
  digits_ne : digits ≠ []
  fits : hexValue 0 digits < 2 ^ 64

namespace HexNumber

variable (number : HexNumber)

def text : List Char := number.digits.map HexDigit.char

def value : UInt64 := UInt64.ofNat (hexValue 0 number.digits)

theorem fromHex_text : fromHex number.text = some number.value := fromHex_chars number.digits_ne number.fits

theorem text_ne : number.text ≠ [] := fun h => number.digits_ne (List.map_eq_nil_iff.mp h)

theorem text_plain : ∀ c ∈ number.text, c ≠ '-' ∧ isWhitespace c = false := by
  intro c hc
  obtain ⟨digit, -, rfl⟩ := List.mem_map.mp hc
  exact ⟨digit.char_plain.2.2.1, digit.char_plain.2.2.2⟩

end HexNumber

end RustProfile
