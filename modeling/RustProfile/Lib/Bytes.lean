import Mathlib.Data.Nat.ModEq
import Mathlib.Data.List.TakeDrop

/-!
# Little-endian fields

Numbers in a byte string, least significant byte first. A field is read at an
offset, or taken off the front, if the bytes reach that far.
-/

namespace Bytes

/-- The `width` low bytes of `n`. -/
def ofNat : ℕ → ℕ → List UInt8
  | 0, _ => []
  | width + 1, n => UInt8.ofNat (n % 256) :: ofNat width (n / 256)

def toNat : List UInt8 → ℕ
  | [] => 0
  | b :: bytes => b.toNat + 256 * toNat bytes

@[simp] theorem length_ofNat : ∀ width n : ℕ, (ofNat width n).length = width
  | 0, _ => rfl
  | width + 1, n => by rw [ofNat, List.length_cons, length_ofNat width]

theorem toNat_ofNat : ∀ {width n : ℕ}, n < 256 ^ width → toNat (ofNat width n) = n
  | 0, n, h => by
    rw [pow_zero] at h
    rw [Nat.lt_one_iff.mp h]
    rfl
  | width + 1, n, h => by
    have hn : n / 256 < 256 ^ width := Nat.div_lt_of_lt_mul (by rwa [pow_succ, Nat.mul_comm] at h)
    have hb : (UInt8.ofNat (n % 256)).toNat = n % 256 := by
      rw [UInt8.toNat_ofNat']
      omega
    rw [ofNat, toNat, toNat_ofNat hn, hb]
    exact Nat.mod_add_div n 256

def take? (n : ℕ) (bytes : List UInt8) : Option (List UInt8 × List UInt8) :=
  if n ≤ bytes.length then some (bytes.take n, bytes.drop n) else none

def readAt (width offset : ℕ) (bytes : List UInt8) : Option ℕ :=
  (take? width (bytes.drop offset)).map fun taken => toNat taken.1

theorem take?_append {a : List UInt8} {n : ℕ} (h : a.length = n) (rest : List UInt8) :
    take? n (a ++ rest) = some (a, rest) := by
  unfold take?
  rw [if_pos (by rw [List.length_append]; omega), ← h, List.take_left, List.drop_left]

theorem readAt_field {before : List UInt8} {offset width n : ℕ} (hb : before.length = offset) (hn : n < 256 ^ width)
    (rest : List UInt8) : readAt width offset (before ++ (ofNat width n ++ rest)) = some n := by
  unfold readAt
  rw [← hb, List.drop_left, take?_append (length_ofNat width n), Option.map_some, toNat_ofNat hn]

def fields (l : List (ℕ × ℕ)) : List UInt8 := l.flatMap fun field => ofNat field.1 field.2

theorem length_fields (l : List (ℕ × ℕ)) : (fields l).length = (l.map Prod.fst).sum := by
  unfold fields
  rw [List.length_flatMap]
  simp only [length_ofNat]

/-- Each field is read back at the sum of the widths before it. -/
theorem readAt_fields {l : List (ℕ × ℕ)} {i offset width n : ℕ} (hi : l[i]? = some (width, n))
    (ho : ((l.take i).map Prod.fst).sum = offset) (hn : n < 256 ^ width) (rest : List UInt8) :
    readAt width offset (fields l ++ rest) = some n := by
  have hsplit : l = l.take i ++ (width, n) :: l.drop (i + 1) := by
    obtain ⟨hlt, hget⟩ := List.getElem?_eq_some_iff.mp hi
    rw [← hget, List.getElem_cons_drop, List.take_append_drop]
  have hbytes : fields l ++ rest =
      fields (l.take i) ++ (ofNat width n ++ (fields (l.drop (i + 1)) ++ rest)) := by
    conv_lhs => rw [hsplit]
    unfold fields
    rw [List.flatMap_append, List.flatMap_cons, List.append_assoc, List.append_assoc]
  rw [hbytes]
  exact readAt_field ((length_fields _).trans ho) hn _

end Bytes
