import PostfixSheet.Text.Utf8
import Mathlib.Tactic.SplitIfs

/-!
# UTF-8 reads back

The bounds on a second byte are those that the first byte of a written character leaves, so the
reader takes every written character whole.
-/

namespace PostfixSheet.Text

variable {position : Nat} {done : Text} {rest : List UInt8}

theorem to_nat_byte {n : Nat} (small : n < 256) : (UInt8.ofNat n).toNat = n := by
  rw [UInt8.toNat_ofNat']
  exact Nat.mod_eq_of_lt small

/-- One more byte of a character that is not whole yet. -/
theorem of_bytes_further {u : PartialChar} {n more : Nat} (left : u.more = more + 1)
    (small : n < 256) (inside : u.low ≤ n ∧ n ≤ u.high) :
    ofBytesFrom position (some u) done (UInt8.ofNat n :: rest) =
      ofBytesFrom (position + 1)
        (some ⟨u.first, u.seen + 1, 64 * u.value + (n - 0x80), 0x80, 0xbf, more⟩) done rest := by
  rw [ofBytesFrom, to_nat_byte small, if_pos inside]
  simp only [left]

/-- The last byte of a character. -/
theorem of_bytes_last {u : PartialChar} {n : Nat} (left : u.more = 0) (small : n < 256)
    (inside : u.low ≤ n ∧ n ≤ u.high) :
    ofBytesFrom position (some u) done (UInt8.ofNat n :: rest) =
      ofBytesFrom (position + 1) none (Char.ofNat (64 * u.value + (n - 0x80)) :: done) rest := by
  rw [ofBytesFrom, to_nat_byte small, if_pos inside]
  simp only [left]

theorem of_bytes_start {b : UInt8} {u : PartialChar} (starts : leadByte b = some (.inr u)) :
    ofBytesFrom position none done (b :: rest) =
      ofBytesFrom (position + 1) (some u) done rest := by
  rw [ofBytesFrom, starts]

theorem lead_of_two {k : Nat} (least : 2 ≤ k) (most : k < 32) :
    leadByte (UInt8.ofNat (k + 192)) = some (.inr ⟨UInt8.ofNat (k + 192), 1, k, 0x80, 0xbf, 0⟩) := by
  have notOne : ¬k + 192 < 0x80 := by omega
  have notFurther : ¬k + 192 < 0xc2 := by omega
  have two : k + 192 < 0xe0 := by omega
  rw [leadByte, to_nat_byte (by omega)]
  simp only [if_neg notOne, if_neg notFurther, if_pos two, Nat.add_sub_cancel]

theorem lead_of_three {k : Nat} (most : k < 16) :
    leadByte (UInt8.ofNat (k + 224)) = some (.inr ⟨UInt8.ofNat (k + 224), 1, k,
      if k + 224 = 0xe0 then 0xa0 else 0x80, if k + 224 = 0xed then 0x9f else 0xbf, 1⟩) := by
  have notOne : ¬k + 224 < 0x80 := by omega
  have notFurther : ¬k + 224 < 0xc2 := by omega
  have notTwo : ¬k + 224 < 0xe0 := by omega
  have three : k + 224 < 0xf0 := by omega
  rw [leadByte, to_nat_byte (by omega)]
  simp only [if_neg notOne, if_neg notFurther, if_neg notTwo, if_pos three, Nat.add_sub_cancel]

theorem lead_of_four {k : Nat} (most : k < 5) :
    leadByte (UInt8.ofNat (k + 240)) = some (.inr ⟨UInt8.ofNat (k + 240), 1, k,
      if k + 240 = 0xf0 then 0x90 else 0x80, if k + 240 = 0xf4 then 0x8f else 0xbf, 2⟩) := by
  have notOne : ¬k + 240 < 0x80 := by omega
  have notFurther : ¬k + 240 < 0xc2 := by omega
  have notTwo : ¬k + 240 < 0xe0 := by omega
  have notThree : ¬k + 240 < 0xf0 := by omega
  have four : k + 240 < 0xf5 := by omega
  rw [leadByte, to_nat_byte (by omega)]
  simp only [if_neg notOne, if_neg notFurther, if_neg notTwo, if_neg notThree, if_pos four,
    Nat.add_sub_cancel]

/-- A written character is read, and the reader goes on behind it. -/
theorem of_bytes_char (c : Char) (position : Nat) (done : Text) (rest : List UInt8) :
    ∃ next, ofBytesFrom position none done (String.utf8EncodeChar c ++ rest) =
      ofBytesFrom next none (c :: done) rest := by
  have valid : c.toNat < 0xd800 ∨ 0xdfff < c.toNat ∧ c.toNat < 0x110000 := c.valid
  have same : Char.ofNat c.toNat = c := Char.ofNat_toNat c
  have number : c.val.toNat = c.toNat := rfl
  rw [String.utf8EncodeChar]
  simp only [number]
  generalize c.toNat = n at valid same
  split
  · have starts : leadByte (UInt8.ofNat n) = some (.inl c) := by
      rw [leadByte, to_nat_byte (by omega), if_pos (by omega), same]
    rw [List.singleton_append, ofBytesFrom, starts]
    exact ⟨_, rfl⟩
  · split
    · have starts := @lead_of_two (n / 64 % 32) (by omega) (by omega)
      have value : 64 * (n / 64 % 32) + (n % 64 + 128 - 0x80) = n := by omega
      rw [List.cons_append, List.singleton_append, of_bytes_start starts,
        of_bytes_last rfl (by omega) (by dsimp only; omega)]
      simp only [value, same]
      exact ⟨_, rfl⟩
    · split
      · have starts := @lead_of_three (n / 4096 % 16) (by omega)
        have value : 64 * (64 * (n / 4096 % 16) + (n / 64 % 64 + 128 - 0x80)) +
            (n % 64 + 128 - 0x80) = n := by omega
        rw [List.cons_append, List.cons_append, List.singleton_append, of_bytes_start starts,
          of_bytes_further rfl (by omega) (by dsimp only; split_ifs <;> omega),
          of_bytes_last rfl (by omega) (by dsimp only; omega)]
        simp only [value, same]
        exact ⟨_, rfl⟩
      · have starts := @lead_of_four (n / 262144 % 8) (by omega)
        have value : 64 * (64 * (64 * (n / 262144 % 8) + (n / 4096 % 64 + 128 - 0x80)) +
            (n / 64 % 64 + 128 - 0x80)) + (n % 64 + 128 - 0x80) = n := by omega
        rw [List.cons_append, List.cons_append, List.cons_append, List.singleton_append,
          of_bytes_start starts,
          of_bytes_further rfl (by omega) (by dsimp only; split_ifs <;> omega),
          of_bytes_further rfl (by omega) (by dsimp only; omega),
          of_bytes_last rfl (by omega) (by dsimp only; omega)]
        simp only [value, same]
        exact ⟨_, rfl⟩

/-- Text comes back from its bytes. -/
theorem of_bytes_bytes (text : Text) : ofBytes (bytes text) = .ok text := by
  have read : ∀ position done, ofBytesFrom position none done (bytes text) =
      .ok (done.reverse ++ text) := by
    induction text with
    | nil =>
        intro position done
        rw [List.append_nil]
        rfl
    | cons c text induction =>
        intro position done
        have ⟨next, taken⟩ := of_bytes_char c position done (bytes text)
        rw [bytes, List.flatMap_cons, ← bytes, taken, induction, List.reverse_cons,
          List.append_assoc, List.singleton_append]
  exact read 0 []

end PostfixSheet.Text
