/-!
# Hexadecimal text of bytes

Every byte is written as two lower-case digits, the high half first.  Reading
accepts either case and fails on anything but whole pairs of digits.  The
main statement is that reading undoes writing.
-/

namespace DocScan.Hex

/-- The lower-case digit of a number below sixteen. -/
def digit (n : Nat) : Char :=
  if n < 10 then Char.ofNat (48 + n) else Char.ofNat (87 + n)

/-- The number a hexadecimal digit stands for, in either case. -/
def digitValue? (c : Char) : Option Nat :=
  if '0' ≤ c ∧ c ≤ '9' then some (c.toNat - 48)
  else if 'a' ≤ c ∧ c ≤ 'f' then some (c.toNat - 87)
  else if 'A' ≤ c ∧ c ≤ 'F' then some (c.toNat - 55)
  else none

/-- The two digits of each byte, in order. -/
def encode : List UInt8 → List Char
  | [] => []
  | b :: rest => digit (b.toNat / 16) :: digit (b.toNat % 16) :: encode rest

/-- The bytes that a run of digit pairs stands for. -/
def decode? : List Char → Option (List UInt8)
  | [] => some []
  | [_] => none
  | h :: l :: rest =>
    match digitValue? h, digitValue? l, decode? rest with
    | some high, some low, some bytes => some (UInt8.ofNat (16 * high + low) :: bytes)
    | _, _, _ => none

theorem digitValue?_digit {n : Nat} (hn : n < 16) : digitValue? (digit n) = some n := by
  have hall : ∀ k : Fin 16, digitValue? (digit k.val) = some k.val := by decide
  exact hall ⟨n, hn⟩

theorem length_encode (bytes : List UInt8) : (encode bytes).length = 2 * bytes.length := by
  induction bytes with
  | nil => rfl
  | cons b rest ih =>
    simp only [encode, List.length_cons, ih]
    omega

theorem decode?_encode (bytes : List UInt8) : decode? (encode bytes) = some bytes := by
  induction bytes with
  | nil => rfl
  | cons b rest ih =>
    have hb : b.toNat < 256 := b.toNat_lt
    have hhigh := digitValue?_digit (n := b.toNat / 16) (by omega)
    have hlow := digitValue?_digit (n := b.toNat % 16) (by omega)
    have hbyte : UInt8.ofNat (16 * (b.toNat / 16) + b.toNat % 16) = b := by
      rw [Nat.div_add_mod, UInt8.ofNat_toNat]
    simp [encode, decode?, hhigh, hlow, ih, hbyte]

end DocScan.Hex
