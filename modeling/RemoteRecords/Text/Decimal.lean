namespace RemoteRecords.Text

/-! ## Decimal digits -/

/-- The digit character of a number below ten. -/
def digitChar (digit : Nat) : Char :=
  Char.ofNat (48 + digit)

/-- The digits of a number, without leading zeros; zero is one digit. -/
def digits (number : Nat) : List Char :=
  if number < 10 then [digitChar number]
  else digits (number / 10) ++ [digitChar (number % 10)]
termination_by number
decreasing_by omega

/-- The value of an ASCII digit. -/
def digitValue? (c : Char) : Option Nat :=
  if '0' ≤ c ∧ c ≤ '9' then some (c.toNat - 48) else none

/-- The number that digits spell after those of `high`; no sign and no blank is a digit. -/
def foldDigits (high : Nat) : List Char → Option Nat
  | [] => some high
  | c :: rest =>
      match digitValue? c with
      | some digit => foldDigits (10 * high + digit) rest
      | none => none

/-- The number that a non-empty run of digits spells. -/
def ofDigits? (chars : List Char) : Option Nat :=
  if chars.isEmpty then none else foldDigits 0 chars

/-- The digits with a minus sign before them when the number is negative. -/
def intChars (number : Int) : List Char :=
  if number < 0 then '-' :: digits number.natAbs else digits number.natAbs

/-- The decimal text of a natural number. -/
def ofNat (number : Nat) : String :=
  String.ofList (digits number)

/-- The decimal text of an integer. -/
def ofInt (number : Int) : String :=
  String.ofList (intChars number)

/-! ## Reading what was written -/

theorem digitValue?_digitChar {digit : Nat} (small : digit < 10) :
    digitValue? (digitChar digit) = some digit := by
  have cases10 : ∀ d : Fin 10, digitValue? (digitChar d.val) = some d.val := by decide
  exact cases10 ⟨digit, small⟩

theorem foldDigits_append (high : Nat) (left right : List Char) :
    foldDigits high (left ++ right) =
      (foldDigits high left).bind fun value => foldDigits value right := by
  induction left generalizing high with
  | nil => rfl
  | cons c rest hypothesis =>
      simp only [List.cons_append, foldDigits]
      cases digitValue? c with
      | none => rfl
      | some digit => exact hypothesis _

theorem foldDigits_digits (number : Nat) : foldDigits 0 (digits number) = some number := by
  induction number using Nat.strongRecOn with
  | ind number hypothesis =>
      rw [digits]
      split
      · next small =>
          simp [foldDigits, digitValue?_digitChar small]
      · next large =>
          rw [foldDigits_append, hypothesis (number / 10) (by omega)]
          simp only [Option.bind_some, foldDigits,
            digitValue?_digitChar (Nat.mod_lt number (by omega : 0 < 10))]
          congr 1
          omega

theorem digits_ne_nil (number : Nat) : digits number ≠ [] := by
  rw [digits]
  split <;> simp

theorem ofDigits?_digits (number : Nat) : ofDigits? (digits number) = some number := by
  rw [ofDigits?, if_neg (by simp [digits_ne_nil]), foldDigits_digits]

end RemoteRecords.Text
