import Mathlib.Data.Nat.Digits.Defs
import RemoteRecords.Proofs.Except
import RemoteRecords.Proofs.Text.Integers

/-!
# Numerals

A numeral is an optional sign and one or more ASCII digits, leading zeros included. The reader of
64-bit integers reads exactly the numerals of these integers (`toInt64_eq_ok_iff`).
-/

namespace RemoteRecords.Text

/-- The number that digits spell in the decimal system. -/
def decimalValue (digits : List Char) : Nat :=
  Nat.ofDigits 10 (digits.map fun c => c.toNat - '0'.toNat).reverse

/-- One or more ASCII digits. -/
def IsDigits (chars : List Char) : Prop :=
  chars ≠ [] ∧ ∀ c ∈ chars, c.isDigit = true

/-- The characters are an optional sign and digits, and the number is what they spell. -/
inductive Numeral : List Char → Int → Prop
  | unsigned {digits : List Char} : IsDigits digits → Numeral digits (decimalValue digits)
  | plus {digits : List Char} : IsDigits digits → Numeral ('+' :: digits) (decimalValue digits)
  | minus {digits : List Char} : IsDigits digits → Numeral ('-' :: digits) (-decimalValue digits)

/-! ## Digits -/

theorem decimalValue_cons (c : Char) (digits : List Char) :
    decimalValue (c :: digits) = (c.toNat - 48) * 10 ^ digits.length + decimalValue digits := by
  have zero : '0'.toNat = 48 := rfl
  simp [decimalValue, Nat.ofDigits_append, zero]
  ring

theorem digitValue?_of_isDigit {c : Char} (digit : c.isDigit = true) :
    digitValue? c = some (c.toNat - 48) :=
  if_pos (by simpa [Char.isDigit, Char.le_def] using digit)

theorem foldDigits_of_isDigit (high : Nat) {digits : List Char}
    (allDigits : ∀ c ∈ digits, c.isDigit = true) :
    foldDigits high digits = some (high * 10 ^ digits.length + decimalValue digits) := by
  induction digits generalizing high with
  | nil => simp [foldDigits, decimalValue]
  | cons c digits inductionHypothesis =>
      obtain ⟨first, later⟩ := List.forall_mem_cons.1 allDigits
      rw [foldDigits, digitValue?_of_isDigit first]
      simp only [inductionHypothesis _ later, decimalValue_cons, List.length_cons]
      congr 1
      ring

theorem ofDigits?_eq_some_iff {chars : List Char} {number : Nat} :
    ofDigits? chars = some number ↔ IsDigits chars ∧ number = decimalValue chars := by
  have read (digits : IsDigits chars) : ofDigits? chars = some (decimalValue chars) := by
    have nonempty : ¬ chars.isEmpty = true := by simp [digits.1]
    rw [ofDigits?, if_neg nonempty, foldDigits_of_isDigit 0 digits.2, Nat.zero_mul, Nat.zero_add]
  constructor
  · intro spelled
    have digits : IsDigits chars := ⟨ne_nil_of_ofDigits? spelled, isDigit_of_ofDigits? spelled⟩
    rw [read digits] at spelled
    exact ⟨digits, (Option.some.inj spelled).symm⟩
  · rintro ⟨digits, rfl⟩
    exact read digits

/-! ## Signs -/

theorem signedDigits?_eq_some_iff {chars : List Char} {number : Int} :
    signedDigits? chars = some number ↔ Numeral chars number := by
  constructor
  · intro spelled
    rw [signedDigits?.eq_def] at spelled
    split at spelled
    all_goals
      obtain ⟨value, digitsSpelled, rfl⟩ := Option.map_eq_some_iff.1 spelled
      obtain ⟨digits, rfl⟩ := ofDigits?_eq_some_iff.1 digitsSpelled
    · exact .minus digits
    · exact .plus digits
    · exact .unsigned digits
  · intro numeral
    cases numeral with
    | @unsigned chars digits =>
        have plain : ∀ c ∈ chars, c ≠ '-' ∧ c ≠ '+' := by
          intro c member
          have digit := digits.2 c member
          constructor <;> rintro rfl <;> exact absurd digit (by decide)
        rw [signedDigits?_of_unsigned plain, ofDigits?_eq_some_iff.2 ⟨digits, rfl⟩]
        rfl
    | plus digits =>
        rw [signedDigits?, ofDigits?_eq_some_iff.2 ⟨digits, rfl⟩]
        rfl
    | minus digits =>
        rw [signedDigits?, ofDigits?_eq_some_iff.2 ⟨digits, rfl⟩]
        rfl

/-! ## Integers of 64 bits -/

theorem foldDigits_of_boundedDigits {limit high number : Nat} {excess : IntegerFault}
    {chars : List Char} (read : boundedDigits limit excess high chars = .ok number) :
    foldDigits high chars = some number := by
  induction chars generalizing high with
  | nil => exact congrArg some (Except.ok.inj read)
  | cons c chars inductionHypothesis =>
      rw [boundedDigits] at read
      rw [foldDigits]
      cases value : digitValue? c with
      | none =>
          rw [value] at read
          cases read
      | some digit =>
          rw [value] at read
          dsimp only at read ⊢
          split at read
          · cases read
          · exact inductionHypothesis read

theorem ofDigits?_of_magnitude {limit number : Nat} {excess : IntegerFault} {digits : List Char}
    (read : magnitude limit excess digits = .ok number) : ofDigits? digits = some number := by
  rw [magnitude] at read
  rw [ofDigits?]
  split at read
  · cases read
  · next nonempty => rw [if_neg nonempty, foldDigits_of_boundedDigits read]

theorem numeral_of_toInt64 {chars : List Char} {number : Int}
    (read : toInt64 chars = .ok number) : Numeral chars number := by
  rw [toInt64.eq_def] at read
  split at read
  · cases read
  · next digits =>
      have negated := (toInt64_minus digits).symm.trans read
      obtain ⟨value, magnitudeRead, rfl⟩ := map_eq_ok_iff.1 negated
      obtain ⟨allDigits, rfl⟩ := ofDigits?_eq_some_iff.1 (ofDigits?_of_magnitude magnitudeRead)
      exact .minus allDigits
  · obtain ⟨value, magnitudeRead, rfl⟩ := map_eq_ok_iff.1 read
    obtain ⟨allDigits, rfl⟩ := ofDigits?_eq_some_iff.1 (ofDigits?_of_magnitude magnitudeRead)
    exact .plus allDigits
  · obtain ⟨value, magnitudeRead, rfl⟩ := map_eq_ok_iff.1 read
    obtain ⟨allDigits, rfl⟩ := ofDigits?_eq_some_iff.1 (ofDigits?_of_magnitude magnitudeRead)
    exact .unsigned allDigits

/-- The 64-bit integers are read off their numerals and off nothing else. -/
theorem toInt64_eq_ok_iff {chars : List Char} {number : Int} :
    toInt64 chars = .ok number ↔ Numeral chars number ∧ Bounds.fits64 number = true := by
  constructor
  · intro read
    have numeral := numeral_of_toInt64 read
    obtain ⟨fault, whole⟩ := toInt64_of_signedDigits? (signedDigits?_eq_some_iff.2 numeral)
    rw [read] at whole
    split at whole
    · next fits => exact ⟨numeral, fits⟩
    · cases whole
  · rintro ⟨numeral, fits⟩
    obtain ⟨fault, read⟩ := toInt64_of_signedDigits? (signedDigits?_eq_some_iff.2 numeral)
    rw [read, if_pos fits]

end RemoteRecords.Text
