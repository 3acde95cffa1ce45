import RemoteRecords.Proofs.Text.Trimming
import RemoteRecords.Text.Integer

/-!
# Integers read back

The decimal text of an integer of 64 bits is read back as this integer (`toInt64_intChars`), also
where blanks at its ends are left out first: it has none. Digits that spell a number beyond the
limit of a reader are refused, however many they are (`magnitude_of_ofDigits?`).
-/

namespace RemoteRecords.Text

/-! ## Digits -/

theorem exists_digit_of_mem_digits {number : Nat} {c : Char} (member : c ∈ digits number) :
    ∃ digit < 10, c = digitChar digit := by
  induction number using Nat.strongRecOn with
  | ind number inductionHypothesis =>
      rw [digits] at member
      split at member
      · next small => exact ⟨number, small, List.mem_singleton.1 member⟩
      · next large =>
          rcases List.mem_append.1 member with higher | lowest
          · exact inductionHypothesis (number / 10) (by omega) higher
          · exact ⟨number % 10, Nat.mod_lt number (by omega), List.mem_singleton.1 lowest⟩

theorem forall_digitChar (property : Char → Prop)
    (holds : ∀ digit : Fin 10, property (digitChar digit.val)) {number : Nat} {c : Char}
    (member : c ∈ digits number) : property c := by
  obtain ⟨digit, small, rfl⟩ := exists_digit_of_mem_digits member
  exact holds ⟨digit, small⟩

theorem isDigit_of_mem_digits {number : Nat} {c : Char} (member : c ∈ digits number) :
    c.isDigit = true :=
  forall_digitChar (fun c => c.isDigit = true) (by decide) member

theorem colon_not_mem_digits (number : Nat) : ':' ∉ digits number := by
  intro member
  exact forall_digitChar (· ≠ ':') (by decide) member rfl

theorem exists_digits_eq_cons (number : Nat) :
    ∃ c rest, digits number = c :: rest ∧ c.isDigit = true := by
  obtain ⟨c, rest, begins⟩ := List.exists_cons_of_ne_nil (digits_ne_nil number)
  exact ⟨c, rest, begins, isDigit_of_mem_digits (begins ▸ List.mem_cons_self)⟩

/-- The digits of a positive number do not begin with a zero. -/
theorem head?_digits_ne_zero {number : Nat} (positive : 0 < number) :
    (digits number).head? ≠ some '0' := by
  induction number using Nat.strongRecOn with
  | ind number inductionHypothesis =>
      rw [digits]
      split
      · next small =>
          have nonzero : ∀ digit : Fin 10, 0 < digit.val → digitChar digit.val ≠ '0' := by
            decide
          simpa using nonzero ⟨number, small⟩ positive
      · next large =>
          have higher := inductionHypothesis (number / 10) (by omega) (by omega)
          obtain ⟨c, rest, begins, -⟩ := exists_digits_eq_cons (number / 10)
          rw [begins] at higher ⊢
          exact higher

theorem digits_inj {first second : Nat} : digits first = digits second ↔ first = second := by
  constructor
  · intro same
    have read := ofDigits?_digits first
    rw [same, ofDigits?_digits] at read
    exact (Option.some.inj read).symm
  · exact congrArg digits

theorem exists_digit_of_foldDigits_cons {high number : Nat} {c : Char} {chars : List Char}
    (spelled : foldDigits high (c :: chars) = some number) :
    ∃ digit, digitValue? c = some digit ∧ foldDigits (10 * high + digit) chars = some number := by
  rw [foldDigits] at spelled
  cases value : digitValue? c with
  | none => rw [value] at spelled; cases spelled
  | some digit =>
      rw [value] at spelled
      exact ⟨digit, rfl, spelled⟩

theorem le_of_foldDigits_eq_some {high number : Nat} {chars : List Char}
    (spelled : foldDigits high chars = some number) : high ≤ number := by
  induction chars generalizing high with
  | nil => exact Nat.le_of_eq (Option.some.inj spelled)
  | cons c chars inductionHypothesis =>
      obtain ⟨digit, -, later⟩ := exists_digit_of_foldDigits_cons spelled
      have above := inductionHypothesis later
      omega

theorem boundedDigits_of_foldDigits {limit high number : Nat} (excess : IntegerFault)
    {chars : List Char} (spelled : foldDigits high chars = some number)
    (bounded : number ≤ limit) : boundedDigits limit excess high chars = .ok number := by
  induction chars generalizing high with
  | nil => exact congrArg Except.ok (Option.some.inj spelled)
  | cons c chars inductionHypothesis =>
      obtain ⟨digit, value, later⟩ := exists_digit_of_foldDigits_cons spelled
      have within : ¬ limit < 10 * high + digit :=
        Nat.not_lt.2 (Nat.le_trans (le_of_foldDigits_eq_some later) bounded)
      simp only [boundedDigits, value, if_neg within]
      exact inductionHypothesis later

theorem boundedDigits_of_exceeds {limit high number : Nat} (excess : IntegerFault)
    {chars : List Char} (spelled : foldDigits high chars = some number) (room : high ≤ limit)
    (exceeds : limit < number) : boundedDigits limit excess high chars = .error excess := by
  induction chars generalizing high with
  | nil =>
      have same : high = number := Option.some.inj spelled
      omega
  | cons c chars inductionHypothesis =>
      obtain ⟨digit, value, later⟩ := exists_digit_of_foldDigits_cons spelled
      simp only [boundedDigits, value]
      split
      · rfl
      · next within => exact inductionHypothesis later (Nat.not_lt.1 within)

theorem ne_nil_of_ofDigits? {chars : List Char} {number : Nat}
    (spelled : ofDigits? chars = some number) : chars ≠ [] := by
  rintro rfl
  cases spelled

theorem foldDigits_of_ofDigits? {chars : List Char} {number : Nat}
    (spelled : ofDigits? chars = some number) : foldDigits 0 chars = some number := by
  have nonempty : ¬ chars.isEmpty = true := by simp [ne_nil_of_ofDigits? spelled]
  rwa [ofDigits?, if_neg nonempty] at spelled

theorem magnitude_of_ofDigits? {limit number : Nat} (excess : IntegerFault) {chars : List Char}
    (spelled : ofDigits? chars = some number) :
    magnitude limit excess chars = if number ≤ limit then .ok number else .error excess := by
  have nonempty : ¬ chars.isEmpty = true := by simp [ne_nil_of_ofDigits? spelled]
  rw [magnitude, if_neg nonempty]
  have folded := foldDigits_of_ofDigits? spelled
  split
  · next bounded => exact boundedDigits_of_foldDigits excess folded bounded
  · next exceeds =>
      exact boundedDigits_of_exceeds excess folded (Nat.zero_le limit) (Nat.not_le.1 exceeds)

/-! ## Digits of any number -/

theorem digitValue?_eq_some {c : Char} {digit : Nat} (value : digitValue? c = some digit) :
    c.isDigit = true ∧ c.toNat - 48 = digit ∧ digit < 10 := by
  rw [digitValue?] at value
  split at value
  · next bounds =>
      obtain ⟨lower, upper⟩ := bounds
      have bound : c.toNat ≤ 57 := upper
      refine ⟨?_, Option.some.inj value, ?_⟩
      · exact Bool.and_eq_true_iff.2 ⟨decide_eq_true lower, decide_eq_true upper⟩
      · have same := Option.some.inj value
        omega
  · cases value

theorem isDigit_of_foldDigits {high number : Nat} {chars : List Char}
    (spelled : foldDigits high chars = some number) : ∀ c ∈ chars, c.isDigit = true := by
  induction chars generalizing high with
  | nil => exact List.forall_mem_nil _
  | cons c chars inductionHypothesis =>
      obtain ⟨digit, value, later⟩ := exists_digit_of_foldDigits_cons spelled
      have first := (digitValue?_eq_some value).1
      exact List.forall_mem_cons.2 ⟨first, inductionHypothesis later⟩

theorem isDigit_of_ofDigits? {chars : List Char} {number : Nat}
    (spelled : ofDigits? chars = some number) : ∀ c ∈ chars, c.isDigit = true :=
  isDigit_of_foldDigits (foldDigits_of_ofDigits? spelled)

/-! ## Integers -/

/-- The integer that digits spell, of any size, with a sign before them or without. -/
def signedDigits? : List Char → Option Int
  | '-' :: digits => (ofDigits? digits).map fun number : Nat => -(number : Int)
  | '+' :: digits => (ofDigits? digits).map Int.ofNat
  | digits => (ofDigits? digits).map Int.ofNat

theorem fits64_neg (number : Nat) :
    Bounds.fits64 (-(number : Int)) = true ↔ number ≤ Bounds.least64.natAbs := by
  rw [Bounds.fits64_iff, Bounds.least64]
  omega

theorem fits64_natCast (number : Nat) :
    Bounds.fits64 (number : Int) = true ↔ number ≤ Bounds.greatest64.natAbs := by
  rw [Bounds.fits64_iff, Bounds.greatest64]
  omega

theorem map_magnitude {digits : List Char} {value limit : Nat} (excess : IntegerFault)
    {sign : Nat → Int} (spelled : ofDigits? digits = some value)
    (fits : Bounds.fits64 (sign value) = true ↔ value ≤ limit) :
    (magnitude limit excess digits).map sign =
      if Bounds.fits64 (sign value) then .ok (sign value) else .error excess := by
  rw [magnitude_of_ofDigits? excess spelled]
  by_cases bounded : value ≤ limit
  · rw [if_pos bounded, if_pos (fits.2 bounded)]
    rfl
  · rw [if_neg bounded, if_neg fun fitting => bounded (fits.1 fitting)]
    rfl

theorem toInt64_minus (digits : List Char) :
    toInt64 ('-' :: digits) =
      (magnitude Bounds.least64.natAbs .tooSmall digits).map fun number : Nat =>
        -(number : Int) := by
  rw [toInt64]
  cases magnitude Bounds.least64.natAbs .tooSmall digits <;> rfl

/-- The reader of 64-bit integers takes what fits and refuses all else. -/
theorem toInt64_of_signedDigits? {chars : List Char} {number : Int}
    (spelled : signedDigits? chars = some number) :
    ∃ fault, toInt64 chars = if Bounds.fits64 number then .ok number else .error fault := by
  rw [signedDigits?.eq_def] at spelled
  split at spelled
  · obtain ⟨value, digitsSpelled, rfl⟩ := Option.map_eq_some_iff.1 spelled
    rw [toInt64_minus]
    exact ⟨.tooSmall, map_magnitude .tooSmall digitsSpelled (fits64_neg value)⟩
  · obtain ⟨value, digitsSpelled, rfl⟩ := Option.map_eq_some_iff.1 spelled
    exact ⟨.tooLarge, map_magnitude .tooLarge digitsSpelled (fits64_natCast value)⟩
  · next digits notMinus notPlus =>
      obtain ⟨value, digitsSpelled, rfl⟩ := Option.map_eq_some_iff.1 spelled
      refine ⟨.tooLarge, ?_⟩
      rw [toInt64.eq_def]
      split
      · cases spelled
      · exact absurd rfl (notMinus _)
      · exact absurd rfl (notPlus _)
      · exact map_magnitude .tooLarge digitsSpelled (fits64_natCast value)

theorem signedDigits?_of_unsigned {chars : List Char}
    (unsigned : ∀ c ∈ chars, c ≠ '-' ∧ c ≠ '+') :
    signedDigits? chars = (ofDigits? chars).map Int.ofNat := by
  rw [signedDigits?.eq_def]
  split
  · exact absurd rfl (unsigned '-' List.mem_cons_self).1
  · exact absurd rfl (unsigned '+' List.mem_cons_self).2
  · rfl

theorem signedDigits?_of_plus {digits : List Char} {n : Int}
    (spelled : signedDigits? ('+' :: digits) = some n) :
    signedDigits? digits = some n := by
  rw [signedDigits?] at spelled
  obtain ⟨number, digitsSpelled, rfl⟩ := Option.map_eq_some_iff.1 spelled
  have unsigned : ∀ c ∈ digits, c ≠ '-' ∧ c ≠ '+' := by
    intro c member
    have digit := isDigit_of_ofDigits? digitsSpelled c member
    constructor <;> rintro rfl <;> exact absurd digit (by decide)
  rw [signedDigits?_of_unsigned unsigned, digitsSpelled]
  rfl

theorem magnitude_marked (limit : Nat) (excess : IntegerFault) {mark : Char}
    (digits : List Char) (notDigit : digitValue? mark = none) :
    magnitude limit excess ('0' :: mark :: digits) = .error .invalidDigit := by
  have zero : digitValue? '0' = some 0 := by decide
  simp [magnitude, boundedDigits, zero, notDigit]

theorem toInt64_marked {mark : Char} (digits : List Char)
    (notDigit : digitValue? mark = none) :
    toInt64 ('0' :: mark :: digits) = .error .invalidDigit :=
  congrArg (Except.map Int.ofNat) (magnitude_marked _ _ digits notDigit)

theorem exists_intChars_eq_cons (integer : Int) :
    ∃ c rest, intChars integer = c :: rest ∧ (c = '-' ∨ c.isDigit = true) := by
  rw [intChars]
  split
  · exact ⟨_, _, rfl, .inl rfl⟩
  · obtain ⟨c, digits, begins, digit⟩ := exists_digits_eq_cons integer.natAbs
    exact ⟨c, digits, begins, .inr digit⟩

theorem isBlank_of_mem_intChars {number : Int} {c : Char} (member : c ∈ intChars number) :
    isBlank c = false := by
  have digit : c ∈ digits number.natAbs → isBlank c = false :=
    forall_digitChar (isBlank · = false) (by decide)
  rw [intChars] at member
  split at member
  · rcases List.mem_cons.1 member with rfl | later
    · decide
    · exact digit later
  · exact digit member

theorem trimBoth_intChars (number : Int) :
    trimBoth isBlank (intChars number) = intChars number :=
  trimBoth_eq_self fun _ member => isBlank_of_mem_intChars member

theorem signedDigits?_intChars (number : Int) : signedDigits? (intChars number) = some number := by
  rw [intChars]
  split
  · next negative =>
      have value : -(number.natAbs : Int) = number := by omega
      rw [signedDigits?, ofDigits?_digits]
      exact congrArg some value
  · next notNegative =>
      have value : (number.natAbs : Int) = number := by omega
      have unsigned : ∀ c ∈ digits number.natAbs, c ≠ '-' ∧ c ≠ '+' :=
        fun _ member => forall_digitChar (fun c => c ≠ '-' ∧ c ≠ '+') (by decide) member
      rw [signedDigits?_of_unsigned unsigned, ofDigits?_digits]
      exact congrArg some value

theorem toInt64_intChars {number : Int} (fits : Bounds.fits64 number = true) :
    toInt64 (intChars number) = .ok number := by
  obtain ⟨fault, read⟩ := toInt64_of_signedDigits? (signedDigits?_intChars number)
  rw [read, if_pos fits]

end RemoteRecords.Text
