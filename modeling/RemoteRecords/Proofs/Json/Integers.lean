import RemoteRecords.Json.Parser
import RemoteRecords.Proofs.Binary64.Rounding
import RemoteRecords.Proofs.Text.Integers

/-!
# Whole numbers in JSON

A literal without a point and an exponent is read as the integer that it spells or, when this has
more than 64 bits, as a floating-point number (`number_cases`). Digits that the significand has no
room for are dropped, but what is kept is large then (`Accumulated.Keeps`), and the scaling that
makes up for them never brings the number down (`reaches_scaleByTen`).
-/

namespace RemoteRecords.Json

open Binary64 (Reaches)

/-! ## The significand -/

/-- What is kept of digits that spell a number: the number, or a large part of it. -/
inductive Accumulated.Keeps : Accumulated → Nat → Prop where
  | all {number : Nat} (fits : number ≤ maxSignificand) : Keeps ⟨number, 0, false⟩ number
  | some {significand number : Nat} {exponent : Int} (fits : significand ≤ maxSignificand)
      (large : 2 ^ 60 ≤ significand) (up : 0 ≤ exponent) :
      Keeps ⟨significand, exponent, true⟩ number

theorem Accumulated.Keeps.pushWhole {acc : Accumulated} {number digit : Nat} {c : Char}
    (keeps : acc.Keeps number) (value : Text.digitValue? c = Option.some digit) :
    (acc.pushWhole c).Keeps (10 * number + digit) := by
  obtain ⟨-, code, small⟩ := Text.digitValue?_eq_some value
  simp only [Accumulated.pushWhole, code]
  cases keeps with
  | all fits =>
      split
      · next dropped =>
          have exceeds : maxSignificand < 10 * number + digit := by simpa using dropped
          have large : 2 ^ 60 ≤ number := by
            rw [maxSignificand, Bounds.greatestNat64] at exceeds
            omega
          exact .some fits large Int.one_nonneg
      · next room =>
          have within : ¬ maxSignificand < 10 * number + digit := by simpa using room
          exact .all (Nat.not_lt.1 within)
  | some fits large up =>
      rw [if_pos (by simp)]
      exact .some fits large (Int.le_add_one up)

theorem Accumulated.Keeps.foldl {digits : List Char} {acc : Accumulated} {high number : Nat}
    (keeps : acc.Keeps high) (spelled : Text.foldDigits high digits = Option.some number) :
    (digits.foldl Accumulated.pushWhole acc).Keeps number := by
  induction digits generalizing acc high with
  | nil =>
      have same : high = number := Option.some.inj spelled
      exact same ▸ keeps
  | cons c digits inductionHypothesis =>
      obtain ⟨digit, value, later⟩ := Text.exists_digit_of_foldDigits_cons spelled
      exact inductionHypothesis (keeps.pushWhole value) later

theorem Accumulated.Keeps.large {acc : Accumulated} {number : Nat} (keeps : acc.Keeps number)
    (above : 2 ^ 60 ≤ number) :
    2 ^ 60 ≤ acc.significand ∧ acc.significand ≤ maxSignificand ∧ 0 ≤ acc.exponent := by
  cases keeps with
  | all fits => exact ⟨above, fits, le_rfl⟩
  | some fits large up => exact ⟨large, fits, up⟩

/-! ## Scaling -/

theorem reaches_powerOfTen {exponent : Nat} (bounded : exponent ≤ 308) :
    Reaches 1 (Binary64.powerOfTen exponent) := by
  have power : tenTo exponent ≤ tenTo 308 := Binary64.tenTo_le_tenTo bounded
  have top : tenTo 308 ≤ (2 * Binary64.leastNormal - 1) * 2 ^ 971 := by decide +kernel
  have small : ((tenTo exponent : Nat) : ℚ) ≤ Binary64.largest := by
    rw [Binary64.largest_eq]
    exact Nat.cast_le.2 (power.trans top)
  have above : 2 ^ 0 ≤ tenTo exponent := Nat.pow_pos (by decide)
  have reaches := Binary64.reaches_ofNat above small
  rwa [pow_zero] at reaches

theorem isZero_of_reaches {number : Binary64} {bound : ℚ} (positive : 0 < bound)
    (reaches : Reaches bound number) : number.isZero = false := by
  obtain ⟨⟨negative, mantissa, exponent, rfl⟩, above⟩ := reaches
  cases mantissa with
  | zero =>
      rw [Binary64.magnitude, Ratio.value_scaled, Nat.cast_zero, zero_mul] at above
      exact absurd above (not_le.2 positive)
  | succ mantissa => rfl

theorem reaches_scaleByTen {value scaled : Binary64} {exponent : Int} {power : Nat}
    (reaches : Reaches (2 ^ power) value) (up : 0 ≤ exponent)
    (read : scaleByTen value exponent = some scaled) : Reaches (2 ^ power) scaled := by
  rw [scaleByTen] at read
  split at read
  · next bounded =>
      dsimp only at read
      rcases Binary64.reaches_mul reaches (reaches_powerOfTen bounded) with product | ⟨sign, beyond⟩
      · split at read
        · cases read
        · cases read
          exact product
      · rw [beyond] at read
        cases read
  · rw [isZero_of_reaches (by positivity) reaches, if_neg Bool.false_ne_true] at read
    cases read

/-! ## Literals -/

theorem toFloat?_whole (negative : Bool) (whole : List Char) :
    Literal.toFloat? ⟨negative, whole, none, none⟩ =
      (scaleByTen (.ofNat (whole.foldl Accumulated.pushWhole ⟨0, 0, false⟩).significand)
        (whole.foldl Accumulated.pushWhole ⟨0, 0, false⟩).exponent).map
          (.withSign negative) := by
  have short : ¬ maxExponent < (0 : Int).natAbs := by decide
  simp only [Literal.toFloat?, Option.isSome_none, Bool.false_eq_true, if_false, Option.getD_none,
    if_neg short, Int.add_zero]

theorem reaches_of_toFloat? {negative : Bool} {whole : List Char} {number : Nat}
    {float : Binary64} (spelled : Text.ofDigits? whole = some number) (above : 2 ^ 60 ≤ number)
    (read : Literal.toFloat? ⟨negative, whole, none, none⟩ = some float) :
    ∃ scaled, float = .withSign negative scaled ∧ Reaches (2 ^ 60) scaled := by
  rw [toFloat?_whole] at read
  obtain ⟨scaled, scaledRead, rfl⟩ := Option.map_eq_some_iff.1 read
  have start : Accumulated.Keeps ⟨0, 0, false⟩ 0 := .all (Nat.zero_le _)
  obtain ⟨large, fits, up⟩ := (start.foldl (Text.foldDigits_of_ofDigits? spelled)).large above
  have small : (maxSignificand : ℚ) ≤ Binary64.largest := by
    rw [Binary64.largest_eq]
    exact Nat.cast_le.2 (by decide +kernel)
  have reaches := Binary64.reaches_ofNat large ((Nat.cast_le.2 fits).trans small)
  exact ⟨scaled, rfl, reaches_scaleByTen reaches up scaledRead⟩

/-- Without a sign a whole number is read as the integer that it is, or as a floating-point number
when it has more than 64 bits. -/
theorem value?_unsigned {whole : List Char} {number : Nat} {json : Json}
    (spelled : Text.ofDigits? whole = some number)
    (read : Literal.value? ⟨false, whole, none, none⟩ = some json) :
    json = .int number ∨
      Bounds.greatestNat64 < number ∧
        ∃ scaled, json = .float (.withSign false scaled) ∧ Reaches (2 ^ 60) scaled := by
  simp only [Literal.value?, spelled, Bool.not_false, Bool.true_and, decide_eq_true_eq,
    Bool.false_and, Bool.false_eq_true, if_false] at read
  split at read
  · exact .inl (Option.some.inj read).symm
  · next beyond =>
      have exceeds := Nat.not_le.1 beyond
      have above : 2 ^ 60 ≤ number := by
        rw [Bounds.greatestNat64] at exceeds
        omega
      obtain ⟨float, floatRead, rfl⟩ := Option.map_eq_some_iff.1 read
      obtain ⟨scaled, rfl, reaches⟩ := reaches_of_toFloat? spelled above floatRead
      exact .inr ⟨exceeds, scaled, rfl, reaches⟩

/-- With a minus sign it is read as the integer that it is, or as a floating-point number that has
the sign too. -/
theorem value?_minus {whole : List Char} {number : Nat} {json : Json}
    (spelled : Text.ofDigits? whole = some number)
    (read : Literal.value? ⟨true, whole, none, none⟩ = some json) :
    json = .int (-number) ∨ ∃ scaled, json = .float (.withSign true scaled) := by
  simp only [Literal.value?, spelled, Bool.not_true, Bool.false_and, Bool.false_eq_true, if_false,
    Bool.true_and] at read
  split at read
  · exact .inl (Option.some.inj read).symm
  · obtain ⟨float, floatRead, rfl⟩ := Option.map_eq_some_iff.1 read
    rw [toFloat?_whole] at floatRead
    obtain ⟨scaled, -, rfl⟩ := Option.map_eq_some_iff.1 floatRead
    exact .inr ⟨scaled, rfl⟩

/-! ## Texts -/

theorem spanDigits_eq (text : List Char) :
    spanDigits text = (text.takeWhile Char.isDigit, text.dropWhile Char.isDigit) :=
  List.span_eq_takeWhile_dropWhile Char.isDigit text

theorem length_spanDigits_le (text : List Char) : (spanDigits text).2.length ≤ text.length := by
  rw [spanDigits_eq]
  exact List.length_dropWhile_le _ text

/-- What is not left alone is read: a fraction takes at least its point off the text. -/
theorem length_of_fractionPart {text after : List Char} {fraction : Option (List Char)}
    (read : fractionPart text = some (fraction, after)) :
    fraction = none ∧ after = text ∨ after.length < text.length := by
  rw [fractionPart.eq_def] at read
  split at read
  · next rest =>
      dsimp only at read
      split at read
      · cases read
      · cases read
        exact .inr (Nat.lt_succ_of_le (length_spanDigits_le rest))
  · cases read
    exact .inl ⟨rfl, rfl⟩

theorem length_of_exponentPart {text after : List Char} {exponent : Option Int}
    (read : exponentPart text = some (exponent, after)) :
    exponent = none ∧ after = text ∨ after.length < text.length := by
  rw [exponentPart.eq_def] at read
  split at read
  -- The two letters that begin an exponent are read alike, and a sign behind them is passed over.
  iterate 2
    · obtain ⟨number, -, same⟩ := Option.map_eq_some_iff.1 read
      cases same
      refine .inr (Nat.lt_succ_of_le ((length_spanDigits_le _).trans ?_))
      split <;> simp
  · cases read
    exact .inl ⟨rfl, rfl⟩

theorem nothing_read {rest between : List Char} {fraction : Option (List Char)}
    {exponent : Option Int}
    (fractionRead : fractionPart (rest.dropWhile Char.isDigit) = some (fraction, between))
    (exponentRead : exponentPart between = some (exponent, rest)) :
    rest.takeWhile Char.isDigit = [] ∧ fraction = none ∧ exponent = none := by
  have shorter : (rest.dropWhile Char.isDigit).length ≤ rest.length :=
    List.length_dropWhile_le _ rest
  rcases length_of_fractionPart fractionRead with ⟨noFraction, sameFraction⟩ | fractionShorter <;>
    rcases length_of_exponentPart exponentRead with ⟨noExponent, sameExponent⟩ | exponentShorter
  · refine ⟨?_, noFraction, noExponent⟩
    have joined := List.takeWhile_append_dropWhile (p := Char.isDigit) (l := rest)
    rw [← sameFraction, ← sameExponent] at joined
    exact List.append_left_eq_self.1 joined
  · rw [sameFraction] at exponentShorter
    omega
  · have length := congrArg List.length sameExponent
    omega
  · omega

/-- A literal is digits alone where the reader stops right behind them. -/
theorem literal_of_digits {negative : Bool} {digits rest : List Char} {read : Literal}
    (allDigits : ∀ c ∈ digits, c.isDigit = true)
    (found : literal negative (digits ++ rest) = some (read, rest)) :
    read = ⟨negative, digits, none, none⟩ := by
  rw [literal, spanDigits_eq, List.takeWhile_append_of_pos allDigits,
    List.dropWhile_append_of_pos allDigits] at found
  dsimp only at found
  split at found
  · cases found
  · obtain ⟨⟨fraction, between⟩, fractionRead, found⟩ := Option.bind_eq_some_iff.1 found
    obtain ⟨⟨exponent, after⟩, exponentRead, found⟩ := Option.bind_eq_some_iff.1 found
    obtain ⟨same, stopped⟩ := Prod.mk.inj (Option.some.inj found)
    dsimp only at same stopped exponentRead
    subst stopped
    obtain ⟨noDigits, noFraction, noExponent⟩ := nothing_read fractionRead exponentRead
    rw [← same, noDigits, noFraction, noExponent, List.append_nil]

theorem number_minus {text after : List Char} {json : Json}
    (read : number ('-' :: text) = some (json, after)) :
    ∃ found, literal true text = some (found, after) ∧ found.value? = some json := by
  obtain ⟨⟨found, rest⟩, literalRead, read⟩ := Option.bind_eq_some_iff.1 read
  obtain ⟨value, valueRead, same⟩ := Option.bind_eq_some_iff.1 read
  obtain ⟨rfl, rfl⟩ := Prod.mk.inj (Option.some.inj same)
  exact ⟨found, literalRead, valueRead⟩

theorem number_unsigned {text after : List Char} {json : Json}
    (unsigned : ∀ rest, text ≠ '-' :: rest) (read : number text = some (json, after)) :
    ∃ found, literal false text = some (found, after) ∧ found.value? = some json := by
  rw [number.eq_def] at read
  split at read
  · next rest => exact absurd rfl (unsigned rest)
  · obtain ⟨⟨found, rest⟩, literalRead, read⟩ := Option.bind_eq_some_iff.1 read
    obtain ⟨value, valueRead, same⟩ := Option.bind_eq_some_iff.1 read
    obtain ⟨rfl, rfl⟩ := Prod.mk.inj (Option.some.inj same)
    exact ⟨found, literalRead, valueRead⟩

theorem number_plus (text : List Char) : number ('+' :: text) = none := rfl

/-- The reader that takes an integer off a text, of whatever size, takes it as this integer, or as
a floating-point number on the same side of all integers of 64 bits. -/
theorem number_cases {integer rest : List Char} {n : Int} {json : Json}
    (spelled : Text.signedDigits? integer = some n)
    (read : number (integer ++ rest) = some (json, rest)) :
    json = .int n ∨
      (n ≤ 0 ∧ ∃ scaled, json = .float (.withSign true scaled)) ∨
      ((Bounds.greatestNat64 : Int) < n ∧
        ∃ scaled, json = .float (.withSign false scaled) ∧ Reaches (2 ^ 60) scaled) := by
  rw [Text.signedDigits?.eq_def] at spelled
  split at spelled
  · next digits =>
      obtain ⟨number, digitsSpelled, rfl⟩ := Option.map_eq_some_iff.1 spelled
      obtain ⟨found, literalRead, valueRead⟩ := number_minus read
      rw [literal_of_digits (Text.isDigit_of_ofDigits? digitsSpelled) literalRead] at valueRead
      rcases value?_minus digitsSpelled valueRead with same | float
      · exact .inl same
      · exact .inr (.inl ⟨by omega, float⟩)
  · rw [List.cons_append, number_plus] at read
    cases read
  · next notMinus _ =>
      obtain ⟨number, digitsSpelled, rfl⟩ := Option.map_eq_some_iff.1 spelled
      obtain ⟨first, digits, rfl⟩ :=
        List.exists_cons_of_ne_nil (Text.ne_nil_of_ofDigits? digitsSpelled)
      have unsigned (after : List Char) : first :: digits ++ rest ≠ '-' :: after := by
        intro minus
        exact notMinus digits (congrArg (· :: digits) (List.cons.inj minus).1)
      obtain ⟨found, literalRead, valueRead⟩ := number_unsigned unsigned read
      rw [literal_of_digits (Text.isDigit_of_ofDigits? digitsSpelled) literalRead] at valueRead
      rcases value?_unsigned digitsSpelled valueRead with same | ⟨beyond, float⟩
      · exact .inl same
      · exact .inr (.inr ⟨Int.ofNat_lt.2 beyond, float⟩)

end RemoteRecords.Json
