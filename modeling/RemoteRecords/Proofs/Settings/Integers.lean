import RemoteRecords.Proofs.Json.Integers
import RemoteRecords.Proofs.Yaml.Integers
import RemoteRecords.Settings.File

/-!
# Integers among the settings

An integer may stand in a settings file as a plain text of YAML, as a number of JSON or as an
integer of another format, in quotes or in a variable, or come from the command line
(`Value.Denotes`). However large it is and whatever its sign, a port is read from it only if it is
this port (`eq_of_denotes`): a number of more than 64 bits becomes a floating-point number or a
text, which is too large itself or refused, and one below zero is refused or read as zero.
-/

namespace RemoteRecords.Settings

open Binary64 (Reaches)

/-! ## Nearest natural numbers -/

theorem nearestNat_of_isNegative {number : Binary64} (negative : number.isNegative = true) :
    nearestNat number = 0 := by
  cases number with
  | finite sign mantissa exponent =>
      cases negative
      rfl
  | infinite sign => cases negative; rfl
  | nan => cases negative

theorem le_nearestNat {number : Binary64} {bound : Nat} (reaches : Reaches bound number)
    (positive : number.isNegative = false) (fits : bound ≤ Bounds.greatestNat64) :
    bound ≤ nearestNat number := by
  obtain ⟨⟨negative, mantissa, exponent, rfl⟩, above⟩ := reaches
  cases positive
  exact Nat.le_min.2 ⟨Ratio.le_roundHalfUp (Ratio.den_scaled_pos mantissa exponent) above, fits⟩

theorem lt_nearestNat_ofRatio {ratio : Ratio} (positive : 0 < ratio.den)
    (above : 2 ^ 32 * ratio.den ≤ ratio.num) :
    Bounds.greatestNat32 < nearestNat (.ofRatio false ratio) := by
  have bound : ((2 ^ 32 : Nat) : ℚ) = 2 ^ 32 := by norm_num
  have aboveValue : (2 : ℚ) ^ 32 ≤ ratio.value := by
    rw [← bound]
    exact (Ratio.le_value_iff positive _).2 above
  rcases Binary64.ofRatio_cases false positive aboveValue with reaches | ⟨infinite, -⟩
  · rw [← bound] at reaches
    exact le_nearestNat reaches (Binary64.isNegative_ofRatio false ratio) (by decide)
  · rw [infinite]
    decide

theorem lt_nearestNat_ofDecimal {number : Nat} (above : Bounds.greatestNat32 < number) :
    Bounds.greatestNat32 < nearestNat (.ofDecimal false number 0) := by
  have ratio : Binary64.decimalRatio number 0 = ⟨number, 1⟩ := by
    rw [Binary64.decimalRatio, if_neg (by decide)]
    exact congrArg (Ratio.mk · 1) (Nat.mul_one number)
  rw [Bounds.greatestNat32] at above
  have rounded : Bounds.greatestNat32 < nearestNat (.ofRatio false ⟨number, 1⟩) := by
    apply lt_nearestNat_ofRatio Nat.one_pos
    dsimp only
    omega
  simp only [Binary64.ofDecimal, ratio]
  split
  · omega
  · split
    · decide
    · split
      · omega
      · exact rounded

/-! ## Ports -/

/-- A port is read from the value only if it is the integer, and the integer is read if it has 32
bits. -/
def Value.ReadsAs (value : Value) (n : Int) : Prop :=
  ∀ port : Nat, 0 < port →
    (value.toNumber = .ok port ↔ n = port ∧ port ≤ Bounds.greatestNat32)

theorem readsAs_of_toWide {value : Value} {wide : Nat} {n : Int} (read : value.toWide = .ok wide)
    (agree : n = wide ∨ (wide = 0 ∧ n ≤ 0) ∨
      (Bounds.greatestNat32 < wide ∧ (Bounds.greatestNat32 : Int) < n)) : value.ReadsAs n := by
  intro port positive
  rw [Value.toNumber, read]
  dsimp only
  split
  · constructor
    · intro refused
      cases refused
    · rintro ⟨same, small⟩
      omega
  · next small =>
      rw [Except.ok.injEq]
      omega

theorem readsAs_of_refused {value : Value} {mismatch : Mismatch} {n : Int}
    (refused : value.toWide = .error mismatch)
    (apart : n ≤ 0 ∨ (Bounds.greatestNat32 : Int) < n) : value.ReadsAs n := by
  intro port positive
  rw [Value.toNumber, refused]
  constructor
  · intro read
    cases read
  · rintro ⟨same, small⟩
    omega

theorem readsAs_int (n : Int) : Value.ReadsAs (.int n) n := by
  by_cases negative : n < 0
  · have refused : Value.toWide (.int n) = .error (.negative n) := by
      rw [Value.toWide, if_pos negative]
    exact readsAs_of_refused refused (.inl (by omega))
  · have read : Value.toWide (.int n) = .ok n.toNat := by
      rw [Value.toWide, if_neg negative]
    exact readsAs_of_toWide read (.inl (by omega))

theorem readsAs_of_nearestNat_zero {float : Binary64} {n : Int} (zero : nearestNat float = 0)
    (below : n ≤ 0) : Value.ReadsAs (.float float) n := by
  have read : Value.toWide (.float float) = .ok 0 := by
    rw [Value.toWide, zero]
  exact readsAs_of_toWide read (.inr (.inl ⟨rfl, below⟩))

theorem readsAs_of_lt_nearestNat {float : Binary64} {n : Int}
    (large : Bounds.greatestNat32 < nearestNat float) (above : (Bounds.greatestNat32 : Int) < n) :
    Value.ReadsAs (.float float) n := by
  have read : Value.toWide (.float float) = .ok (nearestNat float) := rfl
  exact readsAs_of_toWide read (.inr (.inr ⟨large, above⟩))

theorem apart_of_not_fits64 {n : Int} (beyond : ¬ Bounds.fits64 n = true) :
    n < 0 ∨ (Bounds.greatestNat32 : Int) < n := by
  rw [Bounds.fits64_iff] at beyond
  rw [Bounds.greatestNat32]
  omega

/-- The floating-point number nearest to an integer of more than 64 bits. -/
theorem readsAs_ofDecimal {negative : Bool} {number : Nat}
    (beyond : ¬ Bounds.fits64 (if negative then -(number : Int) else number) = true) :
    Value.ReadsAs (.float (.ofDecimal negative number 0))
      (if negative then -(number : Int) else number) := by
  have apart := apart_of_not_fits64 beyond
  cases negative with
  | true =>
      have zero := nearestNat_of_isNegative (Binary64.isNegative_ofDecimal true number 0)
      exact readsAs_of_nearestNat_zero zero (by rw [if_pos rfl]; omega)
  | false =>
      rw [if_neg Bool.false_ne_true] at apart ⊢
      have large : Bounds.greatestNat32 < number := by omega
      exact readsAs_of_lt_nearestNat (lt_nearestNat_ofDecimal large) (by omega)

theorem readsAs_ofInt {n : Int} (beyond : ¬ Bounds.fits64 n = true) :
    Value.ReadsAs (.float (.ofInt n)) n := by
  rcases apart_of_not_fits64 beyond with below | above
  · have negative : (Binary64.ofInt n).isNegative = true := by
      rw [Binary64.ofInt, Binary64.isNegative_ofRatio]
      exact decide_eq_true below
    exact readsAs_of_nearestNat_zero (nearestNat_of_isNegative negative) (by omega)
  · have notNegative : decide (n < 0) = false := decide_eq_false (by omega)
    have large : Bounds.greatestNat32 < nearestNat (.ofInt n) := by
      rw [Binary64.ofInt, notNegative]
      rw [Bounds.greatestNat32] at above
      apply lt_nearestNat_ofRatio Nat.one_pos
      dsimp only
      omega
    exact readsAs_of_lt_nearestNat large above

theorem nearestNat_withSign (number : Binary64) : nearestNat (number.withSign true) = 0 := by
  cases number <;> rfl

theorem lt_nearestNat_withSign {number : Binary64} (reaches : Reaches (2 ^ 60) number) :
    Bounds.greatestNat32 < nearestNat (number.withSign false) := by
  obtain ⟨⟨negative, mantissa, exponent, rfl⟩, above⟩ := reaches
  have unsigned : Reaches ((2 ^ 60 : Nat) : ℚ) (.finite false mantissa exponent) := by
    refine ⟨⟨_, _, _, rfl⟩, ?_⟩
    rw [Nat.cast_pow, Nat.cast_ofNat]
    exact above
  exact lt_of_lt_of_le (by decide) (le_nearestNat unsigned rfl (by decide))

/-! ## Texts -/

theorem toLower_of_isDigit {c : Char} (digit : c.isDigit = true) : c.toLower = c := by
  have bounds : '0'.val ≤ c.val ∧ c.val ≤ '9'.val := by simpa [Char.isDigit] using digit
  have notUpper : ¬ ('A'.val ≤ c.val ∧ c.val ≤ 'Z'.val) := by
    rintro ⟨upper, -⟩
    exact absurd (UInt32.le_trans upper bounds.2) (by decide)
  exact dif_neg notUpper

theorem contains_lower_eq_false {first : Char} {rest : List Char} (digit : first.isDigit = true)
    {words : List String}
    (others : ∀ word ∈ words, word.toList.head?.map Char.isDigit = some false) :
    words.contains ((String.ofList (first :: rest)).map Char.toLower) = false := by
  rw [← Bool.not_eq_true, List.contains_iff_mem]
  intro member
  have word := others _ member
  rw [String.toList_map, String.toList_ofList, List.map_cons, toLower_of_isDigit digit] at word
  have same : first.isDigit = false := Option.some.inj word
  rw [digit] at same
  cases same

theorem switch?_of_isDigit {first : Char} {rest : List Char} (digit : first.isDigit = true) :
    switch? (String.ofList (first :: rest)) = none := by
  have notOn : ["true", "on", "yes"].contains ((String.ofList (first :: rest)).map Char.toLower) =
      false := contains_lower_eq_false digit (by decide)
  have notOff : ["false", "off", "no"].contains ((String.ofList (first :: rest)).map Char.toLower) =
      false := contains_lower_eq_false digit (by decide)
  simp only [switch?, notOn, notOff, Bool.false_eq_true, if_false]

theorem toWide_string {first : Char} (rest : List Char) (digit : first.isDigit = true) :
    Value.toWide (.string (String.ofList (first :: rest))) =
      (Text.toBoundedNat Bounds.greatestNat64 (first :: rest)).mapError
        fun _ => .notInteger (.string (String.ofList (first :: rest))) := by
  rw [Value.toWide, switch?_of_isDigit digit, String.toList_ofList]
  cases Text.toBoundedNat Bounds.greatestNat64 (first :: rest) <;> rfl

theorem toBoundedNat_unsigned {limit : Nat} {first : Char} {rest : List Char}
    (digit : first.isDigit = true) :
    Text.toBoundedNat limit (first :: rest) = Text.magnitude limit .tooLarge (first :: rest) := by
  have unsigned : first ≠ '+' := by
    rintro rfl
    exact absurd digit (by decide)
  rw [Text.toBoundedNat]
  · exact List.cons_ne_nil _ _
  · intro digits same
    exact unsigned (List.cons.inj same).1

theorem readsAs_digits {text : String} {number : Nat}
    (spelled : Text.ofDigits? text.toList = some number) :
    Value.ReadsAs (.string text) number := by
  obtain ⟨first, rest, chars⟩ := List.exists_cons_of_ne_nil (Text.ne_nil_of_ofDigits? spelled)
  have same : text = String.ofList (first :: rest) := by rw [← chars, String.ofList_toList]
  subst same
  rw [String.toList_ofList] at spelled
  have digit := Text.isDigit_of_ofDigits? spelled first List.mem_cons_self
  have read := toWide_string rest digit
  rw [toBoundedNat_unsigned digit, Text.magnitude_of_ofDigits? .tooLarge spelled] at read
  by_cases bounded : number ≤ Bounds.greatestNat64
  · rw [if_pos bounded] at read
    exact readsAs_of_toWide read (.inl rfl)
  · rw [if_neg bounded] at read
    rw [Bounds.greatestNat64] at bounded
    refine readsAs_of_refused read (.inr ?_)
    rw [Bounds.greatestNat32]
    omega

theorem readsAs_marked {text : String} {mark : Char} {digits : List Char} {n : Int}
    (chars : text.toList = '0' :: mark :: digits) (notDigit : Text.digitValue? mark = none)
    (apart : n ≤ 0 ∨ (Bounds.greatestNat32 : Int) < n) : Value.ReadsAs (.string text) n := by
  have same : text = String.ofList ('0' :: mark :: digits) := by rw [← chars, String.ofList_toList]
  subst same
  have zero : Char.isDigit '0' = true := by decide
  have read := toWide_string (mark :: digits) zero
  rw [toBoundedNat_unsigned zero, Text.magnitude_marked _ _ digits notDigit] at read
  exact readsAs_of_refused read apart

/-! ## Integers as they are written -/

theorem readsAs_null {n : Int} (apart : n < 0 ∨ (Bounds.greatestNat32 : Int) < n) :
    Value.ReadsAs .null n := by
  have refused : Value.toWide .null = .error (.notInteger .null) := rfl
  exact readsAs_of_refused refused (by omega)

theorem readsAs_signed {text : String} {n : Int} {content : Content}
    (spelled : Text.signedDigits? text.toList = some n)
    (held : ofNode? (Yaml.Node.ofPlain text) = some content) : content.value.ReadsAs n := by
  obtain ⟨negative, number, reads, same⟩ := Binary64.ofChars?_of_signedDigits? spelled
  have isReal : (Binary64.ofChars? text.toList).isSome = true := by rw [reads]; rfl
  rw [Yaml.Node.ofPlain_of_signedDigits? spelled isReal] at held
  split at held
  · rw [ofNode?] at held
    cases held
    exact readsAs_int n
  · next beyond =>
      rw [ofNode?, reads] at held
      cases held
      subst same
      exact readsAs_ofDecimal beyond

theorem readsAs_plain {text : String} {n : Int} {content : Content}
    (spelled : Yaml.integer? text.toList = some n)
    (held : ofNode? (Yaml.Node.ofPlain text) = some content) : content.value.ReadsAs n := by
  rcases Yaml.Node.integer?_cases spelled with
    decimal | ⟨base, mark, digits, number, known, chars, digitsSpelled, rfl⟩
  · exact readsAs_signed decimal held
  · rw [Yaml.Node.ofPlain_marked chars known digitsSpelled] at held
    split at held
    · rw [ofNode?] at held
      cases held
      exact readsAs_int _
    · next beyond =>
        rw [ofNode?] at held
        cases held
        have notDigit := (Yaml.Node.readers_marked known digits).2.2.2
        have apart := apart_of_not_fits64 beyond
        exact readsAs_marked chars notDigit (by omega)

theorem readsAs_tagged {text : String} {n : Int} {content : Content}
    (spelled : Text.signedDigits? text.toList = some n)
    (held : ofNode? (Yaml.Node.ofCoreTag "int" text) = some content) : content.value.ReadsAs n := by
  obtain ⟨fault, read⟩ := Text.toInt64_of_signedDigits? spelled
  rw [Yaml.Node.ofCoreTag_int, read] at held
  by_cases fits : Bounds.fits64 n = true
  · rw [if_pos fits] at held
    cases held
    exact readsAs_int n
  · rw [if_neg fits] at held
    cases held
    exact readsAs_null (apart_of_not_fits64 fits)

theorem readsAs_json {integer rest : List Char} {n : Int} {json : Json}
    (spelled : Text.signedDigits? integer = some n)
    (read : Json.number (integer ++ rest) = some (json, rest)) :
    (valueOfJson json).ReadsAs n := by
  rcases Json.number_cases spelled read with
    rfl | ⟨below, scaled, rfl⟩ | ⟨above, scaled, rfl, reaches⟩
  · rw [valueOfJson]
    split
    · exact readsAs_int n
    · next beyond => exact readsAs_ofInt beyond
  · exact readsAs_of_nearestNat_zero (nearestNat_withSign scaled) below
  · have wide : (Bounds.greatestNat32 : Int) < n := by
      rw [Bounds.greatestNat64] at above
      rw [Bounds.greatestNat32]
      omega
    exact readsAs_of_lt_nearestNat (lt_nearestNat_withSign reaches) wide

/-- How an integer may be written where a setting takes its value from. -/
inductive Value.Denotes : Value → Int → Prop where
  /-- A plain text in a YAML file. -/
  | plain {text : String} {n : Int} {content : Content}
      (spelled : Yaml.integer? text.toList = some n)
      (held : ofNode? (Yaml.Node.ofPlain text) = some content) : Denotes content.value n
  /-- A plain text in a YAML file with the tag of integers. -/
  | tagged {text : String} {n : Int} {content : Content}
      (spelled : Yaml.integer? text.toList = some n)
      (held : ofNode? (Yaml.Node.ofCoreTag "int" text) = some content) : Denotes content.value n
  /-- A number that is taken off the text of a JSON file. -/
  | json {integer rest : List Char} {n : Int} {json : Json}
      (spelled : Text.signedDigits? integer = some n)
      (read : Json.number (integer ++ rest) = some (json, rest)) : Denotes (valueOfJson json) n
  /-- Digits in a variable, or in quotes. -/
  | digits {text : String} {number : Nat} (spelled : Text.ofDigits? text.toList = some number) :
      Denotes (.string text) number
  /-- A number on the command line, or one that the reader of a further format gives as it is. -/
  | whole (n : Int) : Denotes (.int n) n
  /-- An integer of more than 64 bits for which the reader of a further format gives the nearest
  floating-point number. -/
  | nearest {n : Int} (beyond : ¬ Bounds.fits64 n = true) : Denotes (.float (.ofInt n)) n

/-- No port is read from an integer but the integer itself. -/
theorem eq_of_denotes {value : Value} {n : Int} {port : Nat} (denotes : value.Denotes n)
    (positive : 0 < port) (read : value.toNumber = .ok port) : n = port := by
  have same (readsAs : value.ReadsAs n) : n = port := ((readsAs port positive).1 read).1
  cases denotes with
  | plain spelled held => exact same (readsAs_plain spelled held)
  | tagged spelled held =>
      rcases Yaml.Node.integer?_cases spelled with
        decimal | ⟨base, mark, digits, number, known, chars, digitsSpelled, rfl⟩
      · exact same (readsAs_tagged decimal held)
      · have notDigit := (Yaml.Node.readers_marked known digits).2.2.2
        rw [Yaml.Node.ofCoreTag_int, chars, Text.toInt64_marked digits notDigit] at held
        cases held
        cases read
  | json spelled numberRead => exact same (readsAs_json spelled numberRead)
  | digits spelled => exact same (readsAs_digits spelled)
  | whole => exact same (readsAs_int n)
  | nearest beyond => exact same (readsAs_ofInt beyond)

end RemoteRecords.Settings
