import RemoteRecords.Proofs.Text.Integers
import RemoteRecords.Yaml.Node

/-!
# Integers in YAML

A plain text spells an integer of any size in decimal digits, or behind the mark of a base
(`integer?`). Such a text stands for the integer when this fits 64 bits. Else a decimal is a number
of unbounded size, and a text with a mark is just a text (`ofPlain_of_signedDigits?`,
`ofPlain_marked`).
-/

namespace RemoteRecords.Yaml

/-! ## Plain integers -/

/-- The number that digits to a base spell, of any size. -/
def radixDigits? (base : Nat) (digits : List Char) : Option Nat :=
  if digits.isEmpty then none
  else
    digits.foldlM (fun high c =>
      (Json.hexValue? c).bind fun digit =>
        if digit < base then some (base * high + digit) else none) 0

/-- The integer that a plain text spells, of any size: decimal digits with a sign or without, or
digits behind the mark of the base sixteen or eight. -/
def integer? : List Char → Option Int
  | '0' :: 'x' :: digits => (radixDigits? 16 digits).map Int.ofNat
  | '0' :: 'o' :: digits => (radixDigits? 8 digits).map Int.ofNat
  | chars => Text.signedDigits? chars

theorem integer?_of_signedDigits? {chars : List Char} {n : Int}
    (spelled : Text.signedDigits? chars = some n) : integer? chars = some n := by
  rw [integer?.eq_def]
  split
  · cases spelled
  · cases spelled
  · exact spelled

theorem radixDigits?_of_not_digit (base : Nat) {c : Char} (rest : List Char)
    (noDigit : Json.hexValue? c = none) : radixDigits? base (c :: rest) = none := by
  simp [radixDigits?, noDigit]

namespace Node

theorem radixInteger?_of_radixDigits? {base number : Nat} {digits : List Char}
    (spelled : radixDigits? base digits = some number) :
    radixInteger? base digits = if Bounds.fits64 number then some (number : Int) else none := by
  cases digits with
  | nil => cases spelled
  | cons first rest =>
      have notMinus : first ≠ '-' := by
        rintro rfl
        rw [radixDigits?_of_not_digit base rest (by decide)] at spelled
        cases spelled
      have notPlus : first ≠ '+' := by
        rintro rfl
        rw [radixDigits?_of_not_digit base rest (by decide)] at spelled
        cases spelled
      rw [radixDigits?, if_neg (by simp)] at spelled
      simp [radixInteger?, notMinus, notPlus, spelled, -List.foldlM_cons]

theorem markedInteger?_of_signedDigits? {chars : List Char} {n : Int}
    (spelled : Text.signedDigits? chars = some n) :
    markedInteger? chars = none ∨ markedInteger? chars = some n ∧ Bounds.fits64 n = true := by
  rw [markedInteger?.eq_def]
  split
  · cases spelled
  · cases spelled
  · obtain ⟨fault, read⟩ := Text.toInt64_of_signedDigits? (Text.signedDigits?_of_plus spelled)
    rw [read]
    split
    · next fits => exact .inr ⟨rfl, fits⟩
    · exact .inl rfl
  · exact .inl rfl

/-! ## Plain texts -/

/-- No word of the language spells an integer. -/
theorem contains_eq_false {text : String} {n : Int} (spelled : integer? text.toList = some n)
    {words : List String} (others : ∀ word ∈ words, integer? word.toList = none) :
    words.contains text = false := by
  rw [← Bool.not_eq_true, List.contains_iff_mem]
  intro member
  rw [others text member] at spelled
  cases spelled

theorem ofPlain_of_unmarked {text : String} {n : Int} (spelled : integer? text.toList = some n)
    (unmarked : markedInteger? text.toList = none) :
    ofPlain text =
      match Text.toInt64 text.toList with
      | .ok value => int value
      | .error _ => if (Binary64.ofChars? text.toList).isSome then real text else string text := by
  have notNull : ["", "~", "null"].contains text = false :=
    contains_eq_false spelled (by decide)
  have notTrue : ["true", "True", "TRUE"].contains text = false :=
    contains_eq_false spelled (by decide)
  have notFalse : ["false", "False", "FALSE"].contains text = false :=
    contains_eq_false spelled (by decide)
  have bounded : unboundedTexts.contains text = false := contains_eq_false spelled (by decide)
  rw [ofPlain, unmarked]
  cases Text.toInt64 text.toList with
  | ok value => simp only [notNull, notTrue, notFalse, Bool.false_eq_true, if_false]
  | error fault =>
      simp only [notNull, notTrue, notFalse, isReal, bounded, Bool.false_or, Bool.false_eq_true,
        if_false]

/-- A decimal integer is an integer if it fits 64 bits, and else a number of unbounded size. -/
theorem ofPlain_of_signedDigits? {text : String} {n : Int}
    (spelled : Text.signedDigits? text.toList = some n)
    (reads : (Binary64.ofChars? text.toList).isSome = true) :
    ofPlain text = if Bounds.fits64 n then int n else real text := by
  rcases markedInteger?_of_signedDigits? spelled with unmarked | ⟨marked, fits⟩
  · obtain ⟨fault, read⟩ := Text.toInt64_of_signedDigits? spelled
    rw [ofPlain_of_unmarked (integer?_of_signedDigits? spelled) unmarked, read, if_pos reads]
    by_cases fits : Bounds.fits64 n = true
    · rw [if_pos fits, if_pos fits]
    · rw [if_neg fits, if_neg fits]
  · rw [ofPlain, marked, if_pos fits]

/-- The marks of the bases before their digits. -/
def marks : List (Nat × Char) := [(16, 'x'), (8, 'o')]

theorem readers_marked {base : Nat} {mark : Char} (known : (base, mark) ∈ marks)
    (digits : List Char) :
    integer? ('0' :: mark :: digits) = (radixDigits? base digits).map Int.ofNat ∧
      markedInteger? ('0' :: mark :: digits) = radixInteger? base digits ∧
      Binary64.ofChars? ('0' :: mark :: digits) = none ∧ Text.digitValue? mark = none := by
  rcases List.mem_cons.1 known with same | known
  · cases same
    exact ⟨rfl, rfl, rfl, rfl⟩
  · cases List.mem_singleton.1 known
    exact ⟨rfl, rfl, rfl, rfl⟩

theorem integer?_cases {chars : List Char} {n : Int} (spelled : integer? chars = some n) :
    Text.signedDigits? chars = some n ∨
      ∃ base mark digits number, (base, mark) ∈ marks ∧ chars = '0' :: mark :: digits ∧
        radixDigits? base digits = some number ∧ n = number := by
  rw [integer?.eq_def] at spelled
  split at spelled
  · next digits =>
      obtain ⟨number, digitsSpelled, rfl⟩ := Option.map_eq_some_iff.1 spelled
      exact .inr ⟨16, 'x', digits, number, by decide, rfl, digitsSpelled, rfl⟩
  · next digits =>
      obtain ⟨number, digitsSpelled, rfl⟩ := Option.map_eq_some_iff.1 spelled
      exact .inr ⟨8, 'o', digits, number, by decide, rfl, digitsSpelled, rfl⟩
  · exact .inl spelled

/-- Behind a mark of its base an integer that does not fit 64 bits is a text. -/
theorem ofPlain_marked {text : String} {base number : Nat} {mark : Char} {digits : List Char}
    (chars : text.toList = '0' :: mark :: digits) (known : (base, mark) ∈ marks)
    (spelled : radixDigits? base digits = some number) :
    ofPlain text = if Bounds.fits64 number then int number else string text := by
  obtain ⟨integer, marked, noReal, notDigit⟩ := readers_marked known digits
  rw [← chars] at integer marked noReal
  rw [spelled] at integer
  rw [radixInteger?_of_radixDigits? spelled] at marked
  by_cases fits : Bounds.fits64 number = true
  · rw [if_pos fits] at marked ⊢
    rw [ofPlain, marked]
  · rw [if_neg fits] at marked ⊢
    rw [ofPlain_of_unmarked integer marked, chars, Text.toInt64_marked digits notDigit, ← chars, noReal]
    rfl

theorem ofCoreTag_int (text : String) :
    ofCoreTag "int" text =
      match Text.toInt64 text.toList with
      | .ok value => .int value
      | .error _ => .invalid := rfl

end Node

end RemoteRecords.Yaml
