import RemoteRecords.Text.Utf8

/-!
# Bytes of characters

An ASCII character is one byte, and this byte occurs in the encoding of no other character
(`byte_not_mem_encoding`). A text begins with the byte order mark only when its first character is
U+FEFF (`withoutMark_encoding`).
-/

namespace RemoteRecords.Bytes

/-- The bytes of characters. -/
def encoding (chars : List Char) : Bytes := chars.flatMap String.utf8EncodeChar

theorem ofText_eq_encoding (text : String) : ofText text = encoding text.toList := rfl

theorem ofText_inj {first second : String} : ofText first = ofText second ↔ first = second := by
  constructor
  · intro same
    have read := text?_ofText first
    rw [same, text?_ofText] at read
    exact (Option.some.inj read).symm
  · exact congrArg ofText

theorem ofText_ofList (chars : List Char) : ofText (String.ofList chars) = encoding chars := by
  rw [ofText_eq_encoding, String.toList_ofList]

theorem encoding_cons (c : Char) (chars : List Char) :
    encoding (c :: chars) = String.utf8EncodeChar c ++ encoding chars := List.flatMap_cons

theorem encoding_append (left right : List Char) :
    encoding (left ++ right) = encoding left ++ encoding right := List.flatMap_append

/-! ## ASCII characters -/

theorem utf8EncodeChar_of_ascii {c : Char} (ascii : c.toNat < 128) :
    String.utf8EncodeChar c = [c.toNat.toUInt8] := by
  have small : c.val.toNat ≤ 127 := Nat.le_of_lt_succ ascii
  simp only [String.utf8EncodeChar, small, if_true]
  rfl

/-- All bytes of a character beyond ASCII lie beyond ASCII. -/
theorem le_of_mem_utf8EncodeChar {c : Char} (wide : 128 ≤ c.toNat) {byte : UInt8}
    (member : byte ∈ String.utf8EncodeChar c) : 128 ≤ byte.toNat := by
  have large : ¬ c.val.toNat ≤ 127 := by
    rw [Char.toNat_val]
    omega
  simp only [String.utf8EncodeChar, large, if_false] at member
  split at member
  · simp only [List.mem_cons, List.not_mem_nil, or_false] at member
    rcases member with rfl | rfl <;> rw [UInt8.toNat_ofNat'] <;> omega
  · split at member
    · simp only [List.mem_cons, List.not_mem_nil, or_false] at member
      rcases member with rfl | rfl | rfl <;> rw [UInt8.toNat_ofNat'] <;> omega
    · simp only [List.mem_cons, List.not_mem_nil, or_false] at member
      rcases member with rfl | rfl | rfl | rfl <;> rw [UInt8.toNat_ofNat'] <;> omega

theorem byte_not_mem_utf8EncodeChar {c : Char} (ascii : Char) (small : ascii.toNat < 128)
    (different : c ≠ ascii) : ascii.toNat.toUInt8 ∉ String.utf8EncodeChar c := by
  have byteValue : ascii.toNat.toUInt8.toNat = ascii.toNat := by
    rw [Nat.toUInt8, UInt8.toNat_ofNat']
    omega
  intro member
  by_cases cSmall : c.toNat < 128
  · rw [utf8EncodeChar_of_ascii cSmall, List.mem_singleton] at member
    have sameValue : ascii.toNat = c.toNat := by
      have values := congrArg UInt8.toNat member
      rw [byteValue, Nat.toUInt8, UInt8.toNat_ofNat'] at values
      omega
    exact different (Char.toNat_inj.1 sameValue.symm)
  · have large := le_of_mem_utf8EncodeChar (Nat.le_of_not_lt cSmall) member
    omega

theorem byte_not_mem_encoding {chars : List Char} (ascii : Char) (small : ascii.toNat < 128)
    (absent : ascii ∉ chars) : ascii.toNat.toUInt8 ∉ encoding chars := by
  intro member
  obtain ⟨c, cMember, byteMember⟩ := List.mem_flatMap.1 member
  have different : c ≠ ascii := fun same => absent (same ▸ cMember)
  exact byte_not_mem_utf8EncodeChar ascii small different byteMember

/-! ## The byte order mark -/

/-- The character that begins some bytes is determined by them. -/
theorem eq_of_utf8EncodeChar_append_eq {c d : Char} {left right : Bytes}
    (same : String.utf8EncodeChar c ++ left = String.utf8EncodeChar d ++ right) : c = d := by
  have decoded : ∀ (e : Char) (rest : Bytes),
      (String.utf8EncodeChar e ++ rest).toByteArray.utf8DecodeChar? 0 = some e := by
    intro e rest
    rw [List.toByteArray_append]
    exact ByteArray.utf8DecodeChar?_utf8EncodeChar_append
  have first := decoded c left
  rw [same, decoded d right] at first
  exact (Option.some.inj first).symm

theorem withoutMark_encoding {chars : List Char} (unmarked : chars.head? ≠ some '\uFEFF') :
    (encoding chars).withoutMark = encoding chars := by
  rw [withoutMark.eq_def]
  split
  · next rest bytes =>
      cases chars with
      | nil => cases bytes
      | cons c chars =>
          have marked : String.utf8EncodeChar c ++ encoding chars =
              String.utf8EncodeChar '\uFEFF' ++ rest := by
            rw [← encoding_cons, bytes]
            rfl
          have first := eq_of_utf8EncodeChar_append_eq marked
          exact absurd (by rw [first]; rfl) unmarked
  · rfl

end RemoteRecords.Bytes
