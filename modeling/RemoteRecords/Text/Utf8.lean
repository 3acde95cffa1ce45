namespace RemoteRecords

/-- What a file holds. -/
abbrev Bytes := List UInt8

namespace Bytes

/-! ## Well-formed text -/

/-- The bytes of a text. -/
def ofText (text : String) : Bytes :=
  text.toList.flatMap String.utf8EncodeChar

/-- The text that the bytes encode, when they are well formed. -/
def text? (bytes : Bytes) : Option String :=
  String.fromUTF8? bytes.toByteArray

theorem text?_ofText (text : String) : text? (ofText text) = some text := by
  have encoded : (ofText text).toByteArray = text.toByteArray :=
    String.utf8Encode_toList (b := text)
  have valid : (ofText text).toByteArray.IsValidUTF8 := encoded ▸ text.isValidUTF8
  rw [text?, String.fromUTF8?, dif_pos valid]
  congr 1
  exact String.toByteArray_inj.1 encoded

/-! ## Ill-formed sequences -/

/-- What a character that has begun still needs: the range of the next byte and the number of
further continuation bytes. -/
structure Pending where
  low : UInt8
  high : UInt8
  more : Nat

/-- What the first byte of a character asks for: `none` when it begins none, `some none` when it
is a character by itself. -/
def lead (byte : UInt8) : Option (Option Pending) :=
  if byte ≤ 0x7F then some none
  else if 0xC2 ≤ byte && byte ≤ 0xDF then some (some ⟨0x80, 0xBF, 0⟩)
  else if byte == 0xE0 then some (some ⟨0xA0, 0xBF, 1⟩)
  else if byte == 0xED then some (some ⟨0x80, 0x9F, 1⟩)
  else if 0xE1 ≤ byte && byte ≤ 0xEF then some (some ⟨0x80, 0xBF, 1⟩)
  else if byte == 0xF0 then some (some ⟨0x90, 0xBF, 2⟩)
  else if 0xF1 ≤ byte && byte ≤ 0xF3 then some (some ⟨0x80, 0xBF, 2⟩)
  else if byte == 0xF4 then some (some ⟨0x80, 0x8F, 2⟩)
  else none

/-- The bytes that continue a character, and whether they complete it. -/
def continuation (pending : Pending) : Bytes → Bytes × Bool
  | [] => ([], false)
  | byte :: rest =>
      if pending.low ≤ byte && byte ≤ pending.high then
        match pending.more with
        | 0 => ([byte], true)
        | more + 1 =>
            let (taken, complete) := continuation ⟨0x80, 0xBF, more⟩ rest
            (byte :: taken, complete)
      else ([], false)

/-- The bytes of the first character after its first byte, and whether it is well formed. -/
def tail (byte : UInt8) (rest : Bytes) : Bytes × Bool :=
  match lead byte with
  | none => ([], false)
  | some none => ([], true)
  | some (some pending) => continuation pending rest

/-- The number of leading bytes that are well formed. -/
def validUpTo : Bytes → Nat
  | [] => 0
  | byte :: rest =>
      let (taken, complete) := tail byte rest
      if complete then 1 + taken.length + validUpTo (rest.drop taken.length) else 0
termination_by bytes => bytes.length
decreasing_by simp only [List.length_drop, List.length_cons]; omega

/-- The bytes with every longest ill-formed start of a character replaced by U+FFFD. -/
def repaired : Bytes → Bytes
  | [] => []
  | byte :: rest =>
      let (taken, complete) := tail byte rest
      (if complete then byte :: taken else String.utf8EncodeChar '\uFFFD') ++
        repaired (rest.drop taken.length)
termination_by bytes => bytes.length
decreasing_by simp only [List.length_drop, List.length_cons]; omega

/-- The text of the bytes, with U+FFFD in place of what is ill formed. -/
def lossyText (bytes : Bytes) : String :=
  (text? (repaired bytes)).getD ""

/-- The bytes without a byte order mark at their start. -/
def withoutMark : Bytes → Bytes
  | 0xEF :: 0xBB :: 0xBF :: rest => rest
  | bytes => bytes

end Bytes

end RemoteRecords
