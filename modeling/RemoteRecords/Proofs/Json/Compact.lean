import RemoteRecords.Json.Parser
import RemoteRecords.Json.Printer
import Mathlib.Data.List.Basic

/-!
# Compact texts

Reading a quoted text undoes the escapes of writing it, whatever follows (`stringBody_escaped`). So
no quoted text begins with another one, and the compact text of a value of strings and lists
determines this value (`Textual.compactChars_inj`).
-/

namespace RemoteRecords.Json

/-! ## Escapes -/

theorem stringBody_unicode {a b c d : Char} {number : Nat}
    (spelled : hexFour? a b c d = some number) (plain : number < 0xD800) (rest : List Char) :
    stringBody ('\\' :: 'u' :: a :: b :: c :: d :: rest) =
      (stringBody rest).map fun (chars, after) => (Char.ofNat number :: chars, after) := by
  have noSurrogate : ¬ (0xD800 ≤ number ∧ number < 0xE000) := by omega
  -- The reader looks at a second escape behind the first, but only a surrogate takes it along.
  by_cases paired : ∃ e f g h later, rest = '\\' :: 'u' :: e :: f :: g :: h :: later
  · obtain ⟨e, f, g, h, later, rfl⟩ := paired
    rw [stringBody, spelled]
    simp only [if_neg noSurrogate]
  · rw [stringBody, spelled]
    · simp only [if_neg noSurrogate]
    · intro e f g h later same
      exact paired ⟨e, f, g, h, later, same⟩

theorem stringBody_escape {c escape : Char} (found : escaped? escape = some c) (rest : List Char) :
    stringBody ('\\' :: escape :: rest) =
      (stringBody rest).map fun (chars, after) => (c :: chars, after) := by
  have noUnicode : escape ≠ 'u' := by
    rintro rfl
    cases found
  rw [stringBody, found]
  · intro _ _ _ _ _ _ _ _ _ same
    exact absurd same noUnicode
  · intro _ _ _ _ _ same
    exact absurd same noUnicode

theorem stringBody_plain {c : Char} (noQuote : c ≠ '"') (noBackslash : c ≠ '\\')
    (noControl : ¬ c.toNat < 32) (rest : List Char) :
    stringBody (c :: rest) = (stringBody rest).map fun (chars, after) => (c :: chars, after) := by
  have allowed : ¬ (c.toNat < 32 ∨ c = '\\') := by simp [noControl, noBackslash]
  rw [stringBody]
  · simp only [if_neg allowed]
  · exact noQuote
  · intro _ _ _ _ _ _ _ _ _ same
    exact absurd same noBackslash
  · intro _ _ _ _ _ same
    exact absurd same noBackslash
  · intro _ _ same
    exact absurd same noBackslash

theorem hexFour?_control {number : Nat} (small : number < 32) :
    hexFour? '0' '0' (hexDigit (number / 16)) (hexDigit (number % 16)) = some number := by
  revert small number
  decide

theorem stringBody_escapeChar (c : Char) (rest : List Char) :
    stringBody (escapeChar c ++ rest) =
      (stringBody rest).map fun (chars, after) => (c :: chars, after) := by
  unfold escapeChar
  split_ifs with quote backslash backspace tab lineFeed formFeed carriageReturn control
  · subst quote
    exact stringBody_escape rfl rest
  · subst backslash
    exact stringBody_escape rfl rest
  · subst backspace
    exact stringBody_escape rfl rest
  · subst tab
    exact stringBody_escape rfl rest
  · subst lineFeed
    exact stringBody_escape rfl rest
  · subst formFeed
    exact stringBody_escape rfl rest
  · subst carriageReturn
    exact stringBody_escape rfl rest
  · have read := stringBody_unicode (hexFour?_control control) (by omega) rest
    rw [Char.ofNat_toNat] at read
    exact read
  · exact stringBody_plain quote backslash control rest

theorem stringBody_escaped (chars rest : List Char) :
    stringBody (chars.flatMap escapeChar ++ '"' :: rest) = some (chars, rest) := by
  induction chars with
  | nil => rw [List.flatMap_nil, List.nil_append, stringBody]
  | cons c chars inductionHypothesis =>
      rw [List.flatMap_cons, List.append_assoc, stringBody_escapeChar, inductionHypothesis]
      rfl

theorem quotedChars_append (text : String) (rest : List Char) :
    quotedChars text ++ rest = '"' :: (text.toList.flatMap escapeChar ++ '"' :: rest) := by
  simp [quotedChars]

/-- What begins with a quoted text begins with no other quoted text. -/
theorem quotedChars_append_inj {first second : String} {left right : List Char} :
    quotedChars first ++ left = quotedChars second ++ right ↔ first = second ∧ left = right := by
  constructor
  · intro same
    rw [quotedChars_append, quotedChars_append, List.cons.injEq] at same
    have read := stringBody_escaped first.toList left
    rw [same.2, stringBody_escaped, Option.some.injEq, Prod.mk.injEq, String.toList_inj] at read
    exact ⟨read.1.symm, read.2.symm⟩
  · rintro ⟨rfl, rfl⟩
    rfl

/-! ## Values of strings and lists -/

/-- A value that is made of strings and lists only. -/
inductive Textual : Json → Prop
  | string (text : String) : Textual (.string text)
  | array {items : List Json} : (∀ item ∈ items, Textual item) → Textual (.array items)

theorem compactItems_append (left right : List Json) :
    compactItems (left ++ right) = compactItems left ++ compactItems right := by
  induction left with
  | nil => rfl
  | cons item left inductionHypothesis =>
      simp only [List.cons_append, compactItems, inductionHypothesis, List.append_assoc]

theorem compact_inj {left right : Json} :
    left.compact = right.compact ↔ compactChars left = compactChars right := by
  rw [compact, compact, ← String.toList_inj, String.toList_ofList, String.toList_ofList]

/-- Lists that differ in one place have equal texts when the items there do. -/
theorem compactChars_array_inj {first left right : Json} {before after : List Json} :
    compactChars (.array (first :: (before ++ left :: after))) =
        compactChars (.array (first :: (before ++ right :: after))) ↔
      compactChars left = compactChars right := by
  simp [compactChars, compactItems_append, compactItems]

theorem compactChars_array_cons (item : Json) (items : List Json) (rest : List Char) :
    compactChars (.array (item :: items)) ++ rest =
      '[' :: (compactChars item ++ (compactItems items ++ ']' :: rest)) := by
  simp [compactChars]

theorem compactItems_cons (item : Json) (items : List Json) (rest : List Char) :
    compactItems (item :: items) ++ rest =
      ',' :: (compactChars item ++ (compactItems items ++ rest)) := by
  simp [compactItems]

theorem Textual.compactChars_begins {value : Json} (textual : Textual value) :
    ∃ c rest, compactChars value = c :: rest ∧ c ≠ ']' := by
  cases textual with
  | string text => exact ⟨'"', _, rfl, by decide⟩
  | @array items _ =>
      cases items with
      | nil => exact ⟨'[', _, rfl, by decide⟩
      | cons item items => exact ⟨'[', _, rfl, by decide⟩

/-- A value that can be told from others by the beginning of a text. -/
def Recognized (value : Json) : Prop :=
  ∀ other left right, Textual other →
    compactChars value ++ left = compactChars other ++ right → value = other ∧ left = right

theorem compactItems_append_inj {items others : List Json} {left right : List Char}
    (recognized : ∀ item ∈ items, Recognized item) (textual : ∀ other ∈ others, Textual other)
    (same : compactItems items ++ ']' :: left = compactItems others ++ ']' :: right) :
    items = others ∧ left = right := by
  induction items generalizing others with
  | nil =>
      cases others with
      | nil => exact ⟨rfl, (List.cons.inj same).2⟩
      | cons other others =>
          rw [compactItems_cons] at same
          cases same
  | cons item items inductionHypothesis =>
      obtain ⟨itemRecognized, itemsRecognized⟩ := List.forall_mem_cons.1 recognized
      cases others with
      | nil =>
          rw [compactItems_cons] at same
          cases same
      | cons other others =>
          obtain ⟨otherTextual, othersTextual⟩ := List.forall_mem_cons.1 textual
          rw [compactItems_cons, compactItems_cons, List.cons.injEq] at same
          obtain ⟨rfl, later⟩ := itemRecognized other _ _ otherTextual same.2
          obtain ⟨rfl, rest⟩ := inductionHypothesis itemsRecognized othersTextual later
          exact ⟨rfl, rest⟩

theorem Textual.recognized {value : Json} (textual : Textual value) : Recognized value := by
  induction textual with
  | string text =>
      rintro other left right otherTextual same
      cases otherTextual with
      | string otherText =>
          obtain ⟨rfl, rest⟩ := quotedChars_append_inj.1 same
          exact ⟨rfl, rest⟩
      | @array items _ => cases items <;> cases same
  | @array items itemsTextual inductionHypothesis =>
      rintro other left right otherTextual same
      cases otherTextual with
      | string otherText => cases items <;> cases same
      | @array others othersTextual =>
          cases items with
          | nil =>
              cases others with
              | nil =>
                  injection same with _ same
                  injection same with _ same
                  exact ⟨rfl, same⟩
              | cons other others =>
                  obtain ⟨c, chars, begins, different⟩ :=
                    (othersTextual other List.mem_cons_self).compactChars_begins
                  rw [compactChars_array_cons, begins] at same
                  injection same with _ same
                  injection same with same _
                  exact absurd same.symm different
          | cons item items =>
              cases others with
              | nil =>
                  obtain ⟨c, chars, begins, different⟩ :=
                    (itemsTextual item List.mem_cons_self).compactChars_begins
                  rw [compactChars_array_cons, begins] at same
                  injection same with _ same
                  injection same with same _
                  exact absurd same different
              | cons other others =>
                  obtain ⟨itemRecognized, itemsRecognized⟩ :=
                    List.forall_mem_cons.1 inductionHypothesis
                  obtain ⟨firstTextual, laterTextual⟩ := List.forall_mem_cons.1 othersTextual
                  rw [compactChars_array_cons, compactChars_array_cons, List.cons.injEq] at same
                  obtain ⟨rfl, later⟩ := itemRecognized other _ _ firstTextual same.2
                  obtain ⟨rfl, rest⟩ :=
                    compactItems_append_inj itemsRecognized laterTextual later
                  exact ⟨rfl, rest⟩

/-- A value of strings and lists is determined by its text. -/
theorem Textual.compactChars_inj {value other : Json} (textual : Textual value)
    (otherTextual : Textual other) (same : compactChars value = compactChars other) :
    value = other :=
  (textual.recognized other [] [] otherTextual (by rw [same])).1

end RemoteRecords.Json
