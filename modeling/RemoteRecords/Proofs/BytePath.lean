import RemoteRecords.Proofs.Path
import RemoteRecords.Proofs.Text.Repair

/-!
# Paths of bytes

A path of bytes that encode a text is the path of this text with its segments encoded
(`ofBytes_ofText`). Its file name, the stem of that and its parent are those of the path of the
text, encoded (`fileName?_encoded`, `stem_asBytes`, `parent_encoded`): slashes and dots are single
bytes, and no other character holds them.
-/

namespace RemoteRecords.Path

/-! ## Bytes one by one -/

theorem toNat_ofNat_byte (byte : UInt8) : (Char.ofNat byte.toNat).toNat = byte.toNat := by
  have bound := byte.toNat_lt
  have valid : byte.toNat.isValidChar := by
    left
    omega
  rw [Char.ofNat, dif_pos valid]
  rfl

theorem bytesOf_bytewise (bytes : Bytes) : bytesOf (bytewise bytes) = bytes := by
  induction bytes with
  | nil => rfl
  | cons byte bytes inductionHypothesis =>
      have back : (Char.ofNat byte.toNat).toNat.toUInt8 = byte := by
        rw [toNat_ofNat_byte]
        exact UInt8.ofNat_toNat
      have small : (Char.ofNat byte.toNat).toNat < 256 := by
        rw [toNat_ofNat_byte]
        exact byte.toNat_lt
      change bytesOf (Char.ofNat byte.toNat :: bytewise bytes) = byte :: bytes
      simp only [bytesOf, List.filterMap_cons, if_pos small, back]
      exact congrArg (byte :: ·) inductionHypothesis

theorem bytewise_append (first second : Bytes) :
    bytewise (first ++ second) = bytewise first ++ bytewise second := List.map_append

theorem mem_of_mem_bytesOf {chars : List Char} {ascii : Char}
    (member : ascii.toNat.toUInt8 ∈ bytesOf chars) (small : ascii.toNat < 128) : ascii ∈ chars := by
  obtain ⟨c, inside, stands⟩ := List.mem_filterMap.1 member
  split at stands
  · next bound =>
      have values := congrArg UInt8.toNat (Option.some.inj stands)
      simp only [Nat.toUInt8, UInt8.toNat_ofNat'] at values
      have same : c.toNat = ascii.toNat := by omega
      exact Char.toNat_inj.1 same ▸ inside
  · cases stands

theorem mem_of_mem_bytewise {bytes : Bytes} {ascii : Char} (member : ascii ∈ bytewise bytes)
    (small : ascii.toNat < 128) : ascii.toNat.toUInt8 ∈ bytes := by
  obtain ⟨byte, inside, rfl⟩ := List.mem_map.1 member
  rw [toNat_ofNat_byte]
  rwa [Nat.toUInt8, UInt8.ofNat_toNat]

/-! ## Characters by their bytes -/

/-- The bytes that encode characters. -/
def asBytes (chars : List Char) : List Char := bytewise (Bytes.encoding chars)

theorem bytesOf_asBytes (chars : List Char) : bytesOf (asBytes chars) = Bytes.encoding chars :=
  bytesOf_bytewise _

theorem asBytes_append (first second : List Char) :
    asBytes (first ++ second) = asBytes first ++ asBytes second := by
  rw [asBytes, Bytes.encoding_append, bytewise_append]
  rfl

theorem asBytes_cons_of_ascii {c : Char} (ascii : c.toNat < 128) (chars : List Char) :
    asBytes (c :: chars) = c :: asBytes chars := by
  have same : Char.ofNat c.toNat.toUInt8.toNat = c := by
    rw [Nat.toUInt8, UInt8.toNat_ofNat', Nat.mod_eq_of_lt (by omega), Char.ofNat_toNat]
  rw [asBytes, Bytes.encoding_cons, Bytes.utf8EncodeChar_of_ascii ascii, bytewise_append]
  exact congrArg (· :: asBytes chars) same

theorem not_mem_asBytes {chars : List Char} (ascii : Char) (small : ascii.toNat < 128)
    (absent : ascii ∉ chars) : ascii ∉ asBytes chars := fun member =>
  Bytes.byte_not_mem_encoding ascii small absent (mem_of_mem_bytewise member small)

theorem asBytes_inj {first second : List Char} :
    asBytes first = asBytes second ↔ first = second := by
  refine ⟨fun same => ?_, congrArg asBytes⟩
  have encodings := congrArg bytesOf same
  rw [bytesOf_asBytes, bytesOf_asBytes, ← Bytes.ofText_ofList, ← Bytes.ofText_ofList,
    Bytes.ofText_inj] at encodings
  exact String.ofList_injective encodings

theorem asBytes_eq_nil_iff {chars : List Char} : asBytes chars = [] ↔ chars = [] :=
  @asBytes_inj chars []

theorem asBytes_dot : asBytes ['.'] = ['.'] := asBytes_cons_of_ascii (by decide) []

theorem asBytes_eq_dot_iff {chars : List Char} : asBytes chars = ['.'] ↔ chars = ['.'] := by
  rw [← @asBytes_inj chars ['.'], asBytes_dot]

theorem asBytes_eq_dots_iff {chars : List Char} :
    asBytes chars = ['.', '.'] ↔ chars = ['.', '.'] := by
  have dots : asBytes ['.', '.'] = ['.', '.'] := by
    rw [asBytes_cons_of_ascii (by decide), asBytes_dot]
  rw [← @asBytes_inj chars ['.', '.'], dots]

/-! ## Pieces of paths -/

theorem splitOn_asBytes (chars : List Char) :
    Text.splitOn '/' (asBytes chars) = (Text.splitOn '/' chars).map asBytes := by
  induction chars with
  | nil => rfl
  | cons c rest inductionHypothesis =>
      by_cases slash : c = '/'
      · rw [slash, asBytes_cons_of_ascii (by decide), Text.splitOn, if_pos rfl, Text.splitOn,
          if_pos rfl, inductionHypothesis]
        rfl
      · have plain : '/' ∉ [c] := fun member => slash (List.mem_singleton.1 member).symm
        obtain ⟨first, pieces, split⟩ :=
          List.exists_cons_of_ne_nil (Text.splitOn_ne_nil '/' rest)
        rw [split] at inductionHypothesis
        rw [← List.singleton_append, Text.splitOn_append plain split, asBytes_append,
          Text.splitOn_append (not_mem_asBytes '/' (by decide) plain) inductionHypothesis,
          List.map_cons, asBytes_append]

/-- A path with its segments encoded. -/
def encoded (path : Path) : Path := ⟨path.rooted, path.segments.map asBytes⟩

theorem ofChars_asBytes (chars : List Char) :
    ofChars (asBytes chars) = (ofChars chars).encoded := by
  by_cases slash : chars.head? = some '/'
  · obtain ⟨rest, rfl⟩ := List.head?_eq_some_iff.1 slash
    rw [asBytes_cons_of_ascii (by decide)]
    exact congrArg (Path.mk true) (splitOn_asBytes rest)
  · have other : (asBytes chars).head? ≠ some '/' := by
      cases chars with
      | nil => exact nofun
      | cons c rest =>
          have plain : '/' ∉ [c] := fun member =>
            slash (congrArg some (List.mem_singleton.1 member).symm)
          have present : asBytes [c] ≠ [] := mt asBytes_eq_nil_iff.1 (List.cons_ne_nil c [])
          rw [← List.singleton_append, asBytes_append, List.head?_append_of_ne_nil _ present]
          exact fun first => not_mem_asBytes '/' (by decide) plain (List.mem_of_head? first)
    rw [ofChars_of_head?_ne slash, ofChars_of_head?_ne other, splitOn_asBytes]
    rfl

theorem ofBytes_ofText (text : String) : ofBytes (.ofText text) = (ofText text).encoded :=
  ofChars_asBytes text.toList

theorem isIdle_asBytes (segment : List Char) : isIdle (asBytes segment) = isIdle segment := by
  rw [Bool.eq_iff_iff]
  simp only [isIdle, Bool.or_eq_true, List.isEmpty_iff, beq_iff_eq, asBytes_eq_nil_iff,
    asBytes_eq_dot_iff]

theorem dropIdleEnd_map_asBytes (segments : List (List Char)) :
    dropIdleEnd (segments.map asBytes) = (dropIdleEnd segments).map asBytes := by
  have same : isIdle ∘ asBytes = isIdle := funext isIdle_asBytes
  rw [dropIdleEnd, dropIdleEnd, ← List.map_reverse, List.dropWhile_map, same, List.map_reverse]

theorem trimmed_encoded (path : Path) : path.encoded.trimmed = path.trimmed.map asBytes := by
  rcases path.dotted_or with ⟨rest, rfl⟩ | undotted
  · have dotted : (Path.mk false (['.'] :: rest)).encoded =
        ⟨false, ['.'] :: rest.map asBytes⟩ := by
      rw [encoded, List.map_cons, asBytes_dot]
    rw [dotted, trimmed_dotted, trimmed_dotted, List.map_cons, asBytes_dot,
      dropIdleEnd_map_asBytes]
  · have undottedBytes : path.encoded.rooted = false →
        path.encoded.segments.head? ≠ some ['.'] := by
      intro relative first
      obtain ⟨segment, found, dot⟩ := Option.map_eq_some_iff.1 (List.head?_map.symm.trans first)
      exact undotted relative (found.trans (congrArg some (asBytes_eq_dot_iff.1 dot)))
    rw [trimmed_undotted undottedBytes, trimmed_undotted undotted]
    exact dropIdleEnd_map_asBytes _

theorem fileName?_encoded (path : Path) : path.encoded.fileName? = path.fileName?.map asBytes := by
  rw [fileName?, fileName?, trimmed_encoded, List.getLast?_map]
  cases path.trimmed.getLast? with
  | none => rfl
  | some name =>
      simp only [Option.map_some, asBytes_eq_dot_iff, asBytes_eq_dots_iff]
      split <;> rfl

theorem parent_encoded (path : Path) : path.encoded.parent = path.parent.encoded := by
  have before := trimmed_encoded ⟨path.rooted, path.trimmed.dropLast⟩
  rw [parent, trimmed_encoded, ← List.map_dropLast]
  exact congrArg (Path.mk path.rooted) before

theorem IsDirectory.encoded {directory : Path} (isDirectory : directory.IsDirectory) :
    directory.encoded.IsDirectory := by
  refine ⟨?_, ?_, ?_⟩
  · intro segment member
    obtain ⟨chars, inside, rfl⟩ := List.mem_map.1 member
    exact not_mem_asBytes '/' (by decide) (isDirectory.plain chars inside)
  · rw [trimmed_encoded, isDirectory.trimmed]
    rfl
  · intro relative first
    obtain ⟨segment, found, empty⟩ := Option.map_eq_some_iff.1 (List.head?_map.symm.trans first)
    exact isDirectory.relative relative (found.trans (congrArg some (asBytes_eq_nil_iff.1 empty)))

/-! ## Stems -/

theorem StemOf.asBytes {name before : List Char} (isStem : StemOf name before) :
    StemOf (asBytes name) (asBytes before) := by
  cases isStem with
  | whole undotted =>
      refine .whole ?_
      cases name with
      | nil => exact undotted
      | cons c rest =>
          by_cases dot : c = '.'
          · rw [dot, asBytes_cons_of_ascii (by decide)]
            exact not_mem_asBytes '.' (by decide) undotted
          · have absent : '.' ∉ c :: rest := fun member =>
              (List.mem_cons.1 member).elim (fun same => dot same.symm) undotted
            exact fun inside =>
              not_mem_asBytes '.' (by decide) absent (List.mem_of_mem_tail inside)
  | dotted present last =>
      rw [asBytes_append, asBytes_cons_of_ascii (by decide)]
      exact .dotted (mt asBytes_eq_nil_iff.1 present) (not_mem_asBytes '.' (by decide) last)

theorem stem_asBytes (name : List Char) : stem (asBytes name) = asBytes (stem name) :=
  stemOf_iff.1 (stemOf_stem name).asBytes

end RemoteRecords.Path
