import Mathlib.Logic.Function.Iterate
import RemoteRecords.Import.ErrorFile
import RemoteRecords.Proofs.BytePath

/-!
# Error files of error files

The error file of a path that ends in a name lies in the same directory (`LiesIn.errorPathBy`). It
can be imported like any data file, with an error file of its own. All files that come about in this
way have different names (`LiesIn.fileName?_iterate_inj`): with each import the stem grows by one
mark, and what the name of the data file has beyond its stem begins with a dot, not with a mark.

For a path of bytes all this holds too, but the stem may be read as another one: it is read as it is
exactly when it is well formed (`readBytes_eq_iff`). If the whole path is, the error files are those
of the path as text (`LiesIn.iterate_errorPathOfBytes_encoded`).
-/

namespace RemoteRecords.Import

/-! ## Marks -/

/-- What the name of an error file adds to the stem, before its extension. -/
def errorMark : List Char := ['_', 'e', 'r', 'r']

def marks (count : Nat) : List Char := (List.replicate count errorMark).flatten

theorem marks_succ (count : Nat) : marks (count + 1) = errorMark ++ marks count := by
  rw [marks, List.replicate_succ, List.flatten_cons]
  rfl

theorem marks_succ_append (count : Nat) :
    marks (count + 1) ++ ".csv".toList = marks count ++ errorEnding.toList := by
  have ending : errorEnding.toList = errorMark ++ ".csv".toList := by decide
  rw [marks, List.replicate_succ', List.flatten_concat, ending, List.append_assoc]
  rfl

theorem length_marks (count : Nat) : (marks count).length = count * 4 := by
  rw [marks, List.length_flatten, List.map_replicate, List.sum_replicate_nat]
  rfl

/-! ## Readings of stems -/

/-- A reading makes no slash, and what it has made it reads as it is, also with marks behind it. -/
structure Reading (reading : List Char → List Char) : Prop where
  plain : ∀ {stem}, '/' ∉ stem → '/' ∉ reading stem
  settled : ∀ stem count, reading (reading stem ++ marks count) = reading stem ++ marks count

theorem reading_id : Reading id := ⟨id, fun _ _ => rfl⟩

theorem readBytes_asBytes (chars : List Char) :
    readBytes (Path.asBytes chars) = Path.asBytes chars := by
  rw [readBytes, Path.bytesOf_asBytes, ← Bytes.ofText_ofList, Bytes.lossyText_ofText,
    Bytes.ofText_ofList]
  rfl

/-- A stem is read as it is exactly when its bytes are those of a text. -/
theorem readBytes_eq_iff {stem : List Char} :
    readBytes stem = stem ↔ ∃ text : String, Path.bytewise (.ofText text) = stem := by
  constructor
  · exact fun same => ⟨_, same⟩
  · rintro ⟨text, rfl⟩
    exact readBytes_asBytes text.toList

theorem asBytes_marks (count : Nat) : Path.asBytes (marks count) = marks count := by
  induction count with
  | zero => rfl
  | succ count inductionHypothesis =>
      have mark : Path.asBytes errorMark = errorMark := by decide +kernel
      rw [marks_succ, Path.asBytes_append, mark, inductionHypothesis]

theorem reading_readBytes : Reading readBytes := by
  refine ⟨fun {stem} plain slash => ?_, fun stem count => ?_⟩
  · have read := Bytes.mem_of_mem_lossyText (Path.mem_of_mem_bytewise slash (by decide))
    rcases Bytes.mem_repaired read with held | added
    · exact plain (Path.mem_of_mem_bytesOf held (by decide))
    · exact absurd added (by decide +kernel)
  · have text : readBytes stem ++ marks count =
        Path.asBytes ((Path.bytesOf stem).lossyText.toList ++ marks count) := by
      rw [Path.asBytes_append, asBytes_marks]
      rfl
    rw [text, readBytes_asBytes]

/-! ## The error file of a path -/

/-- A path that ends in a name, below a directory. -/
structure LiesIn (path directory : Path) (name : List Char) : Prop where
  isDirectory : directory.IsDirectory
  parent : path.parent = directory
  named : path.fileName? = some name
  plain : '/' ∉ name

theorem liesIn_ofChars {chars name : List Char}
    (named : (Path.ofChars chars).fileName? = some name) :
    LiesIn (.ofChars chars) (Path.ofChars chars).parent name :=
  ⟨Path.isDirectory_parent chars, rfl, named,
    Path.plain_ofChars chars name (Path.mem_of_fileName? named)⟩

theorem isName_append_errorEnding (before : List Char) :
    Path.IsName (before ++ errorEnding.toList) := by
  have long : 8 ≤ (before ++ errorEnding.toList).length := by
    rw [List.length_append]
    exact Nat.le_add_left 8 _
  refine ⟨?_, fun up => ?_⟩
  · rw [Path.isIdle, Bool.or_eq_false_iff, List.isEmpty_eq_false_iff, beq_eq_false_iff_ne]
    refine ⟨fun empty => ?_, fun dot => ?_⟩
    · rw [empty] at long
      exact absurd long (by decide)
    · rw [dot] at long
      exact absurd long (by decide)
  · rw [up] at long
    exact absurd long (by decide)

section Chain

variable {reading : List Char → List Char} (isReading : Reading reading)
  {path directory : Path} {name : List Char} (lies : LiesIn path directory name)

include lies

theorem LiesIn.errorPathBy_eq :
    errorPathBy reading path =
      directory.push (reading (Path.stem name) ++ errorEnding.toList) := by
  rw [errorPathBy, Path.withFileName, lies.named, ← lies.parent]
  rfl

include isReading

theorem LiesIn.errorPathBy :
    LiesIn (errorPathBy reading path) directory
      (reading (Path.stem name) ++ errorEnding.toList) := by
  have proper := isName_append_errorEnding (reading (Path.stem name))
  have plainStem : '/' ∉ reading (Path.stem name) :=
    isReading.plain fun inside => lies.plain (Path.mem_of_mem_stem inside)
  have plain : '/' ∉ reading (Path.stem name) ++ errorEnding.toList := by
    intro inside
    rcases List.mem_append.1 inside with inStem | inEnding
    · exact plainStem inStem
    · exact absurd inEnding (by decide)
  rw [lies.errorPathBy_eq]
  exact ⟨lies.isDirectory, lies.isDirectory.parent_push proper plain,
    lies.isDirectory.fileName?_push proper plain, plain⟩

end Chain

example : (errorPath (.ofText "/data/.res.partner.csv/")).text = "/data/.res.partner_err.csv" := by
  decide +kernel

/-! ## One import after another -/

/-- The name of the file that is imported after so many imports: the data file's own at first, then
that of an error file. -/
def retryName (reading : List Char → List Char) (name : List Char) : Nat → List Char
  | 0 => name
  | count + 1 => reading (Path.stem name) ++ (marks (count + 1) ++ ".csv".toList)

section Retries

variable {reading : List Char → List Char} (isReading : Reading reading) (name : List Char)

theorem stem_retryName_succ (count : Nat) :
    Path.stem (retryName reading name (count + 1)) =
      reading (Path.stem name) ++ marks (count + 1) := by
  have present : reading (Path.stem name) ++ marks (count + 1) ≠ [] := by
    rw [marks_succ]
    exact List.append_ne_nil_of_right_ne_nil _ (List.cons_ne_nil _ _)
  rw [retryName, ← List.append_assoc]
  exact Path.stem_append_extension present (by decide)

theorem length_retryName_succ (count : Nat) :
    (retryName reading name (count + 1)).length =
      (reading (Path.stem name)).length + 4 * count + 8 := by
  have extension : ".csv".toList.length = 4 := by decide
  rw [retryName, List.length_append, List.length_append, length_marks, extension]
  omega

include isReading

theorem reading_stem_retryName (count : Nat) :
    reading (Path.stem (retryName reading name count)) =
      reading (Path.stem name) ++ marks count := by
  cases count with
  | zero => exact (List.append_nil _).symm
  | succ count => rw [stem_retryName_succ, isReading.settled]

theorem retryName_succ (count : Nat) :
    retryName reading name (count + 1) =
      reading (Path.stem (retryName reading name count)) ++ errorEnding.toList := by
  rw [reading_stem_retryName isReading, List.append_assoc, ← marks_succ_append]
  rfl

/-- A name that came back would be one whose stem is read as it is, with marks. -/
theorem retryName_succ_ne (count : Nat) : retryName reading name (count + 1) ≠ name := by
  intro same
  have stems : reading (Path.stem name) = reading (Path.stem name) ++ marks (count + 1) := by
    rw [← reading_stem_retryName isReading name (count + 1), same]
  have lengths := congrArg List.length stems
  rw [List.length_append, length_marks] at lengths
  omega

theorem retryName_inj {first second : Nat}
    (same : retryName reading name first = retryName reading name second) : first = second := by
  cases first with
  | zero => cases second with
    | zero => rfl
    | succ second => exact absurd same.symm (retryName_succ_ne isReading name second)
  | succ first => cases second with
    | zero => exact absurd same (retryName_succ_ne isReading name first)
    | succ second =>
        have lengths := congrArg List.length same
        rw [length_retryName_succ, length_retryName_succ] at lengths
        omega

end Retries

section Chain

variable {reading : List Char → List Char} (isReading : Reading reading)
  {path directory : Path} {name : List Char} (lies : LiesIn path directory name)

include lies isReading

/-- Every import leaves the directory as it is and the name with one mark more. -/
theorem LiesIn.iterate (count : Nat) :
    LiesIn ((Import.errorPathBy reading)^[count] path) directory
      (retryName reading name count) := by
  induction count with
  | zero => exact lies
  | succ count inductionHypothesis =>
      rw [Function.iterate_succ_apply', retryName_succ isReading]
      exact inductionHypothesis.errorPathBy isReading

/-- No name comes back. -/
theorem LiesIn.fileName?_iterate_inj {first second : Nat}
    (same : ((Import.errorPathBy reading)^[first] path).fileName? =
      ((Import.errorPathBy reading)^[second] path).fileName?) : first = second := by
  rw [(lies.iterate isReading first).named, (lies.iterate isReading second).named] at same
  exact retryName_inj isReading name (Option.some.inj same)

end Chain

/-! ## Paths of encoded text -/

theorem LiesIn.encoded {path directory : Path} {name : List Char}
    (lies : LiesIn path directory name) :
    LiesIn path.encoded directory.encoded (Path.asBytes name) := by
  refine ⟨lies.isDirectory.encoded, ?_, ?_, Path.not_mem_asBytes '/' (by decide) lies.plain⟩
  · rw [Path.parent_encoded, lies.parent]
  · rw [Path.fileName?_encoded, lies.named]
    rfl

/-- The error file of an encoded path is that of the path, encoded. -/
theorem LiesIn.errorPathOfBytes_encoded {path directory : Path} {name : List Char}
    (lies : LiesIn path directory name) :
    errorPathOfBytes path.encoded = (errorPath path).encoded := by
  have proper := isName_append_errorEnding (Path.stem name)
  have properBytes := isName_append_errorEnding (Path.asBytes (Path.stem name))
  have next := lies.errorPathBy reading_id
  have nextBytes := lies.encoded.errorPathBy reading_readBytes
  have ending : Path.asBytes errorEnding.toList = errorEnding.toList := by decide +kernel
  rw [Path.stem_asBytes, readBytes_asBytes] at nextBytes
  rw [errorPathOfBytes, errorPath, lies.encoded.errorPathBy_eq, lies.errorPathBy_eq,
    Path.stem_asBytes, readBytes_asBytes,
    lies.encoded.isDirectory.push_eq properBytes.ne_nil nextBytes.plain, id,
    lies.isDirectory.push_eq proper.ne_nil next.plain, Path.encoded, Path.encoded,
    List.map_append, List.map_singleton, Path.asBytes_append, ending]

theorem LiesIn.iterate_errorPathOfBytes_encoded {path directory : Path} {name : List Char}
    (lies : LiesIn path directory name) (count : Nat) :
    errorPathOfBytes^[count] path.encoded = (errorPath^[count] path).encoded := by
  induction count with
  | zero => rfl
  | succ count inductionHypothesis =>
      rw [Function.iterate_succ_apply', inductionHypothesis, Function.iterate_succ_apply']
      exact (lies.iterate reading_id count).errorPathOfBytes_encoded

end RemoteRecords.Import
