import RemoteRecords.Proofs.Run.Turns

/-!
# Imports of error files

The rows that an import rejects can be imported again from its error file, and so on from the error
file of that import. Each import writes to a file of its own beside the data file, and no import
changes a file that an earlier one has read or written (`errorFilesDistinct_of_fileName?`). The name
of an error file begins with the stem of the data file's name when this is well-formed text
(`errorFiles_apart_iff`).
-/

namespace RemoteRecords.Run

open Session (Reply)

namespace Turn

/-- The files that a turn leaves behind. -/
def filesAfter (turn : Turn) (exhausted : Reply) : FileTree :=
  ((run turn.surroundings turn.invocation).replay exhausted turn.replies).value.files

/-- A turn is asked to import the file at a path. -/
def Takes (turn : Turn) (path : Path) : Prop :=
  ∃ model offset limit file, turn.invocation.command = .send model offset limit file ∧
    file.pathFor model = path

/-- A turn keeps every file whose name is not that of its error file. -/
theorem Takes.openFile_filesAfter {turn : Turn} {path other : Path} (takes : turn.Takes path)
    (exhausted : Reply) {bytes : Bytes}
    (different : (Import.errorPath path).fileName? ≠ other.fileName?)
    (opened : turn.surroundings.files.openFile other = .ok (some bytes)) :
    (turn.filesAfter exhausted).openFile other = .ok (some bytes) := by
  obtain ⟨model, offset, limit, file, asked, rfl⟩ := takes
  rcases files_run asked exhausted turn.replies with same | ⟨names, bytes, created, put⟩
  · rw [filesAfter, same]
    exact opened
  · rw [filesAfter, put]
    exact FileTree.openFile_put opened created different

end Turn

/-- Turns that begin with a data file and go on with error files: each finds the files as the one
before has left them and imports the error file of that one. -/
structure Retries (turns : Nat → Turn) (exhausted : Reply) (path : Path) (count : Nat) : Prop where
  takes : ∀ index < count, (turns index).Takes (Import.errorPath^[index] path)
  goesOn : ∀ index < count,
    (turns (index + 1)).surroundings.files = (turns index).filesAfter exhausted

section Kept

variable {path directory : Path} {name : List Char} (lies : Import.LiesIn path directory name)
  {bytes : Bytes}

include lies

theorem openFile_filesAfter_of_le {turn : Turn} {index place : Nat}
    (takes : turn.Takes (Import.errorPath^[index] path)) (exhausted : Reply)
    (read : place ≤ index)
    (opened : turn.surroundings.files.openFile (Import.errorPath^[place] path) =
      .ok (some bytes)) :
    (turn.filesAfter exhausted).openFile (Import.errorPath^[place] path) = .ok (some bytes) := by
  refine takes.openFile_filesAfter exhausted ?_ opened
  rw [← Function.iterate_succ_apply' Import.errorPath]
  intro same
  have equal : index.succ = place := lies.fileName?_iterate_inj Import.reading_id same
  omega

theorem Retries.openFile_kept {turns : Nat → Turn} {exhausted : Reply} {count : Nat}
    (retries : Retries turns exhausted path count) {place earlier later : Nat}
    (read : place ≤ earlier) (ordered : earlier ≤ later) (inRange : later ≤ count)
    (opened : (turns earlier).surroundings.files.openFile (Import.errorPath^[place] path) =
      .ok (some bytes)) :
    (turns later).surroundings.files.openFile (Import.errorPath^[place] path) =
      .ok (some bytes) := by
  induction later, ordered using Nat.le_induction with
  | base => exact opened
  | succ later ordered inductionHypothesis =>
      have before := inductionHypothesis (Nat.le_of_succ_le inRange)
      rw [retries.goesOn later inRange]
      exact openFile_filesAfter_of_le lies (retries.takes later inRange) exhausted
        (read.trans ordered) before

end Kept

/-! ## Paths of bytes -/

/-- What the error files of a path of bytes are to it and to each other. -/
structure ErrorFilesDistinct (bytes : Bytes) : Prop where
  beside : (Import.errorPathOfBytes (.ofBytes bytes)).parent = (Path.ofBytes bytes).parent
  other : Import.errorPathOfBytes (.ofBytes bytes) ≠ .ofBytes bytes
  distinct : ∀ first second, first ≠ second →
    Import.errorPathOfBytes^[first] (.ofBytes bytes) ≠
        Import.errorPathOfBytes^[second] (.ofBytes bytes) ∧
      (Import.errorPathOfBytes^[first] (.ofBytes bytes)).fileName? ≠
        (Import.errorPathOfBytes^[second] (.ofBytes bytes)).fileName?
  /-- The bytes of a text have the error files of the text. -/
  encoded : ∀ text, Bytes.ofText text = bytes → ∀ count,
    Import.errorPathOfBytes^[count] (.ofBytes bytes) =
      (Import.errorPath^[count] (.ofText text)).encoded
  /-- An import keeps its data file and all files from whose error files this one comes. -/
  kept : ∀ text, Bytes.ofText text = bytes → ∀ (turn : Turn) (exhausted : Reply) (index : Nat),
    turn.Takes (Import.errorPath^[index] (.ofText text)) → ∀ place ≤ index, ∀ held,
      turn.surroundings.files.openFile (Import.errorPath^[place] (.ofText text)) =
          .ok (some held) →
        (turn.filesAfter exhausted).openFile (Import.errorPath^[place] (.ofText text)) =
          .ok (some held)
  /-- So do all imports that follow. -/
  keptOn : ∀ text, Bytes.ofText text = bytes →
    ∀ (turns : Nat → Turn) (exhausted : Reply) (count : Nat),
      Retries turns exhausted (.ofText text) count →
        ∀ place earlier later, place ≤ earlier → earlier ≤ later → later ≤ count → ∀ held,
          (turns earlier).surroundings.files.openFile (Import.errorPath^[place] (.ofText text)) =
              .ok (some held) →
            (turns later).surroundings.files.openFile (Import.errorPath^[place] (.ofText text)) =
              .ok (some held)

/-- The same, and the error file has the stem of the data file. -/
structure ErrorFilesApart (bytes : Bytes) (name : List Char) : Prop
    extends ErrorFilesDistinct bytes where
  /-- The name has one stem, and the name of the error file begins with it. -/
  named : ∃ stem, (∀ before, Path.StemOf name before ↔ before = stem) ∧
    (Import.errorPathOfBytes (.ofBytes bytes)).fileName? =
      some (stem ++ Import.errorEnding.toList)

section Named

variable {bytes : Bytes} {name : List Char} (named : (Path.ofBytes bytes).fileName? = some name)

include named

theorem liesIn_of_encodes {text : String} (encodes : Bytes.ofText text = bytes) :
    ∃ name, Import.LiesIn (.ofText text) (Path.ofText text).parent name := by
  rw [← encodes, Path.ofBytes_ofText, Path.fileName?_encoded] at named
  obtain ⟨name, found, -⟩ := Option.map_eq_some_iff.1 named
  exact ⟨name, Import.liesIn_ofChars found⟩

theorem errorFilesDistinct_of_fileName? : ErrorFilesDistinct bytes := by
  have lies := Import.liesIn_ofChars named
  have isReading := Import.reading_readBytes
  have apart : ∀ first second, first ≠ second →
      (Import.errorPathOfBytes^[first] (.ofBytes bytes)).fileName? ≠
        (Import.errorPathOfBytes^[second] (.ofBytes bytes)).fileName? :=
    fun first second different same => different (lies.fileName?_iterate_inj isReading same)
  refine ⟨(lies.errorPathBy isReading).parent, ?_, ?_, ?_, ?_, ?_⟩
  · exact fun same => apart 1 0 Nat.one_ne_zero (congrArg Path.fileName? same)
  · intro first second different
    exact ⟨fun same => apart first second different (congrArg Path.fileName? same),
      apart first second different⟩
  · intro text encodes count
    obtain ⟨_, liesText⟩ := liesIn_of_encodes named encodes
    rw [← encodes, Path.ofBytes_ofText]
    exact liesText.iterate_errorPathOfBytes_encoded count
  · intro text encodes turn exhausted index takes place before held opened
    obtain ⟨_, liesText⟩ := liesIn_of_encodes named encodes
    exact openFile_filesAfter_of_le liesText takes exhausted before opened
  · intro text encodes turns exhausted count retries place earlier later before ordered inRange
      held opened
    obtain ⟨_, liesText⟩ := liesIn_of_encodes named encodes
    exact retries.openFile_kept liesText before ordered inRange opened

/-- The error file of a data file lies beside it and is another file. When error files are imported
in their turn, no two of all these files have the same path, or even the same name, and no import
changes the data file or an error file that is already there. The name of the error file begins with
the stem of that of the data file exactly when the bytes of this stem are those of a text. -/
theorem errorFiles_apart_iff :
    ErrorFilesDistinct bytes ∧
      (ErrorFilesApart bytes name ↔
        ∃ text : String, Path.StemOf name (Path.bytewise (.ofText text))) := by
  have files := errorFilesDistinct_of_fileName? named
  have next := ((Import.liesIn_ofChars named).errorPathBy Import.reading_readBytes).named
  refine ⟨files, fun apart => ?_, ?_⟩
  · obtain ⟨stem, oneStem, begins⟩ := apart.named
    have isStem := (oneStem stem).2 rfl
    have read := List.append_cancel_right (Option.some.inj (next.symm.trans begins))
    rw [Path.stemOf_iff.1 isStem] at read
    obtain ⟨text, same⟩ := Import.readBytes_eq_iff.1 read
    exact ⟨text, same ▸ isStem⟩
  · rintro ⟨text, isStem⟩
    have read : Import.readBytes (Path.stem name) = Path.stem name :=
      Import.readBytes_eq_iff.2 ⟨text, (Path.stemOf_iff.1 isStem).symm⟩
    have oneStem : ∀ before, Path.StemOf name before ↔ before = Path.stem name :=
      fun _ => Path.stemOf_iff.trans eq_comm
    exact ⟨files, Path.stem name, oneStem, read ▸ next⟩

end Named

/-- The first byte of the name begins no character, and the name of the error file begins with
U+FFFD instead. -/
theorem not_errorFiles_apart_ill_formed_stem :
    let bytes : Bytes := [0xFF, 0x2E, 0x63, 0x73, 0x76]
    let name : List Char := ['\xFF', '.', 'c', 's', 'v']
    (Path.ofBytes bytes).fileName? = some name ∧ Path.StemOf name ['\xFF'] ∧
      Import.errorPathOfBytes (.ofBytes bytes) = .ofBytes (.ofText "\uFFFD_err.csv") ∧
      ¬ ErrorFilesApart bytes name := by
  intro bytes name
  have isStem : Path.StemOf name ['\xFF'] :=
    @Path.StemOf.dotted ['\xFF'] ['c', 's', 'v'] (List.cons_ne_nil _ _) (by decide)
  have target : Import.errorPathOfBytes (.ofBytes bytes) =
      .ofBytes (.ofText "\uFFFD_err.csv") := by decide +kernel
  refine ⟨by decide +kernel, isStem, target, fun apart => ?_⟩
  obtain ⟨stem, oneStem, begins⟩ := apart.named
  rw [← (oneStem _).1 isStem, target] at begins
  exact absurd begins (by decide +kernel)

/-- Two imports: of a hidden file, whose name has more dots, and of its error file. -/
theorem errorFiles_apart_iff_two_imports :
    let data := Bytes.ofText "id;name\n5;Azure\nx;Gemini\n"
    let rejected := Bytes.ofText "id;name\nx;Gemini\n"
    let path : Path := .ofText "./.res.partner.csv"
    let turnIn : Nat → FileTree → Turn := fun index files =>
      ⟨⟨files, []⟩, ⟨.ofText "config.yml", .none, none, false,
        .send "res_partner" 0 0 ⟨some (Import.errorPath^[index] path), ";"⟩⟩,
        [Import.replyWith (.int 7), Import.replyWith (.bool true)]⟩
    let trees : Nat → FileTree := Nat.rec ⟨["work"], [(["work", ".res.partner.csv"], data)], []⟩
      fun index files => (turnIn index files).filesAfter (.error .post)
    let turns : Nat → Turn := fun index => turnIn index (trees index)
    (Path.ofBytes (.ofText "./.res.partner.csv")).fileName? = some ".res.partner.csv".toList ∧
      Retries turns (.error .post) path 2 ∧
      ErrorFilesApart (.ofText "./.res.partner.csv") ".res.partner.csv".toList ∧
      Import.errorPath^[2] path = .ofText "./.res.partner_err_err.csv" ∧
      (trees 2).files = [(["work", ".res.partner.csv"], data),
        (["work", ".res.partner_err.csv"], rejected),
        (["work", ".res.partner_err_err.csv"], rejected)] ∧
      (trees 2).openFile path = .ok (some data) := by
  intro data rejected path turnIn trees turns
  have named : (Path.ofBytes (.ofText "./.res.partner.csv")).fileName? =
      some ".res.partner.csv".toList := by decide +kernel
  have retries : Retries turns (.error .post) path 2 :=
    ⟨fun _ _ => ⟨_, _, _, _, rfl, rfl⟩, fun _ _ => rfl⟩
  have isStem : Path.StemOf ".res.partner.csv".toList (Path.bytewise (.ofText ".res.partner")) := by
    rw [Path.stemOf_iff]
    decide +kernel
  have apart := (errorFiles_apart_iff named).2.2 ⟨".res.partner", isStem⟩
  have opened : (trees 0).openFile path = .ok (some data) := by decide +kernel
  have kept : (trees 2).openFile path = .ok (some data) :=
    apart.keptOn "./.res.partner.csv" rfl turns (.error .post) 2 retries 0 0 2 (Nat.zero_le 0) (Nat.zero_le 2)
      (Nat.le_refl 2) data opened
  exact ⟨named, retries, apart, by decide +kernel, by decide +kernel, kept⟩

end RemoteRecords.Run
