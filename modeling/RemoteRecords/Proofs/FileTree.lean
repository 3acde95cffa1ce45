import RemoteRecords.FileTree
import RemoteRecords.Proofs.Import.ErrorFile

/-!
# Writing one file

Writing a file leaves everything else as it is (`agreeOff_put`), and a file that could be opened
before can be opened afterwards with the same bytes when its path has another file name
(`openFile_put`). An error file has other names than its data file (`ne_of_target_errorPath`).
-/

namespace RemoteRecords.FileTree

/-! ## Files at names -/

/-- The bytes of the file at the names. -/
def bytesAt? (tree : FileTree) (names : List String) : Option Bytes :=
  (tree.files.find? fun file => file.1 == names).map Prod.snd

/-- Both trees hold the same everywhere but at one place. -/
structure AgreeOff (before : FileTree) (names : List String) (after : FileTree) : Prop where
  place : after.place = before.place
  directories : after.directories = before.directories
  elsewhere : ∀ other, other ≠ names → after.bytesAt? other = before.bytesAt? other

theorem AgreeOff.refl (tree : FileTree) (names : List String) : tree.AgreeOff names tree :=
  ⟨rfl, rfl, fun _ _ => rfl⟩

section Put

variable (tree : FileTree) (names : List String) (bytes : Bytes)

theorem find?_replace (files : List (List String × Bytes)) (other : List String) :
    (files.map fun file => if file.1 == names then (names, bytes) else file).find?
        (fun file => file.1 == other) =
      if other = names then (files.find? fun file => file.1 == names).map fun _ => (names, bytes)
      else files.find? fun file => file.1 == other := by
  induction files with
  | nil => simp
  | cons file files inductionHypothesis =>
      rw [List.map_cons, List.find?_cons, inductionHypothesis, List.find?_cons, List.find?_cons]
      by_cases same : other = names
      · subst same
        by_cases here : file.1 = other
        · simp [here]
        · simp [beq_eq_false_iff_ne.2 here]
      · by_cases here : file.1 = names
        · have elsewhere : (names == other) = false := beq_eq_false_iff_ne.2 (Ne.symm same)
          simp [here, elsewhere, same]
        · simp [here, same]

theorem find?_put (other : List String) :
    (tree.put names bytes).files.find? (fun file => file.1 == other) =
      if other = names then some (names, bytes)
      else tree.files.find? fun file => file.1 == other := by
  rw [put]
  dsimp only
  split
  · next held =>
      rw [find?_replace]
      split
      · obtain ⟨file, found⟩ := Option.isSome_iff_exists.1 (List.find?_isSome.2
          (List.any_eq_true.1 held))
        rw [found]
        rfl
      · rfl
  · next absent =>
      have missing : tree.files.find? (fun file => file.1 == names) = none := by
        rw [List.find?_eq_none]
        intro file member same
        exact absent (List.any_eq_true.2 ⟨file, member, same⟩)
      rw [List.find?_append]
      split
      · next same =>
          rw [same, missing]
          simp
      · next different =>
          simp [Ne.symm different]

theorem bytesAt?_put (other : List String) :
    (tree.put names bytes).bytesAt? other =
      if other = names then some bytes else tree.bytesAt? other := by
  rw [bytesAt?, find?_put]
  split <;> rfl

theorem agreeOff_put : tree.AgreeOff names (tree.put names bytes) := by
  refine ⟨rfl, rfl, ?_⟩
  intro other different
  rw [bytesAt?_put, if_neg different]

theorem hasDirectory_put {other : List String} (present : tree.hasDirectory other = true) :
    (tree.put names bytes).hasDirectory other = true := by
  have kept : (tree.files.any fun file => other.isPrefixOf file.1) = true →
      ((tree.put names bytes).files.any fun file => other.isPrefixOf file.1) = true := by
    intro above
    obtain ⟨file, member, isPrefix⟩ := List.any_eq_true.1 above
    rw [put]
    dsimp only
    split
    · refine List.any_eq_true.2 ⟨_, List.mem_map_of_mem member, ?_⟩
      split
      · next same => exact beq_iff_eq.1 same ▸ isPrefix
      · exact isPrefix
    · exact List.any_eq_true.2 ⟨file, List.mem_append_left _ member, isPrefix⟩
  simp only [hasDirectory, Bool.or_eq_true] at present ⊢
  exact present.imp_right kept

theorem at?_put_of_ne {other : List String} (different : other ≠ names) {spot : Spot}
    (found : tree.at? other = some spot) : (tree.put names bytes).at? other = some spot := by
  rw [at?] at found ⊢
  rw [find?_put, if_neg different]
  split
  · next file held =>
      rw [held] at found
      exact found
  · next missing =>
      rw [missing] at found
      dsimp only at found
      split at found
      · next present => rw [if_pos (tree.hasDirectory_put names bytes present), found]
      · cases found

end Put

/-! ## Following paths -/

/-- The names of a file, or of a place for one. -/
def Spot.names? : Spot → Option (List String)
  | .file names _ => some names
  | .vacant names => some names
  | _ => none

/-- Names that segments lead to end in the last segment. -/
def EndsIn (names : List String) (segments : List (List Char)) : Prop :=
  ∃ front name, segments = front ++ [name] ∧ Path.IsName name ∧
    names.getLast? = some (String.ofList name)

theorem EndsIn.cons {names : List String} {segments : List (List Char)}
    (ends : EndsIn names segments) (segment : List Char) : EndsIn names (segment :: segments) := by
  obtain ⟨front, name, rfl, rest⟩ := ends
  exact ⟨segment :: front, name, rfl, rest⟩

theorem at?_eq_some {tree : FileTree} {names : List String} {spot : Spot}
    (found : tree.at? names = some spot) :
    (∃ bytes, spot = .file names bytes) ∨ spot = .directory := by
  rw [at?] at found
  split at found
  · next file _ =>
      cases found
      exact .inl ⟨file.2, rfl⟩
  · split at found
    · cases found
      exact .inr rfl
    · cases found

theorem at?_eq_file {tree : FileTree} {names held : List String} {bytes : Bytes}
    (found : tree.at? names = some (.file held bytes)) : held = names := by
  rcases at?_eq_some found with ⟨_, same⟩ | other
  · cases same
    rfl
  · cases other

section Follow

variable {tree : FileTree}

theorem follow_names {here : List String} {segments : List (List Char)} {spot : Spot}
    {names : List String} (leads : tree.follow here segments = .ok spot)
    (named : spot.names? = some names) :
    EndsIn names segments ∧ tree.at? names ≠ some .directory := by
  induction segments generalizing here with
  | nil =>
      cases leads
      cases named
  | cons segment rest inductionHypothesis =>
      rw [follow] at leads
      split at leads
      · exact (inductionHypothesis leads).imp_left fun ends => ends.cons segment
      · next proper =>
          split at leads
          · exact (inductionHypothesis leads).imp_left fun ends => ends.cons segment
          · next notUp =>
              dsimp only at leads
              split at leads
              · cases leads
              · have last : rest.isEmpty = true →
                    EndsIn (here ++ [String.ofList segment]) (segment :: rest) := by
                  intro empty
                  rw [List.isEmpty_iff.1 empty]
                  exact ⟨[], segment, rfl, ⟨by simpa using proper, notUp⟩, List.getLast?_concat⟩
                split at leads
                · next held bytes found =>
                    split at leads
                    · next empty =>
                        cases leads
                        cases named
                        have same := at?_eq_file found
                        rw [same] at found ⊢
                        exact ⟨last empty, by rw [found]; exact nofun⟩
                    · cases leads
                · exact (inductionHypothesis leads).imp_left fun ends => ends.cons segment
                · next found =>
                    split at leads
                    · next empty =>
                        cases leads
                        cases named
                        exact ⟨last empty, by rw [found]; exact nofun⟩
                    · split at leads
                      · cases leads
                        cases named
                      · cases leads

theorem follow_put {here names held : List String} {segments : List (List Char)}
    {written bytes : Bytes} (free : tree.at? names ≠ some .directory) (apart : held ≠ names)
    (leads : tree.follow here segments = .ok (.file held bytes)) :
    (tree.put names written).follow here segments = .ok (.file held bytes) := by
  -- Directories on the way are none of `names`: they were directories before.
  induction segments generalizing here with
  | nil => cases leads
  | cons segment rest inductionHypothesis =>
      rw [follow] at leads ⊢
      split at leads
      · next idle => rw [if_pos idle, inductionHypothesis leads]
      · next proper =>
          rw [if_neg proper]
          split at leads
          · next up => rw [if_pos up, inductionHypothesis leads]
          · next notUp =>
              rw [if_neg notUp]
              dsimp only at leads ⊢
              split at leads
              · cases leads
              · next fits =>
                  rw [if_neg fits]
                  split at leads
                  · next other content found =>
                      split at leads
                      · next empty =>
                          cases leads
                          have same := at?_eq_file found
                          rw [tree.at?_put_of_ne names written (same ▸ apart) found]
                          exact if_pos empty
                      · cases leads
                  · next spot notFile found =>
                      rcases at?_eq_some found with ⟨content, file⟩ | directory
                      · exact absurd file (notFile _ content)
                      · rw [directory] at found
                        have different : here ++ [String.ofList segment] ≠ names :=
                          fun same => free (same ▸ found)
                        rw [tree.at?_put_of_ne names written different found]
                        exact inductionHypothesis leads
                  · split at leads
                    · cases leads
                    · split at leads <;> cases leads

/-! ## Paths -/

theorem follow_of_locate {path : Path} {spot : Spot} (found : tree.locate path = .ok spot) :
    tree.follow (if path.rooted then [] else tree.place) path.segments = .ok spot := by
  rw [locate] at found
  split at found
  · cases found
  · split at found
    · cases found
    · split at found
      · cases found
      · exact found

theorem locate_of_target {path : Path} {names : List String}
    (created : tree.target path = .ok names) :
    ∃ spot, tree.locate path = .ok spot ∧ spot.names? = some names := by
  rw [target] at created
  split at created
  · next found => exact ⟨_, found, congrArg some (Except.ok.inj created)⟩
  · next found => exact ⟨_, found, congrArg some (Except.ok.inj created)⟩
  · cases created
  · cases created
  · cases created

theorem openFile_eq_some_iff {path : Path} {bytes : Bytes} :
    tree.openFile path = .ok (some bytes) ↔ ∃ names, tree.locate path = .ok (.file names bytes) := by
  rw [openFile]
  constructor
  · intro opened
    split at opened
    · next names _ found =>
        cases opened
        exact ⟨names, found⟩
    all_goals cases opened
  · rintro ⟨names, found⟩
    rw [found]

theorem locate_put {path : Path} {names held : List String} {written bytes : Bytes}
    (free : tree.at? names ≠ some .directory) (apart : held ≠ names)
    (found : tree.locate path = .ok (.file held bytes)) :
    (tree.put names written).locate path = .ok (.file held bytes) := by
  have after : (tree.put names written).follow (if path.rooted then [] else tree.place)
      path.segments = .ok (.file held bytes) :=
    follow_put free apart (follow_of_locate found)
  rw [locate] at found ⊢
  split
  · next empty =>
      rw [if_pos empty] at found
      cases found
  · next nonempty =>
      rw [if_neg nonempty] at found
      split
      · next zero =>
          rw [if_pos zero] at found
          cases found
      · next noZero =>
          rw [if_neg noZero] at found
          split
          · next long =>
              rw [if_pos long] at found
              cases found
          · exact after

/-! ## Files with other names -/

/-- The names that a path leads to end in its file name. -/
theorem exists_fileName?_of_locate {path : Path} {spot : Spot} {names : List String}
    (found : tree.locate path = .ok spot) (named : spot.names? = some names) :
    ∃ name, path.fileName? = some name ∧ names.getLast? = some (String.ofList name) := by
  obtain ⟨⟨front, name, segments, proper, last⟩, -⟩ := follow_names (follow_of_locate found) named
  exact ⟨name, Path.fileName?_of_segments segments proper, last⟩

section Target

variable {path other : Path} {held names : List String} {written bytes : Bytes}

theorem ne_of_target (found : tree.locate path = .ok (.file held bytes))
    (created : tree.target other = .ok names) (different : other.fileName? ≠ path.fileName?) :
    held ≠ names := by
  obtain ⟨name, fileName, heldLast⟩ := exists_fileName?_of_locate found rfl
  obtain ⟨spot, otherFound, named⟩ := locate_of_target created
  obtain ⟨otherName, otherFileName, namesLast⟩ := exists_fileName?_of_locate otherFound named
  rintro rfl
  have equal : otherName = name :=
    String.ofList_injective (Option.some.inj (namesLast.symm.trans heldLast))
  exact different (otherFileName.trans (equal ▸ fileName.symm))

/-- The bytes of a file stay when a file with another name is written. -/
theorem openFile_put (opened : tree.openFile path = .ok (some bytes))
    (created : tree.target other = .ok names) (different : other.fileName? ≠ path.fileName?) :
    (tree.put names written).openFile path = .ok (some bytes) := by
  obtain ⟨held, found⟩ := openFile_eq_some_iff.1 opened
  obtain ⟨_, otherFound, named⟩ := locate_of_target created
  have free := (follow_names (follow_of_locate otherFound) named).2
  have apart := ne_of_target found created different
  exact openFile_eq_some_iff.2 ⟨held, locate_put free apart found⟩

end Target

/-! ## Error files -/

/-- The error file of a path that leads to a file has another name. -/
theorem fileName?_errorPath_ne {text : String} {held : List String} {bytes : Bytes}
    (found : tree.locate (.ofText text) = .ok (.file held bytes)) :
    (Import.errorPath (.ofText text)).fileName? ≠ (Path.ofText text).fileName? := by
  obtain ⟨name, named, -⟩ := exists_fileName?_of_locate found rfl
  intro same
  have equal : 1 = 0 := (Import.liesIn_ofChars named).fileName?_iterate_inj Import.reading_id same
  exact absurd equal Nat.one_ne_zero

theorem ne_of_target_errorPath {text : String} {held names : List String} {bytes : Bytes}
    (found : tree.locate (.ofText text) = .ok (.file held bytes))
    (created : tree.target (Import.errorPath (.ofText text)) = .ok names) : held ≠ names :=
  ne_of_target found created (fileName?_errorPath_ne found)

/-- The bytes of a data file stay when its error file is written. -/
theorem openFile_put_errorFile {text : String} {names : List String} {written bytes : Bytes}
    (opened : tree.openFile (.ofText text) = .ok (some bytes))
    (created : tree.target (Import.errorPath (.ofText text)) = .ok names) :
    (tree.put names written).openFile (.ofText text) = .ok (some bytes) := by
  obtain ⟨held, found⟩ := openFile_eq_some_iff.1 opened
  exact openFile_put opened created (fileName?_errorPath_ne found)

end Follow

end RemoteRecords.FileTree
