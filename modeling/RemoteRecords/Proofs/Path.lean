import Mathlib.Data.List.DropRight
import RemoteRecords.Path

/-!
# Directories and names

The directory of a path has no idle segments at its end (`isDirectory_parent`), so a name that is
pushed to it becomes its last segment and nothing else changes (`IsDirectory.push_eq`): the name is
the file name of the new path (`fileName?_push`), and the directory is its parent (`parent_push`).
A stem is what stands before the last dot of a name, unless this dot comes first (`stemOf_iff`).
-/

namespace RemoteRecords

/-! ## Pieces -/

namespace Text

theorem not_mem_of_mem_splitOn {separator : Char} {chars piece : List Char}
    (member : piece ∈ splitOn separator chars) : separator ∉ piece := by
  induction chars generalizing piece with
  | nil =>
      rw [splitOn, List.mem_singleton] at member
      rw [member]
      exact List.not_mem_nil
  | cons c rest inductionHypothesis =>
      rw [splitOn] at member
      split at member
      · rcases List.mem_cons.1 member with rfl | later
        · exact List.not_mem_nil
        · exact inductionHypothesis later
      · next other =>
          split at member
          · next none => exact absurd none (splitOn_ne_nil separator rest)
          · next first pieces pieced =>
              rw [pieced] at inductionHypothesis
              rcases List.mem_cons.1 member with rfl | later
              · intro inside
                rcases List.mem_cons.1 inside with same | inside
                · exact other same.symm
                · exact inductionHypothesis List.mem_cons_self inside
              · exact inductionHypothesis (List.mem_cons_of_mem _ later)

theorem splitOn_of_not_mem {separator : Char} {chars : List Char} (absent : separator ∉ chars) :
    splitOn separator chars = [chars] := by
  induction chars with
  | nil => rfl
  | cons c rest inductionHypothesis =>
      obtain ⟨different, absentBehind⟩ := not_or.1 (mt List.mem_cons.2 absent)
      rw [splitOn, if_neg (Ne.symm different), inductionHypothesis absentBehind]

/-- What stands before the first separator belongs to the first piece. -/
theorem splitOn_append {separator : Char} {piece : List Char} (absent : separator ∉ piece)
    {rest first : List Char} {pieces : List (List Char)}
    (behind : splitOn separator rest = first :: pieces) :
    splitOn separator (piece ++ rest) = (piece ++ first) :: pieces := by
  induction piece with
  | nil => exact behind
  | cons c piece inductionHypothesis =>
      obtain ⟨different, absentBehind⟩ := not_or.1 (mt List.mem_cons.2 absent)
      rw [List.cons_append, splitOn, if_neg (Ne.symm different), inductionHypothesis absentBehind]
      rfl

theorem splitOn_append_cons {separator : Char} {piece : List Char} (absent : separator ∉ piece)
    (rest : List Char) :
    splitOn separator (piece ++ separator :: rest) = piece :: splitOn separator rest := by
  have behind : splitOn separator (separator :: rest) = [] :: splitOn separator rest := by
    rw [splitOn, if_pos rfl]
  rw [splitOn_append absent behind, List.append_nil]

end Text

namespace Path

/-! ## Segments and characters -/

/-- Segments between slashes: none holds a slash. -/
def Plain (segments : List (List Char)) : Prop :=
  ∀ segment ∈ segments, '/' ∉ segment

theorem plain_ofChars (chars : List Char) : Plain (ofChars chars).segments := by
  intro segment member
  rw [ofChars.eq_def] at member
  split at member <;> exact Text.not_mem_of_mem_splitOn member

theorem joinSegments_cons (segment : List Char) {rest : List (List Char)} (present : rest ≠ []) :
    joinSegments (segment :: rest) = segment ++ '/' :: joinSegments rest := by
  cases rest with
  | nil => exact absurd rfl present
  | cons next rest => rfl

theorem splitOn_joinSegments {segments : List (List Char)} (present : segments ≠ [])
    (plain : Plain segments) : Text.splitOn '/' (joinSegments segments) = segments := by
  induction segments with
  | nil => exact absurd rfl present
  | cons segment rest inductionHypothesis =>
      obtain ⟨first, behind⟩ := List.forall_mem_cons.1 plain
      by_cases last : rest = []
      · rw [last]
        exact Text.splitOn_of_not_mem first
      · rw [joinSegments_cons segment last, Text.splitOn_append_cons first,
          inductionHypothesis last behind]

theorem joinSegments_concat {segments : List (List Char)} (present : segments ≠ [])
    (segment : List Char) :
    joinSegments (segments ++ [segment]) = joinSegments segments ++ '/' :: segment := by
  induction segments with
  | nil => exact absurd rfl present
  | cons first rest inductionHypothesis =>
      by_cases last : rest = []
      · rw [last]
        rfl
      · rw [List.cons_append, joinSegments_cons first (List.concat_ne_nil segment rest), inductionHypothesis last,
          joinSegments_cons first last, List.append_assoc, List.cons_append]

theorem chars_concat {path : Path} (present : path.segments ≠ []) (segment : List Char) :
    (Path.mk path.rooted (path.segments ++ [segment])).chars = path.chars ++ '/' :: segment := by
  simp only [chars, joinSegments_concat present]
  split
  · rw [List.cons_append]
  · rfl

theorem getLast?_chars {path : Path} {front : List (List Char)} {segment : List Char}
    (ends : path.segments = front ++ [segment]) (present : segment ≠ []) :
    path.chars.getLast? = segment.getLast? := by
  have behind : ∃ before, path.chars = before ++ segment := by
    obtain ⟨rooted, segments⟩ := path
    cases ends
    cases front with
    | nil => cases rooted with
      | true => exact ⟨['/'], rfl⟩
      | false => exact ⟨[], rfl⟩
    | cons first rest =>
        have whole := (Path.mk rooted (first :: rest)).chars_concat (List.cons_ne_nil _ _) segment
        exact ⟨_, whole.trans (List.append_cons _ _ _)⟩
  obtain ⟨before, whole⟩ := behind
  rw [whole, List.getLast?_append_of_ne_nil _ present]

theorem ofChars_of_head?_ne {chars : List Char} (other : chars.head? ≠ some '/') :
    ofChars chars = ⟨false, Text.splitOn '/' chars⟩ := by
  rw [ofChars.eq_def]
  split
  · exact absurd rfl other
  · rfl

/-- A path is the path of its characters, unless these begin with a slash by accident. -/
theorem ofChars_chars {path : Path} (present : path.segments ≠ []) (plain : Plain path.segments)
    (relative : path.rooted = false → path.segments.head? ≠ some []) :
    ofChars path.chars = path := by
  obtain ⟨rooted, segments⟩ := path
  cases rooted with
  | true => exact congrArg (Path.mk true) (splitOn_joinSegments present plain)
  | false =>
      have relativeChars : (joinSegments segments).head? ≠ some '/' := by
        obtain ⟨segment, rest, rfl⟩ := List.exists_cons_of_ne_nil present
        obtain ⟨c, segment, rfl⟩ := List.exists_cons_of_ne_nil fun empty =>
          relative rfl (congrArg some empty)
        have sameHead : (joinSegments ((c :: segment) :: rest)).head? = some c := by
          cases rest <;> rfl
        rw [sameHead]
        intro slash
        exact plain _ List.mem_cons_self (Option.some.inj slash ▸ List.mem_cons_self)
      exact (ofChars_of_head?_ne relativeChars).trans
        (congrArg (Path.mk false) (splitOn_joinSegments present plain))

/-- The first segment of a path that is not rooted is empty in the empty path only. -/
theorem ofChars_eq_of_head? {chars : List Char} (relative : (ofChars chars).rooted = false)
    (empty : (ofChars chars).segments.head? = some []) : ofChars chars = ⟨false, [[]]⟩ := by
  cases chars with
  | nil => rfl
  | cons c rest =>
      by_cases slash : c = '/'
      · rw [slash] at relative
        cases relative
      · have other : (c :: rest).head? ≠ some '/' := fun same => slash (Option.some.inj same)
        rw [ofChars_of_head?_ne other, Text.splitOn, if_neg slash] at empty
        dsimp only at empty
        split at empty <;> cases empty

/-! ## Idle ends -/

theorem head?_of_isPrefix {front segments : List (List Char)} (first : front <+: segments)
    {segment : List Char} (found : front.head? = some segment) :
    segments.head? = some segment := by
  obtain ⟨rest, rfl⟩ := first
  rw [List.head?_append, found, Option.some_or]

theorem dropIdleEnd_isPrefix (segments : List (List Char)) : dropIdleEnd segments <+: segments :=
  List.rdropWhile_prefix isIdle segments

theorem dropIdleEnd_concat (front : List (List Char)) {name : List Char}
    (proper : isIdle name = false) : dropIdleEnd (front ++ [name]) = front ++ [name] :=
  List.rdropWhile_concat_neg isIdle front name (by rw [proper]; exact Bool.false_ne_true)

theorem dropIdleEnd_dropIdleEnd (segments : List (List Char)) :
    dropIdleEnd (dropIdleEnd segments) = dropIdleEnd segments :=
  List.rdropWhile_idempotent isIdle segments

theorem getLast?_dropIdleEnd_ne (segments : List (List Char)) :
    (dropIdleEnd segments).getLast? ≠ some [] := by
  intro last
  have present : dropIdleEnd segments ≠ [] := by
    intro empty
    rw [empty] at last
    cases last
  rw [List.getLast?_eq_some_getLast present] at last
  refine List.rdropWhile_last_not isIdle segments present ?_
  change isIdle ((dropIdleEnd segments).getLast present) = true
  rw [Option.some.inj last]
  rfl

theorem trimmed_dotted (rest : List (List Char)) :
    (Path.mk false (['.'] :: rest)).trimmed = ['.'] :: dropIdleEnd rest := by
  change (if ['.'] = ['.'] then ['.'] :: dropIdleEnd rest else dropIdleEnd (['.'] :: rest)) = _
  exact if_pos rfl

theorem trimmed_undotted {path : Path}
    (undotted : path.rooted = false → path.segments.head? ≠ some ['.']) :
    path.trimmed = dropIdleEnd path.segments := by
  obtain ⟨rooted, segments⟩ := path
  cases rooted with
  | true => rfl
  | false =>
      cases segments with
      | nil => rfl
      | cons first rest => exact if_neg fun same => undotted rfl (congrArg some same)

/-- Either a path is not rooted and begins with a dot, which is kept, or only its idle end counts. -/
theorem dotted_or (path : Path) :
    (∃ rest, path = ⟨false, ['.'] :: rest⟩) ∨
      (path.rooted = false → path.segments.head? ≠ some ['.']) := by
  obtain ⟨rooted, segments⟩ := path
  by_cases dotted : rooted = false ∧ segments.head? = some ['.']
  · obtain ⟨rfl, first⟩ := dotted
    obtain ⟨rest, rfl⟩ := List.head?_eq_some_iff.1 first
    exact .inl ⟨rest, rfl⟩
  · exact .inr (not_and.1 dotted)

theorem trimmed_isPrefix (path : Path) : path.trimmed <+: path.segments := by
  rcases path.dotted_or with ⟨rest, rfl⟩ | undotted
  · rw [trimmed_dotted]
    exact List.cons_prefix_cons.2 ⟨rfl, dropIdleEnd_isPrefix rest⟩
  · rw [trimmed_undotted undotted]
    exact dropIdleEnd_isPrefix _

theorem trimmed_trimmed (path : Path) :
    (Path.mk path.rooted path.trimmed).trimmed = path.trimmed := by
  rcases path.dotted_or with ⟨rest, rfl⟩ | undotted
  · rw [trimmed_dotted, trimmed_dotted, dropIdleEnd_dropIdleEnd]
  · rw [trimmed_undotted undotted, trimmed_undotted, dropIdleEnd_dropIdleEnd]
    intro relative dot
    exact undotted relative (head?_of_isPrefix (dropIdleEnd_isPrefix _) dot)

theorem getLast?_trimmed_ne (path : Path) : path.trimmed.getLast? ≠ some [] := by
  rcases path.dotted_or with ⟨rest, rfl⟩ | undotted
  · rw [trimmed_dotted, List.getLast?_cons]
    intro last
    cases found : (dropIdleEnd rest).getLast? with
    | none =>
        rw [found] at last
        cases last
    | some segment =>
        rw [found] at last
        exact getLast?_dropIdleEnd_ne rest (found.trans last)
  · rw [trimmed_undotted undotted]
    exact getLast?_dropIdleEnd_ne _

theorem trimmed_of_segments {path : Path} {front : List (List Char)} {name : List Char}
    (ends : path.segments = front ++ [name]) (proper : isIdle name = false) :
    path.trimmed = front ++ [name] := by
  rcases path.dotted_or with ⟨rest, rfl⟩ | undotted
  · rw [trimmed_dotted]
    cases front with
    | nil =>
        obtain ⟨rfl, -⟩ := List.cons.inj ends
        cases proper
    | cons first front =>
        obtain ⟨rfl, behind⟩ := List.cons.inj ends
        rw [behind]
        exact congrArg (['.'] :: ·) (dropIdleEnd_concat front proper)
  · rw [trimmed_undotted undotted, ends, dropIdleEnd_concat front proper]

/-! ## File names -/

/-- Segments that are names: neither idle nor two dots. -/
def IsName (segment : List Char) : Prop :=
  isIdle segment = false ∧ segment ≠ ['.', '.']

theorem IsName.ne_nil {segment : List Char} (proper : IsName segment) : segment ≠ [] := by
  rintro rfl
  cases proper.1

theorem IsName.ne_dot {segment : List Char} (proper : IsName segment) : segment ≠ ['.'] := by
  rintro rfl
  cases proper.1

theorem fileName?_of_segments {path : Path} {front : List (List Char)} {name : List Char}
    (ends : path.segments = front ++ [name]) (proper : IsName name) :
    path.fileName? = some name := by
  rw [fileName?, trimmed_of_segments ends proper.1, List.getLast?_concat]
  exact if_neg fun dots => dots.elim proper.ne_dot proper.2

theorem mem_of_fileName? {path : Path} {name : List Char} (named : path.fileName? = some name) :
    name ∈ path.segments := by
  refine path.trimmed_isPrefix.mem ?_
  rw [fileName?] at named
  split at named
  · next last found =>
      split at named
      · cases named
      · cases named
        exact List.mem_of_getLast? found
  · cases named

/-! ## Directories -/

/-- A directory as a path without idle segments at its end. -/
structure IsDirectory (directory : Path) : Prop where
  plain : Plain directory.segments
  trimmed : directory.trimmed = directory.segments
  relative : directory.rooted = false → directory.segments.head? ≠ some []

theorem isDirectory_parent (chars : List Char) : (ofChars chars).parent.IsDirectory := by
  have dropped : (ofChars chars).trimmed.dropLast <+: (ofChars chars).trimmed :=
    List.dropLast_prefix _
  have first : (ofChars chars).parent.segments <+: (ofChars chars).segments :=
    ((trimmed_isPrefix _).trans dropped).trans (trimmed_isPrefix _)
  refine ⟨fun segment member => plain_ofChars chars segment (first.mem member),
    trimmed_trimmed ⟨(ofChars chars).rooted, (ofChars chars).trimmed.dropLast⟩, ?_⟩
  intro relative empty
  have alone := ofChars_eq_of_head? relative (head?_of_isPrefix first empty)
  rw [alone] at empty
  cases empty

section Push

variable {directory : Path} (isDirectory : directory.IsDirectory) {name : List Char}

include isDirectory

theorem IsDirectory.push_eq_ofChars :
    directory.push name =
      ofChars (Path.mk directory.rooted (directory.segments ++ [name])).chars := by
  rcases List.eq_nil_or_concat directory.segments with top | ⟨front, last, ends⟩
  · obtain ⟨rooted, segments⟩ := directory
    cases top
    cases rooted <;> rfl
  · rw [List.concat_eq_append] at ends
    have present : last ≠ [] := by
      rintro rfl
      refine directory.getLast?_trimmed_ne ?_
      rw [isDirectory.trimmed, ends, List.getLast?_concat]
    have held : directory.chars.getLast? = some (last.getLast present) :=
      (getLast?_chars ends present).trans (List.getLast?_eq_some_getLast present)
    have plain : '/' ∉ last :=
      isDirectory.plain last (ends ▸ List.mem_append_right _ List.mem_cons_self)
    have notSlash : last.getLast present ≠ '/' := fun slash =>
      plain (slash ▸ List.getLast_mem present)
    have needsSlash : ¬ (directory.chars.isEmpty || directory.chars.getLast? == some '/') = true := by
      rw [held, Bool.or_eq_true, List.isEmpty_iff, beq_iff_eq, Option.some.injEq]
      rintro (empty | slash)
      · rw [empty] at held
        cases held
      · exact notSlash slash
    rw [push, if_neg needsSlash, chars_concat]
    rw [ends]
    exact List.concat_ne_nil last front

theorem IsDirectory.push_eq (present : name ≠ []) (plain : '/' ∉ name) :
    directory.push name = ⟨directory.rooted, directory.segments ++ [name]⟩ := by
  rw [isDirectory.push_eq_ofChars]
  refine ofChars_chars (List.concat_ne_nil name _) ?_ ?_
  · exact List.forall_mem_append.2 ⟨isDirectory.plain, List.forall_mem_singleton.2 plain⟩
  · intro relative
    dsimp only at relative ⊢
    rw [List.head?_append]
    cases found : directory.segments.head? with
    | none => exact fun empty => present (Option.some.inj empty)
    | some segment => exact fun empty => isDirectory.relative relative (found.trans empty)

theorem IsDirectory.fileName?_push (proper : IsName name) (plain : '/' ∉ name) :
    (directory.push name).fileName? = some name := by
  rw [isDirectory.push_eq proper.ne_nil plain]
  exact fileName?_of_segments rfl proper

theorem IsDirectory.parent_push (proper : IsName name) (plain : '/' ∉ name) :
    (directory.push name).parent = directory := by
  have ends : (Path.mk directory.rooted (directory.segments ++ [name])).trimmed =
      directory.segments ++ [name] := trimmed_of_segments rfl proper.1
  rw [isDirectory.push_eq proper.ne_nil plain, parent, ends, List.dropLast_concat]
  exact congrArg (Path.mk directory.rooted) isDirectory.trimmed

end Push

/-! ## Stems -/

/-- The stem of a name ends before the last dot. A name without dots, or with none but a first one,
is its own stem. -/
inductive StemOf : List Char → List Char → Prop
  | whole {name : List Char} (undotted : '.' ∉ name.tail) : StemOf name name
  | dotted {stem extension : List Char} (present : stem ≠ []) (last : '.' ∉ extension) :
      StemOf (stem ++ '.' :: extension) stem

theorem dropWhile_undotted {undotted : List Char} (plain : '.' ∉ undotted) (rest : List Char) :
    (undotted.reverse ++ rest).dropWhile (· ≠ '.') = rest.dropWhile (· ≠ '.') := by
  refine List.dropWhile_append_of_pos ?_
  intro c member
  refine decide_eq_true ?_
  rintro rfl
  exact plain (List.mem_reverse.1 member)

theorem stem_of_undotted {name : List Char} (undotted : '.' ∉ name.tail) : stem name = name := by
  cases name with
  | nil => rfl
  | cons c rest =>
      rw [List.tail_cons] at undotted
      have first : (([c].dropWhile (· ≠ '.')).tail).reverse = [] := by
        rw [List.dropWhile_cons]
        split <;> rfl
      rw [stem, List.reverse_cons, dropWhile_undotted undotted, first]

theorem stem_append_extension {front extension : List Char} (present : front ≠ [])
    (last : '.' ∉ extension) : stem (front ++ '.' :: extension) = front := by
  have stopped : ('.' :: front.reverse).dropWhile (· ≠ '.') = '.' :: front.reverse :=
    List.dropWhile_cons_of_neg (by decide)
  have reversed : (front ++ '.' :: extension).reverse =
      extension.reverse ++ '.' :: front.reverse := by
    rw [List.reverse_append, List.reverse_cons, List.append_assoc, List.singleton_append]
  rw [stem, reversed, dropWhile_undotted last, stopped, List.tail_cons, List.reverse_reverse]
  split
  · exact absurd rfl present
  · rfl

theorem stemOf_stem (name : List Char) : StemOf name (stem name) := by
  by_cases dotted : '.' ∈ name.tail
  · obtain ⟨c, rest, rfl⟩ : ∃ c rest, name = c :: rest :=
      List.exists_cons_of_ne_nil fun empty => by
        rw [empty] at dotted
        cases dotted
    obtain ⟨behind, before, reversed, last⟩ :=
      List.eq_append_cons_of_mem (List.mem_reverse.2 dotted)
    have pieces : rest = before.reverse ++ '.' :: behind.reverse := by
      have turned := congrArg List.reverse reversed
      rwa [List.reverse_reverse, List.reverse_append, List.reverse_cons, List.append_assoc,
        List.singleton_append] at turned
    have plain : '.' ∉ behind.reverse := fun inside => last (List.mem_reverse.1 inside)
    have present : c :: before.reverse ≠ [] := List.cons_ne_nil _ _
    rw [pieces, ← List.cons_append, stem_append_extension present plain]
    exact .dotted present plain
  · rw [stem_of_undotted dotted]
    exact .whole dotted

theorem stemOf_iff {name before : List Char} : StemOf name before ↔ stem name = before := by
  constructor
  · rintro (undotted | ⟨present, last⟩)
    · exact stem_of_undotted undotted
    · exact stem_append_extension present last
  · rintro rfl
    exact stemOf_stem name

theorem mem_of_mem_stem {name : List Char} {c : Char} (member : c ∈ stem name) : c ∈ name := by
  have isStem := stemOf_stem name
  generalize stem name = before at isStem member
  cases isStem with
  | whole => exact member
  | dotted => exact List.mem_append_left _ member

end Path

end RemoteRecords
