import RemoteRecords.CommandLine.Flag

namespace RemoteRecords.CommandLine

/-- What has been read of the flags before or behind the command. The value of the last flag is
checked when the next one comes. -/
structure Level where
  given : List (Flag × String)
  /-- The last flag and its value, if that has been read. -/
  pending : Option (Flag × Option String)

namespace Level

def empty : Level := ⟨[], none⟩

def value? (level : Level) (flag : Flag) : Option String := level.given.lookup flag

/-! ## Flags and values -/

/-- The level with one more value; a flag is given once at most. -/
def record (level : Level) (flag : Flag) (text : String) : Except Usage Level :=
  if (level.value? flag).isSome then .error .conflict
  else
    match flag.check text with
    | .ok _ => .ok { level with given := level.given ++ [(flag, text)] }
    | .error usage => .error usage

/-- The level once the last flag has its value. -/
def settle (level : Level) : Except Usage Level :=
  match level.pending with
  | none => .ok level
  | some (_, none) => .error .invalidValue
  | some (flag, some text) => record ⟨level.given, none⟩ flag text

/-- A flag without a value. -/
def raise (level : Level) (flag : Flag) : Except Usage Level := do
  let level ← level.settle
  match flag with
  | .help => .error .helpAsked
  | .version => .error .versionAsked
  | flag => level.record flag ""

/-- A flag with a value, which follows when it is not attached. -/
def accept (level : Level) (flag : Flag) (attached : Option String) : Except Usage Level := do
  let level ← level.settle
  match attached with
  | some text => level.record flag text
  | none => return { level with pending := some (flag, none) }

/-! ## Arguments -/

/-- A name behind two dashes, perhaps with a value behind an equals sign. -/
def readName (flags : List Flag) (level : Level) (chars : List Char) : Except Usage Level :=
  let (name, rest) := chars.span (· ≠ '=')
  let attached := if rest.isEmpty then none else some (String.ofList rest.tail)
  match flags.find? fun flag => flag.name == String.ofList name with
  | none => .error .unknownArgument
  | some flag =>
      if flag.takesValue then level.accept flag attached
      else if attached.isSome then .error .unneededValue
      else level.raise flag

/-- The value that is attached to a letter. -/
def attachedTo : List Char → Option String
  | [] => none
  | '=' :: chars => some (String.ofList chars)
  | chars => some (String.ofList chars)

/-- Letters behind a single dash; what follows a letter whose flag takes a value is that value. -/
def readLetters (flags : List Flag) : Level → List Char → Except Usage Level
  | level, [] => .ok level
  | level, c :: rest =>
      match flags.find? fun flag => flag.letter? == some c with
      | none => .error .unknownArgument
      | some flag =>
          if flag.takesValue then level.accept flag (attachedTo rest)
          else do
            let level ← level.raise flag
            readLetters flags level rest

/-- Where reading flags ends. -/
inductive Ending where
  | finished
  /-- At a word that is neither a flag nor a value; the arguments follow it. -/
  | word (word : String) (rest : List String)
  /-- At a word behind two bare dashes. -/
  | behindDashes (word : String)

/-- Reads flags and their values. -/
def read (flags : List Flag) : Level → List String → Except Usage (Level × Ending)
  | level, [] => .ok (level, .finished)
  | level, argument :: rest =>
      match argument.toList with
      | ['-', '-'] =>
          match rest with
          | [] => .ok (level, .finished)
          | word :: _ => .ok (level, .behindDashes word)
      | '-' :: '-' :: chars => do
          let level ← level.readName flags chars
          read flags level rest
      | '-' :: c :: chars => do
          let level ← level.readLetters flags (c :: chars)
          read flags level rest
      | _ =>
          match level.pending with
          | some (flag, none) =>
              read flags { level with pending := some (flag, some argument) } rest
          | _ => .ok (level, .word argument rest)

end Level

end RemoteRecords.CommandLine
