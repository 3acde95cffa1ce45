import RemoteRecords.Bounds
import RemoteRecords.Text.Decimal

namespace RemoteRecords

/-- A counter that shows its count whenever it passes a multiple of its interval. -/
structure Progress where
  label : String
  interval : Nat
  count : Nat
  /-- The counts shown so far. -/
  shown : List Nat
  finished : Bool
  deriving DecidableEq, Repr

namespace Progress

/-- A counter at zero, which it shows. An interval of zero counts as one. -/
def start (label : String) (interval : Nat) : Progress :=
  ⟨label, max interval 1, 0, [0], false⟩

/-- Counts on, in 64 bits; the new count is shown when a multiple of the interval lies between the
old count and it. -/
def advance (progress : Progress) (delta : Nat) : Progress :=
  let next := Bounds.wrappingSum progress.count delta
  if progress.count / progress.interval < next / progress.interval then
    { progress with count := next, shown := progress.shown ++ [next] }
  else { progress with count := next }

/-- Whether a multiple of the interval is passed when the counter counts on. -/
def passes (progress : Progress) (delta : Nat) : Bool :=
  progress.count / progress.interval <
    Bounds.wrappingSum progress.count delta / progress.interval

/-- Counts on without showing anything. -/
def add (progress : Progress) (delta : Nat) : Progress :=
  { progress with count := Bounds.wrappingSum progress.count delta }

/-- Shows a count. -/
def display (progress : Progress) (count : Nat) : Progress :=
  { progress with shown := progress.shown ++ [count] }

/-- To advance is to count on and then to show the new count if need be. -/
theorem advance_eq (progress : Progress) (delta : Nat) :
    progress.advance delta =
      if progress.passes delta then
        (progress.add delta).display (progress.add delta).count
      else progress.add delta := by
  simp only [advance, passes, decide_eq_true_eq]
  split <;> rfl

/-- Shows the count once more and ends the line. -/
def finish (progress : Progress) : Progress :=
  { progress with shown := progress.shown ++ [progress.count], finished := true }

/-- One shown count; it overwrites the one before it. -/
def line (label : String) (count : Nat) : String :=
  "\r" ++ label ++ ": " ++ Text.ofNat count

/-- Everything that has been shown. -/
def text (progress : Progress) : String :=
  String.join (progress.shown.map (line progress.label)) ++
    if progress.finished then "\n" else ""

end Progress

end RemoteRecords
