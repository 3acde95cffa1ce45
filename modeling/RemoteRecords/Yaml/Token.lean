namespace RemoteRecords.Yaml

/-- What a document is made of. The tokens of block collections follow from the indentation. -/
inductive Token where
  /-- A `%TAG` directive: a handle and what it stands for. -/
  | tagDirective (handle stem : String)
  | versionDirective
  | documentStart
  | documentEnd
  | blockSequenceStart
  | blockMappingStart
  | blockEnd
  | blockEntry
  | flowSequenceStart
  | flowSequenceEnd
  | flowMappingStart
  | flowMappingEnd
  | flowEntry
  | key
  | value
  | alias (name : String)
  | anchor (name : String)
  | tag (handle suffix : String)
  /-- A text; a plain one is written without quotes and may stand for something else. -/
  | scalar (plain : Bool) (text : String)
  deriving DecidableEq, Repr

end RemoteRecords.Yaml
