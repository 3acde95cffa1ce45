import RemoteRecords.Json.Printer

namespace RemoteRecords

/-- Records that are collected and printed as one indented JSON list. -/
structure Listing where
  records : List Record
  output : String

namespace Listing

def start : Listing := ⟨[], ""⟩

def add (listing : Listing) (record : Record) : Listing :=
  { listing with records := listing.records ++ [record] }

/-- The indented list of the records and a line end. -/
def render (records : List Record) : String :=
  (Json.array (records.map .object)).indented ++ "\n"

/-- Prints the list of all records collected so far. -/
def finish (listing : Listing) : Listing :=
  { listing with output := listing.output ++ render listing.records }

end Listing

end RemoteRecords
