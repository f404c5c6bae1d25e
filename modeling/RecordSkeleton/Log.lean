import RecordSkeleton.Generation
import RecordSkeleton.Text.Numeral

/-!
# Log entries

A log entry has a level, the part of the program that wrote it, and a message. The events of a
generation are logged by `Event.logged?`.
-/

namespace RecordSkeleton

open Text

/-- The levels of log entries, in increasing order. -/
inductive LogLevel where
  | debug
  | info
  /-- Something was left out. -/
  | warning
  | error
  deriving DecidableEq, Repr

namespace LogLevel

/-- The rank of a level. -/
def rank : LogLevel → Nat
  | debug => 0
  | info => 1
  | warning => 2
  | error => 3

/-- The name of a level as it is shown. -/
def name : LogLevel → Text
  | debug => "DEBUG".toList
  | info => "INFO".toList
  | warning => "WARNING".toList
  | error => "ERROR".toList

end LogLevel

/-- One log entry. -/
structure LogEntry where
  level : LogLevel
  /-- The part of the program that wrote the entry, as it is shown. -/
  origin : Text
  message : Text
  deriving DecidableEq, Repr

namespace LogEntry

/-- Whether an entry is a warning or worse. -/
def isWarning (e : LogEntry) : Bool := LogLevel.warning.rank ≤ e.level.rank

/-- The entry without its time. -/
def line (e : LogEntry) : Text :=
  e.level.name ++ [' '] ++ "jsonskel.".toList ++ e.origin ++ [' '] ++ e.message

end LogEntry

/-- What is logged for an event of a generation. A question to the catalog is only logged once it is
answered. -/
def Event.logged? : Event → Option LogEntry
  | asked _ => none
  | resolving base => some
    ⟨.debug, "resolver".toList, "Generating default value for type: ".toList ++ base⟩
  | answered name count => some
    ⟨.debug, "resolver".toList,
      "Catalog lookup for ".toList ++ name ++ ": ".toList ++ ofNat count ++ " match(es)".toList⟩
  | cut name depth path => some
    ⟨.warning, "resolver".toList,
      "Not expanding ".toList ++ name ++ " at depth ".toList ++ ofInt depth ++
        " (resolution path: ".toList ++ join " -> ".toList path ++ ")".toList⟩
  | noFieldList name => some
    ⟨.debug, "core".toList,
      "No field list for ".toList ++ name ++ ", rendering empty object".toList⟩

end RecordSkeleton
