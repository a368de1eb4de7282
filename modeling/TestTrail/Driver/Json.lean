/-
The journal of the scripted driver in JSON.
-/
import TestTrail.Driver
import TestTrail.Json

namespace TestTrail

def JournalEntry.toJson : JournalEntry → Json
  | .command name element args =>
    .obj [("command", .str name), ("element", .ofOption element), ("args", .strings args)]
  | .defaultContent => .str "default_content"
  | .frame name => .obj [("frame", .str name)]

def Driver.journalJson (d : Driver) : Json := .arr (d.journal.map JournalEntry.toJson)

end TestTrail
