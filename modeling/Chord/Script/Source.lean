import Chord.Journal
import Chord.Script.Parse

/-!
# Script texts

**Input.** The text of a script.

**Results.** The notes that scanning and reading a script leave in the journal: one for each
complaint while scanning, and the same again as warnings before the tokens are read.
-/

namespace Chord

/-- The note that scanning leaves about a complaint. -/
def Complaint.note (c : Complaint) : Note :=
  ⟨.debug, "lex error at " ++ toString c.pos.line ++ ":" ++ toString c.pos.column ++ ": "
    ++ c.message⟩

/-- The notes of scanning a script. -/
def scanNotes (source : String) : List Note :=
  (complaints source).map Complaint.note

/-- The notes of scanning and reading a script. -/
def sourceNotes (source : String) : List Note :=
  scanNotes source ++ (complaints source).map fun c => ⟨.warn, c.describe⟩

end Chord
